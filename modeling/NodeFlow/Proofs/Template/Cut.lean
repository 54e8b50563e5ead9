import Mathlib.Data.List.TakeWhile
import NodeFlow.Proofs.Template.Placeholder
/-!
# Texts cut at their placeholders

Which parts a text has, said without a scan. `Begins` says that a placeholder
stands at the beginning of a text; a cut (`IsCut`) is made of placeholders and
single characters, in such a way that none begins at a single character. So
the placeholders of a cut are the leftmost ones and do not overlap, whatever
braces stand around them. A text has one cut, and it is the one that is
computed (`isCut_iff`).
-/

namespace NodeFlow.Template

variable {cs name rest : List Char} {c : Char} {p : Part} {ps : List Part}

/-! ## Placeholders -/

/-- A character of names: an ASCII letter or digit, or the underscore. -/
def NameChar (c : Char) : Prop :=
  ('a' ≤ c ∧ c ≤ 'z') ∨ ('A' ≤ c ∧ c ≤ 'Z') ∨ ('0' ≤ c ∧ c ≤ '9') ∨ c = '_'

/-- A text begins with a placeholder: two opening braces, a name that is not empty, and two closing
braces; the rest follows. -/
def Begins (cs name rest : List Char) : Prop :=
  name ≠ [] ∧ (∀ c ∈ name, NameChar c) ∧ cs = ['\x7b', '\x7b'] ++ name ++ ['\x7d', '\x7d'] ++ rest

theorem isNameChar_iff : isNameChar c ↔ NameChar c := by
  unfold isNameChar NameChar Char.isAlphanum Char.isAlpha Char.isUpper Char.isLower Char.isDigit
  simp only [Bool.or_eq_true, Bool.and_eq_true, decide_eq_true_eq, Char.le_def]
  tauto

/-- A placeholder that is found has a proper name. -/
theorem name_of_token? (h : token? cs = some (name, rest)) :
    name ≠ [] ∧ ∀ c ∈ name, isNameChar c := by
  unfold token? at h
  split at h
  · split at h
    · split at h
      · cases h
      · rename_i hne
        obtain ⟨rfl, rfl⟩ : _ = name ∧ _ = rest := by simpa using h
        exact ⟨by simpa using hne, fun c hc => List.mem_takeWhile_imp hc⟩
    · cases h
  · cases h

/-- **The test for a placeholder** at the beginning of a text. -/
theorem token?_eq_some_iff : token? cs = some (name, rest) ↔ Begins cs name rest := by
  constructor
  · intro h
    obtain ⟨hne, hname⟩ := name_of_token? h
    exact ⟨hne, fun c hc => isNameChar_iff.1 (hname c hc), eq_of_token? h⟩
  · rintro ⟨hne, hname, rfl⟩
    exact token?_append hne (fun c hc => isNameChar_iff.2 (hname c hc)) rest

theorem token?_eq_none_iff : token? cs = none ↔ ∀ name rest, ¬ Begins cs name rest := by
  rw [Option.eq_none_iff_forall_ne_some]
  simp only [Prod.forall, ne_eq, token?_eq_some_iff]

/-- Where no placeholder begins a text, its first character is its first part. -/
theorem parts_of_char (h : token? (c :: cs) = none) : parts (c :: cs) = .char c :: parts cs := by
  rw [parts]
  split
  · rename_i hsome
    cases h.symm.trans hsome
  · rfl

/-! ## Cuts -/

/-- A text in parts: placeholders, and single characters at none of which a placeholder begins. -/
structure IsCut (cs : List Char) (ps : List Part) : Prop where
  /-- Nothing of the text is lost or moved. -/
  whole : ps.flatMap Part.chars = cs
  /-- What is cut out as a placeholder is one. -/
  tokens : ∀ name, .token name ∈ ps → Begins (Part.token name).chars name []
  /-- No placeholder is missed. -/
  leftmost : ∀ before c after, ps = before ++ .char c :: after →
    ∀ name rest, ¬ Begins (c :: after.flatMap Part.chars) name rest

theorem IsCut.tail (h : IsCut cs (p :: ps)) : IsCut (ps.flatMap Part.chars) ps where
  whole := rfl
  tokens name hname := h.tokens name (List.mem_cons_of_mem p hname)
  leftmost before c after hps := h.leftmost (p :: before) c after (by rw [hps, List.cons_append])

/-- A placeholder that begins a text has a proper name, whatever follows. -/
theorem Begins.append (h : Begins cs name []) (rest : List Char) :
    Begins (cs ++ rest) name rest := by
  obtain ⟨hne, hname, rfl⟩ := h
  exact ⟨hne, hname, by simp⟩

theorem Begins.token (h : Begins cs name rest) : Begins (Part.token name).chars name [] :=
  ⟨h.1, h.2.1, (List.append_nil _).symm⟩

/-- The parts that are computed are a cut. -/
theorem isCut_parts (cs : List Char) : IsCut cs (parts cs) := by
  fun_induction parts cs with
  | case1 cs name rest h ih =>
    have hbegins := token?_eq_some_iff.1 h
    constructor
    case whole => rw [List.flatMap_cons, ih.whole, eq_of_token? h]
    case tokens =>
      intro name' hname'
      rcases List.mem_cons.1 hname' with heq | hmem
      · obtain rfl := Part.token.inj heq
        exact hbegins.token
      · exact ih.tokens name' hmem
    case leftmost =>
      intro before c after hps
      -- the first part is no character
      cases before with
      | nil => cases (List.cons.inj hps).1
      | cons q before => exact ih.leftmost before c after (List.cons.inj hps).2
  | case2 h => exact ⟨rfl, by simp, by simp⟩
  | case3 c rest h ih =>
    constructor
    case whole => rw [List.flatMap_cons, ih.whole, Part.chars, List.singleton_append]
    case tokens =>
      intro name hname
      exact ih.tokens name (by simpa using hname)
    case leftmost =>
      intro before c' after hps
      cases before with
      | nil =>
        obtain ⟨hc, rfl⟩ := List.cons.inj hps
        obtain rfl := Part.char.inj hc
        rw [ih.whole]
        exact token?_eq_none_iff.1 h
      | cons q before => exact ih.leftmost before c' after (List.cons.inj hps).2

/-- **A text has one cut.** -/
theorem isCut_iff : IsCut cs ps ↔ ps = parts cs := by
  constructor
  · intro h
    -- part by part; the first one is decided by what the text begins with
    induction ps generalizing cs with
    | nil =>
      obtain rfl : [] = cs := h.whole
      rw [parts]
      rfl
    | cons p ps ih =>
      have hrest := ih h.tail
      have hcs : p.chars ++ ps.flatMap Part.chars = cs := by
        rw [← h.whole, List.flatMap_cons]
      cases p with
      | token name =>
        have hbegins := (h.tokens name List.mem_cons_self).append (ps.flatMap Part.chars)
        rw [hcs, ← token?_eq_some_iff] at hbegins
        rw [parts_of_token? hbegins, ← hrest]
      | char c =>
        have hnone := token?_eq_none_iff.2 (h.leftmost [] c ps rfl)
        rw [← hcs, Part.chars, List.singleton_append, parts_of_char hnone, ← hrest]
  · rintro rfl
    exact isCut_parts cs

end NodeFlow.Template
