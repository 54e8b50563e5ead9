import Mathlib.Data.List.Sort
import Mathlib.Data.String.Basic
import NodeFlow.Proofs.Template.Cut
import NodeFlow.Proofs.Template.Skeleton
/-!
# What filling in a template comes to

What becomes of a text literal is said part by part of its cut: a value is
shown in the place of each placeholder that it is supplied for, and everything
else stays, so no text that a value brings is looked at again (`TextFilled`).
A text that is a placeholder and nothing else becomes the value itself, and so
does the text that stands for an image. `AccountsFor` says what becomes of a
workflow: each of its placeholders is filled in or warned about, and nothing
changes but the text literals. Nothing comes of it exactly where a value that
is to be shown within a longer text has an integer with too many digits.
-/

namespace NodeFlow

namespace Template

variable {values : Fields} {text name : String} {v w : Json} {p : Part}

/-! ## Values for placeholders -/

/-- A value is given for a placeholder: under its name or, where nothing is, under the input it
lands on. -/
def Supplies (values : Fields) (name : String) (v : Json) : Prop :=
  Entries.get? values name = some v ∨
    Entries.get? values name = none ∧
      ∃ input, (name, input) ∈ placeholderInputs ∧ Entries.get? values input = some v

theorem pairOf?_placeholderInputs_eq_some_iff {input : String} :
    pairOf? placeholderInputs name = some input ↔ (name, input) ∈ placeholderInputs := by
  have hdistinct : (placeholderInputs.map Prod.fst).Nodup := by decide +kernel
  rw [pairOf?, Option.map_eq_some_iff]
  constructor
  · rintro ⟨⟨first, second⟩, hfind, rfl⟩
    obtain rfl : first = name := by simpa using List.find?_some hfind
    exact List.mem_of_find?_eq_some hfind
  · intro hmem
    have hsome : (placeholderInputs.find? fun p => p.1 = name).isSome :=
      List.find?_isSome.2 ⟨_, hmem, by simp⟩
    obtain ⟨q, hq⟩ := Option.isSome_iff_exists.1 hsome
    have hname : q.1 = name := by simpa using List.find?_some hq
    have hpair := List.inj_on_of_nodup_map hdistinct (List.mem_of_find?_eq_some hq) hmem hname
    exact ⟨q, hq, by rw [hpair]⟩

theorem valueFor?_eq_some_iff : valueFor? values name = some v ↔ Supplies values name v := by
  rw [valueFor?, Supplies]
  cases Entries.get? values name with
  | some u => simp
  | none => simp [Option.bind_eq_some_iff, pairOf?_placeholderInputs_eq_some_iff]

theorem isSome_valueFor?_iff : (valueFor? values name).isSome ↔ ∃ v, Supplies values name v := by
  simp only [Option.isSome_iff_exists, valueFor?_eq_some_iff]

theorem isNone_valueFor?_iff : (valueFor? values name).isNone ↔ ∀ v, ¬ Supplies values name v := by
  rw [Option.isNone_iff_eq_none, Option.eq_none_iff_forall_ne_some]
  simp only [ne_eq, valueFor?_eq_some_iff]

/-! ## Texts -/

/-- What stands in the place of a part of a text. -/
inductive PartFilled (values : Fields) : Part → String → Prop where
  /-- A character stays. -/
  | char (c : Char) : PartFilled values (.char c) c.toString
  /-- A value is shown in the place of its placeholder, if its integers can be written. -/
  | value {name : List Char} {v : Json} {shown : String}
      (h : Supplies values (String.ofList name) v) (hshown : textOf v = .ok shown) :
      PartFilled values (.token name) shown
  /-- A placeholder without a value stays. -/
  | kept {name : List Char} (h : ∀ v, ¬ Supplies values (String.ofList name) v) :
      PartFilled values (.token name) (String.ofList (Part.token name).chars)

/-- What becomes of a text literal. -/
inductive TextFilled (values : Fields) (text : String) : Json → Prop where
  /-- A placeholder and nothing else becomes its value, whatever its type. -/
  | whole {name : List Char} {v : Json} (hwhole : Begins text.toList name [])
      (hv : Supplies values (String.ofList name) v) : TextFilled values text v
  /-- The text that stands for an image becomes the value for the image. -/
  | image {v : Json} (htext : text = defaultImage) (hv : Supplies values imageName v) :
      TextFilled values text v
  /-- In any other text each part is filled in for itself. -/
  | mixed {ps : List Part} {filled : List String}
      (hwhole : ∀ name v, Begins text.toList name [] → ¬ Supplies values (String.ofList name) v)
      (himage : ∀ v, text = defaultImage → ¬ Supplies values imageName v)
      (hcut : IsCut text.toList ps) (hfilled : List.Forall₂ (PartFilled values) ps filled) :
      TextFilled values text (.str (String.join filled))

theorem partFilled_iff {filled : String} :
    PartFilled values p filled ↔ fillPart values p = .ok filled := by
  constructor
  · rintro (c | ⟨hv, hshown⟩ | hnone)
    · rfl
    · rw [fillPart, valueFor?_eq_some_iff.2 hv]
      exact hshown
    · rw [fillPart, Option.isNone_iff_eq_none.1 (isNone_valueFor?_iff.2 hnone)]
  · intro h
    cases p with
    | char c =>
      obtain rfl := Except.ok.inj h
      exact .char c
    | token name =>
      rw [fillPart] at h
      cases hv : valueFor? values (String.ofList name) with
      | some v =>
        rw [hv] at h
        exact .value (valueFor?_eq_some_iff.1 hv) h
      | none =>
        rw [hv] at h
        obtain rfl := Except.ok.inj h
        exact .kept (isNone_valueFor?_iff.1 (Option.isNone_iff_eq_none.2 hv))

theorem forall₂_partFilled_iff {ps : List Part} {filled : List String} :
    List.Forall₂ (PartFilled values) ps filled ↔ ps.mapM (fillPart values) = .ok filled := by
  have hrel : PartFilled values = fun p filled => fillPart values p = .ok filled := by
    funext p filled
    exact propext partFilled_iff
  rw [hrel, mapM_eq_ok_iff]

/-- A text is a placeholder and nothing else where this is its only part. -/
theorem begins_nil_iff {name : List Char} :
    Begins text.toList name [] ↔ parts text.toList = [.token name] := by
  constructor
  · intro h
    have hend : parts [] = [] := by
      rw [parts]
      rfl
    rw [parts_of_token? (token?_eq_some_iff.2 h), hend]
  · intro h
    have hcut := isCut_parts text.toList
    rw [h] at hcut
    have hwhole : (Part.token name).chars = text.toList := by simpa using hcut.whole
    rw [← hwhole]
    exact hcut.tokens name (List.mem_singleton_self _)

theorem fillText_of_whole {name : List Char} (hwhole : Begins text.toList name [])
    (hv : Supplies values (String.ofList name) v) : fillText values text = .ok v := by
  rw [fillText, begins_nil_iff.1 hwhole]
  dsimp only
  rw [valueFor?_eq_some_iff.2 hv]
  rfl

theorem fillText_of_not_whole
    (h : ∀ name v, Begins text.toList name [] → ¬ Supplies values (String.ofList name) v) :
    fillText values text =
      ((parts text.toList).mapM (fillPart values)).map fun texts => .str (String.join texts) := by
  rw [fillText]
  split
  · rename_i name hparts
    -- a placeholder without a value stays, and so does the text
    have hwhole := begins_nil_iff.2 hparts
    have hnone : valueFor? values (String.ofList name) = none :=
      Option.isNone_iff_eq_none.1 (isNone_valueFor?_iff.2 fun v => h name v hwhole)
    have hkept : fillPart values (.token name) = .ok (String.ofList (Part.token name).chars) := by
      rw [fillPart, hnone]
    have htext : String.ofList (Part.token name).chars = text := by
      rw [← String.ofList_toList (s := text), hwhole.2.2, List.append_nil]
      rfl
    rw [hnone, hparts, List.mapM_cons, hkept, htext]
    simp [String.join, bind, Except.bind, pure, Except.pure, Except.map]
  · rfl

/-- A text becomes what its placeholders make of it. -/
theorem textFilled_of_fillText (himage : ∀ v, text = defaultImage → ¬ Supplies values imageName v)
    (h : fillText values text = .ok w) : TextFilled values text w := by
  by_cases hwhole : ∃ name v, Begins text.toList name [] ∧ Supplies values (String.ofList name) v
  · obtain ⟨name, v, hbegins, hv⟩ := hwhole
    rw [fillText_of_whole hbegins hv] at h
    obtain rfl := Except.ok.inj h
    exact .whole hbegins hv
  · have hnot : ∀ name v, Begins text.toList name [] → ¬ Supplies values (String.ofList name) v :=
      fun name v hbegins hv => hwhole ⟨name, v, hbegins, hv⟩
    rw [fillText_of_not_whole hnot] at h
    obtain ⟨filled, hfilled, rfl⟩ := exists_of_map_eq_ok h
    exact .mixed hnot himage (isCut_parts _) (forall₂_partFilled_iff.2 hfilled)

/-- A text literal stays a literal. -/
theorem fillInput_text (values : Fields) (text : String) :
    fillInput values (.literal (.str text)) =
      (if isFilledImage values text then
        .ok ((valueFor? values imageName).getD (.str text))
      else fillText values text).map .literal := by
  rw [fillInput, isFilledImage]
  cases valueFor? values imageName with
  | none => simp
  | some image => by_cases htext : text = defaultImage <;> simp [htext, Except.map]

theorem isFilledImage_iff :
    isFilledImage values text ↔ text = defaultImage ∧ ∃ v, Supplies values imageName v := by
  rw [isFilledImage, Bool.and_eq_true, decide_eq_true_eq, isSome_valueFor?_iff]

/-- **What becomes of a text literal** is what is computed. -/
theorem textFilled_iff :
    TextFilled values text w ↔ fillInput values (.literal (.str text)) = .ok (.literal w) := by
  have hliteral : ∀ x : Except Fault Json, x.map InputValue.literal = .ok (.literal w) ↔
      x = .ok w := by
    intro x
    cases x <;> simp [Except.map]
  rw [fillInput_text, hliteral]
  constructor
  · rintro (⟨hwhole, hv⟩ | ⟨rfl, hv⟩ | ⟨hwhole, himage, hcut, hfilled⟩)
    · -- the text that stands for an image is no placeholder
      have hno : ¬ isFilledImage values text := by
        rw [isFilledImage_iff]
        rintro ⟨rfl, -⟩
        exact absurd hwhole.2.2 (by simp [defaultImage])
      rw [if_neg hno, fillText_of_whole hwhole hv]
    · rw [if_pos (isFilledImage_iff.2 ⟨rfl, w, hv⟩), valueFor?_eq_some_iff.2 hv]
      rfl
    · have hno : ¬ isFilledImage values text := by
        rw [isFilledImage_iff]
        rintro ⟨htext, v, hv⟩
        exact himage v htext hv
      rw [isCut_iff] at hcut
      rw [forall₂_partFilled_iff, hcut] at hfilled
      rw [if_neg hno, fillText_of_not_whole hwhole, hfilled]
      rfl
  · intro h
    split at h
    · rename_i himage
      obtain ⟨htext, v, hv⟩ := isFilledImage_iff.1 himage
      rw [valueFor?_eq_some_iff.2 hv] at h
      obtain rfl := Except.ok.inj h
      exact .image htext hv
    · rename_i hno
      rw [isFilledImage_iff] at hno
      exact textFilled_of_fillText (fun v htext hv => hno ⟨htext, v, hv⟩) h

/-- A value that makes a placeholder with the braces around it is not filled in again. -/
example :
    (fillText [("a", .str "\x7bb\x7d"), ("b", .int 1)] "\x7b\x7b\x7ba\x7d\x7d\x7d").toOption =
      some (.str "\x7b\x7bb\x7d\x7d") := by
  decide +kernel

/-! ## Lists of names -/

theorem nodup_eraseDups (names : List String) : names.eraseDups.Nodup := by
  induction hlength : names.length using Nat.strong_induction_on generalizing names with
  | _ length ih =>
    cases names with
    | nil => exact List.nodup_nil
    | cons name rest =>
      rw [List.eraseDups_cons, List.nodup_cons, List.mem_eraseDups]
      refine ⟨by simp, ih _ ?_ _ rfl⟩
      rw [← hlength, List.length_cons]
      exact Nat.lt_succ_of_le (List.length_filter_le _ _)

/-- Sorted names stand in the order of their characters, and none stands twice. -/
theorem sorted_pairwise (names : List String) : (sorted names).Pairwise (· < ·) := by
  have hle : (sorted names).Pairwise (· ≤ ·) := List.pairwise_mergeSort' _ _
  have hne : (sorted names).Nodup :=
    (List.mergeSort_perm _ _).nodup_iff.2 (nodup_eraseDups names)
  exact (hle.and hne).imp fun h => lt_of_le_of_ne h.1 h.2

/-- Names are sorted in one way. -/
theorem sorted_congr {names names' : List String} (h : ∀ name, name ∈ names ↔ name ∈ names') :
    sorted names = sorted names' := by
  have hperm : (sorted names).Perm (sorted names') := by
    refine (List.perm_ext_iff_of_nodup ?_ ?_).2 fun name => ?_
    · exact (sorted_pairwise names).imp ne_of_lt
    · exact (sorted_pairwise names').imp ne_of_lt
    · rw [mem_sorted_iff, mem_sorted_iff, h]
  exact hperm.eq_of_pairwise' (sorted_pairwise names) (sorted_pairwise names')

theorem mem_tokens_iff : name ∈ tokens text ↔ .token name.toList ∈ parts text.toList := by
  rw [tokens, List.mem_filterMap]
  constructor
  · rintro ⟨p, hp, hname⟩
    cases p with
    | char c => cases hname
    | token cs =>
      obtain rfl := Option.some.inj hname
      rwa [String.toList_ofList]
  · intro h
    exact ⟨_, h, by simp⟩

/-- **A text stays** where no value is supplied for a placeholder in it. -/
theorem fillText_of_unsupplied (h : ∀ name ∈ tokens text, ∀ v, ¬ Supplies values name v) :
    fillText values text = .ok (.str text) := by
  have hkept : List.Forall₂ (fun p filled => fillPart values p = .ok filled) (parts text.toList)
      ((parts text.toList).map fun p => String.ofList p.chars) := by
    rw [List.forall₂_map_right_iff, List.forall₂_same]
    intro p hp
    cases p with
    | char c => rfl
    | token name =>
      have hname : String.ofList name ∈ tokens text := mem_tokens_iff.2 (by simpa using hp)
      rw [fillPart, Option.isNone_iff_eq_none.1 (isNone_valueFor?_iff.2 (h _ hname))]
  have hjoin : String.join ((parts text.toList).map fun p => String.ofList p.chars) = text := by
    rw [← String.toList_inj, String.toList_join, List.flatMap_map]
    simp only [String.toList_ofList, chars_parts]
  rw [fillText_of_not_whole, mapM_eq_ok_iff.2 hkept, Except.map, hjoin]
  intro name v hwhole
  refine h (String.ofList name) (mem_tokens_iff.2 ?_) v
  rw [begins_nil_iff.1 hwhole]
  simp

/-! ## Values that cannot be shown -/

theorem isPartShown_eq_false_iff : isPartShown values p = false ↔
    ∃ name v, p = .token name ∧ Supplies values (String.ofList name) v ∧ v.isWritable = false := by
  cases p with
  | char c => simp [isPartShown]
  | token name =>
    rw [isPartShown]
    constructor
    · intro h
      cases hv : valueFor? values (String.ofList name) with
      | none => simp [hv] at h
      | some v => exact ⟨name, v, rfl, valueFor?_eq_some_iff.1 hv, by simpa [hv] using h⟩
    · rintro ⟨_, v, hname, hv, hlong⟩
      obtain rfl := Part.token.inj hname
      rw [valueFor?_eq_some_iff.2 hv]
      exact hlong

/-- A value cannot be shown in a text if it stands for one of several parts. -/
theorem isTextShown_eq_false_iff : isTextShown values text = false ↔
    ∃ ps name v, IsCut text.toList ps ∧ .token name ∈ ps ∧ ps ≠ [.token name] ∧
      Supplies values (String.ofList name) v ∧ v.isWritable = false := by
  have hall (ps : List Part) : ps.all (isPartShown values) = false ↔ ∃ name v, .token name ∈ ps ∧
      Supplies values (String.ofList name) v ∧ v.isWritable = false := by
    rw [List.all_eq_false]
    constructor
    · rintro ⟨p, hp, hshown⟩
      obtain ⟨name, v, rfl, hv, hlong⟩ := isPartShown_eq_false_iff.1 (by simpa using hshown)
      exact ⟨name, v, hp, hv, hlong⟩
    · rintro ⟨name, v, hp, hv, hlong⟩
      exact ⟨_, hp, by simpa using isPartShown_eq_false_iff.2 ⟨name, v, rfl, hv, hlong⟩⟩
  rw [isTextShown]
  constructor
  · intro h
    split at h
    · cases h
    · rename_i hmany
      obtain ⟨name, v, hp, hv⟩ := (hall _).1 h
      exact ⟨_, name, v, isCut_parts _, hp, hmany name, hv⟩
  · rintro ⟨ps, name, v, hcut, hp, hmany, hv⟩
    obtain rfl := isCut_iff.1 hcut
    split
    · rename_i whole hwhole
      rw [hwhole, List.mem_singleton] at hp
      exact absurd (by rw [hwhole, hp]) hmany
    · exact (hall _).2 ⟨name, v, hp, hv⟩

/-- The text that stands for an image has no placeholders, so that it is filled in shows nothing. -/
theorem isInputShown_text (values : Fields) (text : String) :
    isInputShown values (.literal (.str text)) = isTextShown values text := by
  rw [isInputShown]
  by_cases himage : isFilledImage values text = true
  · obtain ⟨rfl, -⟩ := isFilledImage_iff.1 himage
    have hnone : tokens defaultImage = [] := by decide +kernel
    have hshown : isTextShown values defaultImage = true := by
      rw [← Bool.not_eq_false, isTextShown_eq_false_iff]
      rintro ⟨ps, name, v, hcut, hp, -⟩
      obtain rfl := isCut_iff.1 hcut
      have hname : String.ofList name ∈ tokens defaultImage := mem_tokens_iff.2 (by simpa using hp)
      simp [hnone] at hname
    rw [hshown, Bool.or_true]
  · rw [Bool.not_eq_true] at himage
    rw [himage, Bool.false_or]

end Template

namespace Graph

open Template

variable {g h : Graph} {values : Fields} {id input : String}

/-! ## Workflows -/

/-- What has become of a workflow. -/
structure FilledIn (g : Graph) (values : Fields) (h : Graph) : Prop where
  /-- A text literal becomes what its text and the values make of it. -/
  texts : ∀ id input text, g.inputAt? id input = some (.literal (.str text)) →
    ∀ v, h.inputAt? id input = some v ↔ ∃ w, v = .literal w ∧ TextFilled values text w
  /-- Every other input is there if it was, and holds what it held. -/
  others : ∀ id input, (∀ text, g.inputAt? id input ≠ some (.literal (.str text))) →
    h.inputAt? id input = g.inputAt? id input
  /-- Of a node only what its inputs hold may have changed. -/
  nodes : ∀ id n, g.node? id = some n → ∃ m, h.node? id = some m ∧
    m = { n with inputs := m.inputs } ∧ m.inputs.keys = n.inputs.keys
  /-- The nodes stand in their order. -/
  keys : h.nodes.keys = g.nodes.keys
  /-- The rest of the workflow stays. -/
  rest : { h with nodes := g.nodes } = g

/-- A value has to be shown within a longer text, and an integer in it has too many digits. -/
def ShowsLong (g : Graph) (values : Fields) : Prop :=
  ∃ id input text ps name v, g.inputAt? id input = some (.literal (.str text)) ∧
    IsCut text.toList ps ∧ .token name ∈ ps ∧ ps ≠ [.token name] ∧
    Supplies values (String.ofList name) v ∧ v.isWritable = false

/-- What filling in a template comes to. -/
structure AccountsFor (g : Graph) (values : Fields) : Prop where
  /-- The placeholders are those that text literals are cut at. -/
  placeholders : ∀ name, name ∈ g.placeholders ↔ ∃ id input text ps,
    g.inputAt? id input = some (.literal (.str text)) ∧ IsCut text.toList ps ∧
      .token name.toList ∈ ps
  /-- Filled in are those that a value is supplied for, and the image if a text that stands for it
  is there. -/
  filled : ∀ name, name ∈ g.filledNames values ↔ (∃ v, Supplies values name v) ∧
    (name ∈ g.placeholders ∨
      name = imageName ∧ ∃ id input, g.inputAt? id input = some (.literal (.str defaultImage)))
  /-- The others are left. -/
  unresolved : ∀ name, name ∈ g.unresolvedNames values ↔
    name ∈ g.placeholders ∧ ∀ v, ¬ Supplies values name v
  /-- No name is both filled in and left. -/
  disjoint : List.Disjoint (g.filledNames values) (g.unresolvedNames values)
  /-- All names are one or the other. -/
  union : ∀ name, (name ∈ g.filledNames values ∨ name ∈ g.unresolvedNames values) ↔
    (name ∈ g.placeholders ∨ name = imageName ∧ (∃ v, Supplies values name v) ∧
      ∃ id input, g.inputAt? id input = some (.literal (.str defaultImage)))
  /-- There is one warning for each name that is left, in the order of the names. -/
  warnings : (g.unresolvedNames values).Pairwise (· < ·) ∧
    g.fillWarnings values = (g.unresolvedNames values).map fun name =>
      "No value supplied for placeholder \x7b\x7b" ++ name ++ "\x7d\x7d"
  /-- There is a result unless a value that has to be shown is too long. -/
  returns : (∃ h, g.fill values = .ok h) ↔ ¬ g.ShowsLong values
  /-- Otherwise that is the failure. -/
  fails : ∀ e, g.fill values = .error e ↔ e = .badValue .unwritableInteger ∧ g.ShowsLong values
  /-- Nothing changes but the text literals. -/
  result : ∀ h, g.fill values = .ok h → g.FilledIn values h

theorem inputAt?_filledWith (g : Graph) (values : Fields) (id input : String) :
    (g.filledWith values).inputAt? id input = (g.inputAt? id input).map (inputWith values) := by
  rw [inputAt?, inputAt?, filledWith, node?_mapNodes]
  cases g.node? id with
  | none => rfl
  | some n => exact Dict.get?_map _ _ _

theorem isFillable_iff : g.isFillable values ↔
    ∀ id input v, g.inputAt? id input = some v → isInputShown values v := by
  simp only [isFillable, isNodeShown, List.all_eq_true]
  constructor
  · intro h id input v hv
    obtain ⟨n, hn, hv⟩ := Option.bind_eq_some_iff.1 hv
    exact h (id, n) (Dict.get?_eq_some_iff.1 hn) (input, v) (Dict.get?_eq_some_iff.1 hv)
  · intro h e he i hi
    refine h e.1 i.1 i.2 ?_
    rw [inputAt?, node?, Dict.get?_eq_some_iff.2 he]
    exact Dict.get?_eq_some_iff.2 hi

theorem isFillable_eq_false_iff : g.isFillable values = false ↔ g.ShowsLong values := by
  rw [← Bool.not_eq_true, isFillable_iff]
  constructor
  · intro h
    push Not at h
    obtain ⟨id, input, v, hv, hlong⟩ := h
    cases v with
    | literal w =>
      cases w with
      | str text =>
        rw [isInputShown_text] at hlong
        obtain ⟨ps, name, w, hw⟩ := isTextShown_eq_false_iff.1 (Bool.eq_false_iff.2 hlong)
        exact ⟨id, input, text, ps, name, w, hv, hw⟩
      | _ => exact absurd rfl hlong
    | _ => exact absurd rfl hlong
  · rintro ⟨id, input, text, ps, name, w, hv, hw⟩ h
    have hshown := h id input _ hv
    rw [isInputShown_text, ← Bool.not_eq_false, isTextShown_eq_false_iff] at hshown
    exact hshown ⟨ps, name, w, hw⟩

theorem mem_placeholders_iff_tokens {name : String} :
    name ∈ g.placeholders ↔ name ∈ (textLiterals g).flatMap tokens :=
  mem_sorted_iff

theorem mem_filledNames_iff {name : String} :
    name ∈ g.filledNames values ↔ (∃ v, Supplies values name v) ∧
      (name ∈ g.placeholders ∨ name = imageName ∧ defaultImage ∈ textLiterals g) := by
  have himage : (textLiterals g).any (isFilledImage values) ↔
      defaultImage ∈ textLiterals g ∧ ∃ v, Supplies values imageName v := by
    simp only [List.any_eq_true, isFilledImage, Bool.and_eq_true, decide_eq_true_eq,
      isSome_valueFor?_iff]
    constructor
    · rintro ⟨text, htext, rfl, hv⟩
      exact ⟨htext, hv⟩
    · rintro ⟨htext, hv⟩
      exact ⟨_, htext, rfl, hv⟩
  rw [filledNames, mem_sorted_iff, List.mem_append, List.mem_filter, isSome_valueFor?_iff,
    ← mem_placeholders_iff_tokens]
  constructor
  · rintro (⟨hname, hv⟩ | hname)
    · exact ⟨hv, Or.inl hname⟩
    · split at hname
      · rename_i hany
        obtain ⟨htext, hv⟩ := himage.1 hany
        obtain rfl := List.mem_singleton.1 hname
        exact ⟨hv, Or.inr ⟨rfl, htext⟩⟩
      · cases hname
  · rintro ⟨hv, hname | ⟨rfl, htext⟩⟩
    · exact Or.inl ⟨hname, hv⟩
    · rw [if_pos (himage.2 ⟨htext, hv⟩)]
      exact Or.inr (List.mem_singleton_self _)

theorem mem_unresolvedNames_iff {name : String} :
    name ∈ g.unresolvedNames values ↔ name ∈ g.placeholders ∧ ∀ v, ¬ Supplies values name v := by
  rw [unresolvedNames, mem_sorted_iff, List.mem_filter, isNone_valueFor?_iff,
    ← mem_placeholders_iff_tokens]

/-- An input that holds no text is not touched. -/
theorem fillInput_of_not_text {v : InputValue} (h : ∀ text, v ≠ .literal (.str text)) :
    fillInput values v = .ok v := by
  rw [fillInput]
  exact h

/-- Each input of a workflow that was filled in was filled in by itself. -/
theorem fillInput_of_fill {v : InputValue} (hrun : g.fill values = .ok h)
    (hv : g.inputAt? id input = some v) :
    ∃ w, fillInput values v = .ok w ∧ h.inputAt? id input = some w := by
  rw [fill_eq] at hrun
  obtain ⟨hfillable, rfl⟩ := withinLimit_eq_ok_iff.1 hrun
  refine ⟨inputWith values v, ?_, by rw [inputAt?_filledWith, hv, Option.map_some]⟩
  rw [fillInput_eq, isFillable_iff.1 hfillable id input v hv, withinLimit_true]

theorem filledIn_of_fill (hrun : g.fill values = .ok h) : g.FilledIn values h where
  texts id input text htext v := by
    obtain ⟨w, hw, hinput⟩ := fillInput_of_fill hrun htext
    have hliteral : ∃ u, w = .literal u := by
      rw [fillInput_text] at hw
      obtain ⟨u, -, rfl⟩ := exists_of_map_eq_ok hw
      exact ⟨u, rfl⟩
    obtain ⟨u, rfl⟩ := hliteral
    rw [hinput]
    constructor
    · intro h
      exact ⟨u, (Option.some.inj h).symm, textFilled_iff.2 hw⟩
    · rintro ⟨u', rfl, hu'⟩
      rw [← Except.ok.inj (hw.symm.trans (textFilled_iff.1 hu'))]
  others id input hother := by
    cases hv : g.inputAt? id input with
    | none =>
      rw [← filledWith_of_fill hrun, inputAt?_filledWith, hv]
      rfl
    | some v =>
      obtain ⟨w, hw, hinput⟩ := fillInput_of_fill hrun hv
      rw [fillInput_of_not_text fun text heq => hother text (by rw [hv, heq])] at hw
      rw [hinput, Except.ok.inj hw]
  nodes id n hn := by
    rw [← filledWith_of_fill hrun]
    refine ⟨_, by rw [filledWith, node?_mapNodes, hn, Option.map_some], rfl, ?_⟩
    exact Dict.keys_map _ _
  keys := by
    rw [← filledWith_of_fill hrun]
    exact Dict.keys_map _ _
  rest := by
    rw [← filledWith_of_fill hrun]
    rfl

/-- **Filling in a template accounts for every placeholder and looks at no text twice**, whatever
braces the texts and the values have; it fails only where a value that has to be shown within a text
is too long. -/
theorem accountsFor_fill (g : Graph) (values : Fields) : g.AccountsFor values where
  placeholders name := by
    rw [mem_placeholders_iff]
    simp only [mem_tokens_iff, isCut_iff, exists_and_left, exists_eq_left]
  filled name := by
    rw [mem_filledNames_iff, mem_textLiterals_iff]
  unresolved _ := mem_unresolvedNames_iff
  disjoint name hfilled hleft := by
    obtain ⟨⟨v, hv⟩, -⟩ := mem_filledNames_iff.1 hfilled
    exact (mem_unresolvedNames_iff.1 hleft).2 v hv
  union name := by
    rw [mem_filledNames_iff, mem_unresolvedNames_iff, mem_textLiterals_iff]
    constructor
    · rintro (⟨hv, hname | ⟨hname, htext⟩⟩ | ⟨hname, -⟩)
      · exact Or.inl hname
      · exact Or.inr ⟨hname, hv, htext⟩
      · exact Or.inl hname
    · rintro (hname | ⟨hname, hv, htext⟩)
      · by_cases hv : ∃ v, Supplies values name v
        · exact Or.inl ⟨hv, Or.inl hname⟩
        · exact Or.inr ⟨hname, not_exists.1 hv⟩
      · exact Or.inl ⟨hv, Or.inr ⟨hname, htext⟩⟩
  warnings := ⟨sorted_pairwise _, rfl⟩
  returns := by
    rw [fill_eq, ← isFillable_eq_false_iff, Bool.not_eq_false]
    simp [withinLimit_eq_ok_iff]
  fails e := by
    rw [fill_eq, withinLimit_eq_error_iff, isFillable_eq_false_iff, and_comm]
  result _ := filledIn_of_fill

end Graph

end NodeFlow
