import Mathlib.Data.Bool.AllAny
import NodeFlow.Proofs.Json.Strings
import NodeFlow.Proofs.Numeral.Decimal
/-!
# Numbers and words read back

The reader takes a number or a word as far as it goes, so what it makes of
one depends on the text behind it. `Ends` says that the text behind does not
go on with it: then the number or word is read as it is by itself. Integers
are read back as they were written, unless they have too many digits.
-/

namespace NodeFlow.Json

/-- The characters that may stand behind a value. -/
def closers : List Char := [',', ']', '\x7d', ' ', '\t', '\n', '\r']

/-- The text behind a value, if there is one, starts with a character that may stand there. -/
def Ends (rest : List Char) : Prop := ∀ c ∈ rest.head?, c ∈ closers

theorem ends_nil : Ends [] := nofun

theorem ends_cons {c : Char} {cs : List Char} (h : c ∈ closers) : Ends (c :: cs) := by
  simpa [Ends] using h

theorem isAsciiDigit_of_mem_closers : ∀ c ∈ closers, Numeral.isAsciiDigit c = false :=
  List.all_iff_forall_prop.1 (by decide)

/-! ## Pieces of a number -/

variable {cs rest : List Char}

theorem digitRun_append (hrest : Ends rest) (cs : List Char) :
    digitRun (cs ++ rest) = ((digitRun cs).1, (digitRun cs).2 ++ rest) := by
  induction cs with
  | nil =>
    cases rest with
    | nil => rfl
    | cons c rest =>
      have hc : Numeral.isAsciiDigit c = false := isAsciiDigit_of_mem_closers c (hrest c rfl)
      simp [digitRun, hc]
  | cons c cs ih =>
    simp only [digitRun, Prod.mk.injEq] at ih
    by_cases hc : Numeral.isAsciiDigit c
    · simp [digitRun, hc, ih.1, ih.2]
    · simp [digitRun, hc]

theorem fractionPart_append (hrest : Ends rest) (cs : List Char) :
    fractionPart (cs ++ rest) = ((fractionPart cs).1, (fractionPart cs).2 ++ rest) := by
  match cs with
  | [] =>
    cases rest with
    | nil => rfl
    | cons c rest =>
      have hc : c ≠ '.' := ne_of_mem_of_not_mem (hrest c rfl) (by decide)
      simp [fractionPart, hc]
  | [c] =>
    by_cases hc : c = '.'
    · subst hc
      cases rest with
      | nil => rfl
      | cons d rest =>
        have hd : Numeral.isAsciiDigit d = false := isAsciiDigit_of_mem_closers d (hrest d rfl)
        simp [fractionPart, hd]
    · simp [fractionPart, hc]
  | c :: d :: more =>
    by_cases hc : c = '.'
    · subst hc
      by_cases hd : Numeral.isAsciiDigit d
      · have hrun := digitRun_append hrest (d :: more)
        simp only [List.cons_append] at hrun
        simp [fractionPart, hd, hrun]
      · simp [fractionPart, hd]
    · simp [fractionPart, hc]

theorem splitSign_append (hrest : Ends rest) (cs : List Char) :
    Numeral.splitSign (cs ++ rest) =
      ((Numeral.splitSign cs).1, (Numeral.splitSign cs).2 ++ rest) := by
  cases cs with
  | nil =>
    cases rest with
    | nil => rfl
    | cons c rest =>
      have hminus : c ≠ '-' := ne_of_mem_of_not_mem (hrest c rfl) (by decide)
      have hplus : c ≠ '+' := ne_of_mem_of_not_mem (hrest c rfl) (by decide)
      simp [Numeral.splitSign, hminus, hplus]
  | cons c cs =>
    by_cases hminus : c = '-'
    · subst hminus
      rfl
    by_cases hplus : c = '+'
    · subst hplus
      rfl
    simp [Numeral.splitSign, hminus, hplus]

theorem exponentPart_append (hrest : Ends rest) (cs : List Char) :
    exponentPart (cs ++ rest) = ((exponentPart cs).1, (exponentPart cs).2 ++ rest) := by
  cases cs with
  | nil =>
    cases rest with
    | nil => rfl
    | cons c rest =>
      have hlower : c ≠ 'e' := ne_of_mem_of_not_mem (hrest c rfl) (by decide)
      have hupper : c ≠ 'E' := ne_of_mem_of_not_mem (hrest c rfl) (by decide)
      simp [exponentPart, hlower, hupper]
  | cons c cs =>
    simp only [List.cons_append, exponentPart, splitSign_append hrest, digitRun_append hrest]
    split
    · split <;> rfl
    · rfl

theorem integerPart?_append (hrest : Ends rest) (cs : List Char) :
    integerPart? (cs ++ rest) = (integerPart? cs).map fun w => (w.1, w.2 ++ rest) := by
  cases cs with
  | nil =>
    cases rest with
    | nil => rfl
    | cons c rest =>
      have hdigit : Numeral.isAsciiDigit c = false := isAsciiDigit_of_mem_closers c (hrest c rfl)
      have hzero : c ≠ '0' := ne_of_mem_of_not_mem (hrest c rfl) (by decide)
      have hrun : ¬ ('1' ≤ c ∧ c ≤ '9') := by
        rintro ⟨hlo, hhi⟩
        have hlo' : '0' ≤ c := Char.le_trans (by decide) hlo
        simp [Numeral.isAsciiDigit, hlo', hhi] at hdigit
      simp [integerPart?, hrun]
  | cons c cs =>
    by_cases hzero : c = '0'
    · subst hzero
      rfl
    · have hrun := digitRun_append hrest (c :: cs)
      simp only [List.cons_append] at hrun
      by_cases hc : '1' ≤ c ∧ c ≤ '9'
      · simp [integerPart?, hc, hrun]
      · simp [integerPart?, hc]

theorem numberText?_append (hrest : Ends rest) (cs : List Char) :
    numberText? (cs ++ rest) = (numberText? cs).map fun n => (n.1, n.2 ++ rest) := by
  rw [numberText?, integerPart?_append hrest, numberText?]
  cases integerPart? cs with
  | none => rfl
  | some w => simp [fractionPart_append hrest, exponentPart_append hrest]

theorem dropMinus_append (hrest : Ends rest) (cs : List Char) :
    dropMinus (cs ++ rest) = dropMinus cs ++ rest := by
  cases cs with
  | nil =>
    cases rest with
    | nil => rfl
    | cons c rest =>
      have hminus : c ≠ '-' := ne_of_mem_of_not_mem (hrest c rfl) (by decide)
      simp [dropMinus, hminus]
  | cons c cs =>
    by_cases hminus : c = '-'
    · subst hminus
      rfl
    · simp [dropMinus, hminus]

/-! ## Words -/

theorem isPrefixOf_append_of_ends (hrest : Ends rest) {word : List Char}
    (hword : ∀ c ∈ word, c ∉ closers) (cs : List Char) :
    word.isPrefixOf (cs ++ rest) = word.isPrefixOf cs := by
  induction word generalizing cs with
  | nil => simp
  | cons w word ih =>
    cases cs with
    | nil =>
      cases rest with
      | nil => rfl
      | cons c rest =>
        have hc : c ≠ w := ne_of_mem_of_not_mem (hrest c rfl) (hword w (by simp))
        simp [List.isPrefixOf, Ne.symm hc]
    | cons c cs =>
      simp [List.isPrefixOf, ih (fun c hc => hword c (List.mem_cons_of_mem _ hc))]

theorem word?_append (hrest : Ends rest) (cs : List Char) : word? (cs ++ rest) = word? cs := by
  have hwords : ∀ w ∈ words, ∀ c ∈ w.1, c ∉ closers := by
    simp only [← List.all_iff_forall_prop]
    decide
  rw [word?, word?, ← List.head?_filter, ← List.head?_filter]
  congr 1
  exact List.filter_congr fun w hw => isPrefixOf_append_of_ends hrest (hwords w hw) cs

theorem prefix_of_word? {w : List Char × Json} (h : word? cs = some w) : w.1 <+: cs := by
  simpa using List.find?_some h

/-! ## Scalars -/

variable {v : Json}

theorem number_yields_iff {text : List Char} :
    Yields (number text) v rest ↔
      ∃ n, numberText? (dropMinus text) = some (n, rest) ∧ n.isTooLong = false ∧
        n.value (text.head? = some '-') = v := by
  constructor
  · rintro ⟨_, h⟩
    unfold number at h
    split at h
    next => cases h
    next n more hn =>
      split at h
      next => cases h
      next hlong =>
        cases h
        exact ⟨n, hn, by simpa using hlong, rfl⟩
  · rintro ⟨n, hn, hlong, rfl⟩
    have hshort := length_of_numberText? hn
    have hminus := length_dropMinus_le text
    refine ⟨by omega, ?_⟩
    unfold number
    split
    next h => simp [hn] at h
    next m more h =>
      obtain ⟨rfl, rfl⟩ : n = m ∧ rest = more := by simpa [hn] using h
      simp [hlong]

/-- A word, or a number with a property, is at the front of a text, with the value that it stands
for and the text behind it. -/
def Scans (p : NumberText → Prop) (text : List Char) (v : Json) (rest : List Char) : Prop :=
  (∃ w, word? text = some w ∧ w.2 = v ∧ text.drop w.1.length = rest) ∨
    (word? text = none ∧ ∃ n, numberText? (dropMinus text) = some (n, rest) ∧ p n ∧
      n.value (text.head? = some '-') = v)

/-- What is read is what is scanned, unless it is a number with too many digits. -/
theorem scalar_yields_iff {text : List Char} :
    Yields (scalar text) v rest ↔ Scans (fun n => n.isTooLong = false) text v rest := by
  rw [Scans, ← number_yields_iff]
  constructor
  · rintro ⟨hshort, h⟩
    unfold scalar at h
    split at h
    next w hw =>
      cases h
      exact .inl ⟨w, hw, rfl, rfl⟩
    next hw => exact .inr ⟨hw, hshort, h⟩
  · rintro (⟨w, hw, rfl, rfl⟩ | ⟨hw, hshort, h⟩)
    · refine ⟨length_of_word? hw, ?_⟩
      unfold scalar
      split
      next w' hw' =>
        obtain rfl : w = w' := by simpa [hw] using hw'
        rfl
      next hw' => simp [hw] at hw'
    · refine ⟨hshort, ?_⟩
      unfold scalar
      split
      next w' hw' => simp [hw] at hw'
      next => exact h

variable {p : NumberText → Prop}

/-- What is scanned by itself is scanned in front of a text that does not go on with it. -/
theorem Scans.append (hrest : Ends rest) (h : Scans p cs v []) : Scans p (cs ++ rest) v rest := by
  rw [Scans, word?_append hrest]
  rcases h with ⟨w, hw, hv, hdrop⟩ | ⟨hw, n, hn, hp, hv⟩
  · refine .inl ⟨w, hw, hv, ?_⟩
    rw [List.drop_append_of_le_length, hdrop, List.nil_append]
    exact (prefix_of_word? hw).length_le
  · refine .inr ⟨hw, n, ?_, hp, ?_⟩
    · rw [dropMinus_append hrest, numberText?_append hrest, hn, Option.map_some, List.nil_append]
    · cases cs with
      | nil => cases hn
      | cons c cs => exact hv

/-- **A scalar is read as it is by itself**, in front of a text that does not go on with it. -/
theorem scalar_append (hrest : Ends rest) (h : Yields (scalar cs) v []) :
    Yields (scalar (cs ++ rest)) v rest :=
  scalar_yields_iff.2 ((scalar_yields_iff.1 h).append hrest)

/-! ## Integers -/

theorem digitRun_toDigits (n : Nat) : digitRun (Nat.toDigits 10 n) = (Nat.toDigits 10 n, []) := by
  have hall : ∀ c ∈ Nat.toDigits 10 n, Numeral.isAsciiDigit c := fun c hc =>
    isDigit_of_mem_toDigits hc
  have htake : (Nat.toDigits 10 n ++ []).takeWhile Numeral.isAsciiDigit = _ :=
    List.takeWhile_append_of_pos hall
  have hdrop : (Nat.toDigits 10 n ++ []).dropWhile Numeral.isAsciiDigit = _ :=
    List.dropWhile_append_of_pos hall
  simpa [digitRun] using And.intro htake hdrop

/-- The first digit of a positive number is no zero. -/
theorem exists_toDigits_eq_cons {n : Nat} (hn : 0 < n) :
    ∃ d ds, Nat.toDigits 10 n = Nat.digitChar d :: ds ∧ 0 < d ∧ d < 10 := by
  induction n using Nat.strongRecOn with
  | ind n ih =>
    by_cases hlt : n < 10
    · exact ⟨n, [], Nat.toDigits_of_lt_base hlt, hn, hlt⟩
    · obtain ⟨d, ds, hds, hd⟩ := ih (n / 10) (by omega) (by omega)
      rw [Nat.toDigits_of_base_le (by decide) (by omega), hds]
      exact ⟨d, _, List.cons_append .., hd⟩

theorem integerPart?_toDigits (n : Nat) :
    integerPart? (Nat.toDigits 10 n) = some (Nat.toDigits 10 n, []) := by
  rcases Nat.eq_zero_or_pos n with rfl | hn
  · rfl
  · obtain ⟨d, ds, hds, hpos, hlt⟩ := exists_toDigits_eq_cons hn
    have hall : ∀ d < 10, 0 < d → '1' ≤ Nat.digitChar d ∧ Nat.digitChar d ≤ '9' := by decide
    have hrun := digitRun_toDigits n
    rw [hds] at hrun ⊢
    have hdigit := hall d hlt hpos
    have hzero : Nat.digitChar d ≠ '0' := fun he => by
      rw [he] at hdigit
      exact absurd hdigit.1 (by decide)
    simp [integerPart?, hdigit, hrun]

/-- No word has a digit, so none is at the front of a text with one of its first two characters
a digit. -/
theorem word?_of_isDigit {c : Char} (hc : c.isDigit) (before : List Char)
    (hbefore : before.length ≤ 1) : word? (before ++ c :: cs) = none := by
  have hwords : ∀ w ∈ words, 2 ≤ w.1.length ∧ ∀ d ∈ w.1, ¬ d.isDigit := by
    simp only [← List.all_iff_forall_prop]
    decide
  refine List.find?_eq_none.2 fun w hw hp => ?_
  obtain ⟨hlen, hdigit⟩ := hwords w hw
  have hfront : before ++ [c] <+: before ++ c :: cs := ⟨cs, by simp⟩
  have hinside : before ++ [c] <+: w.1 :=
    List.prefix_of_prefix_length_le hfront (List.isPrefixOf_iff_prefix.1 hp) (by simp; omega)
  exact hdigit c (hinside.subset (by simp)) hc

/-- A number starts with a digit. -/
theorem exists_isDigit_of_numberText? {n : NumberText} (h : numberText? cs = some (n, rest)) :
    ∃ c more, cs = c :: more ∧ c.isDigit := by
  rw [numberText?, Option.map_eq_some_iff] at h
  obtain ⟨w, hw, -⟩ := h
  unfold integerPart? at hw
  split at hw
  next => exact ⟨'0', _, rfl, by decide⟩
  next c more _ =>
    split at hw
    next hrun =>
      rw [Bool.and_eq_true, decide_eq_true_iff, decide_eq_true_iff] at hrun
      have hlow : '0' ≤ c := Char.le_trans (by decide) hrun.1
      exact ⟨c, more, rfl, Bool.and_eq_true_iff.2 ⟨decide_eq_true hlow, decide_eq_true hrun.2⟩⟩
    next => cases hw
  next => cases hw

/-- **A number is scanned with its sign.** -/
theorem scans_of_numberText? {n : NumberText} (h : numberText? cs = some (n, [])) (hp : p n)
    (negative : Bool) :
    Scans p ((if negative then ['-'] else []) ++ cs) (n.value negative) [] := by
  obtain ⟨c, more, rfl, hc⟩ := exists_isDigit_of_numberText? h
  have hminus : c ≠ '-' := by
    rintro rfl
    exact absurd hc (by decide)
  refine .inr ⟨?_, n, ?_, hp, ?_⟩
  all_goals cases negative
  · exact word?_of_isDigit hc [] (by simp)
  · exact word?_of_isDigit hc ['-'] (by simp)
  · simpa [dropMinus, hminus] using h
  · exact h
  · simp [hminus]
  · simp

/-- A written integer is scanned as itself. -/
theorem scans_intChars {i : Int} (hp : p ⟨Nat.toDigits 10 i.natAbs, none, none⟩) :
    Scans p (intChars i) (.int i) [] := by
  have hnumber : numberText? (Nat.toDigits 10 i.natAbs) =
      some (⟨Nat.toDigits 10 i.natAbs, none, none⟩, []) := by
    rw [numberText?, integerPart?_toDigits]
    rfl
  have hint (negative : Bool) : NumberText.value ⟨Nat.toDigits 10 i.natAbs, none, none⟩ negative =
      .int (if negative then -(i.natAbs : Int) else i.natAbs) := by
    simp only [NumberText.value, Option.isNone_none, Bool.and_self, if_true,
      Numeral.digitsValue_toDigits]
  have hscans (negative : Bool) := scans_of_numberText? hnumber hp negative
  rw [intChars, Binary64.digitChars]
  by_cases hneg : i < 0
  · have hi : -(i.natAbs : Int) = i := by omega
    have hminus := hscans true
    rw [hint, if_pos rfl, hi] at hminus
    rw [if_pos hneg]
    exact hminus
  · have hi : (i.natAbs : Int) = i := by omega
    have hplain := hscans false
    rw [hint, if_neg Bool.false_ne_true, hi] at hplain
    rw [if_neg hneg]
    exact hplain

/-- **A written integer is read as itself**, unless it has too many digits. -/
theorem scalar_intChars {i : Int} (hi : i.natAbs < Numeral.unwritable) :
    Yields (scalar (intChars i)) (.int i) [] := by
  refine scalar_yields_iff.2 (scans_intChars ?_)
  simpa [NumberText.isTooLong] using Numeral.length_toDigits_le_digitLimit_iff.2 hi

end NodeFlow.Json
