import Mathlib.Data.List.Induction
import Mathlib.Data.Nat.Digits.Defs
import NodeFlow.Proofs.Numeral.Decimal
/-!
# Numerals of any script

What decimal digits denote does not depend on their script: `decimalValue?`
puts the values of the digits together, leading zeros and all. Characters such
as superscripts count as digits without being decimal, so that a text of digits
need not denote a number. How far it is decimal decides how it is read: as the
number it denotes, or not at all, with one of two failures
(`integerOfText_of_isDigits`).
-/

namespace NodeFlow

variable {c : Char} {cs : List Char} {s : String} {v : Nat}

namespace Text

theorem digitValue?_lt_ten (h : digitValue? c = some v) : v < 10 := by
  obtain ⟨z, hz, rfl⟩ := Option.map_eq_some_iff.1 h
  have hrange := List.find?_some hz
  simp only [Bool.and_eq_true, decide_eq_true_eq] at hrange
  omega

theorem isDigitLike_of_isDecimal (h : isDecimal c) : isDigitLike c := by
  simp [isDigitLike, h]

theorem isDecimal_of_isDigit (h : c.isDigit) : isDecimal c := by
  simp [isDecimal, digitValue?_of_isDigit h]

theorem isDigits_iff : isDigits s ↔ s ≠ "" ∧ ∀ c ∈ s.toList, isDigitLike c := by
  rw [isDigits, Bool.and_eq_true, List.all_eq_true, Ne, ← String.toList_eq_nil_iff]
  simp

end Text

namespace Numeral

/-! ## What digits denote -/

/-- The number that a text of decimal digits denotes, whatever their script. -/
def decimalValue? (s : String) : Option Nat :=
  if s ≠ "" ∧ s.toList.all Text.isDecimal then
    some (Nat.ofDigits 10 (s.toList.filterMap Text.digitValue?).reverse)
  else none

/-- The number of decimal digits at the head of a text. -/
def headLength (s : String) : Nat := (s.toList.takeWhile Text.isDecimal).length

theorem isSome_decimalValue? :
    (decimalValue? s).isSome ↔ s ≠ "" ∧ ∀ c ∈ s.toList, Text.isDecimal c := by
  rw [decimalValue?]
  split <;> simp_all

theorem isDigits_of_decimalValue? (h : decimalValue? s = some v) : Text.isDigits s := by
  obtain ⟨hne, hall⟩ := isSome_decimalValue?.1 (Option.isSome_of_eq_some h)
  exact Text.isDigits_iff.2 ⟨hne, fun c hc => Text.isDigitLike_of_isDecimal (hall c hc)⟩

theorem headLength_of_decimalValue? (h : decimalValue? s = some v) : headLength s = s.length := by
  obtain ⟨-, hall⟩ := isSome_decimalValue?.1 (Option.isSome_of_eq_some h)
  rw [headLength, List.takeWhile_eq_self_iff.2 hall, String.length_toList]

/-! ## Digits as the ASCII ones -/

/-- A decimal digit as the ASCII one; every other character is left as it is. -/
def toAscii (c : Char) : Char :=
  match Text.digitValue? c with
  | some v => Nat.digitChar v
  | none => c

theorem toAscii_of_digitValue? (h : Text.digitValue? c = some v) :
    toAscii c = Nat.digitChar v := by
  rw [toAscii, h]

theorem isDigit_toAscii (h : Text.isDecimal c) : (toAscii c).isDigit := by
  obtain ⟨v, hv⟩ := Option.isSome_iff_exists.1 h
  rw [toAscii_of_digitValue? hv, Nat.isDigit_digitChar]
  exact decide_eq_true (Text.digitValue?_lt_ten hv)

/-- A digit that is not decimal stays what it is, and ends a numeral. -/
theorem endsDigits_toAscii (hlike : Text.isDigitLike c) (hc : Text.isDecimal c = false) :
    EndsDigits (toAscii c) := by
  have hnone : Text.digitValue? c = none := by
    rw [← Option.not_isSome_iff_eq_none]
    exact Bool.eq_false_iff.1 hc
  rw [toAscii, hnone]
  refine ⟨?_, ?_, ?_, ?_⟩
  · rw [← Bool.not_eq_true]
    intro hdigit
    rw [Text.isDecimal_of_isDigit hdigit] at hc
    cases hc
  all_goals
    rintro rfl
    exact absurd hlike (by decide)

theorem normalize_of_isDigitLike (h : ∀ c ∈ s.toList, Text.isDigitLike c) :
    normalize s = s.toList.map toAscii := by
  rw [normalize, Text.trimChars_isBlank_of_isDigitLike h]
  rfl

theorem digitsValue_append_digitChar (cs : List Char) (h : v < 10) :
    digitsValue (cs ++ [Nat.digitChar v]) = 10 * digitsValue cs + v := by
  rw [digitsValue, List.foldl_append, List.foldl_cons, List.foldl_nil,
    Nat.toNat_digitChar_of_lt_ten h, Nat.add_sub_cancel_left]
  rfl

/-- Digits denote what the ASCII ones in their places do. -/
theorem digitsValue_map_toAscii (h : ∀ c ∈ cs, Text.isDecimal c) :
    digitsValue (cs.map toAscii) = Nat.ofDigits 10 (cs.filterMap Text.digitValue?).reverse := by
  -- the last digit counts once and all before it ten times
  induction cs using List.reverseRecOn with
  | nil => rfl
  | append_singleton cs c ih =>
    obtain ⟨v, hv⟩ := Option.isSome_iff_exists.1 (h c (by simp))
    have hcs : ∀ d ∈ cs, Text.isDecimal d := fun d hd => h d (List.mem_append_left _ hd)
    rw [List.map_append, List.map_singleton, toAscii_of_digitValue? hv,
      digitsValue_append_digitChar _ (Text.digitValue?_lt_ten hv), ih hcs, List.filterMap_append,
      List.reverse_append, List.filterMap_cons_some hv, List.filterMap_nil,
      List.reverse_singleton, List.singleton_append, Nat.ofDigits_cons]
    omega

/-! ## Texts of digits as integers -/

theorem head?_dropWhile_isDecimal (h : c ∈ (cs.dropWhile Text.isDecimal).head?) :
    c ∈ cs ∧ Text.isDecimal c = false := by
  have hmem : c ∈ cs.dropWhile Text.isDecimal := List.mem_of_mem_head? h
  refine ⟨(List.dropWhile_sublist _).mem hmem, ?_⟩
  have := List.head?_dropWhile_not Text.isDecimal cs
  rw [h] at this
  exact this

/-- The decimal digits at the head of a text of digits decide how it is read. -/
theorem int?_of_isDigits (h : Text.isDigits s) :
    int? s =
      if digitLimit < headLength s then .error (.tooLong (headLength s))
      else match decimalValue? s with
        | some v => .ok v
        | none => .error .malformed := by
  obtain ⟨hne, hlike⟩ := Text.isDigits_iff.1 h
  have hnorm : normalize s = (s.toList.takeWhile Text.isDecimal).map toAscii ++
      (s.toList.dropWhile Text.isDecimal).map toAscii := by
    rw [normalize_of_isDigitLike hlike, ← List.map_append, List.takeWhile_append_dropWhile]
  have hdigit : ∀ c ∈ (s.toList.takeWhile Text.isDecimal).map toAscii, c.isDigit := by
    intro c hc
    obtain ⟨d, hd, rfl⟩ := List.mem_map.1 hc
    exact isDigit_toAscii (List.mem_takeWhile_imp hd)
  have hrest : ∀ c ∈ ((s.toList.dropWhile Text.isDecimal).map toAscii).head?, EndsDigits c := by
    intro c hc
    rw [List.head?_map] at hc
    obtain ⟨d, hd, rfl⟩ := Option.mem_map.1 hc
    obtain ⟨hmem, hnot⟩ := head?_dropWhile_isDecimal hd
    exact endsDigits_toAscii (hlike d hmem) hnot
  rw [int?_of_normalize hnorm hdigit hrest, List.length_map, ← headLength]
  by_cases hall : ∀ c ∈ s.toList, Text.isDecimal c
  · have hvalue : decimalValue? s =
        some (Nat.ofDigits 10 (s.toList.filterMap Text.digitValue?).reverse) := by
      rw [decimalValue?, if_pos ⟨hne, List.all_eq_true.2 hall⟩]
    have hread : ¬ (s.toList.map toAscii = [] ∨ ([] : List Char).map toAscii ≠ []) := by
      simpa using hne
    rw [hvalue, List.takeWhile_eq_self_iff.2 hall, List.dropWhile_eq_nil_iff.2 hall, if_neg hread,
      digitsValue_map_toAscii hall]
  · have hvalue : decimalValue? s = none := by
      rw [← Option.not_isSome_iff_eq_none, isSome_decimalValue?]
      exact fun hs => hall hs.2
    have hdrop : (s.toList.dropWhile Text.isDecimal).map toAscii ≠ [] := by
      simpa [List.dropWhile_eq_nil_iff] using hall
    rw [hvalue, if_pos (Or.inr hdrop)]

end Numeral

/-- **A text of digits is read as the number it denotes** or refused: for too many decimal digits
at its head, or else for a digit that is not decimal. -/
theorem integerOfText_of_isDigits (h : Text.isDigits s) :
    integerOfText s =
      if Numeral.digitLimit < Numeral.headLength s then
        .error (.badValue (.longInteger (Numeral.headLength s)))
      else match Numeral.decimalValue? s with
        | some v => .ok v
        | none => .error (.badValue (.notInteger s)) := by
  rw [integerOfText, Numeral.int?_of_isDigits h]
  by_cases hlong : Numeral.digitLimit < Numeral.headLength s
  · rw [if_pos hlong, if_pos hlong]
  · rw [if_neg hlong, if_neg hlong]
    cases Numeral.decimalValue? s <;> rfl

end NodeFlow
