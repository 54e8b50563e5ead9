import Mathlib.Data.List.TakeWhile
import NodeFlow.Fault
/-!
# Decimals read back

The text of a natural number is read back as that number, unless it has more
digits than are read. Numerals are read from many scripts, so most of what
follows says that a decimal digit stands for itself.
-/

namespace NodeFlow

variable {c : Char} {cs : List Char}

/-! ## Digits -/

namespace Text

theorem toNat_of_isDigit (h : c.isDigit) : 48 ≤ c.toNat ∧ c.toNat ≤ 57 := by
  simp only [Char.isDigit, Bool.and_eq_true, decide_eq_true_eq, ge_iff_le,
    UInt32.le_iff_toNat_le] at h
  exact h

theorem digitValue?_of_isDigit (h : c.isDigit) : digitValue? c = some (c.toNat - 48) := by
  obtain ⟨hlo, hhi⟩ := Text.toNat_of_isDigit h
  -- the first of the scripts is the one with these digits
  have hfind : zeros.find? (fun z => z ≤ c.toNat && c.toNat < z + 10) = some 48 := by
    rw [zeros, List.find?_cons_of_pos]
    simp only [Bool.and_eq_true, decide_eq_true_eq]
    omega
  rw [digitValue?, hfind, Option.map_some]

theorem isDigitLike_of_isDigit (h : c.isDigit) : isDigitLike c := by
  simp [isDigitLike, isDecimal, digitValue?_of_isDigit h]

/-- Whether a character counts as a digit is told from its code point. -/
theorem isDigitLike_eq (c : Char) :
    isDigitLike c = (zeros.any (fun z => z ≤ c.toNat && c.toNat < z + 10) ||
      otherDigits.any fun r => r.1 ≤ c.toNat && c.toNat ≤ r.2) := by
  rw [isDigitLike, isDecimal, digitValue?, Option.isSome_map, List.isSome_find?]

/-- The code points of blanks. -/
def blanks : List Nat :=
  [9, 10, 11, 12, 13, 32, 0x85, 0xA0, 0x1680, 0x2000, 0x2001, 0x2002, 0x2003, 0x2004, 0x2005,
    0x2006, 0x2007, 0x2008, 0x2009, 0x200A, 0x2028, 0x2029, 0x202F, 0x205F, 0x3000]

theorem toNat_mem_blanks (h : isBlank c) : c.toNat ∈ blanks := by
  simp only [isBlank, Bool.or_eq_true, Bool.and_eq_true, decide_eq_true_eq] at h
  simp only [blanks, List.mem_cons, List.not_mem_nil, or_false]
  omega

theorem not_isBlank_of_isDigitLike (h : isDigitLike c) : isBlank c = false := by
  have hapart : ∀ n ∈ blanks, (zeros.any (fun z => z ≤ n && n < z + 10) ||
      otherDigits.any fun r => r.1 ≤ n && n ≤ r.2) = false := by
    decide +kernel
  rw [← Bool.not_eq_true]
  intro hblank
  rw [isDigitLike_eq, hapart _ (toNat_mem_blanks hblank)] at h
  cases h

theorem dropWhile_isBlank_of_isDigitLike (h : ∀ c ∈ cs, isDigitLike c) :
    cs.dropWhile isBlank = cs := by
  cases cs with
  | nil => rfl
  | cons c cs =>
    rw [List.dropWhile_cons_of_neg]
    simp [not_isBlank_of_isDigitLike (h c (by simp))]

theorem trimChars_isBlank_of_isDigitLike (h : ∀ c ∈ cs, isDigitLike c) :
    trimChars isBlank cs = cs := by
  have hrev : ∀ c ∈ cs.reverse, isDigitLike c := fun c hc => h c (List.mem_reverse.1 hc)
  rw [trimChars, dropWhile_isBlank_of_isDigitLike h, dropWhile_isBlank_of_isDigitLike hrev,
    List.reverse_reverse]

end Text

namespace Numeral

theorem digitChar_of_isDigit (h : c.isDigit) : Nat.digitChar (c.toNat - 48) = c := by
  obtain ⟨hlo, hhi⟩ := Text.toNat_of_isDigit h
  apply Char.toNat_inj.1
  rw [Nat.toNat_digitChar_of_lt_ten (by omega)]
  omega

theorem normalize_of_isDigit (h : ∀ c ∈ cs, c.isDigit) : normalize (String.ofList cs) = cs := by
  rw [normalize, String.toList_ofList,
    Text.trimChars_isBlank_of_isDigitLike fun c hc => Text.isDigitLike_of_isDigit (h c hc)]
  refine (List.map_congr_left fun c hc => ?_).trans (List.map_id cs)
  rw [Text.digitValue?_of_isDigit (h c hc)]
  exact digitChar_of_isDigit (h c hc)

theorem splitSign_of_head? (hminus : cs.head? ≠ some '-') (hplus : cs.head? ≠ some '+') :
    splitSign cs = (false, cs) := by
  unfold splitSign
  split
  · simp at hminus
  · simp at hplus
  · rfl

theorem dropUnderscores_of_isDigit (h : ∀ c ∈ cs, c.isDigit) (after : Bool) :
    dropUnderscores after cs = some cs := by
  induction cs generalizing after with
  | nil => rfl
  | cons c cs ih =>
    have hne : c ≠ '_' := by
      rintro rfl
      exact absurd (h '_' (by simp)) (by decide)
    have hrest : ∀ d ∈ cs, d.isDigit := fun d hd => h d (List.mem_cons_of_mem _ hd)
    rw [dropUnderscores]
    · rw [ih hrest, Option.map_some]
    · exact hne

theorem digitsValue_eq (cs : List Char) : digitsValue cs = Nat.ofDigitChars 10 cs 0 := by
  rw [digitsValue, Nat.ofDigitChars_eq_foldl]
  rfl

theorem digitsValue_toDigits (n : Nat) : digitsValue (Nat.toDigits 10 n) = n := by
  rw [digitsValue_eq, Nat.ofDigitChars_ten_toDigits]

theorem length_toDigits_le_digitLimit_iff {n : Nat} :
    (Nat.toDigits 10 n).length ≤ digitLimit ↔ n < unwritable := by
  have hlimit : 0 < digitLimit := by decide
  unfold unwritable
  generalize digitLimit = limit at *
  exact Nat.length_toDigits_le_iff (by decide) hlimit

theorem thousand_le_unwritable : 1000 ≤ unwritable := by
  have hlimit : 3 ≤ digitLimit := by decide
  unfold unwritable
  generalize digitLimit = limit at *
  calc 1000 = 10 ^ 3 := rfl
    _ ≤ 10 ^ limit := Nat.pow_le_pow_right (by decide) hlimit

/-- Whether a character ends the digits of a numeral and is no sign before them. -/
def EndsDigits (c : Char) : Prop := c.isDigit = false ∧ c ≠ '_' ∧ c ≠ '-' ∧ c ≠ '+'

/-- **The digits at the head of a numeral are counted first**, and only then whether anything
else is there. -/
theorem int?_of_normalize {s : String} {digits rest : List Char}
    (hnorm : normalize s = digits ++ rest) (hdigit : ∀ c ∈ digits, c.isDigit)
    (hrest : ∀ c ∈ rest.head?, EndsDigits c) :
    int? s =
      if digitLimit < digits.length then .error (.tooLong digits.length)
      else if digits = [] ∨ rest ≠ [] then .error .malformed
      else .ok (digitsValue digits) := by
  have hstart : ∀ c ∈ (digits ++ rest).head?, c ≠ '-' ∧ c ≠ '+' := by
    intro c hc
    rw [List.head?_append, Option.mem_def, Option.or_eq_some_iff] at hc
    rcases hc with hc | ⟨-, hc⟩
    · have := hdigit c (List.mem_of_mem_head? hc)
      constructor <;> rintro rfl <;> exact absurd this (by decide)
    · exact (hrest c hc).2.2
  have hsign : splitSign (digits ++ rest) = (false, digits ++ rest) :=
    splitSign_of_head? (fun hc => (hstart _ hc).1 rfl) (fun hc => (hstart _ hc).2 rfl)
  have hhead : (digits ++ rest).takeWhile (fun c => isAsciiDigit c || c = '_') = digits := by
    have hnumeral : ∀ c ∈ digits, (isAsciiDigit c || c = '_') = true :=
      fun c hc => Bool.or_eq_true_iff.2 (Or.inl (hdigit c hc))
    rw [List.takeWhile_append_of_pos hnumeral]
    cases rest with
    | nil => simp
    | cons c rest =>
      obtain ⟨hno, hunder, -⟩ := hrest c rfl
      have hstop : isAsciiDigit c = false := hno
      simp [hstop, hunder]
  rw [int?, hnorm, hsign]
  simp only [hhead, dropUnderscores_of_isDigit hdigit]
  cases digits <;> cases rest <;> simp

/-- **A run of digits is read as its value**, if it is not too long. -/
theorem int?_of_isDigit (h : ∀ c ∈ cs, c.isDigit) (hne : cs ≠ []) :
    int? (String.ofList cs) =
      if digitLimit < cs.length then .error (.tooLong cs.length) else .ok (digitsValue cs) := by
  have hnorm : normalize (String.ofList cs) = cs ++ [] := by
    rw [normalize_of_isDigit h, List.append_nil]
  have hread : ¬ (cs = [] ∨ ([] : List Char) ≠ []) := by simpa using hne
  rw [int?_of_normalize hnorm h (by simp), if_neg hread]

end Numeral

/-! ## Numbers and their texts -/

theorem display_natCast (n : Nat) : (Json.int n).display = String.ofList (Nat.toDigits 10 n) := by
  have hneg : ¬ ((n : Int) < 0) := by omega
  rw [Json.display, Json.inspect, Json.inner, Json.intChars, if_neg hneg, Int.natAbs_natCast]
  · rfl
  · intro s hs
    cases hs

theorem isDigit_of_mem_toDigits {n : Nat} (h : c ∈ Nat.toDigits 10 n) : c.isDigit :=
  Nat.isDigit_of_mem_toDigits (by omega) (by omega) h

theorem isDigits_display_natCast (n : Nat) : Text.isDigits (Json.int n).display := by
  rw [display_natCast, Text.isDigits, String.toList_ofList, Bool.and_eq_true, List.all_eq_true]
  refine ⟨?_, fun c hc => Text.isDigitLike_of_isDigit (isDigit_of_mem_toDigits hc)⟩
  simp [Nat.toDigits_ne_nil]

/-- The text of a number is no word. -/
theorem display_natCast_ne {word : String} (h : Text.isDigits word = false) (n : Nat) :
    word ≠ (Json.int n).display := by
  rintro rfl
  rw [isDigits_display_natCast] at h
  cases h

/-- **The text of a number is read back as the number**, unless it has too many digits. -/
theorem integerOfText_display_natCast (n : Nat) :
    integerOfText (Json.int n).display =
      if n < Numeral.unwritable then .ok (n : Int)
      else .error (.badValue (.longInteger (Nat.toDigits 10 n).length)) := by
  have hlen := Numeral.length_toDigits_le_digitLimit_iff (n := n)
  rw [integerOfText, display_natCast,
    Numeral.int?_of_isDigit (fun c hc => isDigit_of_mem_toDigits hc) Nat.toDigits_ne_nil]
  by_cases hn : n < Numeral.unwritable
  · rw [if_neg (Nat.not_lt.2 (hlen.2 hn)), if_pos hn, Numeral.digitsValue_toDigits]
  · rw [if_pos (Nat.lt_of_not_le fun hle => hn (hlen.1 hle)), if_neg hn]

theorem display_int (i : Int) : (Json.int i).display = String.ofList (Json.intChars i) := by
  rw [Json.display, Json.inspect, Json.inner]
  intro s hs
  cases hs

theorem toDigits_ten_injective : Function.Injective (Nat.toDigits 10) := by
  intro a b h
  rw [← Nat.ofDigitChars_ten_toDigits (n := a), h, Nat.ofDigitChars_ten_toDigits]

/-- **Integers with the same text are the same.** -/
theorem display_int_injective : Function.Injective fun i : Int => (Json.int i).display := by
  intro a b h
  -- a sign is no digit, so both have one or neither has
  have hsign (n : Nat) (cs : List Char) : '-' :: cs ≠ Nat.toDigits 10 n := by
    intro he
    have hdigit : '-'.isDigit := isDigit_of_mem_toDigits (n := n) (by rw [← he]; simp)
    exact absurd hdigit (by decide)
  have hchars : Json.intChars a = Json.intChars b := by
    simpa [display_int, String.ofList_inj] using h
  rw [Json.intChars, Json.intChars] at hchars
  split at hchars <;> split at hchars
  · have habs := toDigits_ten_injective (List.cons.inj hchars).2
    omega
  · exact absurd hchars (hsign _ _)
  · exact absurd hchars.symm (hsign _ _)
  · have habs := toDigits_ten_injective hchars
    omega

theorem display_natCast_injective : Function.Injective fun n : Nat => (Json.int n).display :=
  fun _ _ h => Int.ofNat.inj (display_int_injective h)

/-- There is a digit in the text of every integer. -/
theorem exists_isDigit_mem_display (i : Int) :
    ∃ c ∈ (Json.int i).display.toList, c.isDigit := by
  obtain ⟨c, hc⟩ := List.exists_mem_of_ne_nil _ (Nat.toDigits_ne_nil (n := i.natAbs) (b := 10))
  have hmem : c ∈ Json.intChars i := by
    rw [Json.intChars]
    split
    · exact List.mem_cons_of_mem _ hc
    · exact hc
  exact ⟨c, by rw [display_int, String.toList_ofList]; exact hmem, isDigit_of_mem_toDigits hc⟩

theorem textOfInteger_eq (i : Int) :
    textOfInteger i =
      if i.natAbs < Numeral.unwritable then .ok (Json.int i).display
      else .error (.badValue .unwritableInteger) := by
  simp only [textOfInteger, textOf, withinLimit, Json.isWritable, decide_eq_true_eq]

theorem textOfInteger_natCast (n : Nat) :
    textOfInteger n =
      if n < Numeral.unwritable then .ok (Json.int n).display
      else .error (.badValue .unwritableInteger) := by
  rw [textOfInteger_eq, Int.natAbs_natCast]

end NodeFlow
