import NodeFlow.Proofs.Binary64.Shortest
import NodeFlow.Proofs.Json.RoundTrip
/-!
# Doubles read back

The text of a double spells the digits that were found for it, with the point
or an exponent telling their place. The reader takes the text apart into the
same digits and place (`spells_unsigned`), and what they stand for is around
the double, so it rounds to it: every double that is a number reads back
(`readsBack`), and with it every value without not-a-numbers, whose objects
have no key twice and whose integers are not too long.
-/

namespace NodeFlow

/-! ## Values of digits -/

namespace Numeral

theorem digitsValue_append (xs ys : List Char) :
    digitsValue (xs ++ ys) = digitsValue xs * 10 ^ ys.length + digitsValue ys := by
  induction ys using List.reverseRecOn with
  | nil => simp [digitsValue]
  | append_singleton ys y ih =>
    have hstep (cs : List Char) :
        digitsValue (cs ++ [y]) = 10 * digitsValue cs + (y.toNat - 48) := by
      simp [digitsValue]
    rw [← List.append_assoc, hstep, hstep, ih, List.length_append, List.length_singleton, pow_succ]
    ring

theorem digitsValue_zeros (n : Nat) : digitsValue (List.replicate n '0') = 0 := by
  induction n with
  | zero => rfl
  | succ n ih =>
    rw [List.replicate_succ', digitsValue_append, ih, zero_mul]
    rfl

theorem digitsValue_zeros_append (n : Nat) (cs : List Char) :
    digitsValue (List.replicate n '0' ++ cs) = digitsValue cs := by
  rw [digitsValue_append, digitsValue_zeros, zero_mul, zero_add]

end Numeral

namespace Json

open Binary64 (Decimal)

/-! ## Runs of digits -/

/-- Characters that are digits. -/
def AllDigits (cs : List Char) : Prop := ∀ c ∈ cs, c.isDigit

/-- The text behind a run of digits does not go on with it. -/
def Stops (cs : List Char) : Prop := ∀ c ∈ cs.head?, ¬ c.isDigit

variable {cs ds zs rest : List Char} {d : Char}

theorem stops_nil : Stops [] := nofun

theorem stops_cons {c : Char} (h : ¬ c.isDigit) (cs : List Char) : Stops (c :: cs) := by
  simpa [Stops] using h

theorem allDigits_zeros (n : Nat) : AllDigits (List.replicate n '0') := by
  intro c hc
  rw [List.eq_of_mem_replicate hc]
  rfl

theorem allDigits_toDigits (n : Nat) : AllDigits (Nat.toDigits 10 n) :=
  fun _ => isDigit_of_mem_toDigits

theorem AllDigits.append (hcs : AllDigits cs) (hds : AllDigits ds) : AllDigits (cs ++ ds) :=
  fun c hc => (List.mem_append.1 hc).elim (hcs c) (hds c)

theorem digitRun_of_allDigits (h : AllDigits ds) (hrest : Stops rest) :
    digitRun (ds ++ rest) = (ds, rest) := by
  have hstop : rest.takeWhile Numeral.isAsciiDigit = [] ∧
      rest.dropWhile Numeral.isAsciiDigit = rest := by
    cases rest with
    | nil => exact ⟨rfl, rfl⟩
    | cons c rest =>
      have hc : Numeral.isAsciiDigit c = false := Bool.eq_false_iff.2 (hrest c rfl)
      simp [hc]
  rw [digitRun, List.takeWhile_append_of_pos (p := Numeral.isAsciiDigit) h,
    List.dropWhile_append_of_pos (p := Numeral.isAsciiDigit) h, hstop.1, hstop.2, List.append_nil]

theorem integerPart?_of_allDigits (hd : 0 < d.toNat - 48) (h : AllDigits (d :: ds))
    (hrest : Stops rest) : integerPart? (d :: ds ++ rest) = some (d :: ds, rest) := by
  obtain ⟨hlow, hhigh⟩ := Text.toNat_of_isDigit (h d List.mem_cons_self)
  have hone : '1' ≤ d := show (49 : Nat) ≤ d.toNat by omega
  have hnine : d ≤ '9' := show d.toNat ≤ 57 by omega
  have hzero : d ≠ '0' := by
    rintro rfl
    exact absurd hd (by decide)
  have hrun := digitRun_of_allDigits h hrest
  rw [List.cons_append] at hrun ⊢
  simp [integerPart?, hone, hnine, hrun]

theorem fractionPart_of_allDigits (hne : ds ≠ []) (h : AllDigits ds) (hrest : Stops rest) :
    fractionPart ('.' :: (ds ++ rest)) = (some ds, rest) := by
  obtain ⟨d, ds, rfl⟩ := List.exists_cons_of_ne_nil hne
  have hd : Numeral.isAsciiDigit d = true := h d List.mem_cons_self
  have hrun := digitRun_of_allDigits h hrest
  rw [List.cons_append] at hrun ⊢
  simp [fractionPart, hd, hrun]

theorem fractionPart_of_ne {c : Char} (h : c ≠ '.') (cs : List Char) :
    fractionPart (c :: cs) = (none, c :: cs) := by
  simp [fractionPart, h]

theorem exponentPart_of_allDigits (hne : ds ≠ []) (h : AllDigits ds) (negative : Bool) :
    exponentPart ('e' :: (if negative then '-' else '+') :: ds) =
      (some (if negative then -(Numeral.digitsValue ds : Int) else Numeral.digitsValue ds),
        []) := by
  have hrun := digitRun_of_allDigits h stops_nil
  have hempty : ds.isEmpty = false := List.isEmpty_eq_false_iff.2 hne
  rw [List.append_nil] at hrun
  cases negative <;> simp [exponentPart, Numeral.splitSign, hrun, hempty]

/-! ## Spelled decimals -/

/-- The decimal that the pieces of a number spell. -/
def NumberText.decimal (n : NumberText) : Decimal :=
  ⟨Numeral.digitsValue (n.whole ++ n.fraction.getD []),
    n.exponent.getD 0 - (n.fraction.getD []).length⟩

/-- A text is that of a number with a fraction or an exponent, and spells a decimal. -/
structure Spells (cs : List Char) (d : Decimal) : Prop where
  exists_text : ∃ n, numberText? cs = some (n, []) ∧
    (n.fraction.isNone && n.exponent.isNone) = false ∧ n.decimal.value = d.value

/-- What is spelled is read as the nearest double. -/
theorem Spells.scalar {d : Decimal} (h : Spells cs d) (negative : Bool) :
    ∃ d' : Decimal, d'.value = d.value ∧
      Yields (Json.scalar ((if negative then ['-'] else []) ++ cs))
        (.float (.ofDecimal negative d'.digits d'.exponent)) [] := by
  obtain ⟨n, hn, hkind, hvalue⟩ := h.exists_text
  have hshort : n.isTooLong = false := by rw [NumberText.isTooLong, hkind, Bool.false_and]
  have hfloat : n.value negative =
      .float (.ofDecimal negative n.decimal.digits n.decimal.exponent) := by
    rw [NumberText.value, hkind, if_neg Bool.false_ne_true]
    rfl
  exact ⟨n.decimal, hvalue, scalar_yields_iff.2 (hfloat ▸ scans_of_numberText? hn hshort negative)⟩

/-- Digits that are read as an integer part, the point, and more digits. -/
theorem spells_point (cs : List Char) {d : Decimal}
    (hcs : ∀ rest, integerPart? (cs ++ '.' :: rest) = some (cs, '.' :: rest)) (hne : ds ≠ [])
    (hds : AllDigits ds)
    (hvalue : (⟨Numeral.digitsValue (cs ++ ds), -ds.length⟩ : Decimal).value = d.value) :
    Spells (cs ++ '.' :: ds) d := by
  have hfraction := fractionPart_of_allDigits hne hds stops_nil
  rw [List.append_nil] at hfraction
  refine ⟨⟨cs, some ds, none⟩, ?_, rfl, ?_⟩
  · rw [numberText?, hcs, Option.map_some, hfraction]
    rfl
  · rw [NumberText.decimal]
    dsimp only [Option.getD_some, Option.getD_none]
    rw [zero_sub, hvalue]

/-- Digits with the point among them, or behind or in front of zeros. -/
theorem spells_positional {n : Nat} (hn : n ≠ 0) (whole : Int) :
    Spells (Binary64.positional (Nat.toDigits 10 n) whole)
      ⟨n, whole - (Nat.toDigits 10 n).length⟩ := by
  have hvalue := Numeral.digitsValue_toDigits n
  have hall := allDigits_toDigits n
  obtain ⟨d, ds, hds, hpos, hlt⟩ := exists_toDigits_eq_cons (Nat.pos_of_ne_zero hn)
  have hfirst : 0 < (Nat.digitChar d).toNat - 48 := by
    rw [Nat.toNat_digitChar_of_lt_ten hlt]
    omega
  generalize hdigits : Nat.toDigits 10 n = digits at *
  rw [Binary64.positional]
  split
  next hwhole =>
    -- the point is in front of all digits
    refine spells_point ['0'] (fun _ => rfl) (by simp [hds])
      ((allDigits_zeros (-whole).toNat).append hall) ?_
    have hexponent : -((List.replicate (-whole).toNat '0' ++ digits).length : Int) =
        whole - digits.length := by
      rw [List.length_append, List.length_replicate]
      omega
    have hsame : ['0'] ++ (List.replicate (-whole).toNat '0' ++ digits) =
        List.replicate ((-whole).toNat + 1) '0' ++ digits := rfl
    rw [hexponent, hsame, Numeral.digitsValue_zeros_append, hvalue]
  next hwhole =>
    obtain ⟨k, rfl⟩ : ∃ k : Nat, whole = (k + 1 : Nat) := ⟨whole.toNat - 1, by omega⟩
    rw [Int.toNat_natCast]
    dsimp only
    have hfront : digits.take (k + 1) ++ List.replicate (k + 1 - digits.length) '0' =
        Nat.digitChar d :: (ds.take k ++ List.replicate (k + 1 - digits.length) '0') := by
      rw [hds, List.take_succ_cons, List.cons_append]
    have hfrontDigits : AllDigits (digits.take (k + 1) ++
        List.replicate (k + 1 - digits.length) '0') :=
      AllDigits.append (fun c hc => hall c (List.mem_of_mem_take hc)) (allDigits_zeros _)
    have hinteger (rest : List Char) :
        integerPart? (digits.take (k + 1) ++ List.replicate (k + 1 - digits.length) '0' ++
          '.' :: rest) = some (digits.take (k + 1) ++ List.replicate (k + 1 - digits.length) '0',
          '.' :: rest) := by
      rw [hfront] at hfrontDigits ⊢
      exact integerPart?_of_allDigits hfirst hfrontDigits (stops_cons (by decide) rest)
    by_cases hlong : digits.length ≤ k + 1
    · -- the point is behind all digits, and a zero follows it
      have hdrop : digits.drop (k + 1) = [] := List.drop_eq_nil_iff.2 hlong
      have htake : digits.take (k + 1) = digits := List.take_of_length_le hlong
      have hzeros : digits ++ List.replicate (k + 1 - digits.length) '0' ++ ['0'] =
          digits ++ List.replicate (k + 1 - digits.length + 1) '0' := by
        rw [List.append_assoc, ← List.replicate_succ']
      have hexponent : ((k + 1 : Nat) : Int) - digits.length =
          ((k + 1 - digits.length + 1 : Nat) : Int) - 1 := by omega
      rw [hdrop, List.isEmpty_nil, if_pos rfl]
      refine spells_point _ hinteger (by simp) (allDigits_zeros 1) ?_
      rw [htake, hzeros, Decimal.value, Decimal.value, Numeral.digitsValue_append,
        Numeral.digitsValue_zeros, hvalue, List.length_replicate, hexponent,
        zpow_sub₀ (by norm_num), zpow_natCast]
      push_cast
      norm_num
      ring
    · -- the point is among the digits
      have hdrop : digits.drop (k + 1) ≠ [] := by
        rw [Ne, List.drop_eq_nil_iff]
        omega
      have hnone : k + 1 - digits.length = 0 := by omega
      have hexponent : -((digits.drop (k + 1)).length : Int) = (k + 1 : Nat) - digits.length := by
        rw [List.length_drop]
        omega
      rw [List.isEmpty_eq_false_iff.2 hdrop, if_neg Bool.false_ne_true]
      refine spells_point _ hinteger hdrop (fun c hc => hall c (List.mem_of_mem_drop hc)) ?_
      rw [hexponent, hnone, List.replicate_zero, List.append_nil, List.take_append_drop, hvalue]

/-- Digits with the point behind the first one, and an exponent. -/
theorem spells_scientific {n : Nat} (hn : n ≠ 0) (width : Nat) (place : Int) :
    Spells (Binary64.scientific width (Nat.toDigits 10 n) place)
      ⟨n, place + 1 - (Nat.toDigits 10 n).length⟩ := by
  have hvalue := Numeral.digitsValue_toDigits n
  have hall := allDigits_toDigits n
  obtain ⟨d, ds, hds, hpos, hlt⟩ := exists_toDigits_eq_cons (Nat.pos_of_ne_zero hn)
  have hfirst : 0 < (Nat.digitChar d).toNat - 48 := by
    rw [Nat.toNat_digitChar_of_lt_ten hlt]
    omega
  rw [hds] at hvalue hall ⊢
  -- the exponent is read with its sign, whatever the zeros in front of it
  obtain ⟨tail, htail, hexponent⟩ : ∃ tail,
      'e' :: (if place < 0 then '-' else '+') ::
        (List.replicate (width - (Binary64.digitChars place.natAbs).length) '0' ++
          Binary64.digitChars place.natAbs) = 'e' :: tail ∧
      exponentPart ('e' :: tail) = (some place, []) := by
    refine ⟨_, rfl, ?_⟩
    have hne : List.replicate (width - (Binary64.digitChars place.natAbs).length) '0' ++
        Binary64.digitChars place.natAbs ≠ [] := by simp [Binary64.digitChars, Nat.toDigits_ne_nil]
    have hdigits := (allDigits_zeros (width - (Binary64.digitChars place.natAbs).length)).append
      (allDigits_toDigits place.natAbs)
    have hpart := exponentPart_of_allDigits hne hdigits (decide (place < 0))
    rw [Numeral.digitsValue_zeros_append, Binary64.digitChars,
      Numeral.digitsValue_toDigits] at hpart
    have hsign : (if decide (place < 0) = true then -(place.natAbs : Int) else place.natAbs) =
        place := by
      split
      next h =>
        rw [decide_eq_true_iff] at h
        omega
      next h =>
        rw [decide_eq_true_iff] at h
        omega
    rw [hsign] at hpart
    simp only [decide_eq_true_eq] at hpart
    exact hpart
  have hone : AllDigits [Nat.digitChar d] := fun c hc => hall c (by
    rw [List.mem_singleton.1 hc]
    exact List.mem_cons_self)
  cases ds with
  | nil =>
    have hscientific : Binary64.scientific width [Nat.digitChar d] place =
        [Nat.digitChar d] ++ 'e' :: tail := by
      rw [← htail]
      rfl
    rw [hscientific]
    refine ⟨⟨[Nat.digitChar d], none, some place⟩, ?_, rfl, ?_⟩
    · have hwhole := integerPart?_of_allDigits hfirst hone (stops_cons (c := 'e') (by decide) tail)
      simp only [numberText?, hwhole, Option.map_some, fractionPart_of_ne (c := 'e') (by decide),
        hexponent]
    · rw [NumberText.decimal]
      dsimp only [Option.getD_some, Option.getD_none]
      rw [List.append_nil, hvalue, List.length_nil, List.length_singleton]
      congr 2
      omega
  | cons d' ds =>
    have hscientific : Binary64.scientific width (Nat.digitChar d :: d' :: ds) place =
        [Nat.digitChar d] ++ '.' :: (d' :: ds ++ 'e' :: tail) := by
      rw [← htail]
      rfl
    rw [hscientific]
    have hfraction := fractionPart_of_allDigits (List.cons_ne_nil d' ds)
      (fun c hc => hall c (List.mem_cons_of_mem _ hc)) (stops_cons (c := 'e') (by decide) tail)
    have hwhole := integerPart?_of_allDigits hfirst hone
      (stops_cons (c := '.') (by decide) (d' :: ds ++ 'e' :: tail))
    refine ⟨⟨[Nat.digitChar d], some (d' :: ds), some place⟩, ?_, rfl, ?_⟩
    · simp only [numberText?, hwhole, Option.map_some, hfraction, hexponent]
    · rw [NumberText.decimal]
      dsimp only [Option.getD_some, Option.getD_none]
      rw [List.singleton_append, hvalue]
      congr 2
      simp only [List.length_cons]
      omega

/-- **The text of a number spells the digits that were found for it.** -/
theorem spells_unsigned (spelling : Binary64.Notation) {m : Nat} (hm : m ≠ 0) (q : Int) :
    Spells (spelling.unsigned m q) (Binary64.shortest m q).trim := by
  have hn := (Binary64.isAround_trim_shortest hm q).digits_ne
  rw [Binary64.Notation.unsigned, if_neg hm]
  generalize (Binary64.shortest m q).trim = d at hn
  obtain ⟨n, exponent⟩ := d
  dsimp only [Binary64.digitChars] at hn ⊢
  have hplace : exponent + (Nat.toDigits 10 n).length - 1 + 1 - (Nat.toDigits 10 n).length =
      exponent := by omega
  split
  next =>
    have hspells := spells_positional hn (exponent + (Nat.toDigits 10 n).length - 1 + 1)
    rwa [hplace] at hspells
  next =>
    have hspells := spells_scientific hn spelling.exponentWidth
      (exponent + (Nat.toDigits 10 n).length - 1)
    rwa [hplace] at hspells

/-! ## All doubles -/

theorem readsBack_infinity (negative : Bool) : ReadsBack (.infinity negative) := by
  cases negative
  · exact ⟨by decide, rfl⟩
  · exact ⟨by decide, rfl⟩

/-- Zero has a text of its own. -/
theorem scalar_zero (negative : Bool) :
    Yields (scalar ((if negative then ['-'] else []) ++ ['0', '.', '0']))
      (.float (.ofMagnitude negative 0)) [] := by
  cases negative
  · exact ⟨by decide, rfl⟩
  · exact ⟨by decide, rfl⟩

/-- **The text of a double that is a number is read as the double.** -/
theorem readsBack {x : Binary64} (h : x.isNaN = false) : ReadsBack x := by
  have hself := Binary64.ofMagnitude_eq_self x
  cases hvalue : x.value with
  | nan => exact absurd (Binary64.isNaN_of_value hvalue) (Bool.eq_false_iff.1 h)
  | infinite negative =>
    obtain ⟨rfl, hinf⟩ := Binary64.infinite_of_value hvalue
    rw [← hself, hinf]
    exact readsBack_infinity _
  | finite negative m q =>
    obtain ⟨rfl, hzero, hplaces⟩ := Binary64.finite_of_value hvalue
    rw [ReadsBack, Binary64.Notation.chars, hvalue]
    by_cases hm : m = 0
    · have hscalar := scalar_zero x.negative
      rw [← hzero hm, hself] at hscalar
      dsimp only
      rwa [Binary64.Notation.unsigned, if_pos hm]
    · obtain ⟨d, hd, hyields⟩ := (spells_unsigned .document hm q).scalar x.negative
      have hcontains := (Binary64.isAround_trim_shortest hm q).contains
      rw [← hd] at hcontains
      rwa [Binary64.ofDecimal_of_contains (hplaces hm) hcontains, hself] at hyields

/-! ## Values without not-a-numbers -/

mutual

/-- Whatever is in the value, and is no list and no object, has the property. -/
def AllScalars (p : Json → Prop) : Json → Prop
  | .arr items => AllScalarsItems p items
  | .obj fields => AllScalarsFields p fields
  | v => p v

/-- All scalars of the items have the property. -/
def AllScalarsItems (p : Json → Prop) : List Json → Prop
  | [] => True
  | v :: rest => AllScalars p v ∧ AllScalarsItems p rest

/-- All scalars of the values of the entries have the property. -/
def AllScalarsFields (p : Json → Prop) : List (String × Json) → Prop
  | [] => True
  | (_, v) :: rest => AllScalars p v ∧ AllScalarsFields p rest

end

/-- No double in the value is a not-a-number. -/
def NaNFree : Json → Prop := AllScalars fun v => ∀ x, v = .float x → x.isNaN = false

/-- No integer in the value has too many digits. -/
def Writable : Json → Prop := AllScalars fun v => ∀ i, v = .int i → i.natAbs < Numeral.unwritable

mutual

/-- **What is legible.** -/
theorem legible_of_nanFree : ∀ v : Json, Keyed v → NaNFree v → Writable v → Legible v
  | .null, _, _, _ | .bool _, _, _, _ | .str _, _, _, _ => trivial
  | .int i, _, _, h => h i rfl
  | .float x, _, h, _ => readsBack (h x rfl)
  | .arr items, hkeyed, hnan, hint => legibleItems_of_nanFree items hkeyed hnan hint
  | .obj fields, hkeyed, hnan, hint =>
    ⟨hkeyed.1, legibleFields_of_nanFree fields hkeyed.2 hnan hint⟩

theorem legibleItems_of_nanFree : ∀ items : List Json, KeyedItems items →
    NaNFree (.arr items) → Writable (.arr items) → LegibleItems items
  | [], _, _, _ => trivial
  | v :: rest, hkeyed, hnan, hint =>
    ⟨legible_of_nanFree v hkeyed.1 hnan.1 hint.1,
      legibleItems_of_nanFree rest hkeyed.2 hnan.2 hint.2⟩

theorem legibleFields_of_nanFree : ∀ fields : Fields, KeyedFields fields →
    NaNFree (.obj fields) → Writable (.obj fields) → LegibleFields fields
  | [], _, _, _ => trivial
  | (_, v) :: rest, hkeyed, hnan, hint =>
    ⟨legible_of_nanFree v hkeyed.1 hnan.1 hint.1,
      legibleFields_of_nanFree rest hkeyed.2 hnan.2 hint.2⟩

end

end Json

end NodeFlow
