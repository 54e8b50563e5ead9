import NodeFlow.Proofs.Binary64.Rounding
/-!
# The shortest decimal is around the double

Whatever grid the search ends on, the decimal it finds is around the double:
each candidate is tested, and where no grid has one the exact decimal is taken
(`Interval.isAround_shortest`). Zeros that are dropped do not change the value.
-/

namespace NodeFlow.Binary64

/-! ## The test of a candidate -/

/-- A power of a natural exponent, for exponents of either sign. -/
theorem pow_toNat {b : ℚ} (hb : b ≠ 0) (e : Int) : b ^ e.toNat = b ^ e * b ^ (-e).toNat := by
  rcases Int.le_total 0 e with h | h
  · obtain ⟨n, rfl⟩ := Int.eq_ofNat_of_zero_le h
    have hn : (-(n : Int)).toNat = 0 := by omega
    rw [hn, Int.toNat_natCast, zpow_natCast, pow_zero, mul_one]
  · obtain ⟨n, rfl⟩ : ∃ n : Nat, e = -n := ⟨(-e).toNat, by omega⟩
    have hn : (-(n : Int)).toNat = 0 := by omega
    have hn' : (- -(n : Int)).toNat = n := by omega
    rw [hn, hn', zpow_neg, zpow_natCast, pow_zero, inv_mul_cancel₀ (pow_ne_zero n hb)]

namespace Interval

variable {i : Interval} {d : Decimal}

/-- Two numbers on a common scale. -/
theorem common_eq (i : Interval) (d : Decimal) :
    ∃ scale : ℚ, 0 < scale ∧ ∀ n, ((i.common d n).1 : ℚ) = d.value * scale ∧
      ((i.common d n).2 : ℚ) = n * 2 ^ i.exponent * scale := by
  refine ⟨2 ^ (-i.exponent).toNat * 10 ^ (-d.exponent).toNat, by positivity, fun n => ?_⟩
  have hten := pow_toNat (b := 10) (by norm_num) d.exponent
  have htwo := pow_toNat (b := 2) (by norm_num) i.exponent
  rw [common, Decimal.value]
  constructor
  · push_cast [Nat.pow_eq]
    rw [hten]
    ring
  · push_cast [Nat.pow_eq]
    rw [htwo]
    ring

/-- **The test of a candidate** compares numbers. -/
theorem holds_iff : i.holds d ↔ i.Contains d.value := by
  obtain ⟨scale, hscale, hcommon⟩ := i.common_eq d
  have hle : ∀ n, (i.common d n).1 ≤ (i.common d n).2 ↔ d.value ≤ n * 2 ^ i.exponent := fun n => by
    rw [← Nat.cast_le (α := ℚ), (hcommon n).1, (hcommon n).2, mul_le_mul_iff_left₀ hscale]
  have hge : ∀ n, (i.common d n).2 ≤ (i.common d n).1 ↔ n * 2 ^ i.exponent ≤ d.value := fun n => by
    rw [← Nat.cast_le (α := ℚ), (hcommon n).1, (hcommon n).2, mul_le_mul_iff_left₀ hscale]
  rw [holds, Contains]
  split
  next => simp only [Bool.and_eq_true, decide_eq_true_eq, hle, hge]
  next => simp only [Bool.and_eq_true, decide_eq_true_eq, ← not_le, hle, hge]

/-! ## The search -/

/-- The decimal is in the interval, and is not zero. -/
structure IsAround (i : Interval) (d : Decimal) : Prop where
  contains : i.Contains d.value
  digits_ne : d.digits ≠ 0

/-- A point on a grid is found by its test. -/
theorem isAround_of_onGrid? {exponent : Int} (h : i.onGrid? exponent = some d) : i.IsAround d := by
  have hdown : (i.holds (i.below exponent) && (i.below exponent).digits ≠ 0) = true →
      i.IsAround (i.below exponent) := by
    intro h
    rw [Bool.and_eq_true, decide_eq_true_iff] at h
    exact ⟨holds_iff.1 h.1, h.2⟩
  have hup : i.holds ⟨(i.below exponent).digits + 1, exponent⟩ = true →
      i.IsAround ⟨(i.below exponent).digits + 1, exponent⟩ := fun h =>
    ⟨holds_iff.1 h, Nat.succ_ne_zero _⟩
  rw [onGrid?] at h
  dsimp only at h
  split at h
  next hbelow habove =>
    split at h
    · obtain rfl := Option.some.inj h
      exact hdown hbelow
    split at h
    · obtain rfl := Option.some.inj h
      exact hup habove
    split at h
    · obtain rfl := Option.some.inj h
      exact hdown hbelow
    · obtain rfl := Option.some.inj h
      exact hup habove
  next hbelow _ =>
    obtain rfl := Option.some.inj h
    exact hdown hbelow
  next _ habove =>
    obtain rfl := Option.some.inj h
    exact hup habove
  next => cases h

theorem value_exact (i : Interval) : i.exact.value = i.mid * 2 ^ i.exponent := by
  rw [exact]
  split
  next h =>
    obtain ⟨n, hn⟩ := Int.eq_ofNat_of_zero_le h
    rw [Decimal.value, hn, Int.toNat_natCast, zpow_natCast]
    push_cast [Nat.pow_eq]
    ring
  next h =>
    obtain ⟨n, hn⟩ : ∃ n : Nat, i.exponent = -n := ⟨(-i.exponent).toNat, by omega⟩
    have hn' : (- -(n : Int)).toNat = n := by omega
    have hten : (10 : ℚ) ^ n = 2 ^ n * 5 ^ n := by rw [← mul_pow]; norm_num
    rw [Decimal.value, hn, hn', zpow_neg, zpow_neg, zpow_natCast, zpow_natCast, hten]
    push_cast [Nat.pow_eq]
    field_simp

/-- The double itself is in the interval. -/
theorem isAround_exact {m : Nat} (hm : m ≠ 0) (q : Int) :
    (around m q).IsAround (around m q).exact := by
  have hlow : (around m q).low < (around m q).mid := by
    rw [around]
    dsimp only
    split <;> omega
  have hhigh : (around m q).mid < (around m q).high := by
    rw [around]
    dsimp only
    omega
  have hlow' : ((around m q).low : ℚ) < (around m q).mid := by exact_mod_cast hlow
  have hhigh' : ((around m q).mid : ℚ) < (around m q).high := by exact_mod_cast hhigh
  have hvalue := (around m q).value_exact
  have hpos : (0 : ℚ) < (2 : ℚ) ^ (around m q).exponent := by positivity
  constructor
  case contains =>
    have hbelow : (around m q).low * (2 : ℚ) ^ (around m q).exponent <
        (around m q).exact.value := by
      rw [hvalue]
      gcongr
    have habove : (around m q).exact.value <
        (around m q).high * (2 : ℚ) ^ (around m q).exponent := by
      rw [hvalue]
      gcongr
    rw [Contains]
    split
    · exact ⟨hbelow.le, habove.le⟩
    · exact ⟨hbelow, habove⟩
  case digits_ne =>
    have hmid : (around m q).mid ≠ 0 := by omega
    rw [exact]
    split
    · exact Nat.mul_ne_zero hmid (by simp)
    · exact Nat.mul_ne_zero hmid (by simp)

theorem isAround_search (h : i.IsAround i.exact) (n : Nat) (exponent : Int) :
    i.IsAround (i.search n exponent) := by
  induction n generalizing exponent with
  | zero => exact h
  | succ n ih =>
    rw [search]
    cases hgrid : i.onGrid? exponent with
    | none => exact ih _
    | some d => exact isAround_of_onGrid? hgrid

end Interval

/-! ## Zeros at the end -/

namespace Decimal

/-- The same number, with digits where the other has digits. -/
structure SameAs (d d' : Decimal) : Prop where
  value_eq : d'.value = d.value
  digits_ne : d.digits ≠ 0 → d'.digits ≠ 0

theorem sameAs_go (n : Nat) (d : Decimal) : d.SameAs (trim.go n d) := by
  induction n generalizing d with
  | zero => exact ⟨rfl, id⟩
  | succ n ih =>
    rw [trim.go]
    split
    next hzero =>
      obtain ⟨hvalue, hne⟩ := ih ⟨d.digits / 10, d.exponent + 1⟩
      have hdigits : d.digits = d.digits / 10 * 10 := by omega
      refine ⟨hvalue.trans ?_, fun h => hne ?_⟩
      · have hcast : (d.digits : ℚ) = (d.digits / 10 : Nat) * 10 := by exact_mod_cast hdigits
        rw [value, value, hcast, zpow_add_one₀ (by norm_num)]
        ring
      · dsimp only
        omega
    next => exact ⟨rfl, id⟩

end Decimal

/-- **The digits that are written are around the double.** -/
theorem isAround_trim_shortest {m : Nat} (hm : m ≠ 0) (q : Int) :
    (Interval.around m q).IsAround (shortest m q).trim := by
  have h : (Interval.around m q).IsAround (shortest m q) :=
    Interval.isAround_search (Interval.isAround_exact hm q) _ _
  obtain ⟨hvalue, hne⟩ := (shortest m q).sameAs_go (Nat.log2 (shortest m q).digits)
  exact ⟨by rw [Decimal.trim, hvalue]; exact h.contains, hne h.digits_ne⟩

end NodeFlow.Binary64
