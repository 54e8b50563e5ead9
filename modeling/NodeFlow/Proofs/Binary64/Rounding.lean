import Mathlib.Algebra.Order.Field.Power
import Mathlib.Tactic.FieldSimp
import Mathlib.Tactic.Linarith
import Mathlib.Tactic.NormNum
import Mathlib.Tactic.Positivity
import Mathlib.Tactic.Ring
import NodeFlow.Binary64.Shortest
/-!
# Rounding to nearest

What a rational number rounds to, said with rationals. `Interval.Contains` is
the set of numbers around a double; `ofRatio_of_contains` says that a ratio in
it rounds to this double, so the interval is that of rounding. The exponent of
the last place is the one that gives the quotient 53 bits (`IsLastPlace`), and
there is only one, so no rounding is done twice.
-/

namespace NodeFlow.Binary64

/-! ## The nearest natural number -/

variable {num den k : Nat}

/-- **Rounding a quotient**: the number that is less than a half away from it, or just a half if it
is even. -/
theorem roundDiv_eq (hden : 0 < den) (hlow : 2 * k * den ≤ 2 * num + den)
    (hhigh : 2 * num ≤ 2 * k * den + den)
    (htie : k % 2 = 1 → 2 * k * den < 2 * num + den ∧ 2 * num < 2 * k * den + den) :
    roundDiv num den = k := by
  have hdiv : den * (num / den) + num % den = num := Nat.div_add_mod num den
  have hrest : num % den < den := Nat.mod_lt _ hden
  rw [roundDiv]
  generalize num / den = quotient at hdiv ⊢
  generalize num % den = rest at hdiv hrest ⊢
  subst hdiv
  -- the quotient is at most a half away, so its integer part is `k` or the number below
  have hk : k = quotient ∨ k = quotient + 1 := by
    have hle : quotient ≤ k := by
      by_contra hlt
      have : (k + 1) * den ≤ quotient * den := Nat.mul_le_mul_right den (by omega)
      nlinarith
    have hge : k ≤ quotient + 1 := by
      by_contra hlt
      have : (quotient + 2) * den ≤ k * den := Nat.mul_le_mul_right den (by omega)
      nlinarith
    omega
  rcases hk with rfl | rfl
  · have hhalf : 2 * rest ≤ den := by nlinarith
    by_cases hodd : k % 2 = 1
    · have := (htie hodd).2
      have hless : 2 * rest < den := by nlinarith
      simp [hless]
    · have heven : k % 2 = 0 := by omega
      simp [heven, Nat.not_lt.2 hhalf]
  · have hhalf : den ≤ 2 * rest := by nlinarith
    have hnot : ¬ 2 * rest < den := Nat.not_lt.2 hhalf
    by_cases hodd : (quotient + 1) % 2 = 1
    · have := (htie hodd).1
      have hmore : den < 2 * rest := by nlinarith
      simp [hnot, hmore]
    · have hlower : quotient % 2 ≠ 0 := by omega
      simp [hnot, hlower]

/-! ## The last place -/

/-- A unit is twice the one below it. -/
theorem two_zpow_eq (q : Int) : (2 : ℚ) ^ q = 2 * 2 ^ (q - 1) := by
  rw [← zpow_one_add₀ (by norm_num)]
  congr 1
  omega

/-- The scale by a power of two. -/
theorem scaled_eq (num : Nat) (hden : 0 < den) (e : Int) :
    0 < (scaled num den e).2 ∧
      ((scaled num den e).1 : ℚ) / (scaled num den e).2 = num / den / 2 ^ e := by
  rw [scaled]
  split
  next h =>
    obtain ⟨n, rfl⟩ : ∃ n : Nat, e = -n := ⟨(-e).toNat, by omega⟩
    refine ⟨hden, ?_⟩
    have hn : (- -(n : Int)).toNat = n := by omega
    simp only [hn, Nat.pow_eq, Nat.cast_mul, Nat.cast_pow, Nat.cast_ofNat, zpow_neg, zpow_natCast]
    field_simp
  next h =>
    obtain ⟨n, rfl⟩ : ∃ n : Nat, e = n := ⟨e.toNat, by omega⟩
    refine ⟨Nat.mul_pos hden (Nat.pow_pos (by decide)), ?_⟩
    simp only [Int.toNat_natCast, Nat.pow_eq, Nat.cast_mul, Nat.cast_pow, Nat.cast_ofNat,
      zpow_natCast]
    field_simp

/-- The exponent of the last place of a number: the quotient has 53 bits, or fewer if the exponent
is the least there is. -/
structure IsLastPlace (r : ℚ) (e : Int) : Prop where
  least : -1074 ≤ e
  lt : r < 2 ^ 53 * 2 ^ e
  full : e = -1074 ∨ 2 ^ 52 * 2 ^ e ≤ r

variable {r : ℚ} {e q : Int}

/-- No number has two last places. -/
theorem IsLastPlace.le (h : IsLastPlace r e) (h' : IsLastPlace r q) : e ≤ q := by
  by_contra hlt
  rcases h.full with hleast | hfull
  · have := h'.least
    omega
  · have hstep : (2 : ℚ) * 2 ^ q ≤ 2 ^ e := by
      rw [← zpow_one_add₀ (by norm_num)]
      exact zpow_le_zpow_right₀ (by norm_num) (by omega)
    have := h'.lt
    linarith

theorem IsLastPlace.unique (h : IsLastPlace r e) (h' : IsLastPlace r q) : e = q :=
  Int.le_antisymm (h.le h') (h'.le h)

/-- The lengths of two numbers tell their quotient up to a factor of two to either side. -/
theorem quotient_bounds (hnum : num ≠ 0) (hden : den ≠ 0) :
    (2 : ℚ) ^ ((num.log2 : Int) - den.log2 - 1) < num / den ∧
      (num / den : ℚ) < 2 ^ ((num.log2 : Int) - den.log2 + 1) := by
  have hnumLow : (2 : ℚ) ^ (num.log2 : Int) ≤ num := by
    exact_mod_cast Nat.log2_self_le hnum
  have hnumHigh : (num : ℚ) < 2 ^ ((num.log2 : Int) + 1) := by
    exact_mod_cast Nat.lt_log2_self (n := num)
  have hdenLow : (2 : ℚ) ^ (den.log2 : Int) ≤ den := by
    exact_mod_cast Nat.log2_self_le hden
  have hdenHigh : (den : ℚ) < 2 ^ ((den.log2 : Int) + 1) := by
    exact_mod_cast Nat.lt_log2_self (n := den)
  have hpos : (0 : ℚ) < den := by exact_mod_cast Nat.pos_of_ne_zero hden
  constructor
  · rw [lt_div_iff₀ hpos]
    calc (2 : ℚ) ^ ((num.log2 : Int) - den.log2 - 1) * den
        < 2 ^ ((num.log2 : Int) - den.log2 - 1) * 2 ^ ((den.log2 : Int) + 1) := by gcongr
      _ = 2 ^ (num.log2 : Int) := by
          rw [← zpow_add₀ (by norm_num)]
          congr 1
          omega
      _ ≤ num := hnumLow
  · rw [div_lt_iff₀ hpos]
    calc (num : ℚ) < 2 ^ ((num.log2 : Int) + 1) := hnumHigh
      _ = 2 ^ ((num.log2 : Int) - den.log2 + 1) * 2 ^ (den.log2 : Int) := by
          rw [← zpow_add₀ (by norm_num)]
          congr 1
          omega
      _ ≤ 2 ^ ((num.log2 : Int) - den.log2 + 1) * den := by gcongr

theorem isLastPlace_lastPlace (hnum : num ≠ 0) (hden : den ≠ 0) :
    IsLastPlace (num / den) (lastPlace num den) := by
  obtain ⟨hlow, hhigh⟩ := quotient_bounds hnum hden
  obtain ⟨hpos, hquotient⟩ := scaled_eq num (Nat.pos_of_ne_zero hden)
    ((num.log2 : Int) - den.log2 - 52)
  rw [lastPlace]
  generalize hguess : (num.log2 : Int) - den.log2 - 52 = guess at *
  -- the first guess is the place or the one above it
  have hlow' : (2 : ℚ) ^ 51 * 2 ^ guess < num / den := by
    refine lt_of_eq_of_lt ?_ hlow
    rw [← zpow_natCast, ← zpow_add₀ (by norm_num)]
    congr 1
    omega
  have hhigh' : (num / den : ℚ) < 2 ^ 53 * 2 ^ guess := by
    refine lt_of_lt_of_eq hhigh ?_
    rw [← zpow_natCast, ← zpow_add₀ (by norm_num)]
    congr 1
    omega
  have htest : (scaled num den guess).1 < Nat.pow 2 52 * (scaled num den guess).2 ↔
      (num / den : ℚ) < 2 ^ 52 * 2 ^ guess := by
    have hscale : (0 : ℚ) < 2 ^ guess := by positivity
    have hpos' : (0 : ℚ) < (scaled num den guess).2 := by exact_mod_cast hpos
    rw [← div_lt_iff₀ hscale, ← hquotient, div_lt_iff₀ hpos']
    exact_mod_cast Iff.rfl
  have hhalf := two_zpow_eq guess
  have hplace : ∀ e : Int, (num / den : ℚ) < 2 ^ 53 * 2 ^ e → (2 : ℚ) ^ 52 * 2 ^ e ≤ num / den →
      IsLastPlace (num / den) (max (-1074) e) := by
    intro e hlt hfull
    rcases le_total (-1074) e with hle | hle
    · rw [max_eq_right hle]
      exact ⟨hle, hlt, .inr hfull⟩
    · rw [max_eq_left hle]
      have hmono : (2 : ℚ) ^ e ≤ 2 ^ (-1074 : Int) := zpow_le_zpow_right₀ (by norm_num) hle
      exact ⟨le_refl _, by linarith, .inl rfl⟩
  split
  next h =>
    rw [htest] at h
    exact hplace _ (by linarith) (by linarith)
  next h =>
    rw [htest, not_lt] at h
    exact hplace _ hhigh' h

/-! ## The numbers around a double -/

/-- A number is at most half a unit away from `k` units, and less if `k` is odd. -/
structure NearestTo (r : ℚ) (k : Nat) (e : Int) : Prop where
  below : 2 * k * 2 ^ e ≤ 2 * r + 2 ^ e
  above : 2 * r ≤ 2 * k * 2 ^ e + 2 ^ e
  tie : k % 2 = 1 → 2 * k * 2 ^ e < 2 * r + 2 ^ e ∧ 2 * r < 2 * k * 2 ^ e + 2 ^ e

theorem NearestTo.roundDiv_scaled (hden : 0 < den) (h : NearestTo (num / den) k e) :
    roundDiv (scaled num den e).1 (scaled num den e).2 = k := by
  obtain ⟨hpos, hquotient⟩ := scaled_eq num hden e
  have hunit : (0 : ℚ) < 2 ^ e := by positivity
  have hpos' : (0 : ℚ) < (scaled num den e).2 := by exact_mod_cast hpos
  -- one unit of the number is the denominator of the scaled quotient
  have hscale : (num / den : ℚ) * (scaled num den e).2 = (scaled num den e).1 * 2 ^ e := by
    rw [div_eq_div_iff hpos'.ne' hunit.ne'] at hquotient
    linarith
  have hle : ∀ a b : Nat, (a : ℚ) * 2 ^ e ≤ b * 2 ^ e → a ≤ b := fun a b hab => by
    exact_mod_cast le_of_mul_le_mul_right hab hunit
  have hlt : ∀ a b : Nat, (a : ℚ) * 2 ^ e < b * 2 ^ e → a < b := fun a b hab => by
    exact_mod_cast lt_of_mul_lt_mul_right hab hunit.le
  have hbelow := mul_le_mul_of_nonneg_right h.below hpos'.le
  have habove := mul_le_mul_of_nonneg_right h.above hpos'.le
  refine roundDiv_eq hpos (hle _ _ ?_) (hle _ _ ?_) fun hodd => ⟨hlt _ _ ?_, hlt _ _ ?_⟩
  · push_cast
    linarith
  · push_cast
    linarith
  · have := mul_lt_mul_of_pos_right (h.tie hodd).1 hpos'
    push_cast
    linarith
  · have := mul_lt_mul_of_pos_right (h.tie hodd).2 hpos'
    push_cast
    linarith

/-- The numbers in an interval. -/
def Interval.Contains (i : Interval) (r : ℚ) : Prop :=
  if i.closed then i.low * 2 ^ i.exponent ≤ r ∧ r ≤ i.high * 2 ^ i.exponent
  else i.low * 2 ^ i.exponent < r ∧ r < i.high * 2 ^ i.exponent

/-- The significands and exponents of the positive doubles, with their magnitudes. -/
structure Places (m : Nat) (q : Int) (magnitude : Nat) : Prop where
  pos : 0 < m
  lt : m < 2 ^ 53
  least : -1074 ≤ q
  full : q = -1074 ∨ 2 ^ 52 ≤ m
  magnitude_eq : magnitude = (q + 1074).toNat * 2 ^ 52 + m
  finite : magnitude < infiniteMagnitude

variable {m magnitude : Nat}

theorem two_zpow_sub_two (q : Int) : (2 : ℚ) ^ (q - 2) = 2 ^ q / 4 := by
  rw [zpow_sub₀ (by norm_num)]
  norm_num

/-- What is around a double is nearest to it. -/
theorem nearestTo_of_contains (hm : 0 < m) (h : (Interval.around m q).Contains r) :
    NearestTo r m q := by
  have hunit : (0 : ℚ) < 2 ^ q := by positivity
  have hlow : (4 * m - 2 : ℚ) ≤ (Interval.around m q).low := by
    have hnat : 4 * m ≤ (Interval.around m q).low + 2 := by
      rw [Interval.around]
      dsimp only
      split <;> omega
    have hcast : ((4 * m : Nat) : ℚ) ≤ (Interval.around m q).low + 2 := by exact_mod_cast hnat
    push_cast at hcast
    linarith
  have hbelow : (4 * m - 2 : ℚ) * (2 ^ q / 4) ≤ (Interval.around m q).low * (2 ^ q / 4) := by gcongr
  have hhigh : ((Interval.around m q).high : ℚ) = 4 * m + 2 := by simp [Interval.around]
  rw [Interval.Contains] at h
  have hexponent : (Interval.around m q).exponent = q - 2 := rfl
  rw [hexponent, two_zpow_sub_two, hhigh] at h
  split at h
  next hclosed =>
    have heven : m % 2 = 0 := by simpa [Interval.around] using hclosed
    exact ⟨by linarith, by linarith, fun hodd => by omega⟩
  next => exact ⟨by linarith, by linarith, fun _ => ⟨by linarith, by linarith⟩⟩

/-- Where the unit halves below a double, what is around it is nearest to it in the smaller unit as
well. -/
theorem nearestTo_half_of_contains (hq : -1074 < q) (h : (Interval.around (2 ^ 52) q).Contains r)
    (hlt : r < 2 ^ 52 * 2 ^ q) : NearestTo r (2 ^ 53) (q - 1) := by
  have hunit := two_zpow_eq q
  have hlow : ((Interval.around (2 ^ 52) q).low : ℚ) = 4 * 2 ^ 52 - 1 := by
    simp [Interval.around, hq]
    norm_num
  have hpos : (0 : ℚ) < 2 ^ (q - 1) := by positivity
  have hexponent : (Interval.around (2 ^ 52) q).exponent = q - 2 := rfl
  have hclosed : (Interval.around (2 ^ 52) q).closed = true := by simp [Interval.around]
  rw [Interval.Contains, if_pos hclosed, hexponent, two_zpow_sub_two, hlow, hunit] at h
  rw [hunit] at hlt
  exact ⟨by push_cast; linarith, by push_cast; linarith, fun hodd => absurd hodd (by decide)⟩

/-- **A ratio around a double rounds to it.** -/
theorem ofRatio_of_contains (hp : Places m q magnitude) (hden : 0 < den)
    (h : (Interval.around m q).Contains (num / den)) (negative : Bool) :
    ofRatio negative num den = ofMagnitude negative magnitude := by
  have hunit : (0 : ℚ) < 2 ^ q := by positivity
  have hm : (1 : ℚ) ≤ m := by exact_mod_cast hp.pos
  have hm' : (m : ℚ) + 1 ≤ 2 ^ 53 := by exact_mod_cast hp.lt
  have hnear := nearestTo_of_contains hp.pos h
  have hnum : num ≠ 0 := by
    rintro rfl
    have := hnear.below
    have : (1 : ℚ) * 2 ^ q ≤ m * 2 ^ q := by gcongr
    norm_num at *
    linarith
  have hlast := isLastPlace_lastPlace hnum hden.ne'
  have hmin : min magnitude infiniteMagnitude = magnitude := min_eq_left hp.finite.le
  rw [ofRatio, if_neg hnum]
  by_cases hfull : q = -1074 ∨ 2 ^ 52 * 2 ^ q ≤ (num / den : ℚ)
  · have hq : IsLastPlace (num / den) q := by
      refine ⟨hp.least, ?_, hfull⟩
      have := hnear.above
      have : (m + 1 : ℚ) * 2 ^ q ≤ 2 ^ 53 * 2 ^ q := by gcongr
      linarith
    simp only [hlast.unique hq, hnear.roundDiv_scaled hden]
    rw [Nat.pow_eq, ← hp.magnitude_eq, hmin]
  · -- just below a power of two the unit is half as large, and the carry makes up for it
    rw [not_or, not_le] at hfull
    obtain ⟨hq, hlt⟩ := hfull
    have hm52 : m = 2 ^ 52 := by
      refine le_antisymm ?_ (hp.full.resolve_left hq)
      have := hnear.below
      have hlt' : (2 * m : ℚ) < 2 * 2 ^ 52 + 1 := by
        refine lt_of_mul_lt_mul_right ?_ hunit.le
        linarith
      have : 2 * m < 2 * 2 ^ 52 + 1 := by exact_mod_cast hlt'
      omega
    have hleast := hp.least
    rw [hm52] at h
    have hnear' := nearestTo_half_of_contains (by omega) h hlt
    have hhalf := two_zpow_eq q
    have hq' : IsLastPlace (num / den) (q - 1) := by
      have := hnear'.below
      rw [hhalf] at hlt
      push_cast at *
      exact ⟨by omega, by linarith, .inr (by linarith)⟩
    have hmagnitude : (q - 1 + 1074).toNat * 2 ^ 52 + 2 ^ 53 = magnitude := by
      have := hp.magnitude_eq
      omega
    simp only [hlast.unique hq', hnear'.roundDiv_scaled hden]
    rw [Nat.pow_eq, hmagnitude, hmin]

/-! ## Decimals -/

/-- What is around a finite double is at least half a unit, and has no more digits than a
significand. -/
theorem range_of_contains (hp : Places m q magnitude) (h : (Interval.around m q).Contains r) :
    2 ^ (q - 1) ≤ r ∧ r < 2 ^ (q + 53) := by
  have hm : (1 : ℚ) ≤ m := by exact_mod_cast hp.pos
  have hm' : (m : ℚ) + 1 ≤ 2 ^ 53 := by exact_mod_cast hp.lt
  have hunit : (0 : ℚ) < 2 ^ q := by positivity
  have hnear := nearestTo_of_contains hp.pos h
  have hbelow := hnear.below
  have habove := hnear.above
  have hone : (1 : ℚ) * 2 ^ q ≤ m * 2 ^ q := by gcongr
  have hall : ((m : ℚ) + 1) * 2 ^ q ≤ 2 ^ 53 * 2 ^ q := by gcongr
  constructor
  · rw [zpow_sub_one₀ (by norm_num)]
    linarith
  · have hsplit : (2 : ℚ) ^ (q + 53) = 2 ^ q * 2 ^ 53 := by
      rw [zpow_add₀ (by norm_num)]
      norm_cast
    linarith

theorem Places.le_greatest (hp : Places m q magnitude) : q ≤ 971 := by
  have hfinite := hp.finite
  have hmagnitude := hp.magnitude_eq
  rw [infiniteMagnitude, Nat.pow_eq] at hfinite
  rcases hp.full with hq | hfull <;> omega

theorem two_pow_lt_ten_pow : (2 : ℚ) ^ 1024 < 10 ^ 311 :=
  calc (2 : ℚ) ^ 1024 = (2 ^ 93) ^ 11 * 2 := by rw [← pow_mul, ← pow_succ]
    _ < (10 ^ 28) ^ 11 * 10 ^ 3 := by gcongr <;> norm_num
    _ = 10 ^ 311 := by rw [← pow_mul, ← pow_add]

theorem two_pow_lt_ten_pow_of_tiny : (2 : ℚ) ^ 1075 < 10 ^ 400 :=
  calc (2 : ℚ) ^ 1075 ≤ 2 ^ (3 * 400) := pow_le_pow_right₀ (by norm_num) (by norm_num)
    _ = (2 ^ 3) ^ 400 := pow_mul _ _ _
    _ < 10 ^ 400 := by gcongr; norm_num

/-- The value of a decimal. -/
def Decimal.value (d : Decimal) : ℚ := d.digits * 10 ^ d.exponent

/-- **A decimal around a double rounds to it.** -/
theorem ofDecimal_of_contains (hp : Places m q magnitude) {d : Decimal}
    (h : (Interval.around m q).Contains d.value) (negative : Bool) :
    ofDecimal negative d.digits d.exponent = ofMagnitude negative magnitude := by
  obtain ⟨digits, exponent⟩ := d
  obtain ⟨hlow, hhigh⟩ := range_of_contains hp h
  rw [Decimal.value] at h hlow hhigh
  dsimp only at *
  have hten : (0 : ℚ) < 10 ^ exponent := by positivity
  have hdigits : digits ≠ 0 := by
    rintro rfl
    have hpos : (0 : ℚ) < 2 ^ (q - 1) := by positivity
    rw [Nat.cast_zero, zero_mul] at hlow
    exact absurd hlow (not_le.2 hpos)
  have hdigits' : (1 : ℚ) ≤ digits := by exact_mod_cast Nat.pos_of_ne_zero hdigits
  -- neither of the short cuts for numerals out of range is taken
  have hbig : exponent ≤ 310 := by
    by_contra hlt
    refine lt_irrefl ((10 : ℚ) ^ 311) ?_
    calc (10 : ℚ) ^ 311 = 10 ^ ((311 : Nat) : Int) := (zpow_natCast _ _).symm
      _ ≤ 10 ^ exponent := zpow_le_zpow_right₀ (by norm_num) (by omega)
      _ ≤ digits * 10 ^ exponent := le_mul_of_one_le_left hten.le hdigits'
      _ < 2 ^ (q + 53) := hhigh
      _ ≤ 2 ^ ((1024 : Nat) : Int) :=
          zpow_le_zpow_right₀ (by norm_num) (by have := hp.le_greatest; omega)
      _ = 2 ^ 1024 := zpow_natCast _ _
      _ < 10 ^ 311 := two_pow_lt_ten_pow
  have hsmall : -400 - ((digits.log2 + 1 : Nat) : Int) ≤ exponent := by
    by_contra hlt
    have hsize : (digits : ℚ) < 2 ^ (digits.log2 + 1) := by exact_mod_cast Nat.lt_log2_self
    refine lt_irrefl ((2 : ℚ) ^ (-((1075 : Nat) : Int))) ?_
    calc (2 : ℚ) ^ (-((1075 : Nat) : Int))
        ≤ 2 ^ (q - 1) := zpow_le_zpow_right₀ (by norm_num) (by have := hp.least; omega)
      _ ≤ digits * 10 ^ exponent := hlow
      _ < 2 ^ (digits.log2 + 1) * 10 ^ exponent := by gcongr
      _ ≤ 10 ^ (digits.log2 + 1) * 10 ^ exponent := by gcongr; norm_num
      _ = 10 ^ (((digits.log2 + 1 : Nat) : Int) + exponent) := by
          rw [zpow_add₀ (by norm_num), zpow_natCast]
      _ ≤ 10 ^ (-((400 : Nat) : Int)) := zpow_le_zpow_right₀ (by norm_num) (by omega)
      _ < 2 ^ (-((1075 : Nat) : Int)) := by
          rw [zpow_neg, zpow_neg, zpow_natCast, zpow_natCast]
          exact inv_strictAnti₀ (by positivity) two_pow_lt_ten_pow_of_tiny
  rw [ofDecimal, if_neg hdigits, if_neg (by omega), if_neg (by omega)]
  split
  next hneg =>
    refine ofRatio_of_contains hp (Nat.pow_pos (by decide)) ?_ negative
    obtain ⟨n, rfl⟩ : ∃ n : Nat, exponent = -n := ⟨(-exponent).toNat, by omega⟩
    have hn : (- -(n : Int)).toNat = n := by omega
    rwa [hn, Nat.cast_pow, Nat.cast_ofNat, div_eq_mul_inv, ← zpow_natCast, ← zpow_neg]
  next hneg =>
    refine ofRatio_of_contains hp one_pos ?_ negative
    obtain ⟨n, rfl⟩ : ∃ n : Nat, exponent = n := ⟨exponent.toNat, by omega⟩
    rwa [Int.toNat_natCast, Nat.pow_eq, Nat.cast_mul, Nat.cast_pow, Nat.cast_ofNat, Nat.cast_one,
      div_one, ← zpow_natCast]

/-! ## The parts of a double -/

theorem ofMagnitude_eq_self (x : Binary64) : ofMagnitude x.negative x.magnitude = x := by
  obtain ⟨bits⟩ := x
  have hlt : bits.toNat < 2 ^ 64 := bits.toNat_lt
  rw [ofMagnitude, negative, magnitude]
  dsimp only [Nat.pow_eq]
  congr 1
  apply UInt64.toNat_inj.1
  rw [UInt64.toNat_ofNat']
  have hif : (if decide (2 ^ 63 ≤ bits.toNat) = true then 2 ^ 63 else 0) =
      bits.toNat / 2 ^ 63 * 2 ^ 63 := by
    split
    next h =>
      rw [decide_eq_true_iff] at h
      omega
    next h =>
      rw [decide_eq_true_iff] at h
      omega
  rw [hif]
  omega

theorem isNaN_of_value {x : Binary64} (h : x.value = .nan) : x.isNaN = true := by
  rw [value] at h
  split at h
  next hnan => exact decide_eq_true hnan
  next =>
    split at h
    next => cases h
    next => dsimp only at h; split at h <;> cases h

theorem infinite_of_value {x : Binary64} {s : Bool} (h : x.value = .infinite s) :
    s = x.negative ∧ x.magnitude = infiniteMagnitude := by
  rw [value] at h
  split at h
  next => cases h
  next =>
    split at h
    next hinf => exact ⟨(Value.infinite.inj h).symm, hinf⟩
    next => dsimp only at h; split at h <;> cases h

/-- The significand and the exponent of a finite double, and its sign. -/
theorem finite_of_value {x : Binary64} {s : Bool} (h : x.value = .finite s m q) :
    s = x.negative ∧ (m = 0 → x.magnitude = 0) ∧ (m ≠ 0 → Places m q x.magnitude) := by
  rw [value] at h
  split at h
  next => cases h
  next hnan =>
    split at h
    next => cases h
    next hinf =>
      have hlt : x.magnitude < infiniteMagnitude := by omega
      dsimp only [Nat.pow_eq] at h
      have hdiv := Nat.div_add_mod x.magnitude (2 ^ 52)
      have hrest : x.magnitude % 2 ^ 52 < 2 ^ 52 := Nat.mod_lt _ (by decide)
      split at h
      next hzero =>
        injection h with hs hm hq
        subst hs hm hq
        exact ⟨rfl, fun hm => by omega,
          fun hm => ⟨by omega, by omega, le_refl _, .inl rfl, by omega, hlt⟩⟩
      next hbiased =>
        injection h with hs hm hq
        subst hs hm hq
        refine ⟨rfl, fun hm => by omega,
          fun hm => ⟨by omega, by omega, ?_, .inr (by omega), ?_, hlt⟩⟩
        · simp only [Int.ofNat_eq_natCast]
          omega
        · simp only [Int.ofNat_eq_natCast]
          omega

end NodeFlow.Binary64
