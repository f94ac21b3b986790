import Mathlib.Algebra.Order.Field.Power
import Mathlib.Algebra.Order.Field.Rat
import Mathlib.Tactic.Linarith
import Mathlib.Tactic.NormNum
import Mathlib.Tactic.Positivity
import Mathlib.Tactic.Ring
import StyledEffects.Decimal.Binary64

/-! Doubles as rational numbers. From a power of two on they are multiples of a fixed smaller one,
so how close a double can come to a given number depends on the side. Rounding keeps to the powers
of two: what is at least that large is still so when it is rounded. -/

namespace StyledEffects.Decimal

namespace Binary64

def value (x : Binary64) : ℚ :=
  (if x.negative then -1 else 1) * x.significand * (2 : ℚ) ^ x.exponent

theorem abs_value (x : Binary64) : |x.value| = x.significand * (2 : ℚ) ^ x.exponent := by
  have sign : |(if x.negative then -1 else 1 : ℚ)| = 1 := by split <;> simp
  rw [value, abs_mul, abs_mul, sign, one_mul, Nat.abs_cast, abs_of_pos (by positivity)]

theorem units_eq (x : Binary64) : (x.units : ℚ) = x.value * 2 ^ 1074 := by
  have shift : ((Int.pow 2 (x.exponent + 1074).toNat : Int) : ℚ) = 2 ^ x.exponent * 2 ^ 1074 := by
    have power : (Int.pow 2 (x.exponent + 1074).toNat : Int) = 2 ^ (x.exponent + 1074).toNat := rfl
    have := x.le_exponent
    rw [power, Int.cast_pow, ← zpow_natCast, Int.toNat_of_nonneg (by omega),
      zpow_add₀ (by norm_num)]
    norm_num
  unfold units value
  generalize (2 : ℚ) ^ 1074 = least at shift ⊢
  cases x.negative <;> simp only [if_true, Bool.false_eq_true, if_false] <;> push_cast [shift] <;>
    ring

theorem isNear_iff (x : Binary64) (n : Int) : x.isNear n = true ↔ |x.value - n| < 1 / 2 ^ 52 := by
  have scaled : ((x.units - unitsOf n : Int) : ℚ) = (x.value - n) * 2 ^ 1074 := by
    have power : unitsOf n = n * 2 ^ 1074 := rfl
    rw [Int.cast_sub, x.units_eq, power, Int.cast_mul, Int.cast_pow, Int.cast_ofNat, sub_mul]
  unfold isNear
  generalize hk : 1022 = k
  have split : (2 : ℚ) ^ 1074 = 2 ^ 52 * 2 ^ k := by
    rw [← hk]
    exact pow_add 2 52 1022
  have wide : (0 : ℚ) < 2 ^ k := by positivity
  rw [decide_eq_true_iff, ← Nat.cast_lt (α := ℚ), Nat.cast_natAbs, Int.cast_abs, scaled,
    Nat.pow_eq, Nat.cast_pow, Nat.cast_ofNat, abs_mul, abs_of_pos (a := (2 : ℚ) ^ 1074)
    (by positivity), split, ← mul_assoc, lt_div_iff₀ (by positivity)]
  exact mul_lt_iff_lt_one_left wide

/-- A double that is no smaller than a power of two is a multiple of the one 52 powers below. -/
theorem exists_eq_mul {x : Binary64} {k : ℤ} (h : (2 : ℚ) ^ k ≤ |x.value|) :
    ∃ m : ℤ, x.value = m * 2 ^ (k - 52) := by
  rw [abs_value] at h
  have large : k - 52 ≤ x.exponent := by
    by_contra small
    have fits : (x.significand : ℚ) < 2 ^ 53 := by exact_mod_cast x.significand_lt
    have below : (2 : ℚ) ^ x.exponent ≤ 2 ^ (k - 53) :=
      zpow_le_zpow_right₀ (by norm_num) (by omega)
    have split : (2 : ℚ) ^ k = 2 ^ 53 * 2 ^ (k - 53) := by
      rw [← zpow_natCast, ← zpow_add₀ (by norm_num)]
      congr 1
      omega
    have : (x.significand : ℚ) * 2 ^ x.exponent < 2 ^ 53 * 2 ^ (k - 53) :=
      mul_lt_mul fits below (by positivity) (by positivity)
    linarith
  obtain ⟨up, hup⟩ := Int.eq_ofNat_of_zero_le (sub_nonneg.2 large)
  refine ⟨(if x.negative then -1 else 1) * x.significand * 2 ^ up, ?_⟩
  have split : (2 : ℚ) ^ x.exponent = 2 ^ up * 2 ^ (k - 52) := by
    rw [← zpow_natCast, ← zpow_add₀ (by norm_num)]
    congr 1
    omega
  rw [value, split]
  push_cast
  ring

theorem exponent_le_of_abs_eq {x y : Binary64} (h : |x.value| = |y.value|) :
    y.exponent ≤ x.exponent := by
  by_contra lower
  have full : (2 ^ 52 : ℚ) ≤ y.significand := by
    have := x.le_exponent
    exact_mod_cast y.normal.resolve_right (by omega)
  have fits : (x.significand : ℚ) < 2 ^ 53 := by exact_mod_cast x.significand_lt
  have step : (2 : ℚ) ^ (x.exponent + 1) ≤ 2 ^ y.exponent :=
    zpow_le_zpow_right₀ (by norm_num) (by omega)
  have : |x.value| < |y.value| := by
    rw [abs_value, abs_value]
    calc x.significand * (2 : ℚ) ^ x.exponent < 2 ^ 53 * 2 ^ x.exponent := by gcongr
      _ = 2 ^ 52 * 2 ^ (x.exponent + 1) := by rw [zpow_add₀ (by norm_num)]; ring
      _ ≤ y.significand * 2 ^ y.exponent := by gcongr
  exact this.ne h

theorem eq_of_value_eq {x y : Binary64} (h : x.value = y.value) (h0 : x.value ≠ 0) : x = y := by
  have magnitude : |x.value| = |y.value| := congrArg abs h
  have exponent : x.exponent = y.exponent :=
    le_antisymm (exponent_le_of_abs_eq magnitude.symm) (exponent_le_of_abs_eq magnitude)
  rw [abs_value, abs_value, exponent] at magnitude
  have power : (2 : ℚ) ^ y.exponent ≠ 0 := by positivity
  have significand : x.significand = y.significand := by
    exact_mod_cast mul_right_cancel₀ power magnitude
  have sign : x.negative = y.negative := by
    rw [value] at h0
    rw [value, value, significand, exponent, mul_assoc, mul_assoc] at h
    rw [significand, exponent, mul_assoc] at h0
    have signs := mul_right_cancel₀ (right_ne_zero_of_mul h0) h
    generalize x.negative = a at signs ⊢
    generalize y.negative = b at signs ⊢
    cases a <;> cases b <;> first | rfl | norm_num at signs
  obtain ⟨⟩ := x
  obtain ⟨⟩ := y
  subst sign significand exponent
  rfl

theorem eq_of_abs_sub_lt {x : Binary64} {k n : ℤ} {y : ℚ} (h : (2 : ℚ) ^ k ≤ |x.value|)
    (hy : y = n * 2 ^ (k - 52)) (hc : |x.value - y| < 2 ^ (k - 52)) : x.value = y := by
  obtain ⟨m, hm⟩ := exists_eq_mul h
  have step : (0 : ℚ) < 2 ^ (k - 52) := by positivity
  rw [hm, hy, ← sub_mul, abs_mul, abs_of_pos step, mul_lt_iff_lt_one_left step] at hc
  have same : m = n := by
    have : |m - n| < 1 := by exact_mod_cast hc
    rw [Int.abs_lt_one_iff] at this
    omega
  rw [hm, hy, same]

/-- Less than `2 ^ -52` away from 1 there is one double besides 1, the next one below. -/
theorem abs_sub_one_lt_iff {x : Binary64} :
    |x.value - 1| < 1 / 2 ^ 52 ↔ x.value = 1 ∨ x.value = 1 - 1 / 2 ^ 53 := by
  constructor
  · intro h
    obtain ⟨low, high⟩ := abs_lt.1 h
    rcases le_or_gt 1 x.value with above | below
    · have large : (2 : ℚ) ^ (0 : ℤ) ≤ |x.value| := by
        rw [abs_of_nonneg (by linarith)]
        simpa using above
      refine Or.inl (eq_of_abs_sub_lt large (n := 2 ^ 52) (by norm_num) ?_)
      norm_num at h ⊢
      exact h
    · -- below 1 the doubles are twice as close
      have half : 1 - 1 / 2 ^ 52 < x.value := by linarith
      have large : (2 : ℚ) ^ (-1 : ℤ) ≤ |x.value| := by
        rw [abs_of_nonneg (by norm_num at half ⊢; linarith)]
        norm_num at half ⊢
        linarith
      refine Or.inr (eq_of_abs_sub_lt large (n := 2 ^ 53 - 1) (by norm_num) ?_)
      rw [abs_lt]
      norm_num at half ⊢
      constructor <;> linarith
  · rintro (h | h) <;> rw [h] <;> norm_num [abs_lt]

/-- The largest double below 1. -/
def belowOne : Binary64 :=
  ⟨false, Nat.pow 2 53 - 1, -53, by decide, by decide, by decide, by decide⟩

theorem value_belowOne : belowOne.value = 1 - 1 / 2 ^ 53 := by
  norm_num [value, belowOne]

theorem value_eq_iff_eq_belowOne {x : Binary64} : x.value = 1 - 1 / 2 ^ 53 ↔ x = belowOne := by
  constructor
  · intro h
    exact eq_of_value_eq (h.trans value_belowOne.symm) (by rw [h]; norm_num)
  · rintro rfl
    exact value_belowOne

-- 0.99999999999999989 is read as this double, but 0.9999999999999999 as 1
example : ofDecimal? false 99999999999999989 (-17) = some belowOne ∧
    (ofDecimal? false 9999999999999999 (-16)).map value = some 1 := by decide +kernel

theorem abs_sub_two_lt_iff {x : Binary64} : |x.value - 2| < 1 / 2 ^ 52 ↔ x.value = 2 := by
  constructor
  · intro h
    obtain ⟨low, high⟩ := abs_lt.1 h
    have large : (2 : ℚ) ^ (0 : ℤ) ≤ |x.value| := by
      rw [abs_of_nonneg (by norm_num at low ⊢; linarith)]
      norm_num at low ⊢
      linarith
    refine eq_of_abs_sub_lt large (n := 2 ^ 53) (by norm_num) ?_
    norm_num at h ⊢
    exact h
  · intro h
    rw [h]
    norm_num

/-! ## Rounding -/

theorem mul_zpow_le_div_iff {m num den : Nat} {e : ℤ} (hd : den ≠ 0) :
    (m : ℚ) * 2 ^ e ≤ num / den ↔
      if 0 ≤ e then m * (den * 2 ^ e.toNat) ≤ num else m * den ≤ num * 2 ^ (-e).toNat := by
  have pos : (0 : ℚ) < den := by exact_mod_cast Nat.pos_of_ne_zero hd
  rw [le_div_iff₀ pos]
  split
  · next h =>
    rw [← Nat.cast_le (α := ℚ)]
    push_cast
    rw [← zpow_natCast, Int.toNat_of_nonneg h, mul_right_comm, mul_assoc]
  · next h =>
    have up : (2 : ℚ) ^ e * 2 ^ (-e).toNat = 1 := by
      rw [← zpow_natCast, ← zpow_add₀ (by norm_num), Int.toNat_of_nonneg (by omega), add_neg_cancel,
        zpow_zero]
    rw [← Nat.cast_le (α := ℚ), ← mul_le_mul_iff_left₀ (a := (2 : ℚ) ^ (-e).toNat) (by positivity)]
    push_cast
    rw [mul_right_comm _ (2 ^ e : ℚ), mul_assoc _ (2 ^ e : ℚ), up, mul_one]

theorem binaryOrder_spec {num den : Nat} (hn : num ≠ 0) (hd : den ≠ 0) :
    (2 : ℚ) ^ binaryOrder num den ≤ num / den ∧
      (num / den : ℚ) < 2 ^ (binaryOrder num den + 1) := by
  have pos : (0 : ℚ) < den := by exact_mod_cast Nat.pos_of_ne_zero hd
  generalize he : (Nat.log2 num : ℤ) - Nat.log2 den = e
  -- the bit lengths alone leave two powers
  have upper : (num / den : ℚ) < 2 ^ (e + 1) := by
    have low : ((2 ^ Nat.log2 den : Nat) : ℚ) ≤ den := by exact_mod_cast Nat.log2_self_le hd
    have high : (num : ℚ) < (2 ^ (Nat.log2 num + 1) : Nat) := by exact_mod_cast Nat.lt_log2_self
    have split : (2 : ℚ) ^ (Nat.log2 num + 1) = 2 ^ (e + 1) * 2 ^ Nat.log2 den := by
      rw [← zpow_natCast, ← zpow_natCast, ← zpow_add₀ (by norm_num)]
      congr 1
      push_cast
      omega
    rw [div_lt_iff₀ pos]
    push_cast at low high
    calc (num : ℚ) < 2 ^ (e + 1) * 2 ^ Nat.log2 den := by rwa [← split]
      _ ≤ 2 ^ (e + 1) * den := by gcongr
  have lower : (2 : ℚ) ^ (e - 1) ≤ num / den := by
    have low : ((2 ^ Nat.log2 num : Nat) : ℚ) ≤ num := by exact_mod_cast Nat.log2_self_le hn
    have high : (den : ℚ) ≤ (2 ^ (Nat.log2 den + 1) : Nat) := by
      exact_mod_cast Nat.lt_log2_self.le
    have split : (2 : ℚ) ^ (e - 1) * 2 ^ (Nat.log2 den + 1) = 2 ^ Nat.log2 num := by
      rw [← zpow_natCast, ← zpow_natCast, ← zpow_add₀ (by norm_num)]
      congr 1
      push_cast
      omega
    rw [le_div_iff₀ pos]
    push_cast at low high
    calc (2 : ℚ) ^ (e - 1) * den ≤ 2 ^ (e - 1) * 2 ^ (Nat.log2 den + 1) := by gcongr
      _ ≤ num := by rwa [split]
  have reached : ((1 : Nat) : ℚ) * 2 ^ e ≤ num / den ↔ _ := mul_zpow_le_div_iff hd
  rw [Nat.cast_one, one_mul, one_mul, one_mul] at reached
  have order : binaryOrder num den = if (2 : ℚ) ^ e ≤ num / den then e else e - 1 := by
    simp only [binaryOrder, he, Nat.pow_eq, reached]
    by_cases h : 0 ≤ e <;> simp [h]
  rw [order]
  split
  · next h => exact ⟨h, upper⟩
  · next h =>
    rw [sub_add_cancel]
    exact ⟨lower, not_le.1 h⟩

theorem le_roundHalfEven {m num den : Nat} (hd : den ≠ 0) (h : m * den ≤ num) :
    m ≤ roundHalfEven num den := by
  have floor : m ≤ num / den := (Nat.le_div_iff_mul_le (Nat.pos_of_ne_zero hd)).2 h
  unfold roundHalfEven
  dsimp only
  split
  · exact floor
  · split <;> omega

theorem of_ofParts? {negative : Bool} {significand : Nat} {exponent : ℤ} {x : Binary64}
    (h : ofParts? negative significand exponent = some x) :
    x.negative = negative ∧ |x.value| = significand * 2 ^ exponent := by
  unfold ofParts? at h
  split at h
  · obtain rfl := Option.some.inj h
    exact ⟨rfl, abs_value _⟩
  · cases h

/-- Rounding keeps the sign and, on the grid that it rounds to, what is no larger. -/
theorem of_nearest {negative : Bool} {num den : Nat} {x : Binary64} (hn : num ≠ 0) (hd : den ≠ 0)
    (h : nearest negative num den = some x) :
    x.negative = negative ∧ ∃ s : Nat,
      |x.value| = s * (2 : ℚ) ^ max (-1074) (binaryOrder num den - 52) ∧
        ∀ m : Nat, (m : ℚ) * 2 ^ max (-1074) (binaryOrder num den - 52) ≤ num / den → m ≤ s := by
  rw [nearest, if_neg hn] at h
  generalize max (-1074) (binaryOrder num den - 52) = e at h ⊢
  dsimp only at h
  generalize hs : (if 0 ≤ e then roundHalfEven num (den * Nat.pow 2 e.toNat)
    else roundHalfEven (num * Nat.pow 2 (-e).toNat) den) = s at h
  have most : ∀ m : Nat, (m : ℚ) * 2 ^ e ≤ num / den → m ≤ s := by
    intro m hm
    rw [mul_zpow_le_div_iff hd] at hm
    rw [← hs]
    split at hm
    · next up =>
      rw [if_pos up]
      exact le_roundHalfEven (mul_ne_zero hd (Nat.two_pow_pos _).ne') hm
    · next up =>
      rw [if_neg up]
      exact le_roundHalfEven hd hm
  split at h
  · next full =>
    obtain ⟨sign, magnitude⟩ := of_ofParts? h
    refine ⟨sign, s, ?_, most⟩
    rw [magnitude, full, zpow_add₀ (by norm_num)]
    push_cast
    ring
  · obtain ⟨sign, magnitude⟩ := of_ofParts? h
    exact ⟨sign, s, magnitude, most⟩

theorem le_abs_of_nearest {negative : Bool} {num den : Nat} {x : Binary64} {k : ℤ} (hd : den ≠ 0)
    (hk : -1022 ≤ k) (h : nearest negative num den = some x)
    (hq : (2 : ℚ) ^ k ≤ num / den) : (2 : ℚ) ^ k ≤ |x.value| := by
  have hn : num ≠ 0 := by
    rintro rfl
    have : (0 : ℚ) < 2 ^ k := by positivity
    rw [Nat.cast_zero, zero_div] at hq
    linarith
  obtain ⟨low, high⟩ := binaryOrder_spec hn hd
  have order : k ≤ binaryOrder num den := by
    have := (zpow_lt_zpow_iff_right₀ (by norm_num : (1 : ℚ) < 2)).1 (hq.trans_lt high)
    omega
  obtain ⟨-, s, magnitude, most⟩ := of_nearest hn hd h
  rw [max_eq_right (by omega)] at magnitude most
  have split : ((2 ^ 52 : Nat) : ℚ) * 2 ^ (binaryOrder num den - 52) = 2 ^ binaryOrder num den := by
    rw [Nat.cast_pow, Nat.cast_ofNat, ← zpow_natCast, ← zpow_add₀ (by norm_num)]
    congr 1
    push_cast
    ring
  have enough : ((2 ^ 52 : Nat) : ℚ) ≤ s := by exact_mod_cast most _ (split.trans_le low)
  rw [magnitude]
  calc (2 : ℚ) ^ k ≤ 2 ^ binaryOrder num den := zpow_le_zpow_right₀ (by norm_num) order
    _ = (2 ^ 52 : Nat) * 2 ^ (binaryOrder num den - 52) := split.symm
    _ ≤ s * 2 ^ (binaryOrder num den - 52) := by gcongr

/-- The double nearest to a rational number; nothing if that is beyond the largest double. -/
def ofRat? (q : ℚ) : Option Binary64 := nearest (q < 0) q.num.natAbs q.den

def minus? (x : Binary64) (n : ℤ) : Option Binary64 := ofRat? (x.value - n)

theorem le_abs_of_ofRat? {q : ℚ} {x : Binary64} {k : ℤ} (hk : -1022 ≤ k) (h : ofRat? q = some x)
    (hq : (2 : ℚ) ^ k ≤ |q|) : (2 : ℚ) ^ k ≤ |x.value| := by
  refine le_abs_of_nearest q.den_nz hk h ?_
  rwa [Nat.cast_natAbs, Int.cast_abs, ← Nat.abs_cast q.den, ← abs_div, Rat.num_div_den]

theorem nonpos_of_ofRat? {q : ℚ} {x : Binary64} (h : ofRat? q = some x) (hq : q < 0) :
    x.value ≤ 0 := by
  have hn : q.num.natAbs ≠ 0 := by simpa using hq.ne
  have sign := (of_nearest hn q.den_nz h).1
  rw [decide_eq_true hq] at sign
  rw [value, if_pos sign, mul_assoc, neg_one_mul, neg_nonpos]
  positivity

/-- Whether the difference from 1 or 2 is rounded makes no difference to whether it is small. -/
theorem abs_minus?_lt_iff {x : Binary64} {k : ℤ} (hk : k = 1 ∨ k = 2) :
    (∃ d, x.minus? k = some d ∧ |d.value| < 1 / 2 ^ 52) ↔ |x.value - k| < 1 / 2 ^ 52 := by
  have bound : (1 / 2 ^ 52 : ℚ) = 2 ^ (-52 : ℤ) := by norm_num
  constructor
  · rintro ⟨d, hd, small⟩
    rw [bound] at small ⊢
    exact not_le.1 fun far => small.not_ge (le_abs_of_ofRat? (by norm_num) hd far)
  · intro near
    -- the difference is then a double itself
    have few : x.value - k = 0 ∨ x.value - k = -1 / 2 ^ 53 := by
      rcases hk with rfl | rfl
      · rcases abs_sub_one_lt_iff.1 (by simpa using near) with h | h
        · exact Or.inl (by rw [h]; norm_num)
        · exact Or.inr (by rw [h]; norm_num)
      · exact Or.inl (by rw [abs_sub_two_lt_iff.1 (by simpa using near)]; norm_num)
    rcases few with h | h
    · exact ⟨zero false, by rw [minus?, h]; decide +kernel, by simp [value, zero]⟩
    · exact ⟨⟨true, 2 ^ 52, -105, by decide, by decide, by decide, by decide⟩,
        by rw [minus?, h]; decide +kernel, by norm_num [value]⟩

theorem abs_ofRat?_sub_lt_iff {n k : ℤ} (hk : k = 1 ∨ k = 2) :
    (∃ x, ofRat? n = some x ∧ |x.value - k| < 1 / 2 ^ 52) ↔ n = k := by
  have small : ∀ m : Nat, m < 4 → (ofRat? m).map value = some (m : ℚ) := by decide +kernel
  have positive : (1 : ℚ) ≤ k := by rcases hk with rfl | rfl <;> norm_num
  constructor
  · rintro ⟨x, hx, near⟩
    obtain ⟨low, high⟩ := abs_lt.1 near
    have above : 0 < x.value := by norm_num at low; linarith
    have notNegative : 0 ≤ n := by
      by_contra negative
      have := nonpos_of_ofRat? hx (by exact_mod_cast not_le.1 negative)
      linarith
    have notLarge : n < 4 := by
      by_contra large
      have four : (2 : ℚ) ^ (2 : ℤ) ≤ |(n : ℚ)| := by
        rw [abs_of_nonneg (by exact_mod_cast notNegative)]
        exact_mod_cast not_lt.1 large
      have := le_abs_of_ofRat? (by norm_num) hx four
      rw [abs_of_pos above] at this
      have : (k : ℚ) ≤ 2 := by rcases hk with rfl | rfl <;> norm_num
      norm_num at high
      linarith
    have value_eq : x.value = n := by
      obtain ⟨m, rfl⟩ := Int.eq_ofNat_of_zero_le notNegative
      simpa [show ofRat? m = some x from hx] using small m (by exact_mod_cast notLarge)
    have close : |n - k| < 1 := by
      have : |(n - k : ℚ)| < 1 := by rw [← value_eq]; exact near.trans (by norm_num)
      exact_mod_cast this
    rw [Int.abs_lt_one_iff] at close
    omega
  · rintro rfl
    obtain ⟨m, rfl⟩ := Int.eq_ofNat_of_zero_le (by omega : 0 ≤ n)
    obtain ⟨x, hx, hv⟩ := Option.map_eq_some_iff.1 (small m (by omega))
    exact ⟨x, hx, by rw [hv]; norm_num⟩

end Binary64

end StyledEffects.Decimal
