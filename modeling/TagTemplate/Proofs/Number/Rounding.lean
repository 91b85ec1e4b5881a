import Mathlib.Algebra.Order.Field.Power
import Mathlib.Tactic
import TagTemplate.Number.Rounding
import TagTemplate.Number.Shortest

set_option autoImplicit false

/-! # What rounds to a double

The value of a double is the rational number `mantissa * 2 ^ exponent`. A rational number is
*covered* by a double if it lies between the midpoints to the two neighbours of the double, the
midpoints included if the mantissa is even. The main result of this file is that `Double.ofRatio?`
gives the double that covers the ratio (`Double.ofRatio?_of_covers`).

The exponent is settled first: at most one exponent has mantissas of 53 bits that reach a given
number (`CanonicalExponent.unique`), and `Double.exponentFor` finds it. A number covered by a double
has the exponent of that double, except just below a power of two, where it rounds up from the last
mantissa of the exponent before.
-/

namespace TagTemplate

/-! ## Powers with integer exponents -/

/-- The definitions spell an integer power as a fraction of two natural ones. -/
theorem zpow_eq_toNat_div (b : ℚ) (e : ℤ) : b ^ e = b ^ e.toNat / b ^ (-e).toNat := by
  rcases Int.le_total 0 e with h | h
  · obtain ⟨n, rfl⟩ := Int.eq_ofNat_of_zero_le h
    have h0 : (-(n : ℤ)).toNat = 0 := by omega
    rw [h0, Int.toNat_natCast, zpow_natCast, pow_zero, div_one]
  · obtain ⟨n, hn⟩ : ∃ n : ℕ, e = -(n : ℤ) := ⟨(-e).toNat, by omega⟩
    subst hn
    have h0 : (-(n : ℤ)).toNat = 0 := by omega
    rw [h0, neg_neg, Int.toNat_natCast, zpow_neg, zpow_natCast, pow_zero, one_div]

theorem two_zpow_pos (e : ℤ) : (0 : ℚ) < 2 ^ e := zpow_pos (by norm_num) e

/-- A ratio in units of `2 ^ e`, as the definitions spell it. -/
theorem ratio_div_two_zpow (num den : ℕ) (e : ℤ) :
    ((num * 2 ^ (-e).toNat : ℕ) : ℚ) / ((den * 2 ^ e.toNat : ℕ) : ℚ) = (num / den : ℚ) / 2 ^ e := by
  rw [zpow_eq_toNat_div 2 e]
  push_cast
  rw [div_div_eq_mul_div, div_mul_eq_mul_div, div_div]

/-! ## Rounding to a whole number -/

/-- `roundHalfEven` gives every whole number within a half of the ratio, an odd one only if it is
nearer than that. -/
theorem roundHalfEven_eq {n d k : ℕ} (hd : 0 < d) (hlow : (k : ℚ) - 1 / 2 ≤ n / d)
    (hhigh : (n / d : ℚ) ≤ k + 1 / 2)
    (htie : k % 2 = 1 → (k : ℚ) - 1 / 2 < n / d ∧ (n / d : ℚ) < k + 1 / 2) :
    roundHalfEven n d = k := by
  have hdq : (0 : ℚ) < d := by exact_mod_cast hd
  have hlow' : 2 * (k * d) ≤ 2 * n + d := by
    rw [le_div_iff₀ hdq] at hlow
    have : (2 * (k * d) : ℚ) ≤ 2 * n + d := by linarith
    exact_mod_cast this
  have hhigh' : 2 * n ≤ 2 * (k * d) + d := by
    rw [div_le_iff₀ hdq] at hhigh
    have : (2 * n : ℚ) ≤ 2 * (k * d) + d := by linarith
    exact_mod_cast this
  have htie' : k % 2 = 1 → 2 * (k * d) < 2 * n + d ∧ 2 * n < 2 * (k * d) + d := by
    intro hk
    obtain ⟨h1, h2⟩ := htie hk
    rw [lt_div_iff₀ hdq] at h1
    rw [div_lt_iff₀ hdq] at h2
    have h1' : (2 * (k * d) : ℚ) < 2 * n + d := by linarith
    have h2' : (2 * n : ℚ) < 2 * (k * d) + d := by linarith
    exact ⟨by exact_mod_cast h1', by exact_mod_cast h2'⟩
  -- the quotient is `k` or the number before it
  have hn : d * (n / d) + n % d = n := Nat.div_add_mod n d
  have hr : n % d < d := Nat.mod_lt n hd
  have hq : n / d = k ∨ n / d + 1 = k := by
    have h1 : n / d < k + 1 := by
      by_contra hcon
      have := Nat.mul_le_mul_left d (Nat.le_of_not_lt hcon)
      have hexp : d * (k + 1) = k * d + d := by ring
      omega
    have h2 : k < n / d + 2 := by
      by_contra hcon
      have := Nat.mul_le_mul_left d (Nat.le_of_not_lt hcon)
      have hexp : d * (n / d + 2) = d * (n / d) + 2 * d := by ring
      have hcomm : d * k = k * d := Nat.mul_comm d k
      omega
    omega
  unfold roundHalfEven
  rcases hq with hq | hq
  · have hk : d * (n / d) = k * d := by rw [hq, Nat.mul_comm]
    simp only [hq]
    rw [if_neg]
    omega
  · have hk : k * d = d * (n / d) + d := by rw [← hq]; ring
    simp only
    rw [if_pos, hq]
    omega

namespace Double

/-! ## The exponent -/

/-- The exponent of the 53-bit mantissas that reach a positive number: the least one, but not below
`-1074`. -/
structure CanonicalExponent (v : ℚ) (e : ℤ) : Prop where
  ge : -1074 ≤ e
  lt : v < 2 ^ (e + 53)
  le : e = -1074 ∨ 2 ^ (e + 52) ≤ v

theorem CanonicalExponent.le_of {v : ℚ} {e e' : ℤ} (h : CanonicalExponent v e)
    (h' : CanonicalExponent v e') : e ≤ e' := by
  rcases h.le with he | he
  · rw [he]
    exact h'.ge
  · by_contra hlt
    have hle : (2 : ℚ) ^ (e' + 53) ≤ 2 ^ (e + 52) := zpow_le_zpow_right₀ (by norm_num) (by omega)
    exact absurd (lt_of_lt_of_le h'.lt (le_trans hle he)) (lt_irrefl v)

theorem CanonicalExponent.unique {v : ℚ} {e e' : ℤ} (h : CanonicalExponent v e)
    (h' : CanonicalExponent v e') : e = e' :=
  le_antisymm (h.le_of h') (h'.le_of h)

theorem ratioLtPow_iff {num den : ℕ} (hd : 0 < den) (e : ℤ) :
    ratioLtPow num den e = true ↔ (num / den : ℚ) < 2 ^ e := by
  have hpos : (0 : ℚ) < ((den * 2 ^ e.toNat : ℕ) : ℚ) := by positivity
  have h1 : (num / den : ℚ) < 2 ^ e ↔ (num / den : ℚ) / 2 ^ e < 1 := by
    rw [div_lt_one (two_zpow_pos e)]
  rw [h1, ← ratio_div_two_zpow, div_lt_one hpos, ratioLtPow, decide_eq_true_iff, Nat.cast_lt]
  simp only [Nat.pow_eq]

/-- The binary order of a ratio is known up to one from the orders of its two numbers. -/
theorem ratio_log2_bounds {num den : ℕ} (hn : num ≠ 0) (hd : den ≠ 0) :
    (2 : ℚ) ^ ((num.log2 : ℤ) - den.log2 - 1) ≤ num / den ∧
      (num / den : ℚ) < 2 ^ ((num.log2 : ℤ) - den.log2 + 1) := by
  have hdq : (0 : ℚ) < den := by exact_mod_cast Nat.pos_of_ne_zero hd
  have n1 : (2 : ℚ) ^ (num.log2 : ℤ) ≤ num := by
    rw [zpow_natCast]
    exact_mod_cast Nat.log2_self_le hn
  have n2 : (num : ℚ) < 2 ^ ((num.log2 : ℤ) + 1) := by
    have := (Nat.log2_lt hn).mp (Nat.lt_succ_self num.log2)
    exact_mod_cast this
  have d1 : (2 : ℚ) ^ (den.log2 : ℤ) ≤ den := by
    rw [zpow_natCast]
    exact_mod_cast Nat.log2_self_le hd
  have d2 : (den : ℚ) < 2 ^ ((den.log2 : ℤ) + 1) := by
    have := (Nat.log2_lt hd).mp (Nat.lt_succ_self den.log2)
    exact_mod_cast this
  have hp := two_zpow_pos ((num.log2 : ℤ) - den.log2 - 1)
  have hp' := two_zpow_pos ((num.log2 : ℤ) - den.log2 + 1)
  constructor
  · rw [le_div_iff₀ hdq]
    calc (2 : ℚ) ^ ((num.log2 : ℤ) - den.log2 - 1) * den
        ≤ 2 ^ ((num.log2 : ℤ) - den.log2 - 1) * 2 ^ ((den.log2 : ℤ) + 1) :=
          mul_le_mul_of_nonneg_left d2.le hp.le
      _ = 2 ^ (num.log2 : ℤ) := by rw [← zpow_add₀ (by norm_num)]; congr 1; ring
      _ ≤ num := n1
  · rw [div_lt_iff₀ hdq]
    calc (num : ℚ) < 2 ^ ((num.log2 : ℤ) + 1) := n2
      _ = 2 ^ ((num.log2 : ℤ) - den.log2 + 1) * 2 ^ (den.log2 : ℤ) := by
          rw [← zpow_add₀ (by norm_num)]; congr 1; ring
      _ ≤ 2 ^ ((num.log2 : ℤ) - den.log2 + 1) * den := mul_le_mul_of_nonneg_left d1 hp'.le

theorem exponentFor_canonical {num den : ℕ} (hn : num ≠ 0) (hd : den ≠ 0) :
    CanonicalExponent (num / den) (exponentFor num den) := by
  obtain ⟨hlow, hhigh⟩ := ratio_log2_bounds hn hd
  have hlt : ∀ k, ratioLtPow num den k = true ↔ (num / den : ℚ) < 2 ^ k := fun k =>
    ratioLtPow_iff (Nat.pos_of_ne_zero hd) k
  -- the exponent before the lower bound `-1074` is taken
  obtain ⟨e, he, h1, h2⟩ : ∃ e : ℤ, exponentFor num den = max e (-1074) ∧
      (num / den : ℚ) < 2 ^ (e + 53) ∧ (2 : ℚ) ^ (e + 52) ≤ num / den := by
    unfold exponentFor
    dsimp only
    by_cases h : ratioLtPow num den ((num.log2 : ℤ) - den.log2 - 53 + 53) = true
    · refine ⟨(num.log2 : ℤ) - den.log2 - 53, by rw [if_pos h], (hlt _).mp h, ?_⟩
      rw [show (num.log2 : ℤ) - den.log2 - 53 + 52 = (num.log2 : ℤ) - den.log2 - 1 by ring]
      exact hlow
    · refine ⟨(num.log2 : ℤ) - den.log2 - 53 + 1, by rw [if_neg h], ?_, ?_⟩
      · rw [show (num.log2 : ℤ) - den.log2 - 53 + 1 + 53 = (num.log2 : ℤ) - den.log2 + 1 by ring]
        exact hhigh
      · have h' := (not_congr (hlt _)).mp h
        rw [show (num.log2 : ℤ) - den.log2 - 53 + 1 + 52
          = (num.log2 : ℤ) - den.log2 - 53 + 53 by ring]
        exact not_lt.mp h'
  rw [he]
  refine ⟨le_max_right _ _, ?_, ?_⟩
  · have hle : (2 : ℚ) ^ (e + 53) ≤ 2 ^ (max e (-1074) + 53) :=
      zpow_le_zpow_right₀ (by norm_num) (by omega)
    exact lt_of_lt_of_le h1 hle
  · rcases le_total e (-1074) with hle | hle
    · exact Or.inl (max_eq_right hle)
    · rw [max_eq_left hle]
      exact Or.inr h2

/-! ## The numbers that a double covers -/

def magnitude (x : Double) : ℚ := x.mantissa * 2 ^ x.exponent

/-- The midpoint to the next double below, in units of the double. -/
def lowerMidpoint (x : Double) : ℚ := x.mantissa - x.lowerGap / 4

/-- The midpoint to the next double above, in units of the double. -/
def upperMidpoint (x : Double) : ℚ := x.mantissa + 1 / 2

/-- A number is covered by a double if it lies between the midpoints to the neighbours; a midpoint
itself belongs to the double with the even mantissa. -/
structure Covers (x : Double) (v : ℚ) : Prop where
  lower : x.lowerMidpoint * 2 ^ x.exponent ≤ v
  upper : v ≤ x.upperMidpoint * 2 ^ x.exponent
  odd : x.mantissa % 2 = 1 →
    x.lowerMidpoint * 2 ^ x.exponent < v ∧ v < x.upperMidpoint * 2 ^ x.exponent

theorem lowerGap_le (x : Double) : (x.lowerGap : ℚ) ≤ 2 := by
  unfold lowerGap
  split <;> norm_num

theorem lowerGap_pos (x : Double) : (0 : ℚ) < x.lowerGap := by
  unfold lowerGap
  split <;> norm_num

/-- A double covers its own magnitude. -/
theorem covers_magnitude (x : Double) : x.Covers x.magnitude := by
  have hp := two_zpow_pos x.exponent
  have hlow : x.lowerMidpoint * 2 ^ x.exponent < x.magnitude :=
    mul_lt_mul_of_pos_right (by have := x.lowerGap_pos; unfold lowerMidpoint; linarith) hp
  have hhigh : x.magnitude < x.upperMidpoint * 2 ^ x.exponent :=
    mul_lt_mul_of_pos_right (by unfold upperMidpoint; linarith) hp
  exact ⟨hlow.le, hhigh.le, fun _ => ⟨hlow, hhigh⟩⟩

/-- A covered number does not reach the next exponent. -/
theorem Covers.lt {x : Double} {v : ℚ} (h : x.Covers v) : v < 2 ^ (x.exponent + 53) := by
  have hp := two_zpow_pos x.exponent
  have hm : (x.mantissa : ℚ) + 1 ≤ 2 ^ (53 : ℤ) := by exact_mod_cast x.mantissa_lt
  calc v ≤ x.upperMidpoint * 2 ^ x.exponent := h.upper
    _ < 2 ^ (53 : ℤ) * 2 ^ x.exponent :=
        mul_lt_mul_of_pos_right (by unfold upperMidpoint; linarith) hp
    _ = 2 ^ (x.exponent + 53) := by rw [← zpow_add₀ (by norm_num), add_comm]

theorem ofParts?_self (x : Double) : ofParts? x.negative x.mantissa x.exponent = some x := by
  unfold ofParts?
  rw [dif_pos ⟨x.mantissa_lt, x.exponent_ge, x.exponent_le, x.normal⟩]

/-- In units of the double that covers it, a ratio rounds to the mantissa of that double. -/
theorem mantissaFor_of_covers {x : Double} {num den : ℕ} (hd : 0 < den)
    (h : x.Covers (num / den)) : mantissaFor num den x.exponent = x.mantissa := by
  have hp := two_zpow_pos x.exponent
  have hlow : x.lowerMidpoint ≤ (num / den : ℚ) / 2 ^ x.exponent := (le_div_iff₀ hp).mpr h.lower
  have hhigh : (num / den : ℚ) / 2 ^ x.exponent ≤ x.upperMidpoint := (div_le_iff₀ hp).mpr h.upper
  have hhalf : (x.mantissa : ℚ) - 1 / 2 ≤ x.lowerMidpoint := by
    have := x.lowerGap_le
    unfold lowerMidpoint
    linarith
  unfold mantissaFor
  simp only [Nat.pow_eq]
  apply roundHalfEven_eq (by positivity)
  · rw [ratio_div_two_zpow]
    exact le_trans hhalf hlow
  · rw [ratio_div_two_zpow]
    exact hhigh
  · intro hodd
    obtain ⟨h1, h2⟩ := h.odd hodd
    rw [ratio_div_two_zpow]
    exact ⟨lt_of_le_of_lt hhalf ((lt_div_iff₀ hp).mpr h1), (div_lt_iff₀ hp).mpr h2⟩

/-- A covered number has the exponent of the double, or it lies in the lower gap of a power of two,
whose mantissa is the least one. -/
theorem Covers.exponent {x : Double} {v : ℚ} (h : x.Covers v) :
    CanonicalExponent v x.exponent ∨
      (x.mantissa = 2 ^ 52 ∧ -1074 < x.exponent ∧ v < 2 ^ (x.exponent + 52)) := by
  have hp := two_zpow_pos x.exponent
  have hpow : (2 : ℚ) ^ (x.exponent + 52) = 2 ^ 52 * 2 ^ x.exponent := by
    rw [add_comm, zpow_add₀ (by norm_num)]
    norm_num
  by_cases he : x.exponent = -1074
  · exact Or.inl ⟨x.exponent_ge, h.lt, Or.inl he⟩
  by_cases hv : (2 : ℚ) ^ (x.exponent + 52) ≤ v
  · exact Or.inl ⟨x.exponent_ge, h.lt, Or.inr hv⟩
  refine Or.inr ⟨?_, by have := x.exponent_ge; omega, not_le.mp hv⟩
  have hge : 2 ^ 52 ≤ x.mantissa := by
    rcases x.normal with hn | hn
    · exact hn
    · exact absurd hn he
  -- a greater mantissa would leave more than half a unit down to the power of two
  by_contra hne
  have hm : (2 : ℚ) ^ 52 + 1 ≤ x.mantissa := by exact_mod_cast Nat.lt_of_le_of_ne hge (Ne.symm hne)
  have hlow : (2 : ℚ) ^ 52 ≤ x.lowerMidpoint := by
    have := x.lowerGap_le
    unfold lowerMidpoint
    linarith
  have := mul_le_mul_of_nonneg_right hlow hp.le
  exact hv (by rw [hpow]; exact le_trans this h.lower)

/-- In the lower gap of a power of two a ratio has the exponent before, and it rounds up to the
mantissa behind the last one. -/
theorem below_power_of_covers {x : Double} {num den : ℕ} (hd : 0 < den)
    (h : x.Covers (num / den)) (hm : x.mantissa = 2 ^ 52) (he : -1074 < x.exponent)
    (hv : (num / den : ℚ) < 2 ^ (x.exponent + 52)) :
    CanonicalExponent (num / den) (x.exponent - 1) ∧
      mantissaFor num den (x.exponent - 1) = 2 ^ 53 := by
  have hp := two_zpow_pos (x.exponent - 1)
  have htwo : (2 : ℚ) ^ x.exponent = 2 * 2 ^ (x.exponent - 1) := by
    rw [← zpow_one_add₀ (by norm_num)]
    congr 1
    ring
  have hlower : ((2 : ℚ) ^ 53 - 1 / 2) * 2 ^ (x.exponent - 1) ≤ num / den := by
    have hgap : x.lowerGap = 1 := by rw [lowerGap, if_pos ⟨hm, he⟩]
    have hmid : x.lowerMidpoint = 2 ^ 52 - 1 / 4 := by
      rw [lowerMidpoint, hm, hgap]
      norm_num
    have := h.lower
    rw [hmid, htwo] at this
    linarith
  have hupper : (num / den : ℚ) < 2 ^ 53 * 2 ^ (x.exponent - 1) := by
    have hpow : (2 : ℚ) ^ (x.exponent + 52) = 2 ^ 53 * 2 ^ (x.exponent - 1) := by
      rw [show x.exponent + 52 = 53 + (x.exponent - 1) by ring, zpow_add₀ (by norm_num)]
      norm_num
    rwa [hpow] at hv
  refine ⟨⟨by omega, ?_, Or.inr ?_⟩, ?_⟩
  · rw [show x.exponent - 1 + 53 = x.exponent + 52 by ring]
    exact hv
  · rw [show x.exponent - 1 + 52 = 52 + (x.exponent - 1) by ring, zpow_add₀ (by norm_num)]
    refine le_trans (mul_le_mul_of_nonneg_right ?_ hp.le) hlower
    norm_num
  · unfold mantissaFor
    simp only [Nat.pow_eq]
    apply roundHalfEven_eq (by positivity)
    · rw [ratio_div_two_zpow, le_div_iff₀ hp]
      push_cast
      exact hlower
    · rw [ratio_div_two_zpow, div_le_iff₀ hp]
      push_cast
      linarith
    · intro hodd
      norm_num at hodd

/-- A double whose mantissa is zero is a zero. -/
theorem eq_zero_of_mantissa {x : Double} (h : x.mantissa = 0) : x = zero x.negative := by
  have he : x.exponent = -1074 := by
    rcases x.normal with hn | hn
    · omega
    · exact hn
  obtain ⟨negative, mantissa, exponent, _, _, _, _⟩ := x
  simp only at h he
  subst h he
  rfl

theorem Covers.mantissa_eq_zero {x : Double} (h : x.Covers 0) : x.mantissa = 0 := by
  by_contra hne
  have hm : (1 : ℚ) ≤ x.mantissa := by exact_mod_cast Nat.pos_of_ne_zero hne
  have hlow : 0 < x.lowerMidpoint := by
    have := x.lowerGap_le
    unfold lowerMidpoint
    linarith
  have := mul_pos hlow (two_zpow_pos x.exponent)
  exact absurd h.lower (not_le.mpr this)

/-- **Rounding finds the double that covers the ratio.** -/
theorem ofRatio?_of_covers {x : Double} {num den : ℕ} (hd : 0 < den)
    (h : x.Covers (num / den)) : ofRatio? x.negative num den = some x := by
  unfold ofRatio?
  by_cases hn : num = 0
  · subst hn
    rw [if_pos rfl]
    have h0 : x.Covers 0 := by simpa using h
    rw [← eq_zero_of_mantissa h0.mantissa_eq_zero]
  rw [if_neg hn]
  have hcanonical := exponentFor_canonical hn hd.ne'
  rcases h.exponent with he | ⟨hm, hlow, hv⟩
  · rw [hcanonical.unique he]
    simp only [mantissaFor_of_covers hd h]
    rw [if_neg (by have := x.mantissa_lt; omega)]
    exact x.ofParts?_self
  · obtain ⟨he, hmant⟩ := below_power_of_covers hd h hm hlow hv
    rw [hcanonical.unique he]
    have hmant' : mantissaFor num den (x.exponent - 1) = 0x20000000000000 := hmant
    have hm' : x.mantissa = 0x10000000000000 := hm
    simp only [hmant', if_true]
    rw [← hm', sub_add_cancel]
    exact x.ofParts?_self

end Double

end TagTemplate
