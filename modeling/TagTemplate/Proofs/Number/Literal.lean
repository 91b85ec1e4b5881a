import Mathlib.Data.List.TakeWhile
import TagTemplate.Number.Layout
import TagTemplate.Proofs.Number.Rounding

set_option autoImplicit false

/-! # The literal of a double reads back as that double

Three steps lead from a double to its literal and back. The shortest decimal is covered by the
double (`Double.covers_shortest`). Its layout has digits on both sides of a point, and they spell
the value of the decimal (`Decimal.positional_numeral`). And a numeral is rounded to the double that
covers its value, so it is read as the double it was written for (`Double.exists_literal_numeral`).
-/

namespace TagTemplate

def Decimal.value (d : Decimal) : ℚ := d.coefficient * 10 ^ d.exponent

namespace Double

/-! ## The shortest decimal -/

theorem unitScale_pos (x : Double) (k : ℤ) : 0 < x.unitScale k := by
  unfold unitScale
  simp only [Nat.pow_eq]
  positivity

/-- A decimal in quarter units of the double, as `readsBack` compares it. -/
theorem mul_gridScale (x : Double) (c : ℕ) (k : ℤ) :
    ((c * x.gridScale k : ℕ) : ℚ) = 4 * (c * 10 ^ k) / 2 ^ x.exponent * x.unitScale k := by
  have h10 := zpow_eq_toNat_div 10 k
  have h2 := zpow_eq_toNat_div 2 (2 - x.exponent)
  rw [zpow_sub₀ (by norm_num), show -(2 - x.exponent) = x.exponent - 2 by ring] at h2
  have hsquare : (2 : ℚ) ^ (2 : ℤ) = 4 := by norm_num
  rw [hsquare] at h2
  rw [mul_div_right_comm, h2, h10, gridScale, unitScale]
  simp only [Nat.pow_eq]
  push_cast
  field_simp

/-- A decimal that `readsBack` accepts is covered by the double. -/
theorem covers_of_readsBack {x : Double} {c : ℕ} {k : ℤ} (hm : x.mantissa ≠ 0)
    (h : x.readsBack c k = true) : x.Covers (c * 10 ^ k) := by
  have hp := two_zpow_pos x.exponent
  have hU : (0 : ℚ) < x.unitScale k := by exact_mod_cast x.unitScale_pos k
  have hgap : x.lowerGap ≤ 4 * x.mantissa := by
    have : x.lowerGap ≤ 2 := by exact_mod_cast x.lowerGap_le
    omega
  -- the four comparisons of naturals, as comparisons of rational numbers
  have hle : ∀ a : ℕ, a * x.unitScale k ≤ c * x.gridScale k ↔
      (a / 4 : ℚ) * 2 ^ x.exponent ≤ c * 10 ^ k := by
    intro a
    rw [← Nat.cast_le (α := ℚ), mul_gridScale, Nat.cast_mul, mul_le_mul_iff_left₀ hU,
      le_div_iff₀ hp]
    constructor <;> intro h <;> linarith
  have hge : ∀ a : ℕ, c * x.gridScale k ≤ a * x.unitScale k ↔
      (c * 10 ^ k : ℚ) ≤ (a / 4 : ℚ) * 2 ^ x.exponent := by
    intro a
    rw [← Nat.cast_le (α := ℚ), mul_gridScale, Nat.cast_mul, mul_le_mul_iff_left₀ hU,
      div_le_iff₀ hp]
    constructor <;> intro h <;> linarith
  have hlower : (((4 * x.mantissa - x.lowerGap : ℕ) : ℚ) / 4) = x.lowerMidpoint := by
    rw [Nat.cast_sub hgap, lowerMidpoint]
    push_cast
    ring
  have hupper : (((4 * x.mantissa + 2 : ℕ) : ℚ) / 4) = x.upperMidpoint := by
    rw [upperMidpoint]
    push_cast
    ring
  unfold readsBack at h
  dsimp only at h
  split at h
  · next heven =>
    rw [Bool.and_eq_true, decide_eq_true_iff, decide_eq_true_iff, hle, hge, hlower, hupper] at h
    exact ⟨h.1, h.2, fun hodd => by omega⟩
  · rw [Bool.and_eq_true, decide_eq_true_iff, decide_eq_true_iff, ← not_le, ← not_le, hle, hge,
      hlower, hupper, not_le, not_le] at h
    exact ⟨h.1.le, h.2.le, fun _ => h⟩

theorem readsBack_of_neighbour? {x : Double} {c : ℕ} {k : ℤ} (h : x.neighbour? k = some c) :
    x.readsBack c k = true := by
  unfold neighbour? at h
  dsimp only at h
  split at h
  · simp at h
  · next hbelow _ =>
    cases h
    exact hbelow
  · next _ habove =>
    cases h
    exact habove
  · next hbelow habove =>
    split at h <;> cases h
    · exact hbelow
    · exact habove

theorem exactDecimal_value (x : Double) : x.exactDecimal.value = x.magnitude := by
  have hten : ((10 : ℚ) ^ min x.exponent 0) = 1 / 10 ^ (-x.exponent).toNat := by
    rw [zpow_eq_toNat_div]
    have h1 : (min x.exponent 0).toNat = 0 := by omega
    have h2 : (-min x.exponent 0).toNat = (-x.exponent).toNat := by omega
    rw [h1, h2, pow_zero]
  unfold Decimal.value exactDecimal magnitude
  rw [zpow_eq_toNat_div 2 x.exponent]
  simp only [hten, Nat.pow_eq]
  push_cast
  rw [show (10 : ℚ) = 2 * 5 by norm_num, mul_pow]
  field_simp

/-- **The shortest decimal of a double is covered by it.** -/
theorem covers_shortest (x : Double) : x.Covers x.shortest.value := by
  unfold shortest
  split
  · next hm =>
    have h := x.covers_magnitude
    simpa [magnitude, Decimal.value, hm] using h
  · next hm =>
    dsimp only
    generalize (List.range 20).map (fun i : ℕ => x.coarsestGrid - (i : ℤ)) = grids
    cases hs : grids.findSome? fun k => (x.neighbour? k).map fun c => (⟨c, k⟩ : Decimal) with
    | none =>
        rw [Option.getD_none, exactDecimal_value]
        exact x.covers_magnitude
    | some d =>
        obtain ⟨k, -, hk⟩ := List.exists_of_findSome?_eq_some hs
        obtain ⟨c, hc, rfl⟩ := Option.map_eq_some_iff.mp hk
        exact covers_of_readsBack hm (readsBack_of_neighbour? hc)

end Double

/-! ## The layout -/

def numeralValue (whole fraction : Text) : ℚ :=
  Nat.ofDigitChars 10 (whole ++ fraction) 0 / 10 ^ fraction.length

/-- A numeral is a run of digits on each side of a point. -/
structure IsNumeral (whole fraction : Text) : Prop where
  whole_ne_nil : whole ≠ []
  fraction_ne_nil : fraction ≠ []
  whole_digits : ∀ c ∈ whole, c.isDigit = true
  fraction_digits : ∀ c ∈ fraction, c.isDigit = true

namespace Decimal

/-- The digits of the coefficient are the significant digits and zeros behind them. -/
theorem toDigits_eq_digits_append (d : Decimal) :
    ∃ n, Nat.toDigits 10 d.coefficient = d.digits ++ List.replicate n '0' := by
  set reversed := (Nat.toDigits 10 d.coefficient).reverse with hreversed
  refine ⟨(reversed.takeWhile (· == '0')).length, ?_⟩
  have hzeros : reversed.takeWhile (· == '0')
      = List.replicate (reversed.takeWhile (· == '0')).length '0' := by
    apply List.eq_replicate_of_mem
    intro c hc
    simpa using List.mem_takeWhile_imp hc
  calc Nat.toDigits 10 d.coefficient = reversed.reverse := by rw [hreversed, List.reverse_reverse]
    _ = (reversed.takeWhile (· == '0') ++ reversed.dropWhile (· == '0')).reverse := by
        rw [List.takeWhile_append_dropWhile]
    _ = d.digits ++ (reversed.takeWhile (· == '0')).reverse := by
        rw [List.reverse_append]
        rfl
    _ = _ := by
        conv_lhs => rw [hzeros]
        rw [List.reverse_replicate]

theorem digits_isDigit (d : Decimal) : ∀ c ∈ d.digits, c.isDigit = true := by
  intro c hc
  obtain ⟨n, hn⟩ := d.toDigits_eq_digits_append
  have hmem : c ∈ Nat.toDigits 10 d.coefficient := by
    rw [hn]
    exact List.mem_append_left _ hc
  exact Nat.isDigit_of_mem_toDigits (by decide) (by decide) hmem

/-- The value of a decimal from its significant digits and the place of the point. -/
theorem value_eq_digits (d : Decimal) :
    d.value = Nat.ofDigitChars 10 d.digits 0 * 10 ^ (d.pointPlace - d.digits.length) := by
  obtain ⟨n, hn⟩ := d.toDigits_eq_digits_append
  have hcoefficient : d.coefficient = 10 ^ n * Nat.ofDigitChars 10 d.digits 0 := by
    conv_lhs => rw [← Nat.ofDigitChars_ten_toDigits (n := d.coefficient)]
    rw [hn, Nat.ofDigitChars_append, Nat.ofDigitChars_replicate_zero]
  have hplace : d.pointPlace - d.digits.length = n + d.exponent := by
    have := congrArg List.length hn
    rw [List.length_append, List.length_replicate] at this
    unfold pointPlace
    omega
  rw [value, hplace, hcoefficient, zpow_add₀ (by norm_num), zpow_natCast]
  push_cast
  ring

/-- **The layout of a decimal is a numeral for its value.** -/
theorem positional_numeral (d : Decimal) :
    ∃ whole fraction, d.positional = whole ++ '.' :: fraction ∧ IsNumeral whole fraction ∧
      numeralValue whole fraction = d.value := by
  have hdigits := d.digits_isDigit
  have hzero : ('0' : Char).isDigit = true := by decide
  have hzeros : ∀ n : ℕ, ∀ c ∈ List.replicate n '0', c.isDigit = true := by
    intro n c hc
    rw [(List.mem_replicate.mp hc).2]
    exact hzero
  have hvalue := d.value_eq_digits
  unfold positional
  dsimp only
  by_cases hnil : d.digits = []
  · refine ⟨['0'], ['0'], by rw [if_pos hnil]; rfl, ⟨by simp, by simp, by simp, by simp⟩, ?_⟩
    rw [hvalue, hnil]
    simp [numeralValue, Nat.ofDigitChars_cons]
  rw [if_neg hnil]
  by_cases hplace : d.pointPlace ≤ 0
  · -- the point stands in front of all digits
    rw [if_pos hplace]
    refine ⟨['0'], List.replicate (-d.pointPlace).toNat '0' ++ d.digits, rfl,
      ⟨by simp, by simp [hnil], by simp, ?_⟩, ?_⟩
    · intro c hc
      rcases List.mem_append.mp hc with hc | hc
      · exact hzeros _ c hc
      · exact hdigits c hc
    · rw [hvalue, numeralValue, List.length_append, List.length_replicate, List.cons_append,
        Nat.ofDigitChars_cons, List.nil_append, Nat.ofDigitChars_append,
        Nat.ofDigitChars_replicate_zero]
      have hexponent : d.pointPlace - d.digits.length
          = -(((-d.pointPlace).toNat + d.digits.length : ℕ) : ℤ) := by omega
      rw [hexponent, zpow_neg, zpow_natCast, div_eq_mul_inv]
      simp
  rw [if_neg hplace]
  by_cases hinside : d.pointPlace < d.digits.length
  · -- the point stands among the digits
    rw [if_pos hinside]
    refine ⟨d.digits.take d.pointPlace.toNat, d.digits.drop d.pointPlace.toNat, by simp,
      ⟨?_, ?_, fun c hc => hdigits c (List.mem_of_mem_take hc),
        fun c hc => hdigits c (List.mem_of_mem_drop hc)⟩, ?_⟩
    · simp only [ne_eq, List.take_eq_nil_iff, not_or]
      exact ⟨by omega, hnil⟩
    · simp only [ne_eq, List.drop_eq_nil_iff]
      omega
    · rw [hvalue, numeralValue, List.take_append_drop, List.length_drop]
      have hexponent : d.pointPlace - d.digits.length
          = -((d.digits.length - d.pointPlace.toNat : ℕ) : ℤ) := by omega
      rw [hexponent, zpow_neg, zpow_natCast, div_eq_mul_inv]
  · -- the point stands behind all digits
    rw [if_neg hinside]
    refine ⟨d.digits ++ List.replicate (d.pointPlace.toNat - d.digits.length) '0', ['0'], by simp,
      ⟨by simp [hnil], by simp, ?_, by simp⟩, ?_⟩
    · intro c hc
      rcases List.mem_append.mp hc with hc | hc
      · exact hdigits c hc
      · exact hzeros _ c hc
    · rw [hvalue, numeralValue, Nat.ofDigitChars_append, Nat.ofDigitChars_append,
        Nat.ofDigitChars_replicate_zero]
      have hexponent : d.pointPlace - d.digits.length
          = ((d.pointPlace.toNat - d.digits.length : ℕ) : ℤ) := by omega
      rw [hexponent, zpow_natCast]
      simp [Nat.ofDigitChars_cons]
      ring

end Decimal

namespace Double

/-- A numeral is read as the double that covers its value. -/
theorem ofNumeral?_of_covers {x : Double} {whole fraction : Text}
    (h : x.Covers (numeralValue whole fraction)) :
    ofNumeral? x.negative whole fraction = some x := by
  unfold ofNumeral?
  rw [Nat.pow_eq]
  apply ofRatio?_of_covers (by positivity)
  rw [Nat.cast_pow]
  exact h

/-- **The literal of a double is its sign and a numeral that is read as the double.** -/
theorem exists_literal_numeral (x : Double) :
    ∃ whole fraction, x.literal = x.signText ++ (whole ++ '.' :: fraction) ∧
      IsNumeral whole fraction ∧ ofNumeral? x.negative whole fraction = some x := by
  obtain ⟨whole, fraction, hlayout, hnumeral, hvalue⟩ := x.shortest.positional_numeral
  refine ⟨whole, fraction, by rw [literal, hlayout], hnumeral, ofNumeral?_of_covers ?_⟩
  rw [hvalue]
  exact x.covers_shortest

end Double

end TagTemplate
