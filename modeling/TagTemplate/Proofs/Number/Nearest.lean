import TagTemplate.Number.Layout
import TagTemplate.Proofs.Number.Literal

set_option autoImplicit false

/-! # Reading gives the nearest double

The double that a ratio rounds to covers the ratio, and its sign is the given one. Together with
`Double.ofRatio?_of_covers` this says what rounding does without saying how: `Double.ofRatio?` gives
a double exactly if that double covers the ratio (`Double.ofRatio?_eq_some_iff`), and a numeral is
read as the double that covers its value (`Double.ofNumeral?_eq_some_iff`).
-/

namespace TagTemplate

/-- A ratio lies within a half of the whole number that it is rounded to, and strictly within if
that number is odd. -/
theorem roundHalfEven_bounds {n d : ℕ} (hd : 0 < d) :
    (roundHalfEven n d : ℚ) - 1 / 2 ≤ n / d ∧ (n / d : ℚ) ≤ roundHalfEven n d + 1 / 2 ∧
      (roundHalfEven n d % 2 = 1 →
        (roundHalfEven n d : ℚ) - 1 / 2 < n / d ∧ (n / d : ℚ) < roundHalfEven n d + 1 / 2) := by
  have hdq : (0 : ℚ) < d := by exact_mod_cast hd
  -- in natural numbers, with both sides doubled
  have hnat : 2 * (roundHalfEven n d * d) ≤ 2 * n + d ∧
      2 * n ≤ 2 * (roundHalfEven n d * d) + d ∧
      (roundHalfEven n d % 2 = 1 → 2 * (roundHalfEven n d * d) < 2 * n + d ∧
        2 * n < 2 * (roundHalfEven n d * d) + d) := by
    have hn : n / d * d + n % d = n := by rw [Nat.mul_comm]; exact Nat.div_add_mod n d
    have hr : n % d < d := Nat.mod_lt n hd
    unfold roundHalfEven
    dsimp only
    split
    · rw [Nat.add_mul, Nat.one_mul]
      omega
    · omega
  generalize roundHalfEven n d = k at hnat ⊢
  obtain ⟨hlow, hhigh, hodd⟩ := hnat
  have lower : ∀ {a b : ℚ}, a * d ≤ b * d → a ≤ b := fun h => le_of_mul_le_mul_right h hdq
  have hcancel : (n / d : ℚ) * d = n := div_mul_cancel₀ _ hdq.ne'
  have hlowq : (2 * (k * d) : ℚ) ≤ 2 * n + d := by exact_mod_cast hlow
  have hhighq : (2 * n : ℚ) ≤ 2 * (k * d) + d := by exact_mod_cast hhigh
  refine ⟨lower ?_, lower ?_, fun hk => ?_⟩
  · rw [hcancel]
    linarith
  · rw [hcancel]
    linarith
  · obtain ⟨h1, h2⟩ := hodd hk
    have h1q : (2 * (k * d) : ℚ) < 2 * n + d := by exact_mod_cast h1
    have h2q : (2 * n : ℚ) < 2 * (k * d) + d := by exact_mod_cast h2
    constructor
    · rw [lt_div_iff₀ hdq]
      linarith
    · rw [div_lt_iff₀ hdq]
      linarith

namespace Double

theorem ofParts?_eq_some {negative : Bool} {m : ℕ} {e : ℤ} {x : Double}
    (h : ofParts? negative m e = some x) :
    x.negative = negative ∧ x.mantissa = m ∧ x.exponent = e := by
  unfold ofParts? at h
  split at h
  · cases h
    exact ⟨rfl, rfl, rfl⟩
  · simp at h

/-- A double is covered from the bounds in its own units: within a half of the mantissa, strictly if
that is odd, and not below the least mantissa of an exponent that has a smaller one before it. -/
theorem covers_of_bounds {x : Double} {v : ℚ}
    (hlow : ((x.mantissa : ℚ) - 1 / 2) * 2 ^ x.exponent ≤ v)
    (hhigh : v ≤ ((x.mantissa : ℚ) + 1 / 2) * 2 ^ x.exponent)
    (hodd : x.mantissa % 2 = 1 → ((x.mantissa : ℚ) - 1 / 2) * 2 ^ x.exponent < v ∧
      v < ((x.mantissa : ℚ) + 1 / 2) * 2 ^ x.exponent)
    (hgap : -1074 < x.exponent → 2 ^ (x.exponent + 52) ≤ v) : x.Covers v := by
  have hp := two_zpow_pos x.exponent
  by_cases hleast : x.mantissa = 0x10000000000000 ∧ -1074 < x.exponent
  · have hmid : x.lowerMidpoint = 2 ^ (52 : ℤ) - 1 / 4 := by
      rw [lowerMidpoint, lowerGap, if_pos hleast, hleast.1]
      norm_num
    have hpow : (2 : ℚ) ^ (x.exponent + 52) = 2 ^ (52 : ℤ) * 2 ^ x.exponent := by
      rw [add_comm, zpow_add₀ (by norm_num)]
    refine ⟨?_, hhigh, fun h => ?_⟩
    · calc x.lowerMidpoint * 2 ^ x.exponent ≤ 2 ^ (52 : ℤ) * 2 ^ x.exponent :=
            mul_le_mul_of_nonneg_right (by rw [hmid]; linarith) hp.le
        _ = 2 ^ (x.exponent + 52) := hpow.symm
        _ ≤ v := hgap hleast.2
    · -- the least mantissa is even
      rw [hleast.1] at h
      omega
  · have hmid : x.lowerMidpoint = x.mantissa - 1 / 2 := by
      rw [lowerMidpoint, lowerGap, if_neg hleast]
      norm_num
    refine ⟨?_, hhigh, fun h => ?_⟩
    · rw [hmid]
      exact hlow
    · rw [hmid]
      exact hodd h

theorem covers_zero (negative : Bool) : (zero negative).Covers 0 := by
  have h := (zero negative).covers_magnitude
  rwa [magnitude, zero, Nat.cast_zero, zero_mul] at h

/-- A ratio lies within a half of its mantissa, in units of the exponent, and strictly within if the
mantissa is odd. -/
theorem mantissaFor_bounds (num : ℕ) {den : ℕ} (hd : 0 < den) (e : ℤ) :
    ((mantissaFor num den e : ℚ) - 1 / 2) * 2 ^ e ≤ num / den ∧
      (num / den : ℚ) ≤ ((mantissaFor num den e : ℚ) + 1 / 2) * 2 ^ e ∧
      (mantissaFor num den e % 2 = 1 →
        ((mantissaFor num den e : ℚ) - 1 / 2) * 2 ^ e < num / den ∧
          (num / den : ℚ) < ((mantissaFor num den e : ℚ) + 1 / 2) * 2 ^ e) := by
  have hp := two_zpow_pos e
  have hden : 0 < den * 2 ^ e.toNat := by positivity
  have hbounds := roundHalfEven_bounds (n := num * 2 ^ (-e).toNat) hden
  rw [ratio_div_two_zpow] at hbounds
  unfold mantissaFor
  simp only [Nat.pow_eq]
  rw [← le_div_iff₀ hp, ← div_le_iff₀ hp, ← lt_div_iff₀ hp, ← div_lt_iff₀ hp]
  exact hbounds

/-- A mantissa that is rounded up to the least one of the next exponent. -/
theorem covers_of_roundedUp {x : Double} {e : ℤ} {v : ℚ} (hmantissa : x.mantissa = 0x10000000000000)
    (hexponent : x.exponent = e + 1) (he : -1074 ≤ e)
    (hlow : ((2 : ℚ) ^ 53 - 1 / 2) * 2 ^ e ≤ v) (hlt : v < 2 ^ (e + 53)) : x.Covers v := by
  have hp := two_zpow_pos e
  have htwo : (2 : ℚ) ^ (e + 1) = 2 * 2 ^ e := by
    rw [add_comm, zpow_one_add₀ (by norm_num)]
  have hpow : (2 : ℚ) ^ (e + 53) = 2 ^ 53 * 2 ^ e := by
    rw [add_comm, zpow_add₀ (by norm_num)]
    norm_num
  rw [hpow] at hlt
  refine ⟨?_, ?_, ?_⟩
  · have hleast : x.mantissa = 0x10000000000000 ∧ -1074 < x.exponent := ⟨hmantissa, by omega⟩
    rw [lowerMidpoint, lowerGap, if_pos hleast, hmantissa, hexponent, htwo]
    norm_num
    norm_num at hlow
    linarith
  · rw [upperMidpoint, hmantissa, hexponent, htwo]
    norm_num
    norm_num at hlt
    linarith
  · rw [hmantissa]
    intro hmod
    omega

/-- **Rounding finds a double that covers the ratio.** -/
theorem covers_of_ofRatio? {negative : Bool} {num den : ℕ} {x : Double} (hd : 0 < den)
    (h : ofRatio? negative num den = some x) : x.negative = negative ∧ x.Covers (num / den) := by
  unfold ofRatio? at h
  split at h
  · next hn =>
    cases h
    rw [hn, Nat.cast_zero, zero_div]
    exact ⟨rfl, covers_zero negative⟩
  · next hn =>
    have hcanonical := exponentFor_canonical hn hd.ne'
    dsimp only at h
    generalize exponentFor num den = e at h hcanonical
    obtain ⟨hlow, hhigh, hodd⟩ := mantissaFor_bounds num hd e
    generalize mantissaFor num den e = m at h hlow hhigh hodd
    split at h
    · next hm =>
      obtain ⟨hnegative, hmantissa, hexponent⟩ := ofParts?_eq_some h
      have hmq : (m : ℚ) = 2 ^ 53 := by rw [hm]; norm_num
      rw [hmq] at hlow
      exact ⟨hnegative, covers_of_roundedUp hmantissa hexponent hcanonical.ge hlow hcanonical.lt⟩
    · obtain ⟨hnegative, hmantissa, hexponent⟩ := ofParts?_eq_some h
      refine ⟨hnegative, covers_of_bounds ?_ ?_ ?_ ?_⟩
      · rw [hmantissa, hexponent]
        exact hlow
      · rw [hmantissa, hexponent]
        exact hhigh
      · rw [hmantissa, hexponent]
        exact hodd
      · rw [hexponent]
        intro he
        rcases hcanonical.le with hle | hle
        · omega
        · exact hle

/-- What a ratio rounds to: the double of the given sign that covers it. -/
theorem ofRatio?_eq_some_iff {negative : Bool} {num den : ℕ} {x : Double} (hd : 0 < den) :
    ofRatio? negative num den = some x ↔ x.negative = negative ∧ x.Covers (num / den) := by
  constructor
  · exact covers_of_ofRatio? hd
  · rintro ⟨rfl, hcovers⟩
    exact ofRatio?_of_covers hd hcovers

/-- **What a numeral is read as**: the double of the given sign that covers its value. -/
theorem ofNumeral?_eq_some_iff {negative : Bool} {whole fraction : Text} {x : Double} :
    ofNumeral? negative whole fraction = some x ↔
      x.negative = negative ∧ x.Covers (numeralValue whole fraction) := by
  unfold ofNumeral?
  rw [Nat.pow_eq, ofRatio?_eq_some_iff (by positivity), numeralValue, Nat.cast_pow, Nat.cast_ofNat]

end Double

end TagTemplate
