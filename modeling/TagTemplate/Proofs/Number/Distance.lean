import TagTemplate.Proofs.Number.Nearest

set_option autoImplicit false

/-! # The nearest double, by distance

What a double covers has been described by the midpoints to its neighbours. Here the same is said
without neighbours: a double that covers a number is at least as near to it as every other double,
and where another one is equally near, the mantissa of the first is even (`Double.IsNearest`,
`Double.isNearest_of_covers`). Doubles are the same if they stand for one number
(`Double.sameValue_iff`). Covered are exactly the numbers below `2 ^ 1024 - 2 ^ 970`, half a
unit above the greatest double (`Double.exists_ofRatio?_iff`).
-/

namespace TagTemplate

def withSign (negative : Bool) (v : ℚ) : ℚ := if negative then -v else v

theorem abs_withSign (negative : Bool) {v : ℚ} (h : 0 ≤ v) : |withSign negative v| = v := by
  cases negative with
  | true => rw [withSign, if_pos rfl, abs_neg, abs_of_nonneg h]
  | false => rw [withSign, if_neg (by simp), abs_of_nonneg h]

namespace Double

variable {x y : Double} {v : ℚ}

/-! ## The distance between doubles -/

theorem magnitude_nonneg (x : Double) : 0 ≤ x.magnitude :=
  mul_nonneg (Nat.cast_nonneg _) (two_zpow_pos _).le

/-- Above the least exponent a mantissa has 53 bits. -/
theorem le_mantissa (h : -1074 < x.exponent) : (2 : ℚ) ^ 52 ≤ x.mantissa := by
  rcases x.normal with hn | hn
  · exact_mod_cast hn
  · omega

/-- A double of a greater exponent is a whole number of the smaller units. -/
theorem exists_units (h : x.exponent ≤ y.exponent) :
    ∃ k : ℕ, y.magnitude = k * 2 ^ x.exponent := by
  refine ⟨y.mantissa * 2 ^ (y.exponent - x.exponent).toNat, ?_⟩
  have hpow : (2 : ℚ) ^ y.exponent = 2 ^ (y.exponent - x.exponent).toNat * 2 ^ x.exponent := by
    rw [← zpow_natCast, ← zpow_add₀ (by norm_num)]
    congr 1
    omega
  rw [magnitude, hpow]
  push_cast
  ring

/-- A double of a smaller exponent lies at least half a unit below the 53-bit mantissas. -/
theorem magnitude_le_of_exponent_lt (h : y.exponent < x.exponent) :
    y.magnitude ≤ ((2 : ℚ) ^ 52 - 1 / 2) * 2 ^ x.exponent := by
  have hmantissa : (y.mantissa : ℚ) ≤ 2 ^ 53 - 1 := by
    have hlt : y.mantissa + 1 ≤ 2 ^ 53 := y.mantissa_lt
    have hcast : ((y.mantissa + 1 : ℕ) : ℚ) ≤ (2 ^ 53 : ℕ) := Nat.cast_le.mpr hlt
    push_cast at hcast
    linarith
  have hexponent : (2 : ℚ) ^ y.exponent ≤ 2 ^ (x.exponent - 1) :=
    zpow_le_zpow_right₀ (by norm_num) (by omega)
  have htwo : (2 : ℚ) ^ x.exponent = 2 * 2 ^ (x.exponent - 1) := by
    rw [← zpow_one_add₀ (by norm_num)]
    congr 1
    ring
  calc y.magnitude ≤ (2 ^ 53 - 1) * 2 ^ (x.exponent - 1) :=
        mul_le_mul hmantissa hexponent (two_zpow_pos _).le (by norm_num)
    _ = ((2 : ℚ) ^ 52 - 1 / 2) * 2 ^ x.exponent := by rw [htwo]; ring

/-- The next double above is a unit away. -/
theorem magnitude_add_le (h : x.magnitude < y.magnitude) :
    x.magnitude + 2 ^ x.exponent ≤ y.magnitude := by
  have hp := two_zpow_pos x.exponent
  rcases le_or_gt x.exponent y.exponent with he | he
  · obtain ⟨k, hk⟩ := exists_units he
    rw [hk, magnitude] at h ⊢
    have hlt : (x.mantissa : ℚ) < k := lt_of_mul_lt_mul_right h hp.le
    have hle : (x.mantissa : ℚ) + 1 ≤ k := by exact_mod_cast hlt
    calc (x.mantissa : ℚ) * 2 ^ x.exponent + 2 ^ x.exponent
        = (x.mantissa + 1) * 2 ^ x.exponent := by ring
      _ ≤ k * 2 ^ x.exponent := mul_le_mul_of_nonneg_right hle hp.le
  · -- a double of a smaller exponent is not above
    have hy := magnitude_le_of_exponent_lt he
    have hx := mul_le_mul_of_nonneg_right
      (le_mantissa (x := x) (by have := y.exponent_ge; omega)) hp.le
    rw [magnitude] at h
    linarith

/-- The next double below is a unit away, or half a unit below the least mantissa of an exponent. -/
theorem magnitude_le_sub (h : y.magnitude < x.magnitude) :
    y.magnitude ≤ x.magnitude - x.lowerGap / 2 * 2 ^ x.exponent := by
  have hp := two_zpow_pos x.exponent
  have hgap : (x.lowerGap : ℚ) ≤ 2 := x.lowerGap_le
  rcases le_or_gt x.exponent y.exponent with he | he
  · obtain ⟨k, hk⟩ := exists_units he
    rw [hk, magnitude] at h ⊢
    have hlt : (k : ℚ) < x.mantissa := lt_of_mul_lt_mul_right h hp.le
    have hle : (k : ℚ) + 1 ≤ x.mantissa := by exact_mod_cast hlt
    calc (k : ℚ) * 2 ^ x.exponent ≤ (x.mantissa - x.lowerGap / 2) * 2 ^ x.exponent :=
          mul_le_mul_of_nonneg_right (by linarith) hp.le
      _ = x.mantissa * 2 ^ x.exponent - x.lowerGap / 2 * 2 ^ x.exponent := by ring
  · have hexponent : -1074 < x.exponent := by have := y.exponent_ge; omega
    have hmantissa := le_mantissa hexponent
    have hunits : (2 : ℚ) ^ 52 - 1 / 2 ≤ x.mantissa - x.lowerGap / 2 := by
      by_cases hleast : x.mantissa = 0x10000000000000
      · have hone : x.lowerGap = 1 := by rw [lowerGap, if_pos ⟨hleast, hexponent⟩]
        rw [hone]
        push_cast
        linarith
      · have hlt : (2 : ℚ) ^ 52 + 1 ≤ x.mantissa := by
          have hge : 0x10000000000000 ≤ x.mantissa := by exact_mod_cast hmantissa
          exact_mod_cast Nat.lt_of_le_of_ne hge (Ne.symm hleast)
        linarith
    calc y.magnitude ≤ ((2 : ℚ) ^ 52 - 1 / 2) * 2 ^ x.exponent := magnitude_le_of_exponent_lt he
      _ ≤ (x.mantissa - x.lowerGap / 2) * 2 ^ x.exponent :=
          mul_le_mul_of_nonneg_right hunits hp.le
      _ = x.magnitude - x.lowerGap / 2 * 2 ^ x.exponent := by rw [magnitude]; ring

/-! ## Nearest doubles -/

/-- **A double that covers a number is at least as near to it as another one**, and if the two are
equally near, its mantissa is even. -/
theorem Covers.nearest (h : x.Covers v) (hne : y.magnitude ≠ x.magnitude) :
    |v - x.magnitude| ≤ |v - y.magnitude| ∧
      (|v - x.magnitude| = |v - y.magnitude| → x.mantissa % 2 = 0) := by
  have hlower : x.lowerMidpoint * 2 ^ x.exponent
      = x.magnitude - x.lowerGap / 4 * 2 ^ x.exponent := by
    rw [lowerMidpoint, magnitude]
    ring
  have hupper : x.upperMidpoint * 2 ^ x.exponent = x.magnitude + 1 / 2 * 2 ^ x.exponent := by
    rw [upperMidpoint, magnitude]
    ring
  have hlow := h.lower
  have hhigh := h.upper
  have hodd := h.odd
  rw [hlower] at hlow hodd
  rw [hupper] at hhigh hodd
  -- the two are equally near at a midpoint, which an odd mantissa does not cover
  have heven : ¬ (x.mantissa % 2 = 1) → x.mantissa % 2 = 0 := by omega
  rcases lt_or_gt_of_ne hne with hbelow | habove
  · have hstep := magnitude_le_sub hbelow
    have hpos : 0 ≤ v - y.magnitude := by
      have := mul_nonneg x.lowerGap_pos.le (two_zpow_pos x.exponent).le
      linarith
    rw [abs_of_nonneg hpos]
    rcases abs_cases (v - x.magnitude) with ⟨habs, hsign⟩ | ⟨habs, hsign⟩
    · rw [habs]
      exact ⟨by linarith, fun heq => by linarith⟩
    · rw [habs]
      refine ⟨by linarith, fun heq => heven fun hm => ?_⟩
      have := (hodd hm).1
      linarith
  · have hstep := magnitude_add_le habove
    have hneg : v - y.magnitude ≤ 0 := by
      have := two_zpow_pos x.exponent
      linarith
    rw [abs_of_nonpos hneg]
    rcases abs_cases (v - x.magnitude) with ⟨habs, hsign⟩ | ⟨habs, hsign⟩
    · rw [habs]
      refine ⟨by linarith, fun heq => heven fun hm => ?_⟩
      have := (hodd hm).2
      linarith
    · rw [habs]
      exact ⟨by linarith, fun heq => by linarith⟩

/-- The rational number that a double stands for. -/
def value (x : Double) : ℚ := withSign x.negative x.magnitude

theorem abs_value (x : Double) : |x.value| = x.magnitude :=
  abs_withSign x.negative x.magnitude_nonneg

/-- A double is nearest to a number if no other double is nearer, and if it has an even mantissa
where a double of another value is equally near. -/
structure IsNearest (x : Double) (q : ℚ) : Prop where
  le : ∀ y : Double, |q - x.value| ≤ |q - y.value|
  even : ∀ y : Double, y.value ≠ x.value → |q - x.value| = |q - y.value| → x.mantissa % 2 = 0

/-- **A double that covers the magnitude of a number, and has its sign, is nearest to it.** -/
theorem isNearest_of_covers {negative : Bool} (hsign : x.negative = negative) (hv : 0 ≤ v)
    (h : x.Covers v) : x.IsNearest (withSign negative v) := by
  have hx : |withSign negative v - x.value| = |v - x.magnitude| := by
    rw [value, hsign]
    cases negative with
    | true => simp only [withSign, if_true, ← neg_sub', abs_neg]
    | false => rfl
  have hy : ∀ y : Double, |v - y.magnitude| ≤ |withSign negative v - y.value| := by
    intro y
    have := abs_abs_sub_abs_le_abs_sub (withSign negative v) y.value
    rwa [abs_withSign negative hv, abs_value] at this
  refine ⟨fun y => ?_, fun y hne heq => ?_⟩
  · rw [hx]
    by_cases hmagnitude : y.magnitude = x.magnitude
    · rw [← hmagnitude]
      exact hy y
    · exact le_trans (h.nearest hmagnitude).1 (hy y)
  · rw [hx] at heq
    by_cases hmagnitude : y.magnitude = x.magnitude
    · -- of two opposite numbers one is nearer, unless the number between them is zero
      have hopposite : y.value = -x.value := by
        have habs : |y.value| = |x.value| := by rw [abs_value, abs_value, hmagnitude]
        exact (abs_eq_abs.mp habs).resolve_left hne
      have hdistance : |withSign negative v - y.value| = v + x.magnitude := by
        rw [hopposite, value, hsign, sub_neg_eq_add]
        have hsum : 0 ≤ v + x.magnitude := add_nonneg hv x.magnitude_nonneg
        cases negative with
        | true => simp only [withSign, if_true, ← neg_add, abs_neg, abs_of_nonneg hsum]
        | false => exact abs_of_nonneg hsum
      have hvalue : x.value ≠ 0 := by
        intro hzero
        rw [hopposite, hzero, neg_zero] at hne
        exact hne rfl
      have hpos : 0 < x.magnitude := by
        rw [← abs_value]
        exact abs_pos.mpr hvalue
      rw [hdistance] at heq
      have hzero : v = 0 := by
        rcases abs_cases (v - x.magnitude) with ⟨habs, -⟩ | ⟨habs, -⟩
        · linarith
        · linarith
      rw [hzero] at h
      rw [h.mantissa_eq_zero]
    · have hle := (h.nearest hmagnitude).1
      exact (h.nearest hmagnitude).2 (le_antisymm hle (heq ▸ hy y))

/-! ## Equal values -/

/-- What covers a number is determined up to the sign. -/
theorem Covers.unique (hx : x.Covers v) (hy : y.Covers v) (hv : 0 ≤ v) :
    x.mantissa = y.mantissa ∧ x.exponent = y.exponent := by
  -- the other double with the sign of this one covers the number, too
  set y' : Double := { y with negative := x.negative } with hy'
  have hcovers : y'.Covers v := ⟨hy.lower, hy.upper, hy.odd⟩
  have hratio : (v.num.natAbs : ℚ) / v.den = v := by
    rw [Nat.cast_natAbs, abs_of_nonneg (Rat.num_nonneg.mpr hv)]
    exact Rat.num_div_den v
  rw [← hratio] at hx hcovers
  have heq : x = y' := Option.some_inj.mp
    ((ofRatio?_of_covers v.den_pos hx).symm.trans (ofRatio?_of_covers v.den_pos hcovers))
  rw [heq]
  exact ⟨rfl, rfl⟩

/-- Doubles that cover a number and have its sign have the same value; both are zero if the number
is. -/
theorem sameValue_of_covers (hx : x.Covers v) (hy : y.Covers v) (hv : 0 ≤ v)
    (hsign : v ≠ 0 → x.negative = y.negative) : x.sameValue y = true := by
  obtain ⟨hmantissa, hexponent⟩ := hx.unique hy hv
  have hsame : x.negative = y.negative ∨ x.mantissa = 0 := by
    by_cases hzero : v = 0
    · rw [hzero] at hx
      exact .inr hx.mantissa_eq_zero
    · exact .inl (hsign hzero)
  simpa [sameValue, hmantissa, hexponent] using hsame

/-- The comparison of doubles is that of the numbers that they stand for. -/
theorem value_eq_of_sameValue (h : x.sameValue y = true) : x.value = y.value := by
  simp only [sameValue, Bool.and_eq_true, Bool.or_eq_true, beq_iff_eq] at h
  obtain ⟨⟨hmantissa, hexponent⟩, hsign⟩ := h
  have hmagnitude : x.magnitude = y.magnitude := by
    rw [magnitude, magnitude, hmantissa, hexponent]
  rcases hsign with hsign | hzero
  · rw [value, value, hsign, hmagnitude]
  · have hx : x.magnitude = 0 := by rw [magnitude, hzero, Nat.cast_zero, zero_mul]
    have hy : y.magnitude = 0 := by rw [← hmagnitude, hx]
    rw [abs_eq_zero.mp (x.abs_value.trans hx), abs_eq_zero.mp (y.abs_value.trans hy)]

/-- **Doubles compare by the numbers that they stand for.** -/
theorem sameValue_iff : x.sameValue y = true ↔ x.value = y.value := by
  constructor
  · exact value_eq_of_sameValue
  · intro h
    have hmagnitude : x.magnitude = y.magnitude := by
      rw [← abs_value, ← abs_value, h]
    refine sameValue_of_covers x.covers_magnitude (hmagnitude ▸ y.covers_magnitude)
      x.magnitude_nonneg fun hne => ?_
    -- a number other than zero is not its own negative
    by_contra hsign
    have hopposite : x.value = -y.value := by
      rw [value, value, hmagnitude]
      cases hx : x.negative <;> cases hy : y.negative <;> simp_all [withSign]
    have hzero : x.value = 0 := by linarith
    exact hne (by rw [← abs_value, hzero, abs_zero])

/-! ## The range of the doubles -/

/-- Half a unit above the greatest double, in units of the greatest exponent. -/
theorem limit_eq : (2 : ℚ) ^ 1024 - 2 ^ 970 = (2 ^ 53 - 1 / 2) * 2 ^ (971 : ℤ) := by
  have hgreat : (2 : ℚ) ^ 1024 = 2 ^ 54 * 2 ^ 970 := by rw [← pow_add]
  have hunit : (2 : ℚ) ^ (971 : ℤ) = 2 * 2 ^ 970 := by rw [← pow_succ']; rfl
  rw [hgreat, hunit]
  generalize (2 : ℚ) ^ 970 = p
  ring

/-- A covered number lies below half a unit above the greatest double. -/
theorem Covers.lt_limit (h : x.Covers v) : v < 2 ^ 1024 - 2 ^ 970 := by
  rw [limit_eq]
  have hp := two_zpow_pos 971
  rcases lt_or_eq_of_le x.exponent_le with he | he
  · calc v < 2 ^ (x.exponent + 53) := h.lt
      _ ≤ 2 ^ (52 + 971 : ℤ) := zpow_le_zpow_right₀ (by norm_num) (by omega)
      _ = 2 ^ (52 : ℤ) * 2 ^ (971 : ℤ) := zpow_add₀ (by norm_num) _ _
      _ ≤ (2 ^ 53 - 1 / 2) * 2 ^ (971 : ℤ) := mul_le_mul_of_nonneg_right (by norm_num) hp.le
  · -- the greatest mantissa is odd, so the limit itself is not covered
    have hhigh := h.upper
    have hodd := h.odd
    rw [upperMidpoint, he] at hhigh hodd
    have hlt : (x.mantissa : ℚ) + 1 ≤ 2 ^ 53 := by exact_mod_cast x.mantissa_lt
    by_cases hgreatest : x.mantissa % 2 = 1
    · calc v < (x.mantissa + 1 / 2) * 2 ^ (971 : ℤ) := (hodd hgreatest).2
        _ ≤ (2 ^ 53 - 1 / 2) * 2 ^ (971 : ℤ) :=
            mul_le_mul_of_nonneg_right (by linarith) hp.le
    · have hle : x.mantissa + 2 ≤ 2 ^ 53 := by have := x.mantissa_lt; omega
      have hcast : (x.mantissa : ℚ) + 2 ≤ 2 ^ 53 := by exact_mod_cast hle
      calc v ≤ (x.mantissa + 1 / 2) * 2 ^ (971 : ℤ) := hhigh
        _ < (2 ^ 53 - 1 / 2) * 2 ^ (971 : ℤ) := mul_lt_mul_of_pos_right (by linarith) hp

/-- Below the limit the exponent is one of a double. -/
theorem CanonicalExponent.le_of_lt_limit {e : ℤ} (h : CanonicalExponent v e)
    (hlimit : v < 2 ^ 1024 - 2 ^ 970) : e ≤ 971 := by
  by_contra hgreat
  have hle := h.le.resolve_left (by omega)
  have hpow : (2 : ℚ) ^ (53 + 971 : ℤ) ≤ 2 ^ (e + 52) :=
    zpow_le_zpow_right₀ (by norm_num) (by omega)
  rw [zpow_add₀ (by norm_num)] at hpow
  have hless : ((2 : ℚ) ^ 53 - 1 / 2) * 2 ^ (971 : ℤ) < 2 ^ (53 : ℤ) * 2 ^ (971 : ℤ) :=
    mul_lt_mul_of_pos_right (by norm_num) (two_zpow_pos 971)
  rw [limit_eq] at hlimit
  exact lt_irrefl _ (lt_of_lt_of_le (hlimit.trans hless) (hpow.trans hle))

/-- The mantissa of a ratio has at most 53 bits, or is the number behind them. -/
theorem mantissaFor_le {num den : ℕ} (hd : 0 < den) {e : ℤ}
    (h : CanonicalExponent (num / den) e) : mantissaFor num den e ≤ 0x20000000000000 := by
  obtain ⟨hlow, -⟩ := mantissaFor_bounds num hd e
  generalize mantissaFor num den e = m at hlow ⊢
  have hlt : ((m : ℚ) - 1 / 2) * 2 ^ e < 2 ^ 53 * 2 ^ e := by
    calc ((m : ℚ) - 1 / 2) * 2 ^ e ≤ num / den := hlow
      _ < 2 ^ (e + 53) := h.lt
      _ = 2 ^ 53 * 2 ^ e := by rw [add_comm, zpow_add₀ (by norm_num)]; rfl
  have hbound : (m : ℚ) < (0x20000000000000 + 1 : ℕ) := by
    have := lt_of_mul_lt_mul_right hlt (two_zpow_pos e).le
    push_cast
    linarith
  exact Nat.lt_succ_iff.mp (Nat.cast_lt.mp hbound)

/-- Above the least exponent it has 53 bits. -/
theorem le_mantissaFor {num den : ℕ} (hd : 0 < den) {e : ℤ}
    (h : CanonicalExponent (num / den) e) :
    0x10000000000000 ≤ mantissaFor num den e ∨ e = -1074 := by
  rcases h.le with he | he
  · exact .inr he
  left
  obtain ⟨-, hhigh, -⟩ := mantissaFor_bounds num hd e
  generalize mantissaFor num den e = m at hhigh ⊢
  have hle : (2 : ℚ) ^ 52 * 2 ^ e ≤ ((m : ℚ) + 1 / 2) * 2 ^ e := by
    calc (2 : ℚ) ^ 52 * 2 ^ e = 2 ^ (e + 52) := by rw [add_comm, zpow_add₀ (by norm_num)]; rfl
      _ ≤ num / den := he
      _ ≤ ((m : ℚ) + 1 / 2) * 2 ^ e := hhigh
  have hbound : ((0x10000000000000 : ℕ) : ℚ) < (m + 1 : ℕ) := by
    have := le_of_mul_le_mul_right hle (two_zpow_pos e)
    push_cast
    linarith
  exact Nat.lt_succ_iff.mp (Nat.cast_lt.mp hbound)

/-- At the greatest exponent only the limit is rounded up to the next one. -/
theorem lt_of_roundedUp {num den : ℕ} (hd : 0 < den) {e : ℤ}
    (hm : mantissaFor num den e = 0x20000000000000)
    (hlimit : (num / den : ℚ) < 2 ^ 1024 - 2 ^ 970) : e < 971 := by
  obtain ⟨hlow, -⟩ := mantissaFor_bounds num hd e
  have hmantissa : ((0x20000000000000 : ℕ) : ℚ) = 2 ^ 53 := by norm_num
  rw [hm, hmantissa] at hlow
  rw [limit_eq] at hlimit
  have hless : (2 : ℚ) ^ e < 2 ^ (971 : ℤ) :=
    lt_of_mul_lt_mul_left (lt_of_le_of_lt hlow hlimit) (by norm_num)
  exact (zpow_lt_zpow_iff_right₀ (by norm_num)).mp hless

theorem exists_ofParts? {negative : Bool} {m : ℕ} {e : ℤ} (hm : m < 0x20000000000000)
    (hlow : -1074 ≤ e) (hhigh : e ≤ 971) (hnormal : 0x10000000000000 ≤ m ∨ e = -1074) :
    ∃ x, ofParts? negative m e = some x := by
  unfold ofParts?
  rw [dif_pos ⟨hm, hlow, hhigh, hnormal⟩]
  exact ⟨_, rfl⟩

/-- **A ratio rounds to a double exactly if it is below the limit.** -/
theorem exists_ofRatio?_iff (negative : Bool) (num : ℕ) {den : ℕ} (hd : 0 < den) :
    (∃ x, ofRatio? negative num den = some x) ↔ (num / den : ℚ) < 2 ^ 1024 - 2 ^ 970 := by
  constructor
  · rintro ⟨x, hx⟩
    exact (covers_of_ofRatio? hd hx).2.lt_limit
  intro hlimit
  unfold ofRatio?
  by_cases hn : num = 0
  · rw [if_pos hn]
    exact ⟨_, rfl⟩
  rw [if_neg hn]
  have hcanonical := exponentFor_canonical hn hd.ne'
  dsimp only
  generalize exponentFor num den = e at hcanonical ⊢
  by_cases hroundedUp : mantissaFor num den e = 0x20000000000000
  · rw [if_pos hroundedUp]
    have hge := hcanonical.ge
    have hless := lt_of_roundedUp hd hroundedUp hlimit
    exact exists_ofParts? (by norm_num) (by omega) (by omega) (.inl le_rfl)
  · rw [if_neg hroundedUp]
    have hle := mantissaFor_le hd hcanonical
    exact exists_ofParts? (by omega) hcanonical.ge (hcanonical.le_of_lt_limit hlimit)
      (le_mantissaFor hd hcanonical)

/-- A numeral is read as a double exactly if its value is below the limit. -/
theorem exists_ofNumeral?_iff (negative : Bool) (whole fraction : Text) :
    (∃ x, ofNumeral? negative whole fraction = some x) ↔
      numeralValue whole fraction < 2 ^ 1024 - 2 ^ 970 := by
  unfold ofNumeral?
  rw [Nat.pow_eq, exists_ofRatio?_iff negative _ (by positivity), numeralValue, Nat.cast_pow,
    Nat.cast_ofNat]

end Double

theorem numeralValue_nonneg (whole fraction : Text) : 0 ≤ numeralValue whole fraction := by
  unfold numeralValue
  positivity

end TagTemplate
