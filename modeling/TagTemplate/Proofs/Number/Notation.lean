import TagTemplate.Number.FloatText
import TagTemplate.Proofs.Lexer.Literal
import TagTemplate.Proofs.Number.Distance

set_option autoImplicit false

/-! # What decimal notation stands for

Doubles are written in two notations. A literal of the template language spells all digits out; a
display turns to an exponent for very large and very small magnitudes. `notationValue?` reads both
as the exact rational number that they stand for, without rounding it to a double. The two notations
of a double stand for one number, that of its shortest decimal with the sign of the double
(`Double.notationValue?_literal`, `Double.notationValue?_display`).
-/

namespace TagTemplate

/-- The digits behind a point at the front of a text, if there is one, and what follows them. -/
def splitFraction : Text → Text × Text
  | '.' :: tail => (tail.takeWhile Char.isDigit, tail.dropWhile Char.isDigit)
  | t => ([], t)

/-- The exact number that a text in decimal notation stands for: an optional sign, digits, with a
point and further digits behind them or without, and an optional exponent. -/
def notationValue? (t : Text) : Option ℚ :=
  let (negative, unsigned) := Numeral.splitSign t
  let whole := unsigned.takeWhile Char.isDigit
  let (fraction, rest) := splitFraction (unsigned.dropWhile Char.isDigit)
  if whole = [] then none
  else (readExponent? rest).map fun e => withSign negative (numeralValue whole fraction * 10 ^ e)

/-! ## Reading the parts -/

theorem Numeral.splitSign_signText (negative : Bool) {body : Text}
    (h : ∀ c ∈ body.head?, c.isDigit = true) :
    splitSign (signText negative ++ body) = (negative, body) := by
  cases negative with
  | true => rfl
  | false =>
      cases body with
      | nil => rfl
      | cons c body =>
          have hc : c.isDigit = true := h c (by simp)
          rw [signText, if_neg (by simp), List.nil_append, splitSign]
          · rintro _ heq
            exact digit_ne hc (by decide) (List.cons.inj heq).1
          · rintro _ heq
            exact digit_ne hc (by decide) (List.cons.inj heq).1

/-- A sign and digits in front of something else are read together. -/
theorem notationValue?_of_digits (negative : Bool) {whole tail : Text} (hne : whole ≠ [])
    (hwhole : ∀ c ∈ whole, c.isDigit = true) (htail : ∀ c ∈ tail.head?, c.isDigit = false) :
    notationValue? (signText negative ++ (whole ++ tail)) =
      (readExponent? (splitFraction tail).2).map fun e =>
        withSign negative (numeralValue whole (splitFraction tail).1 * 10 ^ e) := by
  have hhead : ∀ c ∈ (whole ++ tail).head?, c.isDigit = true := by
    obtain ⟨d, digits, rfl⟩ := List.exists_cons_of_ne_nil hne
    intro c hc
    obtain rfl : d = c := by simpa using hc
    exact hwhole d (by simp)
  obtain ⟨htake, hdrop⟩ := takeWhile_append_stop hwhole htail
  unfold notationValue?
  rw [Numeral.splitSign_signText negative hhead]
  dsimp only
  rw [htake, hdrop, if_neg hne]

/-- Digits on both sides of a point. -/
theorem notationValue?_numeral (negative : Bool) {whole fraction : Text}
    (h : IsNumeral whole fraction) :
    notationValue? (signText negative ++ (whole ++ '.' :: fraction))
      = some (withSign negative (numeralValue whole fraction)) := by
  have htake : fraction.takeWhile Char.isDigit = fraction :=
    List.takeWhile_eq_self_iff.mpr h.fraction_digits
  have hdrop : fraction.dropWhile Char.isDigit = [] :=
    List.dropWhile_eq_nil_iff.mpr h.fraction_digits
  rw [notationValue?_of_digits negative h.whole_ne_nil h.whole_digits (by simp), splitFraction,
    htake, hdrop, readExponent?, Option.map_some, zpow_zero, mul_one]

/-! ## Exponents -/

/-- The text of an exponent is read as that exponent. -/
theorem readSignedDigits?_exponentText (e : ℤ) :
    readSignedDigits? (Decimal.exponentText e) = some e := by
  set digits := List.replicate (2 - (Nat.toDigits 10 e.natAbs).length) '0'
    ++ Nat.toDigits 10 e.natAbs with hdigits
  have htext : Decimal.exponentText e = (if e < 0 then ['-'] else ['+']) ++ digits := by
    rw [Decimal.exponentText, hdigits, List.append_assoc]
  have hsplit : Numeral.splitSign (Decimal.exponentText e) = (decide (e < 0), digits) := by
    rw [htext]
    by_cases he : e < 0
    · rw [if_pos he, decide_eq_true he]
      rfl
    · rw [if_neg he, decide_eq_false he]
      rfl
  have hne : digits ≠ [] := by
    rw [hdigits]
    exact List.append_ne_nil_of_right_ne_nil _ Nat.toDigits_ne_nil
  have hall : digits.all Char.isDigit = true := by
    rw [List.all_eq_true, hdigits]
    intro c hc
    rcases List.mem_append.mp hc with hc | hc
    · rw [List.eq_of_mem_replicate hc]
      decide
    · exact Nat.isDigit_of_mem_toDigits (by decide) (by decide) hc
  have hvalue : Nat.ofDigitChars 10 digits 0 = e.natAbs := by
    rw [hdigits, Nat.ofDigitChars_append, Nat.ofDigitChars_replicate_zero, mul_zero,
      Nat.ofDigitChars_ten_toDigits]
  unfold readSignedDigits?
  rw [hsplit]
  dsimp only
  rw [if_pos ⟨hne, hall⟩, hvalue]
  by_cases he : e < 0
  · simp only [he, decide_true, if_true, Option.some_inj]
    omega
  · simp only [he, decide_false, Option.some_inj]
    simp only [Bool.false_eq_true, if_false]
    omega

/-- Behind the digits of a numeral: its exponent. -/
theorem readExponent?_exponentText (e : ℤ) :
    readExponent? ('e' :: Decimal.exponentText e) = some e :=
  readSignedDigits?_exponentText e

/-- Digits and an exponent. -/
theorem notationValue?_exponent (negative : Bool) {whole : Text} (hne : whole ≠ [])
    (hwhole : ∀ c ∈ whole, c.isDigit = true) (e : ℤ) :
    notationValue? (signText negative ++ (whole ++ 'e' :: Decimal.exponentText e))
      = some (withSign negative (numeralValue whole [] * 10 ^ e)) := by
  rw [notationValue?_of_digits negative hne hwhole (by simp), splitFraction,
    readExponent?_exponentText, Option.map_some]
  rintro tail heq
  simp at heq

/-- Digits on both sides of a point, and an exponent. -/
theorem notationValue?_numeral_exponent (negative : Bool) {whole fraction : Text}
    (h : IsNumeral whole fraction) (e : ℤ) :
    notationValue?
        (signText negative ++ (whole ++ '.' :: (fraction ++ 'e' :: Decimal.exponentText e)))
      = some (withSign negative (numeralValue whole fraction * 10 ^ e)) := by
  have hexponent : ∀ c ∈ ('e' :: Decimal.exponentText e).head?, c.isDigit = false := by simp
  obtain ⟨htake, hdrop⟩ := takeWhile_append_stop h.fraction_digits hexponent
  rw [notationValue?_of_digits negative h.whole_ne_nil h.whole_digits (by simp), splitFraction,
    htake, hdrop, readExponent?_exponentText, Option.map_some]

namespace Decimal

/-- **The notation with an exponent stands for the value of the decimal.** -/
theorem notationValue?_scientific (negative : Bool) (d : Decimal) :
    notationValue? (signText negative ++ d.scientific) = some (withSign negative d.value) := by
  have hdigits := d.digits_isDigit
  have hvalue := d.value_eq_digits
  unfold scientific
  dsimp only
  split
  · -- no digits: the decimal is zero
    next hnil =>
    rw [hnil, Nat.ofDigitChars_nil, Nat.cast_zero, zero_mul] at hvalue
    rw [List.append_assoc]
    refine (notationValue?_exponent negative (by simp) (by simp) _).trans ?_
    rw [hvalue]
    simp [numeralValue, Nat.ofDigitChars_cons]
  · next c hone =>
    rw [hone] at hdigits hvalue
    rw [List.append_assoc]
    refine (notationValue?_exponent negative (by simp) hdigits _).trans ?_
    rw [hvalue]
    simp [numeralValue]
  · next c rest hne hmany =>
    rw [hmany] at hdigits hvalue
    have hnumeral : IsNumeral [c] rest :=
      ⟨by simp, hne, by simpa using hdigits c (by simp),
        fun c' hc' => hdigits c' (by simp [hc'])⟩
    have hassoc : c :: '.' :: rest ++ ['e'] ++ exponentText (d.pointPlace - 1)
        = [c] ++ '.' :: (rest ++ 'e' :: exponentText (d.pointPlace - 1)) := by simp
    have hpower : (10 : ℚ) ^ (d.pointPlace - ((c :: rest).length : ℤ))
        = 10 ^ (d.pointPlace - 1) / 10 ^ rest.length := by
      rw [← zpow_natCast, ← zpow_sub₀ (by norm_num), List.length_cons]
      congr 1
      omega
    rw [hassoc, notationValue?_numeral_exponent negative hnumeral, hvalue, hpower, numeralValue,
      List.singleton_append, div_mul_eq_mul_div, mul_div_assoc]

end Decimal

namespace Double

/-- The number that the notations of a double stand for: its shortest decimal, with its sign. -/
def notedValue (x : Double) : ℚ := withSign x.negative x.shortest.value

theorem notationValue?_positional (x : Double) :
    notationValue? (x.signText ++ x.shortest.positional) = some x.notedValue := by
  obtain ⟨whole, fraction, hlayout, hnumeral, hvalue⟩ := x.shortest.positional_numeral
  rw [hlayout, notedValue, ← hvalue]
  exact notationValue?_numeral x.negative hnumeral

/-- **What the literal of a double stands for.** -/
theorem notationValue?_literal (x : Double) : notationValue? x.literal = some x.notedValue :=
  x.notationValue?_positional

/-- **What the display of a double stands for.** -/
theorem notationValue?_display (x : Double) : notationValue? x.display = some x.notedValue := by
  unfold display
  dsimp only
  split
  · exact x.notationValue?_positional
  · exact x.shortest.notationValue?_scientific x.negative

end Double

end TagTemplate
