import TagTemplate.Number.Shortest
import TagTemplate.Number.Rounding
import TagTemplate.Text.Basic

set_option autoImplicit false

/-! # Writing and reading doubles

Two layouts share the digits of the shortest decimal. A literal of the template language has no
exponent, so it spells all digits out and has at least one on each side of the point. A display
turns to an exponent, of at least two digits and with its sign, where the decimal order is below
`-4` or above `15`.

Reading takes the digits on both sides of the point as one whole number over a power of ten. -/

namespace TagTemplate

namespace Decimal

/-- The significant digits: those of the coefficient without trailing zeros. -/
def digits (d : Decimal) : Text :=
  ((Nat.toDigits 10 d.coefficient).reverse.dropWhile (· == '0')).reverse

/-- How many digits stand before the point, or, if negative, how many zeros follow it. -/
def pointPlace (d : Decimal) : Int := (Nat.toDigits 10 d.coefficient).length + d.exponent

/-- All digits spelled out, with at least one on each side of the point. -/
def positional (d : Decimal) : Text :=
  let digits := d.digits
  let place := d.pointPlace
  if digits = [] then ['0', '.', '0']
  else if place ≤ 0 then ['0', '.'] ++ List.replicate (-place).toNat '0' ++ digits
  else if place < digits.length then
    digits.take place.toNat ++ ['.'] ++ digits.drop place.toNat
  else digits ++ List.replicate (place.toNat - digits.length) '0' ++ ['.', '0']

/-- The sign of an exponent and at least two digits. -/
def exponentText (e : Int) : Text :=
  let digits := Nat.toDigits 10 e.natAbs
  (if e < 0 then ['-'] else ['+']) ++ List.replicate (2 - digits.length) '0' ++ digits

/-- One digit before the point, the others behind it, and the exponent. -/
def scientific (d : Decimal) : Text :=
  let mantissa := match d.digits with
    | [] => ['0']
    | [c] => [c]
    | c :: rest => c :: '.' :: rest
  mantissa ++ ['e'] ++ exponentText (d.pointPlace - 1)

end Decimal

namespace Double

def signText (x : Double) : Text := if x.negative then ['-'] else []

/-- A double as a literal of the template language: no exponent, digits on both sides of the
point. -/
def literal (x : Double) : Text := x.signText ++ x.shortest.positional

/-- A double in displays and messages: an exponent where the decimal order is below `-4` or above
`15`. -/
def display (x : Double) : Text :=
  let d := x.shortest
  if d.coefficient = 0 ∨ (-4 ≤ d.pointPlace - 1 ∧ d.pointPlace - 1 < 16) then
    x.signText ++ d.positional
  else x.signText ++ d.scientific

/-! ## Reading -/

/-- The double nearest to `digits * 10 ^ exponent`, nothing if that is too large. Beyond four
hundred orders of magnitude the answer is clear without the powers of ten. -/
def ofScientific? (negative : Bool) (coefficient : Nat) (exponent : Int) : Option Double :=
  let order : Int := (Nat.toDigits 10 coefficient).length + exponent
  if coefficient = 0 then some (zero negative)
  else if 400 < order then none
  else if order < -400 then some (zero negative)
  else ofRatio? negative (coefficient * Nat.pow 10 exponent.toNat) (Nat.pow 10 (-exponent).toNat)

/-- The double nearest to the numeral with the given digits before and behind the point, nothing if
that is too large. -/
def ofNumeral? (negative : Bool) (whole fraction : Text) : Option Double :=
  ofRatio? negative (Nat.ofDigitChars 10 (whole ++ fraction) 0) (Nat.pow 10 fraction.length)

end Double

end TagTemplate
