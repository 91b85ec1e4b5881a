import TagTemplate.Datum.Basic
import TagTemplate.Number.Numeral

set_option autoImplicit false

/-! # Reading floating point numbers

The text of a floating point number is an optional sign and then digits with at most one point among
them, with an optional exponent, or one of the words for infinity and for no number, in letters of
either case. White space may surround it. The number is rounded to the nearest double, and one beyond
the range of the doubles is infinite. -/

namespace TagTemplate

def readSignedDigits? (t : Text) : Option Int :=
  let (negative, digits) := Numeral.splitSign t
  if digits ≠ [] ∧ digits.all Char.isDigit then
    let magnitude : Int := Nat.ofDigitChars 10 digits 0
    some (if negative then -magnitude else magnitude)
  else none

/-- The exponent at the end of a number: none is zero. -/
def readExponent? : Text → Option Int
  | [] => some 0
  | 'e' :: rest => readSignedDigits? rest
  | 'E' :: rest => readSignedDigits? rest
  | _ => none

namespace FloatValue

def opposite : FloatValue → FloatValue
  | finite x => finite { x with negative := !x.negative }
  | infinite negative => infinite (!negative)
  | notNumber => notNumber

/-- A double, or an infinity where there is none. -/
def ofDouble? (negative : Bool) : Option Double → FloatValue
  | some x => finite x
  | none => infinite negative

/-- The number of digits with a point and an exponent, behind the sign. -/
def ofUnsigned? (negative : Bool) (t : Text) : Option FloatValue :=
  let whole := t.takeWhile Char.isDigit
  let (fraction, rest) := match t.dropWhile Char.isDigit with
    | '.' :: tail => (tail.takeWhile Char.isDigit, tail.dropWhile Char.isDigit)
    | tail => ([], tail)
  if whole = [] ∧ fraction = [] then none
  else (readExponent? rest).map fun e =>
    ofDouble? negative <| Double.ofScientific? negative
      (Nat.ofDigitChars 10 (whole ++ fraction) 0) (e - (fraction.length : Int))

def ofText? (t : Text) : Option FloatValue :=
  match Numeral.joinDigits? Char.isDigit false (Numeral.strip (Numeral.ascii t)) with
  | none => none
  | some t =>
    let (negative, unsigned) := Numeral.splitSign t
    let word := unsigned.map Char.toLower
    if word = "inf".toList ∨ word = "infinity".toList then some (infinite negative)
    else if word = "nan".toList then some notNumber
    else ofUnsigned? negative unsigned

end FloatValue

end TagTemplate
