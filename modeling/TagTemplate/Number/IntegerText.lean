import TagTemplate.Number.DigitLimit
import TagTemplate.Number.Numeral
import TagTemplate.Text.Quoted

set_option autoImplicit false

/-! # Reading integers

The text of an integer is a sign, which may be left out, and digits of the base. In the bases two,
eight and sixteen the digits may stand behind a zero and the letter of the base, and there may be any
number of them. Of decimal digits there may only be so many, and these are counted before what
follows them is looked at. -/

namespace TagTemplate

/-- Why a text is no integer. -/
inductive IntegerFault
  | malformed (base : Nat) (written : Text)
  | digitLimit (count : Nat)

/-- The wording of a refusal; of the text at most two hundred characters are shown. -/
def IntegerFault.message : IntegerFault → String
  | malformed base written =>
    "invalid literal for int() with base " ++ toString base ++ ": " ++
      String.ofList ((Text.quoted written).take 200)
  | digitLimit count => digitLimitMessage count

namespace IntegerText

def hexDigit? (c : Char) : Option Nat :=
  if c.isDigit then some (c.toNat - '0'.toNat)
  else if 'a' ≤ c && c ≤ 'f' then some (c.toNat - 'a'.toNat + 10)
  else if 'A' ≤ c && c ≤ 'F' then some (c.toNat - 'A'.toNat + 10)
  else none

def isDigitOf (base : Nat) (c : Char) : Bool := (hexDigit? c).any (· < base)

def digitsValue (base : Nat) (digits : Text) : Nat :=
  digits.foldl (fun n c => base * n + (hexDigit? c).getD 0) 0

/-- The letter that marks a base behind a zero. -/
def baseMark? (base : Nat) : Option Char :=
  [(2, 'b'), (8, 'o'), (16, 'x')].lookup base

/-- A text without the mark of its base, and without an underscore behind the mark. -/
def dropMark (base : Nat) : Text → Text
  | '0' :: c :: rest =>
    if baseMark? base == some c.toLower then
      match rest with
      | '_' :: rest => rest
      | rest => rest
    else '0' :: c :: rest
  | t => t

def read (base : Nat) (written : Text) : Except IntegerFault Int :=
  let (negative, body) := Numeral.splitSign ((Numeral.ascii written).dropWhile Numeral.isBlank)
  let body := dropMark base body
  let isPart := fun (c : Char) => isDigitOf base c || c == '_'
  let rest := body.dropWhile isPart
  match Numeral.joinDigits? (isDigitOf base) false (body.takeWhile isPart) with
  | none => .error (.malformed base written)
  | some digits =>
    if (baseMark? base).isNone && maxIntegerDigits < digits.length then
      .error (.digitLimit digits.length)
    else if digits.isEmpty || !rest.all Numeral.isBlank then .error (.malformed base written)
    else
      let magnitude : Int := digitsValue base digits
      .ok (if negative then -magnitude else magnitude)

end IntegerText

end TagTemplate
