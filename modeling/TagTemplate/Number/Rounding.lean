import TagTemplate.Number.Double

set_option autoImplicit false

/-! # Rounding a ratio to a double

The double nearest to a ratio of natural numbers, with ties to the even mantissa. The exponent is
the least one whose 53-bit mantissas reach the ratio; the ratio in units of that power of two is
rounded to a whole mantissa. A ratio of `2 ^ 1024 - 2 ^ 970` or more, half a unit above the greatest
double, has no nearest double. -/

namespace TagTemplate

/-- The whole number nearest to `n / d`, the even one of two that are equally near. -/
def roundHalfEven (n d : Nat) : Nat :=
  let q := n / d
  let r := n % d
  if d < 2 * r ∨ (d = 2 * r ∧ q % 2 = 1) then q + 1 else q

/-- Whether `num / den` is less than `2 ^ e`. -/
def ratioLtPow (num den : Nat) (e : Int) : Bool :=
  num * Nat.pow 2 (-e).toNat < den * Nat.pow 2 e.toNat

namespace Double

/-- The least exponent, not below `-1074`, whose 53-bit mantissas reach `num / den`. -/
def exponentFor (num den : Nat) : Int :=
  let e : Int := (num.log2 : Int) - (den.log2 : Int) - 53
  max (if ratioLtPow num den (e + 53) then e else e + 1) (-1074)

/-- The ratio `num / den` in units of `2 ^ e`, rounded to a whole number. -/
def mantissaFor (num den : Nat) (e : Int) : Nat :=
  roundHalfEven (num * Nat.pow 2 (-e).toNat) (den * Nat.pow 2 e.toNat)

/-- The double of the given sign that is nearest to `num / den`, nothing if the ratio is too large.
A mantissa that rounds up to `2 ^ 53` is the least one of the next exponent. -/
def ofRatio? (negative : Bool) (num den : Nat) : Option Double :=
  if num = 0 then some (zero negative)
  else
    let e := exponentFor num den
    let m := mantissaFor num den e
    if m = 0x20000000000000 then ofParts? negative 0x10000000000000 (e + 1)
    else ofParts? negative m e

/-- The double nearest to a whole number, nothing if the number is too large. -/
def ofInt? (n : Int) : Option Double := ofRatio? (n < 0) n.natAbs 1

end Double

end TagTemplate
