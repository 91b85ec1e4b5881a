set_option autoImplicit false

/-! # Finite doubles

A finite double is a sign and a dyadic number `mantissa * 2 ^ exponent` in its one canonical form:
the mantissa has at most 53 bits, so it is below `0x20000000000000`, and exactly 53 unless the
exponent is the least one. Zero occurs with both signs. Equality of the structures is equality bit
for bit; the numerical comparison, which identifies the two zeros, is a function of its own. -/

namespace TagTemplate

/-- A finite double in canonical form. -/
structure Double where
  negative : Bool
  mantissa : Nat
  exponent : Int
  mantissa_lt : mantissa < 0x20000000000000
  exponent_ge : -1074 ≤ exponent
  exponent_le : exponent ≤ 971
  normal : 0x10000000000000 ≤ mantissa ∨ exponent = -1074
deriving DecidableEq

namespace Double

def zero (negative : Bool) : Double :=
  ⟨negative, 0, -1074, by decide, by decide, by decide, Or.inr rfl⟩

instance : Inhabited Double := ⟨zero false⟩

/-- The double of a canonical mantissa and exponent, nothing for any other pair. -/
def ofParts? (negative : Bool) (mantissa : Nat) (exponent : Int) : Option Double :=
  if h : mantissa < 0x20000000000000 ∧ -1074 ≤ exponent ∧ exponent ≤ 971 ∧
      (0x10000000000000 ≤ mantissa ∨ exponent = -1074) then
    some ⟨negative, mantissa, exponent, h.1, h.2.1, h.2.2.1, h.2.2.2⟩
  else none

/-- The numerator of the magnitude, over the denominator `2 ^ (-exponent)` if the exponent is
negative and over one otherwise. -/
def numerator (x : Double) : Nat := x.mantissa * Nat.pow 2 x.exponent.toNat

def denominator (x : Double) : Nat := Nat.pow 2 (-x.exponent).toNat

/-- The numerator with the sign of the double. -/
def signedNumerator (x : Double) : Int :=
  if x.negative then -(x.numerator : Int) else x.numerator

/-- Doubles compare numerically, so zero equals zero of the other sign. -/
def sameValue (x y : Double) : Bool :=
  x.mantissa == y.mantissa && x.exponent == y.exponent &&
    (x.negative == y.negative || x.mantissa == 0)

end Double

end TagTemplate
