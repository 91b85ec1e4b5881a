import TagTemplate.Number.Double

set_option autoImplicit false

/-! # The shortest decimal of a double

Of the decimals that read back as a given double the one with the fewest digits is written, and of
several such the one nearest to the double, a tie going to the even coefficient.

The decimals that read back lie between the midpoints to the two neighbouring doubles; the midpoints
themselves belong to them if the mantissa is even. Grids of decimals are tried from coarse to fine,
and on each grid the two neighbours of the double: if any point of a grid reads back, one of these
does. All comparisons are exact, in natural numbers. -/

namespace TagTemplate

/-- The decimal `coefficient * 10 ^ exponent`. -/
structure Decimal where
  coefficient : Nat
  exponent : Int
deriving DecidableEq, Repr, Inhabited

namespace Double

/-! ## The decimals that read back

Magnitudes are compared in units of a quarter of the double's unit: the double is `4 * mantissa` of
them and the upper midpoint two more. The lower midpoint is two less, or one less at the least
mantissa of an exponent, where the doubles below are twice as dense. The decimal `c * 10 ^ k` is
`c * gridScale / unitScale` of these units. -/

/-- The numerator of `10 ^ k` in quarter units of the double. -/
def gridScale (x : Double) (k : Int) : Nat :=
  Nat.pow 10 k.toNat * Nat.pow 2 (2 - x.exponent).toNat

/-- The denominator of `10 ^ k` in quarter units of the double. -/
def unitScale (x : Double) (k : Int) : Nat :=
  Nat.pow 10 (-k).toNat * Nat.pow 2 (x.exponent - 2).toNat

/-- How far the lower midpoint lies below the double, in quarter units. -/
def lowerGap (x : Double) : Nat :=
  if x.mantissa = 0x10000000000000 ∧ -1074 < x.exponent then 1 else 2

/-- Whether the decimal `c * 10 ^ k` lies between the midpoints around the double. -/
def readsBack (x : Double) (c : Nat) (k : Int) : Bool :=
  let value := c * x.gridScale k
  let lower := (4 * x.mantissa - x.lowerGap) * x.unitScale k
  let upper := (4 * x.mantissa + 2) * x.unitScale k
  if x.mantissa % 2 = 0 then lower ≤ value && value ≤ upper else lower < value && value < upper

/-- The better of the two neighbours of the double on the grid of `10 ^ k`, if one reads back. -/
def neighbour? (x : Double) (k : Int) : Option Nat :=
  let value := 4 * x.mantissa * x.unitScale k
  let below := value / x.gridScale k
  let downward := value - below * x.gridScale k
  let upward := (below + 1) * x.gridScale k - value
  match x.readsBack below k, x.readsBack (below + 1) k with
  | false, false => none
  | true, false => some below
  | false, true => some (below + 1)
  | true, true =>
    if downward < upward ∨ (downward = upward ∧ below % 2 = 0) then some below
    else some (below + 1)

/-! ## The search -/

/-- The coarsest grid that is worth a try: its exponent is at least the decimal order of the double,
estimated from the binary order with `30103 / 100000` for the logarithm of two. -/
def coarsestGrid (x : Double) : Int :=
  ((x.mantissa.log2 : Int) + x.exponent) * 30103 / 100000 + 1

/-- The decimal that equals the double. -/
def exactDecimal (x : Double) : Decimal :=
  ⟨x.mantissa * Nat.pow 2 x.exponent.toNat * Nat.pow 5 (-x.exponent).toNat, min x.exponent 0⟩

/-- The decimal of the magnitude that is written. Seventeen digits always suffice, which the grids
tried here reach; the exact decimal stands in as the answer of a search without result. -/
def shortest (x : Double) : Decimal :=
  if x.mantissa = 0 then ⟨0, 0⟩
  else
    let grids := (List.range 20).map fun (i : Nat) => x.coarsestGrid - (i : Int)
    (grids.findSome? fun k => (x.neighbour? k).map fun c => ⟨c, k⟩).getD x.exactDecimal

end Double

end TagTemplate
