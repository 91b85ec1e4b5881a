import TagTemplate.Datum.Basic

set_option autoImplicit false

/-! # Equality of data

Numbers of all kinds compare by their exact value, so the whole number one equals the double one and
the truth value true. Everything else is equal only to its own kind: texts to texts, lists to lists
item by item, elements by kind and payload. -/

namespace TagTemplate

namespace FloatValue

/-- The exact value of a finite floating point number. -/
def ratio? : FloatValue → Option (Int × Nat)
  | finite value => some (value.signedNumerator, value.denominator)
  | _ => none

end FloatValue

namespace Datum

/-- The exact value of a finite number as a numerator over a positive denominator. -/
def ratio? : Datum → Option (Int × Nat)
  | boolean value => some (if value then 1 else 0, 1)
  | integer value => some (value, 1)
  | float value => value.ratio?
  | fraction numerator denominator => some (numerator, denominator)
  | decimal (.finite negative coefficient exponent) =>
    let magnitude : Int := (coefficient * Nat.pow 10 exponent.toNat : Nat)
    some (if negative then -magnitude else magnitude, Nat.pow 10 (-exponent).toNat)
  | _ => Option.none

/-- The sign of an infinity, true for the negative one. -/
def infinity? : Datum → Option Bool
  | float (.infinite negative) => some negative
  | decimal (.infinite negative) => some negative
  | _ => Option.none

def sameRatio (a b : Int × Nat) : Bool := a.1 * (b.2 : Int) == b.1 * (a.2 : Int)

def sameValue : Datum → Datum → Bool
  | none, none => true
  | text a, text b => a == b
  | bytes a, bytes b => a == b
  | list a, list b => sameItems a b
  | tuple a, tuple b => sameItems a b
  | mapping a, mapping b => sameEntries a b
  | element a, element b => a.sameValue b
  | tokenKind a, tokenKind b => a == b
  | mode a, mode b => a == b
  | failureKind a, failureKind b => a == b
  | node i a, node j b => i == j || (!a.isContainer && a.sameValue b)
  | a, b =>
    match a.ratio?, b.ratio? with
    | some x, some y => sameRatio x y
    | _, _ =>
      match a.infinity?, b.infinity? with
      | some m, some n => m == n
      | _, _ => false
where
  /-- Equality item by item. -/
  sameItems : List Datum → List Datum → Bool
    | [], [] => true
    | a :: as, b :: bs => sameValue a b && sameItems as bs
    | _, _ => false
  /-- Equality entry by entry. -/
  sameEntries : List (Datum × Datum) → List (Datum × Datum) → Bool
    | [], [] => true
    | (k, v) :: as, (l, w) :: bs => sameValue k l && sameValue v w && sameEntries as bs
    | _, _ => false

end Datum

end TagTemplate
