import TagTemplate.Tree.Basic
import TagTemplate.Vocabulary
import TagTemplate.Number.DigitLimit

set_option autoImplicit false

/-! # Data

Elements, nodes, tokens and options are built from data that a caller hands in, and the data may be
of any kind: the constructors check what they are given and name the kind they refuse. A node is
handed in as a number, under which a store holds it, together with what it holds itself. -/

namespace TagTemplate

/-- A floating point number: a finite double, an infinity of either sign, or no number at all. -/
inductive FloatValue
  | finite (value : Double)
  | infinite (negative : Bool)
  | notNumber
deriving DecidableEq

/-- A decimal number: a whole number of digits over a power of ten, an infinity of either sign, or no
number at all, which carries a sign and digits of its own and may be a signaling one. -/
inductive DecimalValue
  | finite (negative : Bool) (coefficient : Nat) (exponent : Int)
  | infinite (negative : Bool)
  | notNumber (negative signaling : Bool) (payload : Nat)
deriving DecidableEq

/-- The kinds of collections that may contain themselves. -/
inductive CollectionKind
  | list
  | mapping
  | orderedMapping
deriving DecidableEq, Repr

/-- A value of any kind. Where a collection contains itself, the inner occurrence is only marked. -/
inductive Datum
  | none
  | boolean (value : Bool)
  | integer (value : Int)
  | float (value : FloatValue)
  | fraction (numerator : Int) (denominator : Nat)
  | decimal (value : DecimalValue)
  | text (value : Text)
  | bytes (value : List UInt8)
  | list (items : List Datum)
  | tuple (items : List Datum)
  | set (items : List Datum)
  | mapping (entries : List (Datum × Datum))
  | orderedMapping (entries : List (Datum × Datum))
  | enclosing (kind : CollectionKind)
  | element (value : Element)
  | tokenKind (value : TokenKind)
  | mode (value : Mode)
  | failureKind (value : FailureKind)
  | node (id : Nat) (head : Head)

instance : Inhabited Datum := ⟨.none⟩

def CollectionKind.typeName : CollectionKind → String
  | list => "list"
  | mapping => "dict"
  | orderedMapping => "ordereddict"

inductive Unhashable
  | kind (typeName : String)
  | signalingNumber

def Unhashable.message : Unhashable → String
  | kind typeName => "unhashable type: '" ++ typeName ++ "'"
  | signalingNumber => "Cannot hash a signaling NaN value"

namespace Datum

def typeName : Datum → String
  | none => "NoneType"
  | boolean _ => "bool"
  | integer _ => "int"
  | float _ => "float"
  | fraction _ _ => "Fraction"
  | decimal _ => "Decimal"
  | text _ => "str"
  | bytes _ => "bytes"
  | list _ => CollectionKind.list.typeName
  | tuple _ => "tuple"
  | set _ => "set"
  | mapping _ => CollectionKind.mapping.typeName
  | orderedMapping _ => CollectionKind.orderedMapping.typeName
  | enclosing kind => kind.typeName
  | element e => e.kind.className
  | tokenKind _ => "TokenType"
  | mode _ => "LexerState"
  | failureKind _ => "ErrorKind"
  | node _ head => head.className

/-- Why a datum cannot be looked up, if it cannot. Lists, sets, mappings and nodes with children
change and have no fixed place; a tuple has one if all its items have. -/
def unhashable? : Datum → Option Unhashable
  | list items => some (.kind (list items).typeName)
  | set items => some (.kind (set items).typeName)
  | mapping entries => some (.kind (mapping entries).typeName)
  | orderedMapping entries => some (.kind (orderedMapping entries).typeName)
  | enclosing kind => some (.kind kind.typeName)
  | node id head => if head.isContainer then some (.kind (node id head).typeName) else Option.none
  | decimal (.notNumber _ true _) => some .signalingNumber
  | tuple items => inItems items
  | _ => Option.none
where
  /-- The first such reason among several data. -/
  inItems : List Datum → Option Unhashable
    | [] => Option.none
    | item :: rest =>
      match unhashable? item with
      | some reason => some reason
      | Option.none => inItems rest

def hasLongInteger : Datum → Bool
  | integer value => isLongInteger value
  | fraction numerator denominator => isLongInteger numerator || isLongInteger denominator
  | list items => inItems items
  | tuple items => inItems items
  | set items => inItems items
  | mapping entries => inEntries entries
  | orderedMapping entries => inEntries entries
  | _ => false
where
  /-- Whether one of several data has such an integer inside. -/
  inItems : List Datum → Bool
    | [] => false
    | item :: rest => hasLongInteger item || inItems rest
  /-- Whether an entry has such an integer inside. -/
  inEntries : List (Datum × Datum) → Bool
    | [] => false
    | (key, value) :: rest => hasLongInteger key || hasLongInteger value || inEntries rest

end Datum

end TagTemplate
