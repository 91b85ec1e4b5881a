import TagTemplate.Datum.Display
import TagTemplate.Datum.Equality
import TagTemplate.Diagnostic

set_option autoImplicit false

/-! # Constructing elements

An element is constructed from one datum, which is checked: its kind first and then its value. An
integer constant takes a whole number in range and no truth value; a double takes any finite real
number and rounds it to the nearest double; functions and variables take identifiers; an operator
takes its symbol. `Rejection` lists the reasons for a refusal. -/

namespace TagTemplate

inductive NameRole
  | function
  | var
deriving DecidableEq, Repr

/-- Why a datum is refused as the argument of an element. -/
inductive Rejection
  | integerKind (typeName : String)
  | integerRange (value : Int)
  | doubleKind (typeName : String)
  | doubleRange (value : Datum)
  | doubleNotFinite (value : FloatValue)
  | stringKind (typeName : String)
  | nameKind (role : NameRole) (typeName : String)
  | nameForm (role : NameRole) (name : Text)
  | operatorUnhashable (reason : Unhashable)
  | operatorUnknown (value : Datum)

namespace Rejection

/-- The wording of a refusal that shows a datum. A datum with an integer that has too many digits
cannot be shown, and the wording is that of the failed attempt. -/
def showing (value : Datum) (wording : String) (shown : Text) : String :=
  if value.hasLongInteger then longIntegerMessage else wording ++ String.ofList shown

def message : Rejection → String
  | integerKind typeName => "Integer constant must be an int, got " ++ typeName
  | integerRange value =>
    showing (.integer value) "Integer constant out of range: " (decimalText value)
  | doubleKind typeName => "Double constant must be a real number, got " ++ typeName
  | doubleRange value => showing value "Double constant out of range: " value.plain
  | doubleNotFinite value => "Double constant must be finite, got " ++ String.ofList value.display
  | stringKind typeName => "String value must be a string, got " ++ typeName
  | nameKind .function typeName => "Function name must be a string, got " ++ typeName
  | nameKind .var typeName => "Variable name must be a string, got " ++ typeName
  | nameForm .function name => "Invalid function name: " ++ String.ofList (Text.quoted name)
  | nameForm .var name => "Invalid variable name: " ++ String.ofList (Text.quoted name)
  | operatorUnhashable reason => reason.message
  | operatorUnknown value => showing value "Unknown operator: " value.display

/-- A datum of the wrong kind is a type error, and so is one that cannot be looked up; any other
refusal is about the value. -/
def errorClass : Rejection → ErrorClass
  | integerKind _ => .typeError
  | doubleKind _ => .typeError
  | stringKind _ => .typeError
  | nameKind _ _ => .typeError
  | operatorUnhashable _ => .typeError
  | _ => .valueError

def refusal (r : Rejection) : Refusal := ⟨r.errorClass, r.message⟩

end Rejection

namespace Element

def ofInteger : Datum → Except Rejection Element
  | .integer n =>
    if h : inIntegerRange n = true then .ok (.integer ⟨n, h⟩) else .error (.integerRange n)
  | d => .error (.integerKind d.typeName)

/-- The double nearest to a finite real number. -/
def ofReal : Datum → Except Rejection Element
  | .float (.finite x) => .ok (.double x)
  | .float x => .error (.doubleNotFinite x)
  | .integer n =>
    match Double.ofInt? n with
    | some x => .ok (.double x)
    | none => .error (.doubleRange (.integer n))
  | .fraction n d =>
    match Double.ofRatio? (n < 0) n.natAbs d with
    | some x => .ok (.double x)
    | none => .error (.doubleRange (.fraction n d))
  | d => .error (.doubleKind d.typeName)

def ofText : Datum → Except Rejection Element
  | .text t => .ok (.string t)
  | d => .error (.stringKind d.typeName)

def identifierOf (role : NameRole) : Datum → Except Rejection Identifier
  | .text t =>
    if h : isIdentifier t = true then .ok ⟨t, h⟩ else .error (.nameForm role t)
  | d => .error (.nameKind role d.typeName)

/-- The operator of a symbol. The datum is looked up in the set of symbols, so one that cannot be
looked up there at all is refused for that. -/
def ofSymbol (d : Datum) : Except Rejection Element :=
  match d.unhashable? with
  | some reason => .error (.operatorUnhashable reason)
  | none =>
    match d with
    | .text [c] =>
      match Operator.ofSymbol? c with
      | some op => .ok (.operator op)
      | none => .error (.operatorUnknown d)
    | _ => .error (.operatorUnknown d)

def construct : ElementKind → Datum → Except Rejection Element
  | .integer, d => ofInteger d
  | .double, d => ofReal d
  | .string, d => ofText d
  | .function, d => (identifierOf .function d).map .function
  | .operator, d => ofSymbol d
  | .var, d => (identifierOf .var d).map .var

def payload : Element → Datum
  | .integer constant => .integer constant.value
  | .double value => .float (.finite value)
  | .string value => .text value
  | .function name => .text name.name
  | .operator op => .text [op.symbol]
  | .var name => .text name.name

/-- An element is constructed again from its kind and payload. -/
theorem construct_kind_payload (e : Element) : construct e.kind e.payload = .ok e := by
  cases e with
  | integer constant => simp [construct, kind, payload, ofInteger, constant.valid]
  | double value => rfl
  | string value => rfl
  | function name =>
    simp [construct, kind, payload, identifierOf, name.valid, Except.map]
  | operator op => cases op <;> rfl
  | var name => simp [construct, kind, payload, identifierOf, name.valid, Except.map]

end Element

end TagTemplate
