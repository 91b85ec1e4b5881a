import TagTemplate.Token.Basic
import TagTemplate.Datum.Display
import TagTemplate.Datum.Equality
import TagTemplate.Diagnostic

set_option autoImplicit false

/-! # Token records

A token record is a token that a caller builds by hand, of any kind, with any value and at any
position. The one rule is that a record has a value exactly if its kind is not the end of the input.
Records compare field by field, values as data compare. -/

namespace TagTemplate

structure TokenRecord where
  kind : TokenKind
  value : Datum
  offset : Int
  line : Int
  column : Int

inductive RecordRejection
  | notKind (typeName : String)
  | valueAtEnd
  | valueMissing (kind : TokenKind)

namespace RecordRejection

def message : RecordRejection → String
  | notKind typeName => "Token type must be a TokenType, got " ++ typeName
  | valueAtEnd => "END_OF_INPUT token carries no value"
  | valueMissing kind => kind.name ++ " token requires a value"

def errorClass : RecordRejection → ErrorClass
  | notKind _ => .typeError
  | valueAtEnd => .valueError
  | valueMissing _ => .valueError

def refusal (r : RecordRejection) : Refusal := ⟨r.errorClass, r.message⟩

end RecordRejection

namespace TokenRecord

def construct (kind value : Datum) (offset line column : Int) :
    Except RecordRejection TokenRecord :=
  match kind with
  | .tokenKind .endOfInput =>
    match value with
    | .none => .ok ⟨.endOfInput, .none, offset, line, column⟩
    | _ => .error .valueAtEnd
  | .tokenKind kind =>
    match value with
    | .none => .error (.valueMissing kind)
    | value => .ok ⟨kind, value, offset, line, column⟩
  | d => .error (.notKind d.typeName)

def ofToken (t : Token) : TokenRecord :=
  ⟨t.payload.kind, t.payload.value, t.position.offset, t.position.line, t.position.column⟩

/-- The display of a record: its kind, its value, and its line and column. -/
def display (r : TokenRecord) : Text :=
  "Token(".toList ++ r.kind.name.toList ++ itemSeparator ++ r.value.display ++ itemSeparator ++
    decimalText r.line ++ ':' :: decimalText r.column ++ [')']

def sameValue (a b : TokenRecord) : Bool :=
  a.kind == b.kind && a.value.sameValue b.value && a.offset == b.offset && a.line == b.line &&
    a.column == b.column

end TokenRecord

end TagTemplate
