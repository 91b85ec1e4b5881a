import TagTemplate.Datum.Basic
import TagTemplate.Text.Quoted

set_option autoImplicit false

/-! # Displays of data

A display shows a datum unambiguously, for messages and for the dump of a tree: texts are quoted,
doubles are written so that they read back, and elements and nodes name their class and fields. -/

namespace TagTemplate

def itemSeparator : Text := [',', ' ']

def displayFields (className : String) (fields : List (String × Text)) : Text :=
  className.toList ++ ['('] ++
    Text.join itemSeparator (fields.map fun f => f.1.toList ++ '=' :: f.2) ++ [')']

/-- The displays of several items in round brackets; a single one is followed by a comma. -/
def displayTuple : List Text → Text
  | [item] => '(' :: item ++ [',', ')']
  | items => '(' :: Text.join itemSeparator items ++ [')']

def displayList (items : List Text) : Text := '[' :: Text.join itemSeparator items ++ [']']

def displayBraces (items : List Text) : Text :=
  '\x7b' :: Text.join itemSeparator items ++ ['\x7d']

/-- The mark of a collection inside itself. -/
def CollectionKind.display : CollectionKind → Text
  | list => "[...]".toList
  | mapping => displayBraces ["...".toList]
  | orderedMapping => "...".toList

def displayBool (b : Bool) : Text := if b then "True".toList else "False".toList

def displayNone : Text := "None".toList

/-! ## Elements and nodes -/

def Element.display (e : Element) : Text :=
  displayFields e.kind.className <| match e with
    | .integer constant => [("value", decimalText constant.value)]
    | .double value => [("value", value.display)]
    | .string value => [("value", Text.quoted value)]
    | .function name => [("name", Text.quoted name.name)]
    | .operator op => [("symbol", Text.quoted [op.symbol])]
    | .var name => [("name", Text.quoted name.name)]

def displayStep : Option Element → Text
  | none => displayNone
  | some e => e.display

def Head.display (head : Head) (children : List Text) : Text :=
  displayFields head.className <| match head with
    | .text content => [("text", Text.quoted content)]
    | .echo elements => [("elements", displayTuple (elements.map Element.display))]
    | .loop header =>
      [("variable", (Element.var header.var).display),
        ("start_expression", header.start.display),
        ("end_expression", header.stop.display),
        ("step_expression", displayStep header.step),
        ("children", displayList children)]
    | .document => [("children", displayList children)]

/-! ## Numbers and bytes -/

def FloatValue.display : FloatValue → Text
  | finite value => value.display
  | infinite negative => if negative then "-inf".toList else "inf".toList
  | notNumber => "nan".toList

/-- The digits of a finite decimal: without exponent where that shows its precision with at most six
zeros behind the point, and with one otherwise. -/
def scaledDigits (coefficient : Nat) (exponent : Int) : Text :=
  let digits := Nat.toDigits 10 coefficient
  let place : Int := digits.length + exponent
  if exponent ≤ 0 ∧ -6 < place then
    if exponent = 0 then digits
    else if place ≤ 0 then ['0', '.'] ++ List.replicate (-place).toNat '0' ++ digits
    else digits.take place.toNat ++ ['.'] ++ digits.drop place.toNat
  else
    digits.take 1 ++ (if digits.length = 1 then [] else '.' :: digits.drop 1) ++ ['E'] ++
      (if place - 1 < 0 then ['-'] else ['+']) ++ Nat.toDigits 10 (place - 1).natAbs

def DecimalValue.text : DecimalValue → Text
  | finite negative coefficient exponent =>
    (if negative then ['-'] else []) ++ scaledDigits coefficient exponent
  | infinite negative => (if negative then ['-'] else []) ++ "Infinity".toList
  | notNumber negative signaling payload =>
    (if negative then ['-'] else []) ++ (if signaling then ['s'] else []) ++ "NaN".toList ++
      (if payload = 0 then [] else Nat.toDigits 10 payload)

/-- The characters of bytes: those of the ASCII range. -/
def byteChars (bytes : List UInt8) : Text := bytes.map fun b => Char.ofNat b.toNat

/-- One byte between the given quotes: as quoted text, but only ASCII characters are printable. -/
def quotedByte (quote c : Char) : Text :=
  if c = quote ∨ c = '\\' ∨ c = '\t' ∨ c = '\n' ∨ c = '\r' ∨ (' ' ≤ c ∧ c ≤ '~') then
    Text.quotedChar quote c
  else ['\\', 'x'] ++ Text.hexDigits 2 c.toNat

def displayBytes (bytes : List UInt8) : Text :=
  let chars := byteChars bytes
  let quote := Text.quoteFor chars
  'b' :: quote :: chars.flatMap (quotedByte quote) ++ [quote]

/-- The display of a member of a closed vocabulary: its type, its name and its code. -/
def displayMember (typeName name code : String) : Text :=
  '<' :: typeName.toList ++ '.' :: name.toList ++ ": ".toList ++ Text.quoted code.toList ++ ['>']

/-! ## Data -/

def Datum.display : Datum → Text
  | .none => displayNone
  | .boolean value => displayBool value
  | .integer value => decimalText value
  | .float value => value.display
  | .fraction numerator denominator =>
    "Fraction".toList ++
      displayTuple [decimalText numerator, decimalText (denominator : Int)]
  | .decimal value => "Decimal(".toList ++ Text.quoted value.text ++ [')']
  | .text value => Text.quoted value
  | .bytes value => displayBytes value
  | .list items => displayList (displayItems items)
  | .tuple items => displayTuple (displayItems items)
  | .set [] => "set()".toList
  | .set items => displayBraces (displayItems items)
  | .mapping entries => displayBraces (displayEntries entries)
  | .orderedMapping [] => CollectionKind.orderedMapping.typeName.toList ++ ['(', ')']
  | .orderedMapping entries =>
    CollectionKind.orderedMapping.typeName.toList ++
      '(' :: displayList (displayPairs entries) ++ [')']
  | .enclosing kind => kind.display
  | .element value => value.display
  | .tokenKind value => displayMember "TokenType" value.name value.name
  | .mode value => displayMember "LexerState" value.name value.name
  | .failureKind value => displayMember "ErrorKind" value.name value.code
  | .node _ head => head.display []
where
  /-- The displays of several data. -/
  displayItems : List Datum → List Text
    | [] => []
    | item :: rest => display item :: displayItems rest
  /-- The displays of the entries of a mapping. -/
  displayEntries : List (Datum × Datum) → List Text
    | [] => []
    | (key, value) :: rest =>
      (display key ++ [':', ' '] ++ display value) :: displayEntries rest
  /-- The displays of the entries of an ordered mapping, each as a pair. -/
  displayPairs : List (Datum × Datum) → List Text
    | [] => []
    | (key, value) :: rest => displayTuple [display key, display value] :: displayPairs rest

/-- The plain text of a datum: a text stands for itself, a fraction is written with a slash or, if
it is whole, without one, and everything else as in its display. -/
def Datum.plain : Datum → Text
  | .text value => value
  | .fraction numerator denominator =>
    if denominator = 1 then decimalText numerator
    else decimalText numerator ++ '/' :: decimalText (denominator : Int)
  | d => d.display

end TagTemplate
