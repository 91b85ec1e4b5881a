import TagTemplate.Number.FloatText
import TagTemplate.Runs.Yaml.Failure

set_option autoImplicit false

/-! # Types of YAML nodes

The type of a node is given by its tag. Without a tag a sequence is a list and a mapping a mapping; a
plain scalar is a truth value, a number or nothing if its text is written like one, and a text
otherwise; scalars in quotes and blocks are texts. The tag of a single exclamation mark gives a
scalar in quotes or a block the type that it would have as a plain one.

A scalar of a type has a value only if its text is written as the type demands. -/

namespace TagTemplate.Runs.Yaml

/-- The types of nodes. Merge keys take over the entries of another mapping, and value keys stand for
the value of their mapping as a whole; nothing else has either of these types. -/
inductive NodeType
  | null
  | boolean
  | integer
  | float
  | binary
  | text
  | list
  | mapping
  | orderedMapping
  | pairs
  | set
  | merge
  | value
  | unknown
deriving DecidableEq, Repr

/-! ## How numbers are written -/

def isGroupedDigit (c : Char) : Bool := c.isDigit || c == '_'

/-- An exponent whose sign may be left out, or nothing. -/
def isExponent (t : Text) : Bool := (readExponent? t).isSome

/-- An exponent with its sign, or nothing. -/
def isSignedExponent : Text → Bool
  | [] => true
  | _ :: '+' :: digits => isExponent ('e' :: '+' :: digits)
  | _ :: '-' :: digits => isExponent ('e' :: '-' :: digits)
  | _ => false

/-- How a floating point number is written behind its sign. -/
def isFloatBody : Text → Bool
  | '.' :: rest =>
    ["inf".toList, "Inf".toList, "INF".toList].contains rest ||
      (rest.takeWhile isGroupedDigit ≠ [] &&
        (match rest.dropWhile isGroupedDigit with
        | [] => true
        | c :: tail => (c == 'e' || c == 'E') && isSignedExponent (c :: tail)))
  | c :: rest =>
    c.isDigit &&
      (match rest.dropWhile isGroupedDigit with
      | '.' :: tail => isExponent (tail.dropWhile isGroupedDigit)
      | tail => tail ≠ [] && isExponent tail)
  | [] => false

def isFloatText (t : Text) : Bool :=
  isFloatBody (Numeral.splitSign t).2 || [".nan".toList, ".NaN".toList, ".NAN".toList].contains t

/-- Whether digits of a base, with underscores, make up a nonempty text. -/
def areDigits (p : Char → Bool) (t : Text) : Bool := t ≠ [] && t.all fun c => p c || c == '_'

/-- Whether a text is written like an integer: of base two, eight or sixteen behind its mark, or of
base ten. -/
def isIntegerText (t : Text) : Bool :=
  (t.head?.any fun c => c.isDigit || c == '+' || c == '-') &&
    (match (Numeral.splitSign t).2 with
    | '0' :: 'b' :: digits => areDigits (IntegerText.isDigitOf 2) digits
    | '0' :: 'o' :: digits => areDigits (IntegerText.isDigitOf 8) digits
    | '0' :: 'x' :: digits => areDigits (IntegerText.isDigitOf 16) digits
    | digits => areDigits Char.isDigit digits)

/-! ## Types -/

/-- The type of a text as a plain scalar, without regard to a line break at its end. -/
def lineType (t : Text) : NodeType :=
  let word := String.ofList t
  if ["true", "True", "TRUE", "false", "False", "FALSE"].contains word then .boolean
  else if isFloatText t then .float
  else if isIntegerText t then .integer
  else if word == "<<" then .merge
  else if ["~", "null", "Null", "NULL"].contains word then .null
  else if word == "=" then .value
  else if ["!", "&", "*"].contains word then .unknown
  else .text

/-- The type of a text as a plain scalar. A single line break at the end changes nothing. -/
def plainType : Text → NodeType
  | [] => .null
  | t => if t.getLast? == some '\n' then lineType t.dropLast else lineType t

def namedType (name : Text) : NodeType :=
  ([("null", NodeType.null), ("bool", .boolean), ("int", .integer), ("float", .float),
    ("binary", .binary), ("str", .text), ("seq", .list), ("map", .mapping),
    ("omap", .orderedMapping), ("pairs", .pairs), ("set", .set), ("merge", .merge),
    ("value", .value)].find? fun entry =>
      name == ("tag:yaml.org,2002:" ++ entry.1).toList).elim .unknown (·.2)

/-- Whether a tag leaves the type of its node to the node itself. -/
def leavesType : Option Text → Bool
  | none => true
  | some name => name == ['!']

def scalarType (tag : Option Text) (plain : Bool) (t : Text) : NodeType :=
  match tag with
  | none => if plain then plainType t else .text
  | some name => if leavesType tag then plainType t else namedType name

def collectionType (tag : Option Text) (type : NodeType) : NodeType :=
  match tag with
  | none => type
  | some name => if leavesType tag then type else namedType name

/-! ## The values of scalars -/

def booleanOf (t : Text) : Except Failure Bool :=
  let word := t.map Char.toLower
  let isOneOf := fun (words : List String) => words.contains (String.ofList word)
  if isOneOf ["yes", "y", "true", "on"] then .ok true
  else if isOneOf ["no", "n", "false", "off"] then .ok false
  else .error (.truthWord word)

/-- A number as it is written behind its sign; underscores count for nothing. -/
def unsignedNumber (t : Text) : Except Failure (Bool × Text) :=
  match t.filter (· != '_') with
  | [] => .error .missingNumber
  | t => .ok (Numeral.splitSign t)

def integerOf (t : Text) : Except Failure Int := do
  let (negative, digits) ← unsignedNumber t
  let (base, digits) := match digits with
    | '0' :: 'b' :: digits => (2, digits)
    | '0' :: 'o' :: digits => (8, digits)
    | '0' :: 'x' :: digits => (16, digits)
    | digits => (10, digits)
  let n ← (IntegerText.read base digits).mapError Failure.integer
  return if negative then -n else n

/-- The value of a floating point number as it is written; infinity and no number are written with
a point in front. -/
def floatOf (t : Text) : Except Failure FloatValue := do
  let (negative, digits) ← unsignedNumber (t.map Char.toLower)
  if digits = ".inf".toList then return .infinite negative
  else if digits = ".nan".toList then return .notNumber
  else
    match FloatValue.ofText? digits with
    | some x => return if negative then x.opposite else x
    | none => throw (.float digits)

/-! ## Bytes -/

/-- The value of a character that stands for six bits. -/
def sixBits? (c : Char) : Option Nat :=
  if 'A' ≤ c && c ≤ 'Z' then some (c.toNat - 'A'.toNat)
  else if 'a' ≤ c && c ≤ 'z' then some (c.toNat - 'a'.toNat + 26)
  else if c.isDigit then some (c.toNat - '0'.toNat + 52)
  else if c == '+' then some 62
  else if c == '/' then some 63
  else none

/-- The bytes of a text in characters of six bits, given how many bits of the next byte are known,
what they are, and how many equals signs have just been read. Two characters or more of a group of
four and equals signs in place of the others end the text, and other characters count for nothing. -/
def bytesFrom (bits known signs : Nat) : Text → Except Failure (List UInt8)
  | [] => if bits == 0 then .ok [] else .error .malformed
  | c :: rest =>
    let group := match bits with
      | 0 => 0
      | 6 => 1
      | 4 => 2
      | _ => 3
    if c == '=' then
      if 2 ≤ group then
        if 4 ≤ group + signs + 1 then .ok [] else bytesFrom bits known (signs + 1) rest
      else bytesFrom bits known signs rest
    else
      match sixBits? c with
      | none => bytesFrom bits known signs rest
      | some n =>
        if bits == 0 then bytesFrom 6 n 0 rest
        else
          let all := 64 * known + n
          let left := bits - 2
          (bytesFrom left (all % 2 ^ left) 0 rest).map (UInt8.ofNat (all / 2 ^ left) :: ·)

def bytesOf (t : Text) : Except Failure (List UInt8) :=
  if t.all fun c => c.toNat < 128 then bytesFrom 0 0 0 t else .error .malformed

end TagTemplate.Runs.Yaml
