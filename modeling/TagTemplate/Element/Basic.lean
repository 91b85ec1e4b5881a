import TagTemplate.Identifier
import TagTemplate.Number.Layout

set_option autoImplicit false

/-! # Elements

Elements are the operands in the argument list of a tag. Their payloads carry what makes them valid:
an integer lies in the signed 32-bit range, a double is finite, a name is an identifier. Every
element has one literal, the form in which it is written back into a template. -/

namespace TagTemplate

def integerMin : Int := -0x80000000

def integerMax : Int := 0x7fffffff

def inIntegerRange (n : Int) : Bool := integerMin ≤ n && n ≤ integerMax

structure IntegerConstant where
  value : Int
  valid : inIntegerRange value = true
deriving DecidableEq

inductive Operator
  | plus
  | minus
  | times
  | divide
  | modulo
  | power
deriving DecidableEq, Repr

namespace Operator

/-- All operators, in the order of their characters. -/
def all : List Operator := [modulo, times, plus, minus, divide, power]

def symbol : Operator → Char
  | plus => '+'
  | minus => '-'
  | times => '*'
  | divide => '/'
  | modulo => '%'
  | power => '^'

def ofSymbol? (c : Char) : Option Operator := all.find? fun op => op.symbol == c

theorem ofSymbol?_symbol (op : Operator) : ofSymbol? op.symbol = some op := by
  cases op <;> decide

theorem ofSymbol?_eq_some {c : Char} {op : Operator} (h : ofSymbol? c = some op) :
    op.symbol = c := by
  have := List.find?_some h
  simpa using this

end Operator

inductive Element
  | integer (constant : IntegerConstant)
  | double (value : Double)
  | string (value : Text)
  | function (name : Identifier)
  | operator (op : Operator)
  | var (name : Identifier)
deriving DecidableEq

inductive ElementKind
  | integer
  | double
  | string
  | function
  | operator
  | var
deriving DecidableEq, Repr

def ElementKind.className : ElementKind → String
  | .integer => "ConstantInteger"
  | .double => "ConstantDouble"
  | .string => "String"
  | .function => "Function"
  | .operator => "Operator"
  | .var => "Variable"

def decimalText (n : Int) : Text :=
  if n < 0 then '-' :: Nat.toDigits 10 n.natAbs else Nat.toDigits 10 n.natAbs

namespace Element

def kind : Element → ElementKind
  | integer _ => .integer
  | double _ => .double
  | string _ => .string
  | function _ => .function
  | operator _ => .operator
  | var _ => .var

/-- A character of a string literal: backslash and double quote are written behind a backslash. -/
def stringChar (c : Char) : Text :=
  if c = '\\' ∨ c = '\x22' then ['\\', c] else [c]

/-- A text as a string literal; all characters but backslash and double quote stand for
themselves. -/
def stringLiteral (t : Text) : Text := '\x22' :: t.flatMap stringChar ++ ['\x22']

/-- The literal of an element, the form in which it is written into a template. -/
def literal : Element → Text
  | integer constant => decimalText constant.value
  | double value => value.literal
  | string value => stringLiteral value
  | function name => '@' :: name.name
  | operator op => [op.symbol]
  | var name => name.name

/-- Elements compare by kind and payload, doubles numerically. -/
def sameValue : Element → Element → Bool
  | double x, double y => x.sameValue y
  | a, b => a == b

/-- Whether an element may be a bound or a step of a loop under strict options: neither a function
nor an operator. -/
def isPlain : Element → Bool
  | function _ => false
  | operator _ => false
  | _ => true

end Element

/-- The literals of a list of elements, separated by spaces. -/
def elementsText (elements : List Element) : Text := Text.unwords (elements.map Element.literal)

end TagTemplate
