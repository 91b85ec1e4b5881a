import TagTemplate.Element.Basic

set_option autoImplicit false

/-! # Trees

A template is a tree: a document whose children are runs of plain text, echo tags with their
elements, and loops with a header and children of their own. Only the document is no child of
another node, so it is a type apart; `Tree` joins the two where any node can stand. -/

namespace TagTemplate

/-- The header of a loop: its variable, where it starts and stops, and its step if it has one. -/
structure LoopHeader where
  var : Identifier
  start : Element
  stop : Element
  step : Option Element
deriving DecidableEq

namespace LoopHeader

/-- The expressions of a header in the order in which they are written. -/
def expressions (h : LoopHeader) : List Element :=
  [.var h.var, h.start, h.stop] ++ h.step.toList

/-- The bounds and the step of a header: the expressions behind the variable. -/
def bounds (h : LoopHeader) : List Element := [h.start, h.stop] ++ h.step.toList

end LoopHeader

/-- A node below the document. -/
inductive Node
  | text (content : Text)
  | echo (elements : List Element)
  | loop (header : LoopHeader) (children : List Node)

instance : Inhabited Node := ⟨.text []⟩

/-- A document, or a node that stands alone. -/
inductive Tree
  | document (children : List Node)
  | node (n : Node)

instance : Inhabited Tree := ⟨.document []⟩

/-- Lists of elements are the same if they have one length and the same elements in order. -/
def sameElements : List Element → List Element → Bool
  | [], [] => true
  | a :: as, b :: bs => a.sameValue b && sameElements as bs
  | _, _ => false

/-- What a node holds itself, without its children. -/
inductive Head
  | text (content : Text)
  | echo (elements : List Element)
  | loop (header : LoopHeader)
  | document
deriving DecidableEq

namespace Head

def className : Head → String
  | text _ => "TextNode"
  | echo _ => "EchoNode"
  | loop _ => "ForLoopNode"
  | document => "DocumentNode"

/-- Loops and documents hold children. -/
def isContainer : Head → Bool
  | loop _ => true
  | document => true
  | _ => false

/-- Heads are the same if they are of one class and their own data are the same: the text, or the
elements one by one, or the expressions of the headers one by one. -/
def sameValue : Head → Head → Bool
  | text a, text b => a == b
  | echo a, echo b => sameElements a b
  | loop a, loop b => sameElements a.expressions b.expressions
  | document, document => true
  | _, _ => false

end Head

def Node.head : Node → Head
  | .text content => .text content
  | .echo elements => .echo elements
  | .loop header _ => .loop header

def Node.children : Node → List Node
  | .loop _ children => children
  | _ => []

namespace Tree

def head : Tree → Head
  | document _ => .document
  | node n => n.head

def children : Tree → List Node
  | document children => children
  | node n => n.children

end Tree

end TagTemplate
