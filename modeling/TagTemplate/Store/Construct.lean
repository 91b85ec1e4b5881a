import TagTemplate.Store.Basic
import TagTemplate.Datum.Display
import TagTemplate.Diagnostic

set_option autoImplicit false

/-! # Constructing nodes

Nodes are constructed from data, which are checked in the order in which they are listed; only when
all are in order does the store get a new cell. Children are copied from the list that is handed in,
so that list and node go their own ways afterwards. Documents cannot be children. -/

namespace TagTemplate

/-- The expressions of a loop that may be any element. -/
inductive LoopBound
  | start
  | stop
deriving DecidableEq, Repr

/-- Why a node is not constructed or not changed. -/
inductive NodeRejection
  | textKind (typeName : String)
  | notIterable (typeName : String)
  | echoElement (typeName : String)
  | loopVariable (typeName : String)
  | loopBound (bound : LoopBound)
  | loopStep
  | childKind (typeName : String)
  | childIndex (index : Int) (count : Nat)
  | frozenField (name : String)
  | unhashable (reason : Unhashable)
  | notContainer (typeName : String)
  | notLoop (typeName : String)

namespace NodeRejection

def message : NodeRejection → String
  | textKind typeName => "Text must be a string, got " ++ typeName
  | notIterable typeName => "'" ++ typeName ++ "' object is not iterable"
  | echoElement typeName => "Echo tag accepts only elements, got " ++ typeName
  | loopVariable typeName => "Loop variable must be a Variable, got " ++ typeName
  | loopBound .start => "FOR start expression must be an element"
  | loopBound .stop => "FOR end expression must be an element"
  | loopStep => "FOR step expression must be an element or None"
  | childKind typeName => "Cannot add " ++ typeName ++ " as a child node"
  | childIndex index count =>
    "Child index " ++ toString index ++ " out of range (0.." ++ toString ((count : Int) - 1) ++ ")"
  | frozenField name => "cannot assign to field '" ++ name ++ "'"
  | unhashable reason => reason.message
  | notContainer typeName => typeName ++ " holds no children"
  | notLoop typeName => typeName ++ " has no opening tag"

/-- Data of the wrong kind are type errors. A node that has no such operation lacks the attribute,
and one that cannot be changed is frozen. -/
def errorClass : NodeRejection → ErrorClass
  | childIndex _ _ => .indexError
  | frozenField _ => .frozenInstance
  | notContainer _ => .attributeError
  | notLoop _ => .attributeError
  | _ => .typeError

def refusal (r : NodeRejection) : Refusal := ⟨r.errorClass, r.message⟩

end NodeRejection

namespace Datum

/-- The items of a datum that can be gone through: those of lists, tuples and sets, the characters
of a text, the numbers of bytes, and the keys of a mapping. -/
def items : Datum → Except NodeRejection (List Datum)
  | list items => .ok items
  | tuple items => .ok items
  | set items => .ok items
  | text value => .ok (value.map fun c => text [c])
  | bytes value => .ok (value.map fun b => integer b.toNat)
  | mapping entries => .ok (entries.map (·.1))
  | orderedMapping entries => .ok (entries.map (·.1))
  | d => .error (.notIterable d.typeName)

end Datum

/-! ## Checks -/

def echoElement : Datum → Except NodeRejection Element
  | .element e => .ok e
  | d => .error (.echoElement d.typeName)

/-- A datum that has to be the variable of a loop. -/
def loopVariable : Datum → Except NodeRejection Identifier
  | .element (.var name) => .ok name
  | d => .error (.loopVariable d.typeName)

/-- A datum that has to be a bound of a loop. -/
def loopBound (bound : LoopBound) : Datum → Except NodeRejection Element
  | .element e => .ok e
  | _ => .error (.loopBound bound)

def loopStep : Datum → Except NodeRejection (Option Element)
  | .element e => .ok (some e)
  | .none => .ok none
  | _ => .error .loopStep

/-- A datum that has to be a node other than a document, as the number of that node. -/
def childId : Datum → Except NodeRejection Nat
  | .node id .document => .error (.childKind (Datum.node id .document).typeName)
  | .node id _ => .ok id
  | d => .error (.childKind d.typeName)

def childIds (d : Datum) : Except NodeRejection (List Nat) := do
  let items ← d.items
  items.mapM childId

namespace Store

/-! ## Constructors -/

def newText (s : Store) : Datum → Except NodeRejection (Store × Nat)
  | .text content => .ok (s.alloc (.text content) [])
  | d => .error (.textKind d.typeName)

def newEcho (s : Store) (d : Datum) : Except NodeRejection (Store × Nat) := do
  let items ← d.items
  let elements ← items.mapM echoElement
  return s.alloc (.echo elements) []

def newLoop (s : Store) (var start stop step children : Datum) :
    Except NodeRejection (Store × Nat) := do
  let name ← loopVariable var
  let start ← loopBound .start start
  let stop ← loopBound .stop stop
  let step ← loopStep step
  let ids ← childIds children
  return s.alloc (.loop ⟨name, start, stop, step⟩) ids

def newDocument (s : Store) (children : Datum) : Except NodeRejection (Store × Nat) := do
  let ids ← childIds children
  return s.alloc .document ids

/-! ## Operations on containers

Texts and echo tags have no operations on children. -/

/-- Lets an operation pass on containers alone. -/
def requireContainer (s : Store) (id : Nat) : Except NodeRejection Unit :=
  if (s.head id).isContainer then .ok () else .error (.notContainer (s.head id).className)

/-- A further child at the end of a container. -/
def addChild (s : Store) (id : Nat) (child : Datum) : Except NodeRejection Store := do
  s.requireContainer id
  let child ← childId child
  return s.append id child

def childCount (s : Store) (id : Nat) : Except NodeRejection Nat := do
  s.requireContainer id
  return (s.children id).length

/-- The child of a container at a place. -/
def child (s : Store) (id : Nat) (index : Int) : Except NodeRejection Nat := do
  s.requireContainer id
  let ids := s.children id
  if index < 0 then throw (.childIndex index ids.length)
  match ids[index.toNat]? with
  | some child => return child
  | none => throw (.childIndex index ids.length)

def openingTag (s : Store) (id : Nat) : Except NodeRejection Text :=
  match s.head id with
  | .loop header => .ok header.openingTag
  | head => .error (.notLoop head.className)

/-- Fields of a node are never assigned to. -/
def assign (_ : Store) (_ : Nat) (name : String) : Except NodeRejection Unit :=
  .error (.frozenField name)

/-- Texts and echo tags have a hash, containers have none. -/
def checkHash (s : Store) (id : Nat) : Except NodeRejection Unit :=
  if (s.head id).isContainer then .error (.unhashable (.kind (s.head id).className)) else .ok ()

end Store

end TagTemplate
