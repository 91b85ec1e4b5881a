import TagTemplate.Tree.Walk
import TagTemplate.Datum.Basic

set_option autoImplicit false

/-! # The store of nodes

Trees are built up from nodes that are shared: a node that is added to two containers is one node,
and a child that is added to it later shows in both. The store holds the nodes in numbered cells,
each with what the node holds itself and the numbers of its children. A node without cycles below it
unfolds to a tree, in which a shared node occurs once for every way that leads to it. -/

namespace TagTemplate

/-- A cell of the store: what a node holds itself, and the numbers of its children. -/
structure Cell where
  head : Head
  children : List Nat

/-- The nodes that have been constructed, numbered from zero. -/
structure Store where
  cells : Array Cell

namespace Store

def empty : Store := ⟨#[]⟩

def cell? (s : Store) (id : Nat) : Option Cell := s.cells[id]?

/-- A further node, and its number. -/
def alloc (s : Store) (head : Head) (children : List Nat) : Store × Nat :=
  (⟨s.cells.push ⟨head, children⟩⟩, s.cells.size)

/-- What a node holds itself; a document stands in for a number without a node. -/
def head (s : Store) (id : Nat) : Head := ((s.cell? id).map Cell.head).getD .document

def children (s : Store) (id : Nat) : List Nat := ((s.cell? id).map Cell.children).getD []

def datum (s : Store) (id : Nat) : Datum := .node id (s.head id)

/-- The store after a child was appended to a node. -/
def append (s : Store) (id child : Nat) : Store :=
  ⟨s.cells.modify id fun cell => { cell with children := cell.children ++ [child] }⟩

/-! ## Trees into the store -/

mutual
/-- A node with all its descendants as new nodes of the store. -/
def addNode (s : Store) : Node → Store × Nat
  | .text content => s.alloc (.text content) []
  | .echo elements => s.alloc (.echo elements) []
  | .loop header children =>
    let (s, ids) := addNodes s children
    s.alloc (.loop header) ids
/-- Several nodes with all their descendants as new nodes of the store. -/
def addNodes (s : Store) : List Node → Store × List Nat
  | [] => (s, [])
  | n :: rest =>
    let (s, id) := addNode s n
    let (s, ids) := addNodes s rest
    (s, id :: ids)
end

def addDocument (s : Store) (children : List Node) : Store × Nat :=
  let (s, ids) := s.addNodes children
  s.alloc .document ids

/-! ## Trees out of the store

A way down that is longer than the number of cells passes some node twice, so the number of cells
bounds the depth of a node without cycles. -/

/-- The node of a number as a tree of at most the given depth; nothing if it is deeper, if a child
is missing, or if the node is a document. -/
def nodeWithin (s : Store) : Nat → Nat → Option Node
  | 0, _ => none
  | fuel + 1, id =>
    match s.cell? id with
    | none => none
    | some ⟨.text content, _⟩ => some (.text content)
    | some ⟨.echo elements, _⟩ => some (.echo elements)
    | some ⟨.loop header, ids⟩ => (ids.mapM (s.nodeWithin fuel)).map (.loop header)
    | some ⟨.document, _⟩ => none

/-- The tree of a node, nothing if it has a cycle. -/
def tree? (s : Store) (id : Nat) : Option Tree :=
  match s.cell? id with
  | some ⟨.document, ids⟩ => (ids.mapM (s.nodeWithin s.cells.size)).map .document
  | some _ => (s.nodeWithin s.cells.size id).map .node
  | none => none

end Store

end TagTemplate
