import TagTemplate.Store.Basic

set_option autoImplicit false

/-! # Walking nodes that change

A walker goes through the nodes below a node one at a time, while the store may change between two
steps. It reads the children of a node only when it is advanced past that node, so a child appended
before that moment is visited and one appended later is not. A walker that has come to its end stays
there. -/

namespace TagTemplate

/-- A walker: the node it stands on, if it has been advanced to one, and the numbers of the nodes
still to be visited, the next one first. -/
structure Walker where
  current : Option Nat
  pending : List Nat

namespace Walker

def start (id : Nat) : Walker := ⟨none, [id]⟩

/-- The nodes still to be visited once the children of the current node are read. -/
def upcoming (w : Walker) (s : Store) : List Nat :=
  match w.current with
  | none => w.pending
  | some id => s.children id ++ w.pending

/-- The next node, nothing at the end, and the walker behind it. -/
def advance (w : Walker) (s : Store) : Option Nat × Walker :=
  match w.upcoming s with
  | [] => (none, ⟨none, []⟩)
  | id :: rest => (some id, ⟨some id, rest⟩)

end Walker

end TagTemplate
