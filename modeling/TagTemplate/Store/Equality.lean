import TagTemplate.Store.Basic
import TagTemplate.Tree.Equality

set_option autoImplicit false

/-! # Equality of nodes

A node answers whether it is equal to another one only if that is of its own class. If it does not
answer, the other node is asked; if that does not answer either, what decides is whether they are
one and the same node. -/

namespace TagTemplate

/-- The answer of a node to the question whether it is equal to another one, nothing if that is of
another class. -/
def Tree.answer? (t u : Tree) : Option Bool :=
  if t.head.className == u.head.className then some (t.same u) else none

/-- The answer of the first of two nodes that answers, nothing if neither does. -/
def Tree.verdict? (t u : Tree) : Option Bool := (t.answer? u).or (u.answer? t)

namespace Store

/-- Whether two nodes are equal, nothing if one of them has a cycle. -/
def equal? (s : Store) (a b : Nat) : Option Bool := do
  let t ← s.tree? a
  let u ← s.tree? b
  return (t.verdict? u).getD (a == b)

/-- Whether two nodes are different: the opposite of their answer, and without one whether they are
two nodes. -/
def differ? (s : Store) (a b : Nat) : Option Bool := do
  let t ← s.tree? a
  let u ← s.tree? b
  return ((t.verdict? u).map not).getD (a != b)

end Store

end TagTemplate
