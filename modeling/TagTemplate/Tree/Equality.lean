import TagTemplate.Tree.Walk

set_option autoImplicit false

/-! # Equality of trees

Trees are equal if they have one shape and their nodes hold the same. The comparison works through a
stack of pairs that are still to be compared, those of the last children first, and stops at the
first pair that differs. -/

namespace TagTemplate

def pairChildren (a b : Tree) : List (Tree × Tree) :=
  (a.children.zip b.children).map fun pair => (.node pair.1, .node pair.2)

/-- The weight of the first trees on a stack of pairs. -/
def pairWeight : List (Tree × Tree) → Nat
  | [] => 0
  | (a, _) :: rest => a.weight + pairWeight rest

theorem pairWeight_append (pairs rest : List (Tree × Tree)) :
    pairWeight (pairs ++ rest) = pairWeight pairs + pairWeight rest := by
  induction pairs with
  | nil => simp [pairWeight]
  | cons pair pairs ih =>
    simp only [List.cons_append, pairWeight, ih]
    omega

theorem pairWeight_reverse (pairs : List (Tree × Tree)) :
    pairWeight pairs.reverse = pairWeight pairs := by
  induction pairs with
  | nil => rfl
  | cons pair pairs ih =>
    simp only [List.reverse_cons, pairWeight_append, pairWeight, ih]
    omega

theorem pairWeight_zip (as bs : List Node) :
    pairWeight ((as.zip bs).map fun pair => (Tree.node pair.1, Tree.node pair.2)) ≤
      Node.weights as := by
  induction as generalizing bs with
  | nil => simp [Node.weights, pairWeight]
  | cons n as ih =>
    cases bs with
    | nil => simp [pairWeight]
    | cons m bs =>
      have := ih bs
      simp only [List.zip_cons_cons, List.map_cons, pairWeight, Tree.weight, Node.weights]
      omega

theorem pairWeight_children (a b : Tree) (rest : List (Tree × Tree)) :
    pairWeight ((pairChildren a b).reverse ++ rest) < pairWeight ((a, b) :: rest) := by
  have := a.weights_children_lt
  have := pairWeight_zip a.children b.children
  rw [pairWeight_append, pairWeight_reverse, pairChildren, pairWeight]
  omega

def samePairs : List (Tree × Tree) → Bool
  | [] => true
  | (a, b) :: rest =>
    if a.head.sameValue b.head && a.children.length == b.children.length then
      samePairs ((pairChildren a b).reverse ++ rest)
    else false
termination_by stack => pairWeight stack
decreasing_by exact pairWeight_children a b rest

def Tree.same (a b : Tree) : Bool := samePairs [(a, b)]

end TagTemplate
