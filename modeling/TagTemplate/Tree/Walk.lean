import TagTemplate.Tree.Render

set_option autoImplicit false

/-! # Walking a tree

A walk visits the nodes of a tree in the order in which they are rendered, every node before its
children, and knows how deep each lies. It works through a stack of trees still to be visited. -/

namespace TagTemplate

/-- The weight of a tree; a document counts once besides its children. -/
def Tree.weight : Tree → Nat
  | .document children => 1 + Node.weights children
  | .node n => n.weight

def stackWeight : List (Tree × Nat) → Nat
  | [] => 0
  | (t, _) :: rest => t.weight + stackWeight rest

/-- The children of a visited tree, one level deeper. -/
def Tree.below (t : Tree) (depth : Nat) : List (Tree × Nat) :=
  t.children.map fun child => (.node child, depth + 1)

theorem Tree.weights_children_lt (t : Tree) : Node.weights t.children < t.weight := by
  cases t with
  | document children => simp [Tree.weight, Tree.children]
  | node n =>
    cases n <;> simp [Tree.weight, Tree.children, Node.children, Node.weight, Node.weights]

theorem stackWeight_nodes (nodes : List Node) (depth : Nat) (rest : List (Tree × Nat)) :
    stackWeight ((nodes.map fun n => (Tree.node n, depth)) ++ rest) =
      Node.weights nodes + stackWeight rest := by
  induction nodes with
  | nil => simp [Node.weights]
  | cons n nodes ih =>
    simp only [List.map_cons, List.cons_append, stackWeight, Tree.weight, Node.weights, ih]
    omega

theorem stackWeight_below (t : Tree) (depth : Nat) (rest : List (Tree × Nat)) :
    stackWeight (t.below depth ++ rest) < stackWeight ((t, depth) :: rest) := by
  have := t.weights_children_lt
  rw [Tree.below, stackWeight_nodes, stackWeight]
  omega

/-- The visits of the trees on a stack, the one in front first. -/
def walkStack : List (Tree × Nat) → List (Tree × Nat)
  | [] => []
  | (t, depth) :: rest => (t, depth) :: walkStack (t.below depth ++ rest)
termination_by stack => stackWeight stack
decreasing_by exact stackWeight_below t depth rest

namespace Tree

/-- The nodes of a tree with their depths, in the order of the walk. -/
def walkWithDepth (t : Tree) : List (Tree × Nat) := walkStack [(t, 0)]

def walk (t : Tree) : List Tree := t.walkWithDepth.map (·.1)

def count (t : Tree) : Nat := t.walk.length

end Tree

end TagTemplate
