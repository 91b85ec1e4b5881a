import Mathlib.Data.List.Basic
import TagTemplate.Tree.Walk

set_option autoImplicit false

/-! # Walking by recursion on trees

A walk works through a stack of trees. Here is its recursive form, a tree and then the visits of its
children one level deeper (`Tree.visits`), the number of the nodes by recursion (`Tree.size`), and
what a stack comes to: the visits of the trees on it, one after the other (`walkStack_eq`).
-/

namespace TagTemplate

/-! ## Induction on trees -/

theorem Node.weight_le_of_mem {n : Node} {ns : List Node} (h : n ∈ ns) :
    n.weight ≤ Node.weights ns := by
  induction ns with
  | nil => simp at h
  | cons m ns ih =>
      rw [Node.weights]
      rcases List.mem_cons.mp h with rfl | h
      · omega
      · have := ih h
        omega

/-- **Induction on trees**: what holds of a tree whenever it holds of its children holds of all
trees. -/
theorem Tree.induction {motive : Tree → Prop}
    (step : ∀ t : Tree, (∀ n ∈ t.children, motive (.node n)) → motive t) (t : Tree) :
    motive t := by
  refine step t fun n hn => ?_
  have hlt : n.weight < t.weight :=
    Nat.lt_of_le_of_lt (Node.weight_le_of_mem hn) t.weights_children_lt
  exact Tree.induction step (.node n)
termination_by t.weight
decreasing_by exact hlt

/-! ## Visits -/

mutual
/-- The visits of a node that lies at a depth and of what is below it. -/
def Node.visits (depth : ℕ) : Node → List (Tree × ℕ)
  | .text content => [(.node (.text content), depth)]
  | .echo elements => [(.node (.echo elements), depth)]
  | .loop header children =>
    (.node (.loop header children), depth) :: Node.visitsAll (depth + 1) children
def Node.visitsAll (depth : ℕ) : List Node → List (Tree × ℕ)
  | [] => []
  | n :: rest => n.visits depth ++ Node.visitsAll depth rest
end

/-- The visits of a tree that lies at a depth: the tree, and then those of its children one level
deeper. -/
def Tree.visits (depth : ℕ) : Tree → List (Tree × ℕ)
  | .document children => (.document children, depth) :: Node.visitsAll (depth + 1) children
  | .node n => n.visits depth

theorem visitsAll_eq_flatMap (depth : ℕ) (ns : List Node) :
    Node.visitsAll depth ns = ns.flatMap fun n => (Tree.node n).visits depth := by
  induction ns with
  | nil => rfl
  | cons n ns ih =>
      rw [Node.visitsAll, ih, List.flatMap_cons]
      rfl

/-- The visits of a tree, one level unfolded. -/
theorem Tree.visits_eq (t : Tree) (depth : ℕ) :
    t.visits depth
      = (t, depth) :: t.children.flatMap fun n => (Tree.node n).visits (depth + 1) := by
  cases t with
  | document children => rw [visits, visitsAll_eq_flatMap]; rfl
  | node n =>
      cases n with
      | loop header children =>
          rw [visits, Node.visits, visitsAll_eq_flatMap]
          rfl
      | _ => rfl

/-- **The walk of a stack** visits the trees on it one after the other. -/
theorem walkStack_eq (stack : List (Tree × ℕ)) :
    walkStack stack = stack.flatMap fun v => v.1.visits v.2 := by
  fun_induction walkStack stack with
  | case1 => rfl
  | case2 t depth rest ih =>
      -- the visits below the tree in front are those of its children, which come next on the stack
      rw [ih, List.flatMap_append, List.flatMap_cons, Tree.visits_eq t, Tree.below,
        List.flatMap_map]
      rfl

/-- **The walk of a tree by recursion.** -/
theorem Tree.walkWithDepth_eq (t : Tree) : t.walkWithDepth = t.visits 0 := by
  rw [walkWithDepth, walkStack_eq, List.flatMap_singleton]

/-- The depth at which a tree lies does not change which nodes are visited. -/
theorem Tree.visits_fst (t : Tree) (depth depth' : ℕ) :
    (t.visits depth).map (·.1) = (t.visits depth').map (·.1) := by
  induction t using Tree.induction generalizing depth depth' with
  | step t ih =>
      rw [visits_eq, visits_eq, List.map_cons, List.map_cons, List.map_flatMap, List.map_flatMap,
        List.flatMap_congr fun n hn => ih n hn (depth + 1) (depth' + 1)]

/-- **A walk** visits a tree and then walks its children. -/
theorem Tree.walk_eq (t : Tree) :
    t.walk = t :: t.children.flatMap fun n => (Tree.node n).walk := by
  have hchild : ∀ n, ((Tree.node n).visits 1).map (·.1) = (Tree.node n).walk := by
    intro n
    rw [walk, walkWithDepth_eq]
    exact visits_fst _ 1 0
  rw [walk, walkWithDepth_eq, visits_eq, List.map_cons, List.map_flatMap]
  exact congrArg _ (List.flatMap_congr fun n _ => hchild n)

/-! ## The number of nodes -/

mutual
/-- How many nodes a node has, itself and what is below it. -/
def Node.size : Node → ℕ
  | .text _ => 1
  | .echo _ => 1
  | .loop _ children => 1 + Node.sizes children
def Node.sizes : List Node → ℕ
  | [] => 0
  | n :: rest => n.size + Node.sizes rest
end

/-- How many nodes a tree has: one, and those of its children. -/
def Tree.size : Tree → ℕ
  | .document children => 1 + Node.sizes children
  | .node n => n.size

theorem Tree.size_eq (t : Tree) : t.size = 1 + Node.sizes t.children := by
  cases t with
  | document children => rfl
  | node n => cases n <;> rfl

/-- **The number of nodes by recursion.** -/
theorem Tree.count_eq (t : Tree) : t.count = t.size := by
  induction t using Tree.induction with
  | step t ih =>
      have hchildren : ∀ ns : List Node, (∀ n ∈ ns, (Tree.node n).count = n.size) →
          (ns.flatMap fun n => (Tree.node n).walk).length = Node.sizes ns := by
        intro ns
        induction ns with
        | nil => intro _; rfl
        | cons n ns ihns =>
            intro h
            have hfirst : (Tree.node n).walk.length = n.size := h n (by simp)
            have hrest := ihns fun m hm => h m (by simp [hm])
            rw [List.flatMap_cons, List.length_append, hfirst, hrest, Node.sizes]
      rw [count, walk_eq, List.length_cons, hchildren t.children ih, size_eq]
      omega

end TagTemplate
