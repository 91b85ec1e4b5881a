import Mathlib.Data.Finset.Card
import Mathlib.Data.Finset.Range
import Mathlib.Data.List.Forall2
import Mathlib.Logic.Relation
import TagTemplate.Proofs.Store.Cells
import TagTemplate.Store.Walker

set_option autoImplicit false

/-! # Nodes without cycles

A node without cycles below it (`Store.AcyclicFrom`) unfolds to a tree, and a walk below it comes to
an end; the rest of the store may have cycles. Trees are taken out of a store up to a bound on their
depth, and the bound is never met: the number of nodes that can be reached from a node
(`Store.rank`) is greater than that of each of its children, so what
is computed from the children within a bound does not depend on the bound
(`Store.ByChildren.bound_irrelevant`). Every node has a tree, with the trees of its children below
it (`Store.exists_tree`). The preorder of a node (`Store.preorder`) is what a walker over it gives
(`Store.walks_preorder`), and the walk of its tree goes through the trees of the nodes in preorder
(`Store.walk_preorder`).
-/

namespace TagTemplate

namespace Store

variable {s : Store} {id k : ℕ}

/-! ## Reaching a node -/

def HasChild (s : Store) (id k : ℕ) : Prop := k ∈ s.children id

/-- A node can be reached from another one: it is that node or lies below it. -/
def Reaches (s : Store) : ℕ → ℕ → Prop := Relation.ReflTransGen s.HasChild

/-- No node lies below itself. -/
def Acyclic (s : Store) : Prop := ∀ id, ¬ Relation.TransGen s.HasChild id id

/-- No node that can be reached from a node lies below itself. -/
def AcyclicFrom (s : Store) (id : ℕ) : Prop :=
  ∀ k, s.Reaches id k → ¬ Relation.TransGen s.HasChild k k

theorem Acyclic.acyclicFrom (h : s.Acyclic) (id : ℕ) : s.AcyclicFrom id := fun k _ => h k

/-- What can be reached from a node that is reached can be reached. -/
theorem AcyclicFrom.of_reaches (h : s.AcyclicFrom id) (hk : s.Reaches id k) : s.AcyclicFrom k :=
  fun m hm => h m (hk.trans hm)

theorem AcyclicFrom.child (h : s.AcyclicFrom id) (hk : k ∈ s.children id) : s.AcyclicFrom k :=
  h.of_reaches (.single hk)

/-- Where every child has a smaller number than its parent there is no cycle. -/
theorem acyclic_of_lt (h : ∀ id < s.cells.size, ∀ k ∈ s.children id, k < id) : s.Acyclic := by
  have hchild : ∀ id k, s.HasChild id k → k < id := fun id k hk =>
    h id (lt_of_mem_children hk) k hk
  have hbelow : ∀ {id k}, Relation.TransGen s.HasChild id k → k < id := by
    intro id k hreach
    induction hreach with
    | single hk => exact hchild _ _ hk
    | tail _ hk ih => exact (hchild _ _ hk).trans ih
  exact fun id hcycle => lt_irrefl id (hbelow hcycle)

open Classical in
/-- The nodes of the store that can be reached from a node. -/
noncomputable def below (s : Store) (id : ℕ) : Finset ℕ :=
  (Finset.range s.cells.size).filter (s.Reaches id)

/-- How many nodes of the store can be reached from a node. -/
noncomputable def rank (s : Store) (id : ℕ) : ℕ := (s.below id).card

theorem mem_below : k ∈ s.below id ↔ k < s.cells.size ∧ s.Reaches id k := by
  simp only [below, Finset.mem_filter, Finset.mem_range]

theorem rank_le (s : Store) (id : ℕ) : s.rank id ≤ s.cells.size := by
  calc s.rank id ≤ (Finset.range s.cells.size).card :=
        Finset.card_le_card fun k hk => Finset.mem_range.mpr (mem_below.mp hk).1
    _ = s.cells.size := Finset.card_range _

/-- A node of the store can be reached from itself. -/
theorem rank_pos (h : id < s.cells.size) : 0 < s.rank id :=
  Finset.card_pos.mpr ⟨id, mem_below.mpr ⟨h, .refl⟩⟩

/-- **A child has a smaller rank**: it cannot reach its parent. -/
theorem rank_lt (hacyclic : s.AcyclicFrom id) (hk : k ∈ s.children id) : s.rank k < s.rank id := by
  refine Finset.card_lt_card (Finset.ssubset_iff_subset_ne.mpr ⟨fun m hm => ?_, fun heq => ?_⟩)
  · obtain ⟨hlt, hreach⟩ := mem_below.mp hm
    exact mem_below.mpr ⟨hlt, .head hk hreach⟩
  · have hself : id ∈ s.below k := heq ▸ mem_below.mpr ⟨lt_of_mem_children hk, .refl⟩
    exact hacyclic id .refl (.head' hk (mem_below.mp hself).2)

/-- Within a bound, a function is computed for a node from what it is for the children within the
bound before. -/
def ByChildren {α : Type} (s : Store) (f : ℕ → ℕ → α) : Prop :=
  ∀ n n' id, (∀ k ∈ s.children id, f n k = f n' k) → f (n + 1) id = f (n' + 1) id

/-- **The bound is irrelevant** from the rank of the node on. -/
theorem ByChildren.bound_irrelevant {α : Type} {f : ℕ → ℕ → α} (hf : s.ByChildren f)
    (hs : s.WellFormed) (hacyclic : s.AcyclicFrom id) {n : ℕ} (hid : id < s.cells.size)
    (hn : s.rank id ≤ n) : f n id = f (n + 1) id := by
  -- the rank falls from a node to its children, so the bound never runs out before it
  induction n generalizing id with
  | zero => exact absurd (rank_pos hid) (by omega)
  | succ n ih =>
      refine hf n (n + 1) id fun k hk => ih (hacyclic.child hk) (hs.child id k hk).1 ?_
      have := rank_lt hacyclic hk
      omega

/-- For the children of a node, the number of nodes is as good a bound as the one before it. -/
theorem ByChildren.children {α : Type} {f : ℕ → ℕ → α} (hf : s.ByChildren f) (hs : s.WellFormed)
    (hacyclic : s.AcyclicFrom id) (hid : id < s.cells.size) :
    ∃ n, s.cells.size = n + 1 ∧ ∀ k ∈ s.children id, f n k = f s.cells.size k := by
  obtain ⟨n, hn⟩ := Nat.exists_eq_succ_of_ne_zero (Nat.ne_zero_of_lt hid)
  refine ⟨n, hn, fun k hk => ?_⟩
  have hlt := rank_lt hacyclic hk
  have hle := s.rank_le id
  rw [hn]
  exact hf.bound_irrelevant hs (hacyclic.child hk) (hs.child id k hk).1 (by omega)

/-! ## Preorder -/

/-- The numbers of a node and of what lies below it, down to the given depth, every node before its
children. -/
def preorderWithin (s : Store) : ℕ → ℕ → List ℕ
  | 0, _ => []
  | n + 1, id => id :: (s.children id).flatMap (s.preorderWithin n)

/-- The numbers of a node and of what lies below it, every node before its children; a node that is
shared occurs once for every way that leads to it. -/
def preorder (s : Store) (id : ℕ) : List ℕ := s.preorderWithin s.cells.size id

theorem preorderWithin_byChildren (s : Store) : s.ByChildren s.preorderWithin := by
  intro n n' id h
  rw [preorderWithin, preorderWithin, List.flatMap_congr h]

/-- **The preorder of a node** is the node and then the preorders of its children. -/
theorem preorder_eq (hs : s.WellFormed) (hacyclic : s.AcyclicFrom id) (hid : id < s.cells.size) :
    s.preorder id = id :: (s.children id).flatMap s.preorder := by
  obtain ⟨n, hn, hchildren⟩ := s.preorderWithin_byChildren.children hs hacyclic hid
  rw [preorder, hn, preorderWithin, List.flatMap_congr hchildren]
  rfl

/-! ## Trees -/

def node? (s : Store) (id : ℕ) : Option Node := s.nodeWithin s.cells.size id

theorem mapM_congr {α β : Type} {f g : α → Option β} {as : List α} (h : ∀ a ∈ as, f a = g a) :
    as.mapM f = as.mapM g := by
  induction as with
  | nil => rfl
  | cons a as ih =>
      rw [List.mapM_cons, List.mapM_cons, h a (by simp), ih fun a' ha' => h a' (by simp [ha'])]

/-- Where there is a value for every item, there is a list of them. -/
theorem exists_mapM {α β : Type} {f : α → Option β} {as : List α}
    (h : ∀ a ∈ as, ∃ b, f a = some b) :
    ∃ bs, as.mapM f = some bs ∧ List.Forall₂ (fun a b => f a = some b) as bs := by
  induction as with
  | nil => exact ⟨[], rfl, .nil⟩
  | cons a as ih =>
      obtain ⟨b, hb⟩ := h a (by simp)
      obtain ⟨bs, hbs, hall⟩ := ih fun a' ha' => h a' (by simp [ha'])
      exact ⟨b :: bs, by rw [List.mapM_cons, hb, hbs]; rfl, .cons hb hall⟩

/-- What is related place by place comes from the first list. -/
theorem forall₂_mem {α β : Type} {R : α → β → Prop} {as : List α} {bs : List β}
    (h : List.Forall₂ R as bs) : List.Forall₂ (fun a b => a ∈ as ∧ R a b) as bs :=
  (List.forall₂_and_left _ _).mpr ⟨fun _ ha => ha, h⟩

theorem nodeWithin_byChildren (s : Store) : s.ByChildren s.nodeWithin := by
  intro n n' id h
  rw [nodeWithin, nodeWithin]
  cases hcell : s.cell? id with
  | none => rfl
  | some cell =>
      obtain ⟨-, -, hchildren⟩ := cell?_eq_some_iff.mp hcell
      obtain ⟨head, ids⟩ := cell
      cases head with
      | loop header =>
          rw [hchildren] at h
          simp only [mapM_congr h]
      | _ => rfl

/-- **A node other than a document has a tree**, with the trees of its children below it. -/
theorem exists_node {id : ℕ} (hs : s.WellFormed) (hacyclic : s.AcyclicFrom id)
    (hid : s.IsInner id) :
    ∃ n, s.node? id = some n ∧ n.head = s.head id ∧
      List.Forall₂ (fun k c => s.node? k = some c) (s.children id) n.children := by
  obtain ⟨hlt, hinner⟩ := hid
  -- recursion on the rank: the children have trees
  have hbelow : ∀ k ∈ s.children id, ∃ c, s.node? k = some c := by
    intro k hk
    have := rank_lt hacyclic hk
    obtain ⟨c, hc, -⟩ := exists_node hs (hacyclic.child hk) (hs.child id k hk)
    exact ⟨c, hc⟩
  obtain ⟨bodies, hmapM, hbodies⟩ := exists_mapM hbelow
  obtain ⟨n, hn, hchildren⟩ := s.nodeWithin_byChildren.children hs hacyclic hlt
  obtain ⟨⟨head, ids⟩, hcell⟩ := exists_cell hlt
  obtain ⟨-, hhead, hids⟩ := cell?_eq_some_iff.mp hcell
  have hleaf := hs.leaf id
  rw [hhead] at hinner hleaf ⊢
  rw [hids] at hmapM hbodies hchildren hleaf ⊢
  dsimp only at hmapM hbodies hchildren hleaf hinner ⊢
  rw [node?, hn, nodeWithin, hcell]
  cases head with
  | text content =>
      obtain rfl : ids = [] := hleaf rfl
      exact ⟨_, rfl, rfl, .nil⟩
  | echo elements =>
      obtain rfl : ids = [] := hleaf rfl
      exact ⟨_, rfl, rfl, .nil⟩
  | loop header =>
      refine ⟨.loop header bodies, ?_, rfl, hbodies⟩
      simp only [mapM_congr hchildren]
      exact congrArg _ hmapM
  | document => exact absurd rfl hinner
termination_by s.rank id

/-- Only a node of the store has a tree. -/
theorem lt_of_tree? {t : Tree} (h : s.tree? id = some t) : id < s.cells.size := by
  by_contra hge
  rw [tree?, cell?_of_ge (not_lt.mp hge)] at h
  simp at h

/-- The tree of a node other than a document is that node. -/
theorem tree?_of_isInner (hid : s.IsInner id) : s.tree? id = (s.node? id).map .node := by
  obtain ⟨⟨head, ids⟩, hcell⟩ := exists_cell hid.1
  obtain ⟨-, hhead, -⟩ := cell?_eq_some_iff.mp hcell
  have hinner := hid.2
  rw [hhead] at hinner
  rw [tree?, hcell]
  cases head with
  | document => exact absurd rfl hinner
  | _ => rfl

/-- **Every node has a tree**: its root holds what the node holds, and below it there are the trees
of the children. -/
theorem exists_tree (hs : s.WellFormed) (hacyclic : s.AcyclicFrom id) (hid : id < s.cells.size) :
    ∃ t, s.tree? id = some t ∧ t.head = s.head id ∧
      List.Forall₂ (fun k c => s.tree? k = some (.node c)) (s.children id) t.children := by
  have htree : ∀ {cs : List Node}, List.Forall₂ (fun k c => s.node? k = some c) (s.children id) cs →
      List.Forall₂ (fun k c => s.tree? k = some (.node c)) (s.children id) cs := by
    intro cs hcs
    refine ((List.forall₂_and_left _ _).mpr ⟨hs.child id, hcs⟩).imp fun k c h => ?_
    rw [tree?_of_isInner h.1, h.2]
    rfl
  by_cases hdocument : s.head id = .document
  · obtain ⟨bodies, hmapM, hbodies⟩ := exists_mapM fun k hk =>
      (exists_node hs (hacyclic.child hk) (hs.child id k hk)).imp fun c hc => hc.1
    have hcell : s.cell? id = some ⟨.document, s.children id⟩ :=
      cell?_eq_some_iff.mpr ⟨hid, hdocument, rfl⟩
    refine ⟨.document bodies, ?_, hdocument.symm, htree hbodies⟩
    rw [tree?, hcell]
    exact congrArg (Option.map Tree.document) hmapM
  · obtain ⟨n, hn, hhead, hchildren⟩ := exists_node hs hacyclic ⟨hid, hdocument⟩
    refine ⟨.node n, ?_, hhead, htree hchildren⟩
    rw [tree?_of_isInner ⟨hid, hdocument⟩, hn]
    rfl

/-- What the tree of a node is made of: what the node holds, and the trees of its children. -/
theorem tree?_parts (hs : s.WellFormed) (hacyclic : s.AcyclicFrom id) {t : Tree}
    (h : s.tree? id = some t) :
    t.head = s.head id ∧
      List.Forall₂ (fun k c => s.tree? k = some (.node c)) (s.children id) t.children := by
  obtain ⟨t', ht', hparts⟩ := exists_tree hs hacyclic (lt_of_tree? h)
  obtain rfl := Option.some_inj.mp (h.symm.trans ht')
  exact hparts

/-! ## Walks -/

/-- The walk of the trees on a stack goes through the trees of the nodes in preorder. -/
theorem walkStack_preorder (hs : s.WellFormed) (stack : List (Tree × ℕ)) {ids : List ℕ}
    (hacyclic : ∀ id ∈ ids, s.AcyclicFrom id)
    (h : List.Forall₂ (fun k p => s.tree? k = some p.1) ids stack) :
    List.Forall₂ (fun k p => s.tree? k = some p.1) (ids.flatMap s.preorder) (walkStack stack) := by
  fun_induction walkStack stack generalizing ids with
  | case1 =>
      cases h
      exact .nil
  | case2 t depth rest ih =>
      cases h with
      | @cons id _ ids' _ hid hrest =>
          have hlt : id < s.cells.size := lt_of_tree? hid
          have hfirst : s.AcyclicFrom id := hacyclic id (by simp)
          obtain ⟨-, hchildren⟩ := tree?_parts hs hfirst hid
          -- the stack goes on with the children, and so does the preorder
          have hbelow : List.Forall₂ (fun k p => s.tree? k = some p.1) (s.children id)
              (t.below depth) := List.forall₂_map_right_iff.mpr hchildren
          have hnext : ∀ k ∈ s.children id ++ ids', s.AcyclicFrom k := by
            intro k hk
            rcases List.mem_append.mp hk with hk | hk
            · exact hfirst.child hk
            · exact hacyclic k (List.mem_cons_of_mem _ hk)
          rw [List.flatMap_cons, preorder_eq hs hfirst hlt, List.cons_append,
            ← List.flatMap_append]
          exact .cons hid (ih hnext (List.rel_append hbelow hrest))

/-- **The walk of a tree** goes through the trees of the nodes in preorder. -/
theorem walk_preorder (hs : s.WellFormed) (hacyclic : s.AcyclicFrom id) {t : Tree}
    (h : s.tree? id = some t) :
    List.Forall₂ (fun k u => s.tree? k = some u) (s.preorder id) t.walk := by
  have hstack := walkStack_preorder hs [(t, 0)] (List.forall_mem_singleton.mpr hacyclic)
    (.cons h .nil)
  rw [List.flatMap_cons, List.flatMap_nil, List.append_nil] at hstack
  exact List.forall₂_map_right_iff.mpr hstack

end Store

/-! ## Walkers -/

/-- A walker gives a list of nodes, up to its end, while the store stays as it is. -/
inductive Walker.Gives (s : Store) : Walker → List ℕ → Prop
  | done {w w' : Walker} (h : w.advance s = (none, w')) : Gives s w []
  | visit {w w' : Walker} {id : ℕ} {ids : List ℕ} (h : w.advance s = (some id, w'))
      (hrest : Gives s w' ids) : Gives s w (id :: ids)

/-- A walker gives one list only. -/
theorem Walker.Gives.unique {s : Store} {w : Walker} {ids ids' : List ℕ} (h : Gives s w ids)
    (h' : Gives s w ids') : ids = ids' := by
  induction h generalizing ids' with
  | done hend =>
      cases h' with
      | done _ => rfl
      | visit hnext _ => simp [hend] at hnext
  | visit hnext _ ih =>
      cases h' with
      | done hend => simp [hend] at hnext
      | visit hnext' hrest' =>
          rw [hnext] at hnext'
          cases hnext'
          rw [ih hrest']

namespace Store

variable {s : Store} {id : ℕ}

/-- A walker over a node gives a list of nodes. -/
def Walks (s : Store) (id : ℕ) (ids : List ℕ) : Prop := Walker.Gives s (.start id) ids

/-- A walker gives the preorders of the nodes that it has still to visit. -/
theorem gives_upcoming (hs : s.WellFormed) (w : Walker)
    (h : ∀ k ∈ w.upcoming s, k < s.cells.size ∧ s.AcyclicFrom k) :
    Walker.Gives s w ((w.upcoming s).flatMap s.preorder) := by
  cases hupcoming : w.upcoming s with
  | nil =>
      have hadvance : w.advance s = (none, ⟨none, []⟩) := by
        rw [Walker.advance, hupcoming]
      exact .done hadvance
  | cons id rest =>
      have hadvance : w.advance s = (some id, ⟨some id, rest⟩) := by
        rw [Walker.advance, hupcoming]
      rw [hupcoming] at h
      obtain ⟨hid, hacyclic⟩ := h id (by simp)
      -- behind a node there come its children and then what was upcoming behind it
      have hnext : (⟨some id, rest⟩ : Walker).upcoming s = s.children id ++ rest := rfl
      have hrest := gives_upcoming hs ⟨some id, rest⟩ (by
        rw [hnext]
        intro k hk
        rcases List.mem_append.mp hk with hk | hk
        · exact ⟨(hs.child id k hk).1, hacyclic.child hk⟩
        · exact h k (by simp [hk]))
      rw [hnext, List.flatMap_append] at hrest
      rw [List.flatMap_cons, preorder_eq hs hacyclic hid]
      exact .visit hadvance hrest
termination_by ((w.upcoming s).flatMap s.preorder).length
decreasing_by
  rw [hupcoming, hnext, List.flatMap_cons, preorder_eq hs hacyclic hid, List.flatMap_append]
  simp

/-- **A walker over a node gives its preorder.** -/
theorem walks_preorder (hs : s.WellFormed) (hacyclic : s.AcyclicFrom id)
    (hid : id < s.cells.size) :
    s.Walks id (s.preorder id) := by
  have hstart : (Walker.start id).upcoming s = [id] := rfl
  have h := gives_upcoming hs (.start id) (by
    rw [hstart]
    exact List.forall_mem_singleton.mpr ⟨hid, hacyclic⟩)
  rw [hstart, List.flatMap_cons, List.flatMap_nil, List.append_nil] at h
  exact h

end Store

end TagTemplate
