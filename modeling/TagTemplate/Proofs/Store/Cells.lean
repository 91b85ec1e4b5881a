import TagTemplate.Store.Basic

set_option autoImplicit false

/-! # The cells of a store

Three operations change a store: `Store.alloc` makes a node, `Store.addDocument` makes all the nodes
of a tree, and `Store.append` gives a node a further child. The first two leave the nodes of the
store as they are (`Store.Extends`), and the third changes the children of one node only. All three
keep a store well formed (`Store.WellFormed`), that is, children are nodes of the store other than
documents, and only containers have any.
-/

namespace TagTemplate

namespace Store

variable {s s' : Store} {id k : Nat}

/-! ## Cells -/

/-- All nodes of a store are nodes of another one, with the same cells. -/
def Extends (s s' : Store) : Prop := ∀ id < s.cells.size, s'.cell? id = s.cell? id

theorem cell?_lt {cell : Cell} (h : s.cell? id = some cell) : id < s.cells.size :=
  (Array.getElem?_eq_some_iff.mp h).1

theorem cell?_of_ge (h : s.cells.size ≤ id) : s.cell? id = none :=
  Array.getElem?_eq_none h

theorem exists_cell (h : id < s.cells.size) : ∃ cell, s.cell? id = some cell :=
  ⟨_, Array.getElem?_eq_getElem h⟩

theorem cell?_eq_some_iff {cell : Cell} :
    s.cell? id = some cell ↔
      id < s.cells.size ∧ s.head id = cell.head ∧ s.children id = cell.children := by
  constructor
  · intro h
    refine ⟨cell?_lt h, ?_, ?_⟩
    · rw [head, h]
      rfl
    · rw [children, h]
      rfl
  · rintro ⟨hlt, hhead, hchildren⟩
    obtain ⟨⟨head', children'⟩, hcell⟩ := exists_cell hlt
    rw [head, hcell] at hhead
    rw [children, hcell] at hchildren
    obtain ⟨_, _⟩ := cell
    cases hhead
    cases hchildren
    exact hcell

/-- Only a node of the store has children. -/
theorem lt_of_mem_children (h : k ∈ s.children id) : id < s.cells.size := by
  refine Nat.lt_of_not_le fun hge => ?_
  rw [children, cell?_of_ge hge] at h
  simp at h

theorem head_congr (h : s'.cell? id = s.cell? id) : s'.head id = s.head id := by
  rw [head, head, h]

theorem children_congr (h : s'.cell? id = s.cell? id) : s'.children id = s.children id := by
  rw [children, children, h]

theorem Extends.size_le (h : s.Extends s') : s.cells.size ≤ s'.cells.size := by
  refine Nat.le_of_not_lt fun hlt => ?_
  obtain ⟨cell, hcell⟩ := exists_cell hlt
  rw [← h _ hlt, cell?_of_ge (Nat.le_refl _)] at hcell
  simp at hcell

theorem Extends.trans {s'' : Store} (h : s.Extends s') (h' : s'.Extends s'') :
    s.Extends s'' := by
  intro id hid
  rw [h' id (Nat.lt_of_lt_of_le hid h.size_le), h id hid]

/-! ## Well-formed stores -/

/-- A node that can be a child: one of the store, and no document. -/
def IsInner (s : Store) (id : Nat) : Prop := id < s.cells.size ∧ s.head id ≠ .document

/-- Texts and echo tags have no children, and all children are nodes of the store other than
documents. -/
structure WellFormed (s : Store) : Prop where
  leaf : ∀ id, (s.head id).isContainer = false → s.children id = []
  child : ∀ id, ∀ k ∈ s.children id, s.IsInner k

theorem wellFormed_empty : empty.WellFormed := by
  have hchildren : ∀ id, empty.children id = [] := fun id => by
    rw [children, cell?_of_ge (Nat.zero_le id)]
    rfl
  refine ⟨fun id _ => hchildren id, fun id k hk => ?_⟩
  rw [hchildren] at hk
  simp at hk

theorem Extends.isInner (h : s.Extends s') (hk : s.IsInner k) : s'.IsInner k := by
  refine ⟨Nat.lt_of_lt_of_le hk.1 h.size_le, ?_⟩
  rw [head_congr (h k hk.1)]
  exact hk.2

/-! ## New nodes -/

theorem cell?_alloc (s : Store) (head : Head) (ids : List Nat) (id : Nat) :
    (s.alloc head ids).1.cell? id
      = if id = s.cells.size then some ⟨head, ids⟩ else s.cell? id := by
  rw [alloc, cell?, cell?, Array.getElem?_push]

theorem extends_alloc (s : Store) (head : Head) (ids : List Nat) :
    s.Extends (s.alloc head ids).1 := by
  intro id hid
  rw [cell?_alloc, if_neg (Nat.ne_of_lt hid)]

/-- What a new node holds. -/
theorem cell?_alloc_self (s : Store) (head : Head) (ids : List Nat) :
    (s.alloc head ids).1.cell? s.cells.size = some ⟨head, ids⟩ := by
  rw [cell?_alloc, if_pos rfl]

theorem WellFormed.alloc (h : s.WellFormed) {head : Head} {ids : List Nat}
    (hleaf : head.isContainer = false → ids = []) (hids : ∀ k ∈ ids, s.IsInner k) :
    (s.alloc head ids).1.WellFormed := by
  have hextends := extends_alloc s head ids
  obtain ⟨-, hhead, hchildren⟩ := cell?_eq_some_iff.mp (cell?_alloc_self s head ids)
  -- the new node aside, all nodes have the cells that they had
  have hcell : ∀ id, id ≠ s.cells.size → (s.alloc head ids).1.cell? id = s.cell? id := by
    intro id hne
    rw [cell?_alloc, if_neg hne]
  constructor
  · intro id hcontainer
    by_cases hnew : id = s.cells.size
    · rw [hnew, hhead] at hcontainer
      rw [hnew, hchildren]
      exact hleaf hcontainer
    · rw [head_congr (hcell id hnew)] at hcontainer
      rw [children_congr (hcell id hnew)]
      exact h.leaf id hcontainer
  · intro id k hk
    by_cases hnew : id = s.cells.size
    · rw [hnew, hchildren] at hk
      exact hextends.isInner (hids k hk)
    · rw [children_congr (hcell id hnew)] at hk
      exact hextends.isInner (h.child id k hk)

/-- New nodes have been made in a store: it is still well formed, the nodes before them are as they
were, and the new nodes that are named can be children. -/
structure Made (s s' : Store) (ids : List Nat) : Prop where
  wellFormed : s'.WellFormed
  kept : s.Extends s'
  inner : ∀ k ∈ ids, s'.IsInner k

theorem WellFormed.made_alloc (h : s.WellFormed) {head : Head} {ids : List Nat}
    (hleaf : head.isContainer = false → ids = []) (hids : ∀ k ∈ ids, s.IsInner k)
    (hinner : head ≠ .document) : Made s (s.alloc head ids).1 [(s.alloc head ids).2] := by
  refine ⟨h.alloc hleaf hids, extends_alloc s head ids, fun k hk => ?_⟩
  obtain rfl : k = s.cells.size := List.mem_singleton.mp hk
  obtain ⟨hlt, hhead, -⟩ := cell?_eq_some_iff.mp (cell?_alloc_self s head ids)
  exact ⟨hlt, hhead ▸ hinner⟩

mutual
/-- A node with its descendants is made in a store. -/
theorem WellFormed.made_addNode {s : Store} (h : s.WellFormed) (n : Node) :
    Made s (s.addNode n).1 [(s.addNode n).2] := by
  cases n with
  | text content => exact h.made_alloc (fun _ => rfl) (by simp) (by simp)
  | echo elements => exact h.made_alloc (fun _ => rfl) (by simp) (by simp)
  | loop header children =>
      have hbelow := h.made_addNodes children
      have hleaf : (Head.loop header).isContainer = false → (s.addNodes children).2 = [] := by
        simp [Head.isContainer]
      have hmade := hbelow.wellFormed.made_alloc hleaf hbelow.inner (by simp)
      exact ⟨hmade.wellFormed, hbelow.kept.trans hmade.kept, hmade.inner⟩
/-- Several nodes with their descendants are made in a store. -/
theorem WellFormed.made_addNodes {s : Store} (h : s.WellFormed) (ns : List Node) :
    Made s (s.addNodes ns).1 (s.addNodes ns).2 := by
  cases ns with
  | nil => exact ⟨h, fun _ _ => rfl, by simp [addNodes]⟩
  | cons n ns =>
      have hfirst := h.made_addNode n
      have hrest := hfirst.wellFormed.made_addNodes ns
      refine ⟨hrest.wellFormed, hfirst.kept.trans hrest.kept, fun k hk => ?_⟩
      rcases List.mem_cons.mp hk with rfl | hk
      · exact hrest.kept.isInner (hfirst.inner _ (by simp))
      · exact hrest.inner k hk
end

/-- A document of new nodes is made in a store. It is no child. -/
theorem WellFormed.made_addDocument {s : Store} (h : s.WellFormed) (ns : List Node) :
    Made s (s.addDocument ns).1 [] ∧ s.cells.size ≤ (s.addDocument ns).2 := by
  have hbelow := h.made_addNodes ns
  refine ⟨⟨?_, hbelow.kept.trans (extends_alloc _ _ _), by simp⟩, hbelow.kept.size_le⟩
  exact hbelow.wellFormed.alloc (fun hleaf => by simp [Head.isContainer] at hleaf) hbelow.inner

/-! ## A further child -/

theorem cell?_append (s : Store) (n c m : Nat) :
    (s.append n c).cell? m
      = (s.cell? m).map fun cell =>
          if m = n then { cell with children := cell.children ++ [c] } else cell := by
  rw [append, cell?, cell?, Array.getElem?_modify]
  by_cases h : n = m
  · simp [h]
  · have h' : m ≠ n := Ne.symm h
    simp [h, h']

theorem size_append (s : Store) (n c : Nat) : (s.append n c).cells.size = s.cells.size :=
  Array.size_modify

/-- No node becomes another one. -/
theorem head_append (s : Store) (n c m : Nat) : (s.append n c).head m = s.head m := by
  rw [head, head, cell?_append]
  cases s.cell? m with
  | none => rfl
  | some cell =>
      by_cases h : m = n <;> simp [h]

/-- The node gets its child at the end. -/
theorem children_append_self {s : Store} {n : Nat} (hn : n < s.cells.size) (c : Nat) :
    (s.append n c).children n = s.children n ++ [c] := by
  obtain ⟨cell, hcell⟩ := exists_cell hn
  rw [children, children, cell?_append, hcell]
  simp

/-- All other nodes keep their children. -/
theorem children_append_of_ne (s : Store) {n m : Nat} (h : m ≠ n) (c : Nat) :
    (s.append n c).children m = s.children m := by
  refine children_congr ?_
  rw [cell?_append]
  cases s.cell? m <;> simp [h]

theorem isInner_append {s : Store} (n c : Nat) (hk : s.IsInner k) :
    (s.append n c).IsInner k := by
  refine ⟨?_, ?_⟩
  · rw [size_append]
    exact hk.1
  · rw [head_append]
    exact hk.2

theorem WellFormed.append (h : s.WellFormed) {n c : Nat}
    (hcontainer : (s.head n).isContainer = true) (hc : s.IsInner c) :
    (s.append n c).WellFormed := by
  constructor
  · intro id hleaf
    rw [head_append] at hleaf
    have hne : id ≠ n := by
      rintro rfl
      rw [hcontainer] at hleaf
      exact absurd hleaf (by simp)
    rw [children_append_of_ne s hne]
    exact h.leaf id hleaf
  · intro id k hk
    refine isInner_append n c ?_
    by_cases hne : id = n
    · subst hne
      have hlt : id < s.cells.size := by
        have := lt_of_mem_children hk
        rwa [size_append] at this
      rw [children_append_self hlt] at hk
      rcases List.mem_append.mp hk with hk | hk
      · exact h.child id k hk
      · rwa [List.mem_singleton.mp hk]
    · rw [children_append_of_ne s hne] at hk
      exact h.child id k hk

end Store

end TagTemplate
