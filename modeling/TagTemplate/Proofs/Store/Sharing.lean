import Mathlib.Tactic.Ring
import TagTemplate.Proofs.Store.Action
import TagTemplate.Proofs.Store.Unfolding
import TagTemplate.Store.Equality
import TagTemplate.Tree.Outline
import TagTemplate.Tree.Render

set_option autoImplicit false

/-! # A further child of a shared node

A node may be a child of many containers, so a child that is added to it shows in all of them. How
much the trees grow is counted by the preorders: every occurrence of the changed node brings one
occurrence of the new child and of all that is below it (`Store.Grows.length_preorder`). Nodes from
which the changed node cannot be reached keep their trees (`Store.tree?_append_of_not_reaches`), and
with the tree all that is computed from it: rendering, outline and equality. The main result is
`addChild_frame`.
-/

namespace TagTemplate

namespace Store

variable {s : Store} {n c m : ℕ}

/-! ## Below a node that is not changed -/

/-- A node that the changed node cannot be reached from is another one, and its children cannot
reach the changed node either. -/
theorem below_of_not_reaches (h : ¬ s.Reaches m n) :
    m ≠ n ∧ ∀ k ∈ s.children m, ¬ s.Reaches k n :=
  ⟨fun heq => h (heq ▸ .refl), fun _ hk hreach => h (.head hk hreach)⟩

theorem cell?_append_of_ne (s : Store) (h : m ≠ n) (c : ℕ) :
    (s.append n c).cell? m = s.cell? m := by
  rw [cell?_append]
  cases s.cell? m <;> simp [h]

theorem preorder_append_of_not_reaches (c : ℕ) (h : ¬ s.Reaches m n) :
    (s.append n c).preorder m = s.preorder m := by
  have hwithin : ∀ fuel m, ¬ s.Reaches m n →
      (s.append n c).preorderWithin fuel m = s.preorderWithin fuel m := by
    intro fuel
    induction fuel with
    | zero => intro m _; rfl
    | succ fuel ih =>
        intro m h
        obtain ⟨hne, hbelow⟩ := below_of_not_reaches h
        rw [preorderWithin, preorderWithin, children_append_of_ne s hne,
          List.flatMap_congr fun k hk => ih k (hbelow k hk)]
  rw [preorder, preorder, size_append]
  exact hwithin _ m h

theorem nodeWithin_append_of_not_reaches (c fuel : ℕ) (h : ¬ s.Reaches m n) :
    (s.append n c).nodeWithin fuel m = s.nodeWithin fuel m := by
  induction fuel generalizing m with
  | zero => rfl
  | succ fuel ih =>
      obtain ⟨hne, hbelow⟩ := below_of_not_reaches h
      rw [nodeWithin, nodeWithin, cell?_append_of_ne s hne]
      cases hcell : s.cell? m with
      | none => rfl
      | some cell =>
          obtain ⟨-, -, hchildren⟩ := cell?_eq_some_iff.mp hcell
          rw [hchildren] at hbelow
          obtain ⟨head, ids⟩ := cell
          cases head with
          | loop header => simp only [mapM_congr fun k hk => ih (hbelow k hk)]
          | _ => rfl

/-- **A node that the changed node cannot be reached from** keeps its tree. -/
theorem tree?_append_of_not_reaches (c : ℕ) (h : ¬ s.Reaches m n) :
    (s.append n c).tree? m = s.tree? m := by
  obtain ⟨hne, hbelow⟩ := below_of_not_reaches h
  rw [tree?, tree?, cell?_append_of_ne s hne, size_append,
    nodeWithin_append_of_not_reaches c _ h]
  cases hcell : s.cell? m with
  | none => rfl
  | some cell =>
      obtain ⟨-, -, hchildren⟩ := cell?_eq_some_iff.mp hcell
      rw [hchildren] at hbelow
      obtain ⟨head, ids⟩ := cell
      cases head with
      | document =>
          simp only [mapM_congr fun k hk =>
            nodeWithin_append_of_not_reaches c s.cells.size (hbelow k hk)]
      | _ => rfl

/-- Nodes with the same trees as before compare as before. -/
theorem equal?_congr {s' : Store} {k : ℕ} (hm : s'.tree? m = s.tree? m)
    (hk : s'.tree? k = s.tree? k) :
    s'.equal? m k = s.equal? m k ∧ s'.differ? m k = s.differ? m k := by
  simp only [equal?, differ?, hm, hk, and_self]

/-! ## The growth of the preorders -/

/-- A child is added to a container of a well-formed store, and no cycle comes about. -/
structure Grows (s : Store) (n c : ℕ) : Prop where
  wellFormed : s.WellFormed
  lt : n < s.cells.size
  container : (s.head n).isContainer = true
  inner : s.IsInner c
  acyclic : (s.append n c).Acyclic

/-- All children that there were are still there. -/
theorem hasChild_append (s : Store) (n c : ℕ) : s.HasChild ≤ (s.append n c).HasChild := by
  intro m k h
  by_cases hne : m = n
  · subst hne
    rw [HasChild, children_append_self (lt_of_mem_children h)]
    exact List.mem_append_left _ h
  · rwa [HasChild, children_append_of_ne s hne]

namespace Grows

theorem wellFormed_append (h : s.Grows n c) : (s.append n c).WellFormed :=
  h.wellFormed.append h.container h.inner

/-- There was no cycle before. -/
theorem acyclic_before (h : s.Grows n c) : s.Acyclic := fun id hcycle =>
  h.acyclic id (Relation.TransGen.mono (hasChild_append s n c) id id hcycle)

/-- The new child does not reach the node that it is added to. -/
theorem not_reaches (h : s.Grows n c) : ¬ s.Reaches c n := by
  -- with the new edge the way back to the node would be a cycle
  intro hreach
  have hchild : (s.append n c).HasChild n c := by
    rw [HasChild, children_append_self h.lt]
    exact List.mem_append_right _ (List.mem_singleton_self c)
  exact h.acyclic n
    (.head' hchild (Relation.ReflTransGen.mono (hasChild_append s n c) c n hreach))

/-- **The growth of a preorder**: each occurrence of the changed node adds the preorder of the new
child. -/
theorem length_preorder (h : s.Grows n c) {m : ℕ} (hm : m < s.cells.size) :
    ((s.append n c).preorder m).length
      = (s.preorder m).length + (s.preorder c).length * (s.preorder m).count n := by
  have hacyclic := h.acyclic_before.acyclicFrom m
  -- the children grow by induction on the rank, and a list of them by the sum
  have hchildren : ∀ ks : List ℕ, (∀ k ∈ ks, k ∈ s.children m) →
      (ks.flatMap (s.append n c).preorder).length
        = (ks.flatMap s.preorder).length
          + (s.preorder c).length * (ks.flatMap s.preorder).count n := by
    intro ks
    induction ks with
    | nil => intro _; simp
    | cons k ks ih =>
        intro hks
        have hk : k ∈ s.children m := hks k (by simp)
        have := rank_lt hacyclic hk
        have hfirst := h.length_preorder (h.wellFormed.child m k hk).1
        have hrest := ih fun k' hk' => hks k' (by simp [hk'])
        simp only [List.flatMap_cons, List.length_append, List.count_append, hfirst, hrest]
        ring
  have hsize : m < (s.append n c).cells.size := by rwa [size_append]
  have hbelow := hchildren (s.children m) fun k hk => hk
  rw [preorder_eq h.wellFormed_append (h.acyclic.acyclicFrom m) hsize,
    preorder_eq h.wellFormed hacyclic hm]
  by_cases hself : m = n
  · -- the changed node occurs once more than below its children, where it does not occur
    subst hself
    have hnew : (s.append m c).preorder c = s.preorder c :=
      preorder_append_of_not_reaches c h.not_reaches
    calc (m :: ((s.append m c).children m).flatMap (s.append m c).preorder).length
        = ((s.children m).flatMap (s.append m c).preorder).length + (s.preorder c).length + 1 := by
          rw [children_append_self hm, List.flatMap_append, List.flatMap_singleton, hnew,
            List.length_cons, List.length_append]
      _ = ((s.children m).flatMap s.preorder).length + 1 + (s.preorder c).length
            * (((s.children m).flatMap s.preorder).count m + 1) := by
          rw [hbelow]
          ring
      _ = (m :: (s.children m).flatMap s.preorder).length + (s.preorder c).length
            * (m :: (s.children m).flatMap s.preorder).count m := by
          rw [List.count_cons_self, List.length_cons]
  · rw [children_append_of_ne s hself, List.count_cons_of_ne hself, List.length_cons,
      List.length_cons, hbelow]
    ring
termination_by s.rank m

/-- **The growth of a tree**: all nodes have trees before and after, a walker gives the nodes of the
tree before, and each of them that is the changed node adds the tree of the new child. -/
theorem exists_trees (h : s.Grows n c) (hm : m < s.cells.size) :
    ∃ t t' u ids, s.tree? m = some t ∧ (s.append n c).tree? m = some t' ∧ s.tree? c = some u ∧
      s.Walks m ids ∧ List.Forall₂ (fun k v => s.tree? k = some v) ids t.walk ∧
      t'.count = t.count + u.count * ids.count n ∧
      (¬ s.Reaches m n → (s.append n c).tree? m = s.tree? m ∧ t' = t ∧
        (s.append n c).Walks m ids) := by
  have hacyclic := h.acyclic_before.acyclicFrom
  have hacyclic' := h.acyclic.acyclicFrom m
  have hm' : m < (s.append n c).cells.size := by rwa [size_append]
  obtain ⟨t, ht, -⟩ := exists_tree h.wellFormed (hacyclic m) hm
  obtain ⟨t', ht', -⟩ := exists_tree h.wellFormed_append hacyclic' hm'
  obtain ⟨u, hu, -⟩ := exists_tree h.wellFormed (hacyclic c) h.inner.1
  have hwalk := walk_preorder h.wellFormed (hacyclic m) ht
  have hcount : t.count = (s.preorder m).length := hwalk.length_eq.symm
  have hcount' : t'.count = ((s.append n c).preorder m).length :=
    (walk_preorder h.wellFormed_append hacyclic' ht').length_eq.symm
  have hcountChild : u.count = (s.preorder c).length :=
    (walk_preorder h.wellFormed (hacyclic c) hu).length_eq.symm
  refine ⟨t, t', u, s.preorder m, ht, ht', hu, walks_preorder h.wellFormed (hacyclic m) hm, hwalk, ?_,
    fun hunreached => ⟨tree?_append_of_not_reaches c hunreached, ?_, ?_⟩⟩
  · rw [hcount, hcount', hcountChild, h.length_preorder hm]
  · rw [tree?_append_of_not_reaches c hunreached, ht] at ht'
    exact (Option.some_inj.mp ht').symm
  · rw [← preorder_append_of_not_reaches c hunreached]
    exact walks_preorder h.wellFormed_append hacyclic' hm'

end Grows

/-- Adding a child, as an action that succeeds. -/
theorem addChild_of_perform {child : Datum} {s' : Store} (hchild : s.Holds child)
    (h : s.perform (.addChild n child) = (.ok none, s')) :
    (s.head n).isContainer = true ∧ ∃ c, child = s.datum c ∧ s.IsInner c ∧ s' = s.append n c := by
  cases performs_of_attempt (attempt_of_perform h) with
  | addChild hcontainer hc =>
      obtain ⟨hdatum, hinner⟩ := hchild.child (List.mem_cons_self ..) hc
      exact ⟨hcontainer, _, hdatum, hinner, rfl⟩

/-- **When a child is added**: exactly if it goes to a container and is a node other than a
document. -/
theorem exists_perform_addChild_iff {child : Datum} (hchild : s.Holds child) :
    (∃ s', s.perform (.addChild n child) = (.ok none, s')) ↔
      (s.head n).isContainer = true ∧ ∃ c, s.IsInner c ∧ child = s.datum c := by
  constructor
  · rintro ⟨s', h⟩
    obtain ⟨hcontainer, c, hdatum, hinner, -⟩ := addChild_of_perform hchild h
    exact ⟨hcontainer, c, hinner, hdatum⟩
  · rintro ⟨hcontainer, c, ⟨-, hinner⟩, rfl⟩
    have hid : childId (s.datum c) = .ok c := by
      rw [datum, childId]
      exact hinner
    refine ⟨s.append n c, ?_⟩
    rw [perform, attempt, addChild_of_childId hcontainer hid]

theorem childId_eq_error {child : Datum} {rejection : NodeRejection}
    (h : childId child = .error rejection) : rejection = .childKind child.typeName := by
  unfold childId at h
  split at h
  · exact (Except.error.inj h).symm
  · cases h
  · exact (Except.error.inj h).symm

/-- What is no node, and a document, is refused as a further child by the name of its kind. -/
theorem perform_addChild_of_wrongKind {child : Datum} (hchild : s.Holds child)
    (hcontainer : (s.head n).isContainer = true) (hwrong : ∀ c, s.IsInner c → child ≠ s.datum c) :
    s.perform (.addChild n child) = (.error (.node (.childKind child.typeName)), s) := by
  cases hid : childId child with
  | ok k =>
      obtain ⟨hdatum, hinner⟩ := hchild.child (List.mem_cons_self ..) hid
      exact absurd hdatum (hwrong k hinner)
  | error rejection =>
      obtain rfl := childId_eq_error hid
      simp [perform, attempt, addChild, requireContainer, hcontainer, hid, bind, Except.bind]

end Store

/-- **Shared nodes and the frame of adding a child.** Take any store that a program can come to by
constructing nodes, parsing documents and adding children.

An action that fails leaves it as it is. An action that makes a node leaves all nodes as they are,
and a new container has the nodes as its children that were listed for it, in a cell of its own. No
child of a node is a document, or anything that is no node of the store, and nothing else is taken
as a further child of a container but refused with a type error.

If a child is added to a node `n` and no cycle comes about, then the child comes last among the
children of `n`, the children of all other nodes are as they were, and so is what every node holds
itself. All nodes `m` have trees, before and after. The tree of `m` grows by the size of the tree of
the child as many times as `n` occurs in the walk over `m`. If `n` cannot be reached from `m`, then
the tree of `m` is the same as before, and so are its rendering, its outline, the walk, and how `m`
compares with other such nodes. -/
theorem addChild_frame {s : Store} (hs : s.Reachable) :
    (∀ a failure s', s.perform a = (.error failure, s') → s' = s) ∧
    (∀ a id s', a.Held s → s.perform a = (.ok (some id), s') →
      s.cells.size ≤ id ∧ (∀ k < s.cells.size, s'.cell? k = s.cell? k) ∧
      ∀ children ∈ a.children?, children.listed = (s'.children id).map s.datum) ∧
    (∀ id, ∀ k ∈ s.children id, k < s.cells.size ∧ s.head k ≠ .document) ∧
    (∀ n child, s.Holds child → ((∃ s', s.perform (.addChild n child) = (.ok none, s')) ↔
      (s.head n).isContainer = true ∧ ∃ c, s.IsInner c ∧ child = s.datum c)) ∧
    (∀ n child, s.Holds child → (s.head n).isContainer = true →
      (∀ c, s.IsInner c → child ≠ s.datum c) → ∃ rejection,
        s.perform (.addChild n child) = (.error (.node rejection), s) ∧ rejection.refusal =
          ⟨.typeError, "Cannot add " ++ child.typeName ++ " as a child node"⟩) ∧
    ∀ n child s', n < s.cells.size → s.Holds child →
      s.perform (.addChild n child) = (.ok none, s') → s'.Acyclic →
      ∃ c, child = s.datum c ∧ s'.children n = s.children n ++ [c] ∧
        (∀ m, m ≠ n → s'.children m = s.children m) ∧
        s'.cells.size = s.cells.size ∧ (∀ m, s'.head m = s.head m) ∧
        ∀ m < s.cells.size, ∃ t t' u ids,
          s.tree? m = some t ∧ s'.tree? m = some t' ∧ s.tree? c = some u ∧
          s.Walks m ids ∧ List.Forall₂ (fun k v => s.tree? k = some v) ids t.walk ∧
          t'.count = t.count + u.count * ids.count n ∧
          (¬ s.Reaches m n → s'.tree? m = s.tree? m ∧ s'.Walks m ids ∧
            t'.render = t.render ∧ (∀ indent, t'.outline indent = t.outline indent) ∧
            ∀ k, ¬ s.Reaches k n →
              s'.equal? m k = s.equal? m k ∧ s'.differ? m k = s.differ? m k) := by
  have hwellFormed := hs.wellFormed
  refine ⟨fun a failure s' h => Store.perform_error h, fun a id s' hheld h => ?_,
    hwellFormed.child, fun n child hchild => Store.exists_perform_addChild_iff hchild,
    fun n child hchild hcontainer hwrong =>
      ⟨_, Store.perform_addChild_of_wrongKind hchild hcontainer hwrong, rfl⟩,
    fun n child s' hn hchild h hacyclic => ?_⟩
  · have hperforms := Store.performs_of_attempt (Store.attempt_of_perform h)
    exact hperforms.made hwellFormed hheld
  · obtain ⟨hcontainer, c, hdatum, hinner, rfl⟩ := Store.addChild_of_perform hchild h
    have hgrows : s.Grows n c := ⟨hwellFormed, hn, hcontainer, hinner, hacyclic⟩
    refine ⟨c, hdatum, Store.children_append_self hn c,
      fun m hm => Store.children_append_of_ne s hm c, Store.size_append s n c,
      Store.head_append s n c, fun m hm => ?_⟩
    obtain ⟨t, t', u, ids, ht, ht', hu, hwalks, hwalk, hcount, hunreached⟩ :=
      hgrows.exists_trees hm
    refine ⟨t, t', u, ids, ht, ht', hu, hwalks, hwalk, hcount, fun hreach => ?_⟩
    obtain ⟨htree, rfl, hwalks'⟩ := hunreached hreach
    exact ⟨htree, hwalks', rfl, fun _ => rfl, fun k hk =>
      Store.equal?_congr htree (Store.tree?_append_of_not_reaches c hk)⟩

/-- A document holds one empty loop twice. A text that is added to the loop shows twice in the
document. -/
theorem addChild_frame_twice :
    ∃ s s' t t', Store.Reachable s ∧ s.perform (.addChild 1 (s.datum 0)) = (.ok none, s') ∧
      s.tree? 2 = some t ∧ s'.tree? 2 = some t' ∧ t'.count = t.count + 2 := by
  let x : Datum := .element (.var default)
  let header : LoopHeader := ⟨default, .var default, .var default, none⟩
  let loop : Datum := .node 1 (.loop header)
  have hnone : Store.Holds (Store.empty.perform (.text (.text ['a']))).2 (.list []) :=
    Store.holds_list [] (by decide)
  have htwice : Store.Holds ((Store.empty.perform (.text (.text ['a']))).2.perform
      (.loop x x x .none (.list []))).2 (.list [loop, loop]) :=
    Store.holds_list [1, 1] (by decide)
  have hreachable : Store.Reachable
      ⟨#[⟨.text ['a'], []⟩, ⟨.loop header, []⟩, ⟨.document, [1, 1]⟩]⟩ :=
    .perform (.perform (.perform .empty (a := .text (.text ['a'])) (by simp [Action.Held,
      Action.children?])) (a := .loop x x x .none (.list [])) fun children hchildren =>
        Option.some_inj.mp hchildren ▸ hnone) (a := .document (.list [loop, loop]))
      fun children hchildren => Option.some_inj.mp hchildren ▸ htwice
  have hacyclic : Store.Acyclic
      ⟨#[⟨.text ['a'], []⟩, ⟨.loop header, [0]⟩, ⟨.document, [1, 1]⟩]⟩ :=
    Store.acyclic_of_lt (by decide)
  have hheld : Store.Holds ⟨#[⟨.text ['a'], []⟩, ⟨.loop header, []⟩, ⟨.document, [1, 1]⟩]⟩
      (.node 0 (.text ['a'])) := Store.holds_datum (by decide)
  -- the nodes of the walk are known, so the occurrences of the loop can be counted
  obtain ⟨-, -, -, -, -, hframe⟩ := addChild_frame hreachable
  obtain ⟨c, hdatum, -, -, -, -, htrees⟩ := hframe 1 _ _ (by decide) hheld rfl hacyclic
  obtain ⟨t, t', u, ids, ht, ht', hu, hwalks, -, hcount, -⟩ := htrees 2 (by decide)
  have hids : ids = [2, 1, 1] :=
    hwalks.unique (.visit rfl (.visit rfl (.visit rfl (.done rfl))))
  obtain rfl : c = 0 := by
    cases hdatum
    rfl
  obtain rfl : u = .node (.text ['a']) := (Option.some_inj.mp hu).symm
  refine ⟨_, _, t, t', hreachable, rfl, ht, ht', ?_⟩
  rw [hcount, hids]
  simp [Tree.count, Tree.walk, Tree.walkWithDepth, walkStack, Tree.below, Tree.children,
    Node.children]

end TagTemplate
