import TagTemplate.Proofs.Store.Action
import TagTemplate.Proofs.Store.Unfolding
import TagTemplate.Proofs.Tree.Equality
import TagTemplate.Store.Equality

set_option autoImplicit false

/-! # Equality of shared nodes

Two nodes are alike if they hold the same and their children are alike place by place
(`Store.Alike`); which nodes they are says nothing about it. For nodes without cycles below them that
is what the comparison of their trees computes (`Store.alike_iff_same`). The loop that compares the
nodes themselves, with a stack of pairs of nodes (`Store.Compares`), works side by side with the one
that compares the trees (`Store.compares_samePairs`). The main result is `equality_structural`.
-/

namespace TagTemplate

namespace Store

variable {s : Store} {a b : ℕ}

/-! ## Nodes that are alike -/

/-- Two nodes hold the same and have as many children, alike place by place. -/
inductive Alike (s : Store) : ℕ → ℕ → Prop
  | intro {a b : ℕ} (head : (s.head a).Agrees (s.head b))
      (children : List.Forall₂ (Alike s) (s.children a) (s.children b)) : Alike s a b

theorem alike_iff : s.Alike a b ↔
    (s.head a).Agrees (s.head b) ∧ List.Forall₂ s.Alike (s.children a) (s.children b) := by
  constructor
  · rintro ⟨hhead, hchildren⟩
    exact ⟨hhead, hchildren⟩
  · rintro ⟨hhead, hchildren⟩
    exact ⟨hhead, hchildren⟩

/-- A relation holds place by place of two lists if another one does of what stands for their
items. -/
theorem forall₂_iff_of_forall₂ {α β : Type} {P Q : α → β → Prop} {R : α → α → Prop}
    {S : β → β → Prop} {as as' : List α} {bs bs' : List β} (h : List.Forall₂ P as bs)
    (h' : List.Forall₂ Q as' bs') (hiff : ∀ a b a' b', P a b → Q a' b' → (R a a' ↔ S b b')) :
    List.Forall₂ R as as' ↔ List.Forall₂ S bs bs' := by
  induction h generalizing as' bs' with
  | nil => cases h' <;> simp
  | cons hab _ ih =>
      cases h' with
      | nil => simp
      | cons hab' h' =>
          rw [List.forall₂_cons, List.forall₂_cons, hiff _ _ _ _ hab hab', ih h']

/-- **Nodes are alike exactly if their trees are equal.** -/
theorem alike_iff_same {a b : ℕ} {t u : Tree} (hs : s.WellFormed) (ha : s.AcyclicFrom a)
    (hb : s.AcyclicFrom b) (ht : s.tree? a = some t) (hu : s.tree? b = some u) :
    s.Alike a b ↔ t.same u = true := by
  obtain ⟨hhead, hchildren⟩ := tree?_parts hs ha ht
  obtain ⟨hhead', hchildren'⟩ := tree?_parts hs hb hu
  -- recursion on the rank: for the children the two are the same
  have hbelow : List.Forall₂ s.Alike (s.children a) (s.children b) ↔
      List.Forall₂ (fun n m => (Tree.node n).same (.node m) = true) t.children u.children := by
    refine forall₂_iff_of_forall₂ (forall₂_mem hchildren) (forall₂_mem hchildren') ?_
    rintro k n k' m ⟨hk, hn⟩ ⟨hk', hm⟩
    have := rank_lt ha hk
    exact alike_iff_same hs (ha.child hk) (hb.child hk') hn hm
  rw [alike_iff, Tree.same_iff, hhead, hhead', hbelow]
termination_by s.rank a

/-! ## The comparison of nodes -/

/-- The comparison of the nodes of every pair on a stack comes to a result: it stops at the first
pair whose heads are not the same or that have not as many children, and goes on with the pairs of
children otherwise, those of the last children first. -/
inductive Compares (s : Store) : List (ℕ × ℕ) → Bool → Prop
  | done : Compares s [] true
  | differ {a b : ℕ} {rest : List (ℕ × ℕ)}
      (h : ((s.head a).sameValue (s.head b) &&
        (s.children a).length == (s.children b).length) = false) :
      Compares s ((a, b) :: rest) false
  | next {a b : ℕ} {rest : List (ℕ × ℕ)} {result : Bool}
      (h : ((s.head a).sameValue (s.head b) &&
        (s.children a).length == (s.children b).length) = true)
      (hrest : Compares s (((s.children a).zip (s.children b)).reverse ++ rest) result) :
      Compares s ((a, b) :: rest) result

/-- A comparison has one result. -/
theorem Compares.unique {pairs : List (ℕ × ℕ)} {r r' : Bool} (h : s.Compares pairs r)
    (h' : s.Compares pairs r') : r = r' := by
  induction h with
  | done =>
      cases h'
      rfl
  | differ hdiffer =>
      cases h' with
      | differ _ => rfl
      | next hnext _ => simp [hdiffer] at hnext
  | next hnext _ ih =>
      cases h' with
      | differ hdiffer => simp [hdiffer] at hnext
      | next _ hrest => exact ih hrest

theorem forall₂_zip_zip {α β : Type} {P Q : α → β → Prop} {as as' : List α} {bs bs' : List β}
    (h : List.Forall₂ P as bs) (h' : List.Forall₂ Q as' bs') :
    List.Forall₂ (fun p q => P p.1 q.1 ∧ Q p.2 q.2) (as.zip as') (bs.zip bs') := by
  induction h generalizing as' bs' with
  | nil => exact .nil
  | cons hab _ ih =>
      cases h' with
      | nil => exact .nil
      | cons hab' h' => exact .cons ⟨hab, hab'⟩ (ih h')

/-- **The comparison of nodes** goes side by side with that of their trees. -/
theorem compares_samePairs (hs : s.WellFormed) (stack : List (Tree × Tree))
    {pairs : List (ℕ × ℕ)} (hacyclic : ∀ p ∈ pairs, s.AcyclicFrom p.1 ∧ s.AcyclicFrom p.2)
    (h : List.Forall₂ (fun p q => s.tree? p.1 = some q.1 ∧ s.tree? p.2 = some q.2) pairs stack) :
    s.Compares pairs (samePairs stack) := by
  fun_induction samePairs stack generalizing pairs with
  | case1 =>
      cases h
      exact .done
  | case2 t u rest hsame ih =>
      cases h with
      | @cons pair _ pairs' _ hpair hrest =>
          obtain ⟨a, b⟩ := pair
          obtain ⟨ha, hb⟩ := hacyclic (a, b) (by simp)
          obtain ⟨hhead, hchildren⟩ := tree?_parts hs ha hpair.1
          obtain ⟨hhead', hchildren'⟩ := tree?_parts hs hb hpair.2
          -- both stacks go on with the pairs of children, in the same order
          have hbelow : List.Forall₂ (fun p q => s.tree? p.1 = some q.1 ∧ s.tree? p.2 = some q.2)
              ((s.children a).zip (s.children b)).reverse (pairChildren t u).reverse := by
            rw [List.forall₂_reverse_iff, pairChildren, List.forall₂_map_right_iff]
            exact forall₂_zip_zip hchildren hchildren'
          have hnext : ∀ p ∈ ((s.children a).zip (s.children b)).reverse ++ pairs',
              s.AcyclicFrom p.1 ∧ s.AcyclicFrom p.2 := by
            intro p hp
            rcases List.mem_append.mp hp with hp | hp
            · obtain ⟨hfirst, hsecond⟩ := List.of_mem_zip (List.mem_reverse.mp hp)
              exact ⟨ha.child hfirst, hb.child hsecond⟩
            · exact hacyclic p (List.mem_cons_of_mem _ hp)
          refine .next ?_ (ih hnext (List.rel_append hbelow hrest))
          rw [← hhead, ← hhead', hchildren.length_eq, hchildren'.length_eq]
          exact hsame
  | case3 t u rest hdiffer =>
      cases h with
      | @cons pair _ pairs' _ hpair hrest =>
          obtain ⟨a, b⟩ := pair
          obtain ⟨ha, hb⟩ := hacyclic (a, b) (by simp)
          obtain ⟨hhead, hchildren⟩ := tree?_parts hs ha hpair.1
          obtain ⟨hhead', hchildren'⟩ := tree?_parts hs hb hpair.2
          refine .differ ?_
          rw [← hhead, ← hhead', hchildren.length_eq, hchildren'.length_eq]
          exact Bool.eq_false_iff.mpr hdiffer

end Store

/-! ## The answers of nodes -/

/-- A tree answers for a tree of its own class only, and one of another class is not equal to it. -/
theorem Tree.verdict?_cases (t u : Tree) :
    t.verdict? u = some (t.same u) ∨ t.verdict? u = none ∧ t.same u = false ∧ t ≠ u := by
  by_cases hclass : t.head.className = u.head.className
  · left
    rw [verdict?, answer?, hclass, if_pos (beq_self_eq_true _)]
    rfl
  · right
    have hanswers : ∀ v w : Tree, v.head.className ≠ w.head.className → v.answer? w = none :=
      fun v w hne => if_neg fun heq => hne (eq_of_beq heq)
    refine ⟨?_, ?_, fun heq => hclass (heq ▸ rfl)⟩
    · rw [verdict?, hanswers t u hclass, hanswers u t fun heq => hclass heq.symm]
      rfl
    · exact Bool.eq_false_iff.mpr fun hsame => hclass (same_iff.mp hsame).1.className_eq

namespace Store

variable {s : Store} {a b : ℕ} {t u : Tree}

theorem equal?_eq (ht : s.tree? a = some t) (hu : s.tree? b = some u) :
    s.equal? a b = some (t.same u) := by
  have hequal : s.equal? a b = some ((t.verdict? u).getD (a == b)) := by
    rw [equal?, ht, hu]
    rfl
  rw [hequal]
  rcases t.verdict?_cases u with hverdict | ⟨hverdict, hsame, hne⟩
  · rw [hverdict, Option.getD_some]
  · -- two nodes of different classes are not one and the same node
    have hids : a ≠ b := fun heq => hne (Option.some_inj.mp (ht.symm.trans (heq ▸ hu)))
    rw [hverdict, hsame, Option.getD_none, beq_false_of_ne hids]

/-- Two nodes are different exactly if they are not equal. -/
theorem differ?_eq_not (s : Store) (a b : ℕ) : s.differ? a b = (s.equal? a b).map not := by
  have hverdict : ∀ (verdict : Option Bool),
      (verdict.map not).getD (a != b) = !verdict.getD (a == b) := by
    intro verdict
    cases verdict <;> rfl
  unfold differ? equal?
  cases s.tree? a with
  | none => rfl
  | some t =>
      cases s.tree? b with
      | none => rfl
      | some u => exact congrArg some (hverdict (t.verdict? u))

/-- The comparison of two nodes has one result, whether their trees are equal. -/
theorem compares_iff (hs : s.WellFormed) (ha : s.AcyclicFrom a) (hb : s.AcyclicFrom b)
    (ht : s.tree? a = some t) (hu : s.tree? b = some u) (result : Bool) :
    s.Compares [(a, b)] result ↔ result = t.same u := by
  have hresult : s.Compares [(a, b)] (t.same u) :=
    compares_samePairs hs [(t, u)] (List.forall_mem_singleton.mpr ⟨ha, hb⟩) (.cons ⟨ht, hu⟩ .nil)
  constructor
  · intro h
    exact h.unique hresult
  · rintro rfl
    exact hresult

end Store

/-- **Equality of nodes is structural equality.** Take any store that a program can come to, and
nodes `a`, `b` and `c` of it without cycles below them, however their descendants are shared.

The nodes `a` and `b` have trees, and the answers to `a == b` and `a != b` are whether the trees are
equal and the opposite, so it makes no difference which nodes they are. The comparison through a
stack of pairs of nodes comes to that result and to no other. It is true exactly if the two nodes
are alike: they are of one class, hold the same (the text, the elements, or the variable, the start,
the stop and the step of the loop, where doubles are compared by their values), and have as many
children, alike place by place. Equal trees have as many nodes, and their heads agree in the order
of the walk.

A node is equal to itself, if `a` is equal to `b` then `b` is equal to `a`, and if moreover `b` is
equal to `c` then `a` is equal to `c`. -/
theorem equality_structural {s : Store} (hs : s.Reachable) {a b c : ℕ}
    (hnodes : ∀ id ∈ [a, b, c], id < s.cells.size ∧ s.AcyclicFrom id) :
    (∃ t u, s.tree? a = some t ∧ s.tree? b = some u ∧
      s.equal? a b = some (t.same u) ∧ s.differ? a b = some (!t.same u) ∧
      (∀ result, s.Compares [(a, b)] result ↔ result = t.same u) ∧
      (t.same u = true ↔ s.Alike a b) ∧
      (t.same u = true → t.count = u.count ∧
        List.Forall₂ (fun v w => v.head.Agrees w.head) t.walk u.walk)) ∧
    s.equal? a a = some true ∧
    s.equal? b a = s.equal? a b ∧
    (s.equal? a b = some true → s.equal? b c = some true → s.equal? a c = some true) := by
  have hwellFormed := hs.wellFormed
  obtain ⟨halt, ha⟩ := hnodes a (by simp)
  obtain ⟨hblt, hb⟩ := hnodes b (by simp)
  obtain ⟨hclt, hc⟩ := hnodes c (by simp)
  obtain ⟨t, ht, -⟩ := Store.exists_tree hwellFormed ha halt
  obtain ⟨u, hu, -⟩ := Store.exists_tree hwellFormed hb hblt
  obtain ⟨v, hv, -⟩ := Store.exists_tree hwellFormed hc hclt
  have hdiffer : s.differ? a b = some (!t.same u) := by
    rw [Store.differ?_eq_not, Store.equal?_eq ht hu]
    rfl
  refine ⟨⟨t, u, ht, hu, Store.equal?_eq ht hu, hdiffer,
    Store.compares_iff hwellFormed ha hb ht hu,
    (Store.alike_iff_same hwellFormed ha hb ht hu).symm,
    fun hsame => ⟨Tree.count_eq_of_same hsame, Tree.forall₂_head_of_same hsame⟩⟩, ?_, ?_, ?_⟩
  · rw [Store.equal?_eq ht ht, Tree.same_refl]
  · rw [Store.equal?_eq hu ht, Store.equal?_eq ht hu, Tree.same_comm]
  · rw [Store.equal?_eq ht hu, Store.equal?_eq hu hv, Store.equal?_eq ht hv]
    intro hfirst hsecond
    rw [Tree.same_trans (Option.some_inj.mp hfirst) (Option.some_inj.mp hsecond)]

/-- A document of an echo tag with zero and one with minus zero is equal to a document in which the
second echo tag occurs twice. -/
theorem equality_structural_zeros :
    ∃ s : Store, s.Reachable ∧ s.children 2 = [0, 1] ∧ s.children 3 = [1, 1] ∧
      s.equal? 2 3 = some true ∧ s.differ? 2 3 = some false ∧ s.Alike 2 3 := by
  let zero : Head := .echo [.double (.zero false)]
  let minusZero : Head := .echo [.double (.zero true)]
  let s : Store :=
    ⟨#[⟨zero, []⟩, ⟨minusZero, []⟩, ⟨.document, [0, 1]⟩, ⟨.document, [1, 1]⟩]⟩
  let both : Action := .document (.list [.node 0 zero, .node 1 minusZero])
  let twice : Action := .document (.list [.node 1 minusZero, .node 1 minusZero])
  have hechoes : Store.Reachable ⟨#[⟨zero, []⟩, ⟨minusZero, []⟩]⟩ :=
    .perform (.perform .empty (a := .echo (.list [.element (.double (.zero false))]))
      (by simp [Action.Held, Action.children?]))
      (a := .echo (.list [.element (.double (.zero true))]))
      (by simp [Action.Held, Action.children?])
  have hboth : both.Held ⟨#[⟨zero, []⟩, ⟨minusZero, []⟩]⟩ := fun children hchildren =>
    Option.some_inj.mp hchildren ▸ Store.holds_list [0, 1] (by decide)
  have htwice : twice.Held ⟨#[⟨zero, []⟩, ⟨minusZero, []⟩, ⟨.document, [0, 1]⟩]⟩ :=
    fun children hchildren => Option.some_inj.mp hchildren ▸ Store.holds_list [1, 1] (by decide)
  have hreachable : s.Reachable := .perform (.perform hechoes hboth) htwice
  have hacyclic : s.Acyclic := Store.acyclic_of_lt (by decide)
  have hnodes : ∀ id ∈ [2, 3, 2], id < s.cells.size ∧ s.AcyclicFrom id := fun id hid =>
    ⟨(by decide : ∀ id ∈ [2, 3, 2], id < 4) id hid, hacyclic.acyclicFrom id⟩
  obtain ⟨⟨t, u, ht, hu, hequal, hdiffer, -, halike, -⟩, -⟩ := equality_structural hreachable hnodes
  have hsame : t.same u = true := by
    rw [← Option.some_inj.mp ht, ← Option.some_inj.mp hu, Tree.same_eq]
    rfl
  rw [hsame] at hequal hdiffer
  exact ⟨s, hreachable, rfl, rfl, hequal, hdiffer, halike.mp hsame⟩

end TagTemplate
