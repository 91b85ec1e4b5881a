import TagTemplate.Proofs.Store.Rendering
import TagTemplate.Proofs.Tree.Outline

set_option autoImplicit false

/-! # Outlines of shared nodes

The outline of a node is that of its tree, so its lines follow the walk of the node, in which a node
that is shared comes once for each of its occurrences. The main result is `outline_lines`.
-/

namespace TagTemplate

/-- **The lines of an outline.** Take any store that a program can come to, a node of it without
cycles below it, however its descendants are shared, and an indentation. The node has a tree, and a
walker over the node gives the nodes whose trees are visited, each with the depth at which it lies.

Cut at its line feeds, the outline comes apart into blocks of lines, one for each visit in the order
of the walk. The first line of a block begins with two spaces for each level of indentation and depth
and the name of the class of the node, and there is a further line for each line feed in a string
among the elements of the node. So there are as many lines as nodes, and as many more as such line
feeds; and the outline has one line for each node, which shows it, exactly if there are none. -/
theorem outline_lines {s : Store} (hs : s.Reachable) {id : ℕ} (hid : id < s.cells.size)
    (hacyclic : s.AcyclicFrom id) (indent : ℕ) :
    ∃ t, s.tree? id = some t ∧ s.Walks id (s.preorder id) ∧
      List.Forall₂ (fun k v => s.tree? k = some v.1) (s.preorder id) (t.visits 0) ∧
      t.walkWithDepth = t.visits 0 ∧
      (∃ blocks, (t.outline indent).splitOn '\n' = blocks.flatten ∧
        List.Forall₂ (BlockShowsVisit indent) (t.visits 0) blocks) ∧
      ((t.outline indent).splitOn '\n').length
        = t.count + ((t.visits 0).flatMap fun v => v.1.head.strings).flatten.count '\n' ∧
      (List.Forall₂ (ShowsVisit indent) (t.visits 0) ((t.outline indent).splitOn '\n') ↔
        ∀ v ∈ t.visits 0, ∀ value ∈ v.1.head.strings, '\n' ∉ value) := by
  have hwellFormed := hs.wellFormed
  obtain ⟨t, ht, -⟩ := Store.exists_tree hwellFormed hacyclic hid
  have hwalk := Store.walk_preorder hwellFormed hacyclic ht
  rw [Tree.walk, Tree.walkWithDepth_eq, List.forall₂_map_right_iff] at hwalk
  exact ⟨t, ht, Store.walks_preorder hwellFormed hacyclic hid, hwalk, t.walkWithDepth_eq,
    t.forall₂_blockShowsVisit indent, t.length_splitOn_outline indent,
    t.forall₂_showsVisit_iff indent⟩

/-- A document with one echo tag, whose string has a line feed: the outline has three lines for the
two nodes. -/
theorem outline_lines_brokenString :
    ∃ (s : Store) (t : Tree), s.Reachable ∧ s.tree? 1 = some t ∧ t.count = 2 ∧
      ((t.outline 1).splitOn '\n').length = 3 ∧
      ¬ List.Forall₂ (ShowsVisit 1) (t.visits 0) ((t.outline 1).splitOn '\n') := by
  let content : Head := .echo [.string ['a', '\n', 'b']]
  let s : Store := ⟨#[⟨content, []⟩, ⟨.document, [0]⟩]⟩
  let echo : Action := .echo (.list [.element (.string ['a', '\n', 'b'])])
  let document : Action := .document (.list [.node 0 content])
  have hecho : Store.Reachable ⟨#[⟨content, []⟩]⟩ :=
    .perform .empty (a := echo) (by simp [echo, Action.Held, Action.children?])
  have hdocument : document.Held ⟨#[⟨content, []⟩]⟩ := fun children hchildren =>
    Option.some_inj.mp hchildren ▸ Store.holds_list [0] (by decide)
  have hreachable : s.Reachable := .perform hecho hdocument
  have hacyclic : s.Acyclic := Store.acyclic_of_lt (by decide)
  obtain ⟨t, ht, -, -, -, -, hlength, hshows⟩ :=
    outline_lines hreachable (by decide : 1 < 2) (hacyclic.acyclicFrom 1) 1
  obtain rfl := Option.some_inj.mp ht
  have hcount : Tree.count (.document [.echo [.string ['a', '\n', 'b']]]) = 2 := by
    rw [Tree.count_eq]
    rfl
  refine ⟨s, _, hreachable, rfl, hcount, hlength.trans ?_, fun h => ?_⟩
  · exact congrArg (· + 1) hcount
  · exact hshows.mp h _ (List.mem_cons_of_mem _ (List.mem_cons_self ..)) _
      (List.mem_cons_self ..) (by decide)

end TagTemplate
