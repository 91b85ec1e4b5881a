import TagTemplate.Proofs.Store.Action
import TagTemplate.Proofs.Store.Unfolding
import TagTemplate.Proofs.Tree.Recursion
import TagTemplate.Proofs.Tree.Walk

set_option autoImplicit false

/-! # Rendering and walking shared nodes

The loop that renders a node keeps the nodes still to be written on a stack, and between them the
end tags of the loops whose bodies are being written (`Store.Renders`). What it comes to is found
from the end of the stack: a node in front of a stack puts its text in front of the text of the
stack (`Store.Renders.cons_node`), and so the loop writes what is defined by recursion on the tree
of the node. The main result, `render_walk_recursive`, says the same of the walk and of the number
of the nodes.
-/

namespace TagTemplate

namespace Store

variable {s : Store}

/-! ## The stack of the rendering -/

/-- An item that is still to be written: a node, or the end tag of a loop. -/
inductive Item
  | node (id : ℕ)
  | endTag

/-- What is written of a node before its children. -/
def opening (s : Store) (id : ℕ) : Text :=
  match s.head id with
  | .text content => textSource content
  | .echo elements => echoSource elements
  | .loop header => header.openingTag
  | .document => []

/-- The stack once a node in front of it has been taken off and its opening has been written. -/
def opened (s : Store) (id : ℕ) (rest : List Item) : List Item :=
  match s.head id with
  | .loop _ => (s.children id).map .node ++ .endTag :: rest
  | .document => (s.children id).map .node ++ rest
  | _ => rest

/-- The items on a stack, the one in front first, are written as a text. -/
inductive Renders (s : Store) : List Item → Text → Prop
  | done : Renders s [] []
  | endTag {rest : List Item} {text : Text} (h : Renders s rest text) :
      Renders s (.endTag :: rest) (endTagText ++ text)
  | node {id : ℕ} {rest : List Item} {text : Text} (h : Renders s (s.opened id rest) text) :
      Renders s (.node id :: rest) (s.opening id ++ text)

/-- A stack is written as one text only. -/
theorem Renders.unique {items : List Item} {text text' : Text} (h : s.Renders items text)
    (h' : s.Renders items text') : text = text' := by
  induction h generalizing text' with
  | done =>
      cases h'
      rfl
  | endTag _ ih =>
      cases h' with
      | endTag h' => rw [ih h']
  | node _ ih =>
      cases h' with
      | node h' => rw [ih h']

/-- Nodes in front of a stack put their texts in front of its text if each of them does. -/
theorem Renders.append_nodes {ks : List ℕ} {cs : List Node}
    (hnodes : List.Forall₂ (fun k c => ∀ rest text, s.Renders rest text →
      s.Renders (.node k :: rest) (c.source ++ text)) ks cs)
    {rest : List Item} {text : Text} (h : s.Renders rest text) :
    s.Renders (ks.map .node ++ rest) (Node.sources cs ++ text) := by
  induction hnodes with
  | nil => exact h
  | cons hnode _ ih =>
      rw [List.map_cons, List.cons_append, Node.sources, List.append_assoc]
      exact hnode _ _ ih

/-- **A node in front of a stack** puts its text in front of the text of the stack. -/
theorem Renders.cons_node {id : ℕ} {t : Tree} (hs : s.WellFormed) (hacyclic : s.AcyclicFrom id)
    (ht : s.tree? id = some t) (rest : List Item) (text : Text) (h : s.Renders rest text) :
    s.Renders (.node id :: rest) (t.source ++ text) := by
  obtain ⟨hhead, hchildren⟩ := tree?_parts hs hacyclic ht
  -- recursion on the rank: the children do so
  have hnodes : List.Forall₂ (fun k c => ∀ rest text, s.Renders rest text →
      s.Renders (.node k :: rest) (c.source ++ text)) (s.children id) t.children := by
    refine (forall₂_mem hchildren).imp fun k c hkc => ?_
    have := rank_lt hacyclic hkc.1
    exact Renders.cons_node hs (hacyclic.child hkc.1) hkc.2
  -- what is opened comes before the text of the stack that is left
  have hopened : ∀ {text' : Text}, s.Renders (s.opened id rest) text' →
      t.source ++ text = s.opening id ++ text' → s.Renders (.node id :: rest) (t.source ++ text) := by
    intro text' h' heq
    rw [heq]
    exact .node h'
  unfold opened opening at hopened
  rw [← hhead] at hopened
  cases t with
  | document children => exact hopened (.append_nodes hnodes h) rfl
  | node n =>
      cases n with
      | text content => exact hopened h rfl
      | echo elements => exact hopened h rfl
      | loop header children =>
          refine hopened (.append_nodes hnodes (.endTag h)) ?_
          show header.openingTag ++ Node.sources children ++ endTagText ++ text = _
          rw [List.append_assoc, List.append_assoc]
          rfl
termination_by s.rank id

/-- The rendering of a node writes one text, that of its tree. -/
theorem renders_iff {id : ℕ} {t : Tree} (hs : s.WellFormed) (hacyclic : s.AcyclicFrom id)
    (ht : s.tree? id = some t) (text : Text) : s.Renders [.node id] text ↔ text = t.source := by
  have hsource : s.Renders [.node id] t.source := by
    have h := Renders.cons_node hs hacyclic ht [] [] .done
    rwa [List.append_nil] at h
  constructor
  · intro h
    exact h.unique hsource
  · rintro rfl
    exact hsource

end Store

/-- **Rendering and walking by recursion.** Take any store that a program can come to, and a node of
it without cycles below it, however its descendants are shared. It has a tree, which holds what the
node holds and has the trees of its children below it.

The loop over a stack of nodes and end tags writes one text, the same as the loop over the tree. It
is the one defined by recursion: the text with its escapes, the echo tag, the opening tag of a loop
with the texts of the children and the end tag behind it, the texts of the children of a document.

The walk of the tree is the one defined by recursion: the tree, and then the walks of the children
in order, one level deeper. A walker over the node gives the node and then the preorders of its
children in order, and no other list; a node that is shared comes once for each of its occurrences,
and these are the nodes whose trees are walked.

The number of nodes is one and the sum over the children. -/
theorem render_walk_recursive {s : Store} (hs : s.Reachable) {id : ℕ} (hid : id < s.cells.size)
    (hacyclic : s.AcyclicFrom id) :
    ∃ t, s.tree? id = some t ∧ t.head = s.head id ∧
      List.Forall₂ (fun k c => s.tree? k = some (.node c)) (s.children id) t.children ∧
      (∀ text, s.Renders [.node id] text ↔ text = t.source) ∧ t.render = t.source ∧
      t.walkWithDepth = t.visits 0 ∧
      s.preorder id = id :: (s.children id).flatMap s.preorder ∧
      (∀ ids, s.Walks id ids ↔ ids = s.preorder id) ∧
      List.Forall₂ (fun k v => s.tree? k = some v.1) (s.preorder id) (t.visits 0) ∧
      t.count = t.size ∧ t.size = 1 + Node.sizes t.children := by
  have hwellFormed := hs.wellFormed
  obtain ⟨t, ht, hhead, hchildren⟩ := Store.exists_tree hwellFormed hacyclic hid
  have hwalks := Store.walks_preorder hwellFormed hacyclic hid
  have hpreorder : List.Forall₂ (fun k v => s.tree? k = some v.1) (s.preorder id) (t.visits 0) := by
    have hwalk := Store.walk_preorder hwellFormed hacyclic ht
    rw [Tree.walk, Tree.walkWithDepth_eq] at hwalk
    rwa [List.forall₂_map_right_iff] at hwalk
  refine ⟨t, ht, hhead, hchildren, Store.renders_iff hwellFormed hacyclic ht, t.render_eq_source,
    t.walkWithDepth_eq, Store.preorder_eq hwellFormed hacyclic hid, fun ids => ?_, hpreorder,
    t.count_eq, t.size_eq⟩
  constructor
  · intro h
    exact Walker.Gives.unique h hwalks
  · rintro rfl
    exact hwalks

/-- A document holds a loop, a text and the loop once more, and the loop holds the text twice. There
are three nodes, and eight of them are walked. -/
theorem render_walk_recursive_shared :
    ∃ (s : Store) (t : Tree) (header : LoopHeader), s.Reachable ∧ s.cells.size = 3 ∧
      s.tree? 2 = some t ∧ t.count = 8 ∧ s.Walks 2 [2, 1, 0, 0, 0, 1, 0, 0] ∧
      t.render = header.openingTag ++ ['a', 'a'] ++ endTagText ++ ['a'] ++
        (header.openingTag ++ ['a', 'a'] ++ endTagText) := by
  let x : Datum := .element (.var default)
  let header : LoopHeader := ⟨default, .var default, .var default, none⟩
  let content : Head := .text ['a']
  let s : Store := ⟨#[⟨content, []⟩, ⟨.loop header, [0, 0]⟩, ⟨.document, [1, 0, 1]⟩]⟩
  let loop : Action := .loop x x x .none (.list [.node 0 content, .node 0 content])
  let document : Action :=
    .document (.list [.node 1 (.loop header), .node 0 content, .node 1 (.loop header)])
  have htext : Store.Reachable ⟨#[⟨content, []⟩]⟩ :=
    .perform .empty (a := .text (.text ['a'])) (by simp [Action.Held, Action.children?])
  have hloop : loop.Held ⟨#[⟨content, []⟩]⟩ := fun children hchildren =>
    Option.some_inj.mp hchildren ▸ Store.holds_list [0, 0] (by decide)
  have hdocument : document.Held ⟨#[⟨content, []⟩, ⟨.loop header, [0, 0]⟩]⟩ :=
    fun children hchildren => Option.some_inj.mp hchildren ▸ Store.holds_list [1, 0, 1] (by decide)
  have hreachable : s.Reachable := .perform (.perform htext hloop) hdocument
  have hacyclic : s.Acyclic := Store.acyclic_of_lt (by decide)
  obtain ⟨t, ht, -, -, -, hrender, -, -, hwalks, -, hcount, -⟩ :=
    render_walk_recursive hreachable (by decide : 2 < 3) (hacyclic.acyclicFrom 2)
  obtain rfl := Option.some_inj.mp ht
  exact ⟨s, _, header, hreachable, rfl, rfl, hcount, (hwalks _).mpr rfl, hrender⟩

end TagTemplate
