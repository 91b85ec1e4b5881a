import TagTemplate.Tree.Equality

set_option autoImplicit false

/-! # Rendering and equality by recursion on trees

Rendering and comparing work through stacks. Here are their recursive forms, `Node.source` and
`Node.same`, and what a stack comes to: the text of the pending items one after the other, and
whether the trees of every pair are the same.
-/

namespace TagTemplate

/-! ## Rendering -/

mutual
def Node.source : Node → Text
  | .text content => textSource content
  | .echo elements => echoSource elements
  | .loop header children => header.openingTag ++ Node.sources children ++ endTagText
def Node.sources : List Node → Text
  | [] => []
  | n :: rest => n.source ++ Node.sources rest
end

def Pending.source : Pending → Text
  | .node n => n.source
  | .endTag => endTagText

theorem sources_eq_flatMap (ns : List Node) :
    Node.sources ns = (ns.map Pending.node).flatMap Pending.source := by
  induction ns with
  | nil => rfl
  | cons n ns ih => rw [Node.sources, ih, List.map_cons, List.flatMap_cons]; rfl

theorem renderPending_eq (items : List Pending) :
    renderPending items = items.flatMap Pending.source := by
  fun_induction renderPending items with
  | case1 => rfl
  | case2 rest ih => rw [List.flatMap_cons, ih]; rfl
  | case3 content rest ih => rw [List.flatMap_cons, ih]; rfl
  | case4 elements rest ih => rw [List.flatMap_cons, ih]; rfl
  | case5 rest header children ih =>
      rw [ih, pendingBody, List.flatMap_append, ← sources_eq_flatMap, List.flatMap_cons,
        List.flatMap_cons]
      simp [Pending.source, Node.source]

/-- The top nodes of a tree: the children of a document, or the node that stands alone. -/
def Tree.nodes : Tree → List Node
  | .document children => children
  | .node n => [n]

/-- **The text of a tree is the text of its top nodes.** -/
theorem Tree.render_eq (t : Tree) : t.render = Node.sources t.nodes := by
  cases t with
  | document children => rw [render, renderPending_eq, nodes, sources_eq_flatMap]
  | node n => rw [render, renderPending_eq, nodes, sources_eq_flatMap]; rfl

/-- The text of a tree by recursion: the texts of the children of a document one after the other, or
the text of the node that stands alone. -/
def Tree.source : Tree → Text
  | .document children => Node.sources children
  | .node n => n.source

/-- **The text of a tree by recursion.** -/
theorem Tree.render_eq_source (t : Tree) : t.render = t.source := by
  rw [render_eq]
  cases t with
  | document children => rfl
  | node n => rw [nodes, Node.sources, Node.sources, List.append_nil]; rfl

/-! ## Equality -/

mutual
def Node.same : Node → Node → Bool
  | .loop header as, .loop header' bs =>
    (Head.loop header).sameValue (.loop header') && Node.sames as bs
  | a, b => a.head.sameValue b.head
def Node.sames : List Node → List Node → Bool
  | [], [] => true
  | a :: as, b :: bs => a.same b && Node.sames as bs
  | _, _ => false
end

def Tree.sameBelow : Tree → Tree → Bool
  | .document as, .document bs => Node.sames as bs
  | .node a, .node b => a.same b
  | _, _ => false

/-- Lists of nodes are the same if they have one length and the same nodes at the same places. -/
theorem sames_eq_zip (as bs : List Node) :
    Node.sames as bs =
      (as.length == bs.length && (as.zip bs).all fun pair => pair.1.same pair.2) := by
  induction as generalizing bs with
  | nil => cases bs <;> simp [Node.sames]
  | cons a as ih =>
      cases bs with
      | nil => simp [Node.sames]
      | cons b bs =>
          rw [Node.sames, ih]
          simp [Bool.and_left_comm]

/-- Whether the trees of a pair are the same, one level unfolded. -/
theorem sameBelow_eq (a b : Tree) :
    a.sameBelow b = ((a.head.sameValue b.head && a.children.length == b.children.length) &&
      (pairChildren a b).all fun pair => pair.1.sameBelow pair.2) := by
  have hpairs : ∀ as bs : List Node,
      (((as.zip bs).map fun pair => (Tree.node pair.1, Tree.node pair.2)).all fun pair =>
        pair.1.sameBelow pair.2) = (as.zip bs).all fun pair => pair.1.same pair.2 := by
    intro as bs
    rw [List.all_map]
    rfl
  rw [pairChildren, hpairs]
  cases a with
  | document as =>
      cases b with
      | document bs =>
          rw [Tree.sameBelow, sames_eq_zip]
          simp [Tree.head, Tree.children, Head.sameValue]
      | node b => cases b <;> rfl
  | node a =>
      cases b with
      | document bs => cases a <;> rfl
      | node b =>
          cases a with
          | loop header as =>
              cases b with
              | loop header' bs =>
                  rw [Tree.sameBelow, Node.same, sames_eq_zip, Bool.and_assoc]
                  rfl
              | _ => rfl
          | _ =>
              cases b <;> simp [Tree.sameBelow, Node.same, Tree.head, Tree.children, Node.children,
                Node.head, Head.sameValue]

theorem samePairs_eq (stack : List (Tree × Tree)) :
    samePairs stack = stack.all fun pair => pair.1.sameBelow pair.2 := by
  fun_induction samePairs stack with
  | case1 => rfl
  | case2 a b rest h ih =>
      rw [ih, List.all_append, List.all_reverse, List.all_cons, sameBelow_eq a b, h,
        Bool.true_and]
  | case3 a b rest h =>
      rw [List.all_cons, sameBelow_eq a b, Bool.eq_false_iff.mpr h]
      rfl

/-- **Trees are the same if they are so by recursion.** -/
theorem Tree.same_eq (a b : Tree) : a.same b = a.sameBelow b := by
  rw [same, samePairs_eq, List.all_cons, List.all_nil, Bool.and_true]

/-! ## Every tree is the same as itself -/

theorem Double.sameValue_refl (x : Double) : x.sameValue x = true := by
  simp [Double.sameValue]

theorem Element.sameValue_refl (e : Element) : e.sameValue e = true := by
  cases e <;> simp [Element.sameValue, Double.sameValue_refl]

theorem sameElements_refl (elements : List Element) : sameElements elements elements = true := by
  induction elements with
  | nil => rfl
  | cons e elements ih => rw [sameElements, e.sameValue_refl, ih]; rfl

theorem Head.sameValue_refl (head : Head) : head.sameValue head = true := by
  cases head <;> simp [Head.sameValue, sameElements_refl]

mutual
theorem Node.same_refl (n : Node) : n.same n = true := by
  cases n with
  | loop header children => rw [Node.same, Head.sameValue_refl, Node.sames_refl children]; rfl
  | text content => exact Head.sameValue_refl (.text content)
  | echo elements => exact Head.sameValue_refl (.echo elements)
theorem Node.sames_refl (ns : List Node) : Node.sames ns ns = true := by
  cases ns with
  | nil => rfl
  | cons n ns => rw [Node.sames, Node.same_refl n, Node.sames_refl ns]; rfl
end

theorem Tree.same_refl (t : Tree) : t.same t = true := by
  rw [same_eq]
  cases t with
  | document children => exact Node.sames_refl children
  | node n => exact n.same_refl

end TagTemplate
