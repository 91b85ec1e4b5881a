import TagTemplate.Proofs.RoundTrip

set_option autoImplicit false

/-! # Which documents are read

Normal form and plain loops are recursive conditions on a document. Container by container they say
something about the list of its children alone (`Node.ChildrenIn`): a condition that passes from a
list of nodes to the children of its loops, and to nothing else, holds of a document exactly if what
it says of one list holds of the children of every container (`Node.forall_childrenIn_iff`). The
main result is `exists_parse_eq_ok_iff`: the documents that the parser can return are those in whose
containers no text is empty or stands directly behind a text, and under strict options no loop has a
function or an operator as a bound or a step. That there are no others is what is known of parsed
documents; and each of them is read back from its own text.
-/

namespace TagTemplate

namespace Node

/-! ## Containers of a document -/

/-- The lists of children in a document: its own, and those of its loops at every depth. -/
inductive ChildrenIn : List Node → List Node → Prop
  | document (children : List Node) : ChildrenIn children children
  | loop {document children below : List Node} {header : LoopHeader}
      (hmem : .loop header children ∈ document) (h : ChildrenIn children below) :
      ChildrenIn document below

/-- The children of a loop are smaller than a list that the loop stands in. -/
theorem sizeOf_children_lt {header : LoopHeader} {children ns : List Node}
    (h : .loop header children ∈ ns) : sizeOf children < sizeOf ns := by
  have hmem := List.sizeOf_lt_of_mem h
  have hloop : sizeOf (Node.loop header children) = 1 + sizeOf header + sizeOf children := by simp
  omega

/-- A condition that says something about a list of nodes and the same about the children of its
loops, says it about the children of every container. -/
theorem forall_childrenIn_iff {P Q : List Node → Prop}
    (h : ∀ ns, P ns ↔ Q ns ∧ ∀ header children, .loop header children ∈ ns → P children)
    (document : List Node) : P document ↔ ∀ children, ChildrenIn document children → Q children := by
  constructor
  · intro hP children hin
    induction hin with
    | document children => exact ((h children).mp hP).1
    | loop hmem _ ih => exact ih (((h _).mp hP).2 _ _ hmem)
  · intro hall
    refine (h document).mpr ⟨hall document (.document document), fun header children hmem => ?_⟩
    have hlt := sizeOf_children_lt hmem
    exact (forall_childrenIn_iff h children).mpr fun below hin => hall below (.loop hmem hin)
termination_by sizeOf document
decreasing_by exact hlt

/-! ## Normal form, container by container -/

theorem startsText_eq_false_iff {ns : List Node} :
    startsText ns = false ↔ ∀ n ∈ ns.head?, n.isText = false := by
  cases ns <;> simp [startsText]

/-- Nodes are in normal form if none is an empty text, no text stands directly behind a text, and
the children of every loop among them are in normal form. -/
theorem areNormal_iff_loops (ns : List Node) :
    AreNormal ns ↔
      ((∀ n ∈ ns, n ≠ .text []) ∧ ns.IsChain fun m n => m.isText = true → n.isText = false) ∧
        ∀ header children, .loop header children ∈ ns → AreNormal children := by
  induction ns with
  | nil => simp [AreNormal]
  | cons n ns ih =>
      have hn : n.IsNormal ↔ n ≠ .text [] ∧
          ∀ header children, .loop header children = n → AreNormal children := by
        cases n <;> simp [IsNormal]
      rw [AreNormal, ih, hn, List.isChain_cons, startsText_eq_false_iff]
      constructor
      · rintro ⟨⟨hne, hloop⟩, hparted, ⟨hnes, hchain⟩, hloops⟩
        refine ⟨⟨List.forall_mem_cons.mpr ⟨hne, hnes⟩, ?_, hchain⟩, ?_⟩
        · exact fun m hm htext => hparted htext m hm
        · intro header children hmem
          rcases List.mem_cons.mp hmem with heq | hmem
          · exact hloop header children heq
          · exact hloops header children hmem
      · rintro ⟨⟨hnes, hparted, hchain⟩, hloops⟩
        obtain ⟨hne, hnes⟩ := List.forall_mem_cons.mp hnes
        refine ⟨⟨hne, ?_⟩, fun htext m hm => hparted m hm htext, ⟨hnes, hchain⟩, ?_⟩
        · exact fun header children heq => hloops header children (by simp [heq])
        · exact fun header children hmem => hloops header children (List.mem_cons_of_mem _ hmem)

/-- Loops are plain if the bounds and the steps of those in a list are plain and the loops among
their children are plain. -/
theorem arePlain_iff_loops (ns : List Node) :
    ArePlain ns ↔
      (∀ header children, .loop header children ∈ ns → ∀ e ∈ header.bounds, e.isPlain = true) ∧
        ∀ header children, .loop header children ∈ ns → ArePlain children := by
  rw [arePlain_iff]
  constructor
  · intro h
    exact ⟨fun header children hmem => (h _ hmem).1, fun header children hmem => (h _ hmem).2⟩
  · rintro ⟨hbounds, hbelow⟩ n hn
    cases n with
    | loop header children => exact ⟨hbounds header children hn, hbelow header children hn⟩
    | _ => exact trivial

end Node

/-- **Which documents are read.** A document is what some text parses to exactly if in every one of
its containers no text is empty and no text stands directly behind a text, and under strict options
no loop has a function or an operator as a bound or a step. -/
theorem exists_parse_eq_ok_iff (options : Options) (document : List Node) :
    (∃ t, parse options t = .ok document) ↔
      ∀ children, Node.ChildrenIn document children →
        (∀ n ∈ children, n ≠ .text []) ∧
        (children.IsChain fun m n => m.isText = true → n.isText = false) ∧
        (options.strict = true → ∀ header below, .loop header below ∈ children →
          ∀ e ∈ header.bounds, e.isPlain = true) := by
  have hnormal := Node.forall_childrenIn_iff Node.areNormal_iff_loops document
  have hplain := Node.forall_childrenIn_iff Node.arePlain_iff_loops document
  constructor
  · rintro ⟨t, ht⟩ children hin
    obtain ⟨_, _, _, hstrict⟩ := flat_of_parse ht
    obtain ⟨hne, hchain⟩ := hnormal.mp (areNormal_of_parse ht) children hin
    exact ⟨hne, hchain, fun h => hplain.mp (hstrict h) children hin⟩
  · intro h
    refine ⟨Node.sources document, parse_sources (hnormal.mpr ?_) fun hstrict => hplain.mpr ?_⟩
    · exact fun children hin => ⟨(h children hin).1, (h children hin).2.1⟩
    · exact fun children hin => (h children hin).2.2 hstrict

end TagTemplate
