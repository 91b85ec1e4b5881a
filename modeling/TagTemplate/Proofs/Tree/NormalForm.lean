import TagTemplate.Proofs.Tree.Recursion

set_option autoImplicit false

/-! # The normal form of a tree

Text that is written next to text is read back as one, and empty text is not read back at all. A
tree is in normal form if no container has an empty text or two texts in a row
(`Node.AreNormal`). Joining the runs of texts (`joinTexts`) brings every tree into normal form,
keeps its text, and leaves a tree alone that is in normal form already.
-/

namespace TagTemplate

/-! ## Normal form -/

def Node.isText : Node → Bool
  | .text _ => true
  | _ => false

def startsText : List Node → Bool
  | [] => false
  | n :: _ => n.isText

mutual
/-- A node is in normal form if it is no empty text and its children are in normal form. -/
def Node.IsNormal : Node → Prop
  | .text content => content ≠ []
  | .echo _ => True
  | .loop _ children => Node.AreNormal children
/-- The nodes of a container are in normal form if each of them is and no text stands directly
before a text. -/
def Node.AreNormal : List Node → Prop
  | [] => True
  | n :: rest => n.IsNormal ∧ (n.isText = true → startsText rest = false) ∧ Node.AreNormal rest
end

/-! ## Joining texts -/

/-- A node in front of others; a text is joined with a text behind it, or left out if it is
empty. -/
def joinFront : Node → List Node → List Node
  | .text content, .text next :: rest => .text (content ++ next) :: rest
  | .text [], rest => rest
  | n, rest => n :: rest

mutual
def Node.joined : Node → Node
  | .loop header children => .loop header (joinTexts children)
  | n => n
/-- Several nodes with every run of texts, in every container, joined to one text, which is left
out if it is empty. -/
def joinTexts : List Node → List Node
  | [] => []
  | n :: rest => joinFront n.joined (joinTexts rest)
end

theorem joinFront_text {content : Text} {rest : List Node} (h : startsText rest = false) :
    joinFront (.text content) rest = if content = [] then rest else .text content :: rest := by
  cases rest with
  | nil => cases content <;> rfl
  | cons n rest =>
      cases n with
      | text next => simp [startsText, Node.isText] at h
      | _ => cases content <;> rfl

theorem isText_joined (n : Node) : n.joined.isText = n.isText := by
  cases n <;> rfl

/-! ## Joined trees are in normal form -/

theorem areNormal_joinFront {n : Node} {rest : List Node}
    (hn : n.isText = false → n.IsNormal) (hrest : Node.AreNormal rest) :
    Node.AreNormal (joinFront n rest) := by
  cases n with
  | text content =>
      by_cases hstarts : startsText rest = true
      · -- the two texts become one, which is not empty because the second is not
        cases rest with
        | nil => simp [startsText] at hstarts
        | cons m rest =>
            cases m with
            | text next =>
                obtain ⟨hnext, hparted, hlater⟩ := hrest
                rw [joinFront]
                refine ⟨?_, fun _ => hparted rfl, hlater⟩
                have hne : next ≠ [] := hnext
                simp [Node.IsNormal, hne]
            | _ => simp [startsText, Node.isText] at hstarts
      · have hfalse : startsText rest = false := Bool.eq_false_iff.mpr hstarts
        rw [joinFront_text hfalse]
        by_cases hempty : content = []
        · rw [if_pos hempty]
          exact hrest
        · rw [if_neg hempty]
          exact ⟨hempty, fun _ => hfalse, hrest⟩
  | echo elements => exact ⟨trivial, by simp [Node.isText], hrest⟩
  | loop header children => exact ⟨hn rfl, by simp [Node.isText], hrest⟩

mutual
theorem isNormal_joined (n : Node) (h : n.isText = false) : n.joined.IsNormal := by
  cases n with
  | text content => simp [Node.isText] at h
  | echo elements => exact trivial
  | loop header children => exact areNormal_joinTexts children
/-- **Joined texts are in normal form.** -/
theorem areNormal_joinTexts (ns : List Node) : Node.AreNormal (joinTexts ns) := by
  cases ns with
  | nil => exact trivial
  | cons n ns =>
      rw [joinTexts]
      refine areNormal_joinFront (fun h => ?_) (areNormal_joinTexts ns)
      rw [isText_joined] at h
      exact isNormal_joined n h
end

theorem joinFront_of_isNormal {n : Node} {rest : List Node} (hn : n.IsNormal)
    (hparted : n.isText = true → startsText rest = false) : joinFront n rest = n :: rest := by
  cases n with
  | text content =>
      have hne : content ≠ [] := hn
      rw [joinFront_text (hparted rfl), if_neg hne]
  | _ => rfl

mutual
theorem joined_of_isNormal (n : Node) (h : n.IsNormal) : n.joined = n := by
  cases n with
  | loop header children => rw [Node.joined, joinTexts_of_areNormal children h]
  | _ => rfl
/-- **Nodes in normal form have no texts to be joined.** -/
theorem joinTexts_of_areNormal (ns : List Node) (h : Node.AreNormal ns) : joinTexts ns = ns := by
  cases ns with
  | nil => rfl
  | cons n ns =>
      obtain ⟨hn, hparted, hns⟩ := h
      rw [joinTexts, joined_of_isNormal n hn, joinTexts_of_areNormal ns hns,
        joinFront_of_isNormal hn hparted]
end

/-! ## Joining texts keeps the text of a tree -/

theorem textSource_append (a b : Text) : textSource (a ++ b) = textSource a ++ textSource b :=
  List.flatMap_append

theorem sources_joinFront (n : Node) (rest : List Node) :
    Node.sources (joinFront n rest) = n.source ++ Node.sources rest := by
  unfold joinFront
  split
  · next content next rest =>
    rw [Node.sources, Node.sources, Node.source, Node.source, Node.source, textSource_append,
      List.append_assoc]
  · rfl
  · rfl

mutual
theorem source_joined (n : Node) : n.joined.source = n.source := by
  cases n with
  | loop header children => rw [Node.joined, Node.source, Node.source, sources_joinTexts children]
  | _ => rfl
/-- **Joining texts keeps the text.** -/
theorem sources_joinTexts (ns : List Node) : Node.sources (joinTexts ns) = Node.sources ns := by
  cases ns with
  | nil => rfl
  | cons n ns =>
      rw [joinTexts, sources_joinFront, source_joined n, sources_joinTexts ns, Node.sources]
end

/-! ## Equality and normal form -/

theorem isText_of_same {a b : Node} (h : a.same b = true) : a.isText = b.isText := by
  cases a <;> cases b <;> simp_all [Node.same, Node.head, Head.sameValue, Node.isText]

theorem startsText_of_sames {as bs : List Node} (h : Node.sames as bs = true) :
    startsText as = startsText bs := by
  cases as with
  | nil =>
      cases bs with
      | nil => rfl
      | cons b bs => simp [Node.sames] at h
  | cons a as =>
      cases bs with
      | nil => simp [Node.sames] at h
      | cons b bs =>
          rw [Node.sames, Bool.and_eq_true] at h
          exact isText_of_same h.1

mutual
theorem isNormal_of_same (a b : Node) (h : a.same b = true) (ha : a.IsNormal) : b.IsNormal := by
  cases a with
  | text content =>
      cases b with
      | text content' =>
          have heq : content = content' := by
            simpa [Node.same, Node.head, Head.sameValue] using h
          rw [← heq]
          exact ha
      | echo elements => exact trivial
      | loop header children => simp [Node.same, Node.head, Head.sameValue] at h
  | echo elements =>
      cases b with
      | echo elements' => exact trivial
      | _ => simp [Node.same, Node.head, Head.sameValue] at h
  | loop header as =>
      cases b with
      | loop header' bs =>
          rw [Node.same, Bool.and_eq_true] at h
          exact areNormal_of_sames as bs h.2 ha
      | _ => simp [Node.same, Node.head, Head.sameValue] at h
/-- Nodes that are the same as nodes in normal form are in normal form. -/
theorem areNormal_of_sames (as bs : List Node) (h : Node.sames as bs = true)
    (has : Node.AreNormal as) : Node.AreNormal bs := by
  cases as with
  | nil =>
      cases bs with
      | nil => exact trivial
      | cons b bs => simp [Node.sames] at h
  | cons a as =>
      cases bs with
      | nil => simp [Node.sames] at h
      | cons b bs =>
          rw [Node.sames, Bool.and_eq_true] at h
          obtain ⟨ha, hparted, hlater⟩ := has
          refine ⟨isNormal_of_same a b h.1 ha, fun hb => ?_, areNormal_of_sames as bs h.2 hlater⟩
          rw [← startsText_of_sames h.2]
          exact hparted (by rw [isText_of_same h.1]; exact hb)
end

end TagTemplate
