import TagTemplate.Proofs.Parser.Grammar
import TagTemplate.Proofs.Lexer.Order
import TagTemplate.Proofs.Tree.NormalForm

set_option autoImplicit false

/-! # The parser builds trees in normal form

The texts among the tokens of a template are not empty, and no two of them follow one another
(`Scans.parted`). A tree has the texts of its tokens, so a tree that is built from such tokens is in
normal form (`areNormal_of_parse`).
-/

namespace TagTemplate

/-! ## From the tokens to the tree -/

theorem isText_capitals (p : Payload) : p.capitals.isText = p.isText := by
  cases p <;> rfl

theorem capitals_ne_text {p : Payload} {content : Text} (h : p ≠ .text content) :
    p.capitals ≠ .text content := by
  cases p with
  | identifier name => simp [Payload.capitals]
  | _ => exact h

/-- Names in capitals are no texts either. -/
theorem PartedTexts.capitalNames {ps : List Payload} (h : PartedTexts ps) (opened : Bool) :
    PartedTexts (capitalNames opened ps) := by
  induction ps generalizing opened with
  | nil => exact h
  | cons p ps ih =>
      obtain ⟨hhead, hchain⟩ := List.isChain_cons.mp h.chain
      have hps : PartedTexts ps := ⟨fun q hq => h.nonempty q (by simp [hq]), hchain⟩
      have hlater := ih hps (p == .tagStart)
      have hp : p ≠ .text [] := h.nonempty p (by simp)
      have hempty : (if opened then p.capitals else p) ≠ .text [] := by
        cases opened
        · exact hp
        · exact capitals_ne_text hp
      have htext : (if opened then p.capitals else p).isText = p.isText := by
        cases opened
        · rfl
        · exact isText_capitals p
      refine ⟨fun q hq => ?_, List.isChain_cons.mpr ⟨fun q hq hptext => ?_, hlater.chain⟩⟩
      · rcases List.mem_cons.mp hq with rfl | hq
        · exact hempty
        · exact hlater.nonempty q hq
      · rw [htext] at hptext
        cases ps with
        | nil => simp [TagTemplate.capitalNames] at hq
        | cons r ps =>
            have hr : r.isText = false := hhead r (by simp) hptext
            obtain rfl := Option.some.inj hq
            split
            · rw [isText_capitals, hr]
            · exact hr

mutual
theorem isNormal_of_flat (n : Node) (h : PartedTexts n.flat) : n.IsNormal := by
  cases n with
  | text content =>
      intro hempty
      exact h.nonempty (.text content) (by simp [Node.flat]) (by rw [hempty])
  | echo elements => exact trivial
  | loop header children => exact areNormal_of_flats children h.append.1.append.2
/-- **A tree whose tokens part its texts is in normal form.** -/
theorem areNormal_of_flats (ns : List Node) (h : PartedTexts (Node.flats ns)) :
    Node.AreNormal ns := by
  cases ns with
  | nil => exact trivial
  | cons n ns =>
      refine ⟨isNormal_of_flat n h.append.1, fun htext => ?_, areNormal_of_flats ns h.append.2⟩
      cases n with
      | text content =>
          -- the first payload of what follows is a text only if the first node is
          obtain ⟨hhead, -⟩ := List.isChain_cons.mp h.chain
          cases ns with
          | nil => rfl
          | cons m ns =>
              cases m with
              | text next =>
                  have hnext : (Payload.text next).isText = false := hhead _ rfl rfl
                  simp [Payload.isText] at hnext
              | _ => rfl
      | _ => simp [Node.isText] at htext
end

/-- **A parsed document is in normal form.** -/
theorem areNormal_of_parse {options : Options} {t : Text} {document : List Node}
    (h : parse options t = .ok document) : Node.AreNormal document := by
  obtain ⟨tokens, htokens, hflat, -⟩ := flat_of_parse h
  have hscans : Scans .text t (tokens.map Token.payload) :=
    exists_tokenize_iff.mp ⟨tokens, htokens, rfl⟩
  have hparted := hscans.parted.capitalNames false
  rw [hflat] at hparted
  exact areNormal_of_flats document hparted.append.1

end TagTemplate
