import TagTemplate.Proofs.Parser.NormalForm

set_option autoImplicit false

/-! # Writing and reading back

What a tree in normal form is written as is scanned as the tokens of the tree (`scans_nodes`), and
so parsed as the tree itself (`parse_sources`). Every other tree is written like its normal form,
and that is what is read back of it. A parsed document is in normal form, so it is read back as it
is under the options that it was read with.
-/

namespace TagTemplate

/-! ## Scanning a tag -/

theorem scans_of_readTag {t rest : Text} {passed : Text} {p : Payload} {ps : List Payload}
    (hread : readTag t = ⟨passed, rest, .ok p⟩) (hp : p ≠ .endOfInput)
    (hrest : Scans (modeAfter .tag p) rest ps) : Scans .tag t (p :: ps) := by
  have hnone : ∀ c ∈ ([] : Text), isBlank c = true := by simp
  have hscan : scan .tag t = ⟨readTag t, []⟩ :=
    scan_tag_of_readTag hnone (by rw [hread])
  refine .token ?_ hp ?_
  · rw [hscan, hread]
  · rw [hscan, hread]
    exact hrest

/-- A space in front of a token is skipped. -/
theorem scans_space {t : Text} {ps : List Payload} (h : Scans .tag t ps) :
    Scans .tag (' ' :: t) ps := by
  have hscan : (scan .tag (' ' :: t)).toReading = (scan .tag t).toReading := rfl
  cases h with
  | finished hend => exact .finished (by rw [hscan]; exact hend)
  | token htoken hp hrest =>
      exact .token (by rw [hscan]; exact htoken) hp (by rw [hscan]; exact hrest)

theorem scans_literal (e : Element) {rest : Text} {ps : List Payload} (hclosed : ClosesToken rest)
    (hrest : Scans .tag rest ps) : Scans .tag (e.literal ++ rest) (e.token :: ps) := by
  refine scans_of_readTag (readTag_literal e hclosed) ?_ ?_
  · cases e <;> simp [Element.token]
  · cases e <;> exact hrest

theorem scans_tagEnd {rest : Text} {ps : List Payload} (hrest : Scans .text rest ps) :
    Scans .tag (tagEndText ++ rest) (.tagEnd :: ps) :=
  scans_of_readTag rfl (by simp) hrest

theorem scans_tagStart {rest : Text} {ps : List Payload} (hrest : Scans .tag rest ps) :
    Scans .text (tagStartText ++ rest) (.tagStart :: ps) :=
  .token rfl (by simp) hrest

/-- The elements of a tag as they are written, each behind a space, and the end of the tag. -/
def tagTail (elements : List Element) : Text :=
  elements.flatMap (fun e => ' ' :: e.literal) ++ ' ' :: tagEndText

theorem unwords_tagTail (front : Text) (elements : List Element) :
    Text.unwords (front :: elements.map Element.literal ++ [tagEndText])
      = front ++ tagTail elements := by
  induction elements generalizing front with
  | nil => simp [Text.unwords, Text.join, tagTail]
  | cons e elements ih =>
      have h := ih e.literal
      unfold Text.unwords at h ⊢
      rw [List.map_cons, List.cons_append, List.cons_append, Text.join]
      · rw [← List.cons_append, h]
        simp [tagTail]
      · simp

theorem closesToken_tagTail (elements : List Element) (rest : Text) :
    ClosesToken (tagTail elements ++ rest) := by
  cases elements with
  | nil => exact .blank ' ' _ rfl
  | cons e elements => exact .blank ' ' _ rfl

theorem scans_tagTail (elements : List Element) {rest : Text} {ps : List Payload}
    (hrest : Scans .text rest ps) :
    Scans .tag (tagTail elements ++ rest) (elements.map Element.token ++ .tagEnd :: ps) := by
  induction elements with
  | nil => exact scans_space (scans_tagEnd hrest)
  | cons e elements ih =>
      have htail : tagTail (e :: elements) = ' ' :: (e.literal ++ tagTail elements) := by
        simp [tagTail]
      rw [htail, List.cons_append, List.append_assoc]
      exact scans_space (scans_literal e (closesToken_tagTail elements rest) ih)

/-! ## Scanning a tree -/

theorem scans_echo (elements : List Element) {rest : Text} {ps : List Payload}
    (hrest : Scans .text rest ps) :
    Scans .text (echoSource elements ++ rest) (tagPayloads .echo elements ++ ps) := by
  have hsource : echoSource elements ++ rest
      = tagStartText ++ ('=' :: (tagTail elements ++ rest)) := by
    have hwords := unwords_tagTail ['\x7b', '$', '='] elements
    rw [echoSource, ← tagEndText, hwords]
    rfl
  have hpayloads : tagPayloads .echo elements ++ ps
      = .tagStart :: .identifier ['='] :: (elements.map Element.token ++ .tagEnd :: ps) := by
    simp [tagPayloads, tagFront, TagName.text]
  rw [hsource, hpayloads]
  refine scans_tagStart (scans_of_readTag rfl (by simp) ?_)
  exact scans_tagTail elements hrest

theorem scans_openingTag (header : LoopHeader) {rest : Text} {ps : List Payload}
    (hrest : Scans .text rest ps) :
    Scans .text (header.openingTag ++ rest) (tagPayloads .loop header.expressions ++ ps) := by
  have hsource : header.openingTag ++ rest = tagStartText ++
      (' ' :: ((Element.var ⟨['F', 'O', 'R'], by decide⟩).literal ++
        (tagTail header.expressions ++ rest))) := by
    have hwords := unwords_tagTail ['\x7b', '$', ' ', 'F', 'O', 'R'] header.expressions
    rw [LoopHeader.openingTag, ← tagEndText, hwords]
    rfl
  have hpayloads : tagPayloads .loop header.expressions ++ ps
      = .tagStart :: (Element.var ⟨['F', 'O', 'R'], by decide⟩).token ::
        (header.expressions.map Element.token ++ .tagEnd :: ps) := by
    simp [tagPayloads, tagFront, TagName.text, Element.token]
  rw [hsource, hpayloads]
  refine scans_tagStart (scans_space (scans_literal _ (closesToken_tagTail _ _) ?_))
  exact scans_tagTail header.expressions hrest

theorem scans_endTag {rest : Text} {ps : List Payload} (hrest : Scans .text rest ps) :
    Scans .text (endTagText ++ rest) (tagPayloads .ending [] ++ ps) := by
  have hsource : endTagText ++ rest = tagStartText ++
      ((Element.var ⟨['E', 'N', 'D'], by decide⟩).literal ++ (tagEndText ++ rest)) := rfl
  rw [hsource]
  exact scans_tagStart (scans_literal _ (.tagEnd rest) (scans_tagEnd hrest))

theorem scans_text {content rest : Text} {ps : List Payload} (hne : content ≠ [])
    (hstarts : StartsTag rest) (hrest : Scans .text rest ps) :
    Scans .text (textSource content ++ rest) (.text content :: ps) := by
  have hread := readText_textSource hne hstarts
  refine .token ?_ (by simp) ?_
  · rw [scan, hread]
  · rw [scan, hread]
    exact hrest

/-- Nodes that begin with no text are written with a tag in front. -/
theorem startsTag_sources {ns : List Node} {rest : Text} (hns : startsText ns = false)
    (hrest : StartsTag rest) : StartsTag (Node.sources ns ++ rest) := by
  cases ns with
  | nil => exact hrest
  | cons n ns =>
      cases n with
      | text content => simp [startsText, Node.isText] at hns
      | echo elements =>
          have hwords := unwords_tagTail ['\x7b', '$', '='] elements
          rw [Node.sources, Node.source, echoSource, ← tagEndText, hwords]
          exact .tagStart _
      | loop header children =>
          have hwords := unwords_tagTail ['\x7b', '$', ' ', 'F', 'O', 'R'] header.expressions
          rw [Node.sources, Node.source, LoopHeader.openingTag, ← tagEndText, hwords]
          exact .tagStart _

mutual
theorem scans_node (n : Node) (hn : n.IsNormal) {rest : Text} {ps : List Payload}
    (hstarts : n.isText = true → StartsTag rest) (hrest : Scans .text rest ps) :
    Scans .text (n.source ++ rest) (n.flat ++ ps) := by
  cases n with
  | text content => exact scans_text hn (hstarts rfl) hrest
  | echo elements => exact scans_echo elements hrest
  | loop header children =>
      -- behind the children there is the end tag, so a text at their end stops there
      rw [Node.source, Node.flat, List.append_assoc, List.append_assoc, List.append_assoc,
        List.append_assoc]
      exact scans_openingTag header
        (scans_nodes children hn (.tagStart _) (scans_endTag hrest))
/-- **Nodes in normal form are scanned as their tokens.** -/
theorem scans_nodes (ns : List Node) (hns : Node.AreNormal ns) {rest : Text} {ps : List Payload}
    (hstarts : StartsTag rest) (hrest : Scans .text rest ps) :
    Scans .text (Node.sources ns ++ rest) (Node.flats ns ++ ps) := by
  cases ns with
  | nil => exact hrest
  | cons n ns =>
      obtain ⟨hn, hparted, hlater⟩ := hns
      rw [Node.sources, Node.flats, List.append_assoc, List.append_assoc]
      refine scans_node n hn (fun htext => ?_) (scans_nodes ns hlater hstarts hrest)
      exact startsTag_sources (hparted htext) hstarts
end

/-! ## The names of written tags are in capitals -/

theorem capitalNames_elements (elements : List Element) (ps : List Payload) :
    capitalNames false (elements.map Element.token ++ .tagEnd :: ps)
      = elements.map Element.token ++ .tagEnd :: capitalNames false ps := by
  induction elements with
  | nil => rfl
  | cons e elements ih =>
      have hopened : (e.token == Payload.tagStart) = false := by cases e <;> rfl
      rw [List.map_cons, List.cons_append, capitalNames, hopened, ih]
      rfl

theorem capitalNames_tagPayloads (name : TagName) (elements : List Element) (ps : List Payload) :
    capitalNames false (tagPayloads name elements ++ ps)
      = tagPayloads name elements ++ capitalNames false ps := by
  have hname : (Payload.identifier name.text).capitals = .identifier name.text := by
    cases name <;> rfl
  have helements := capitalNames_elements elements ps
  have hfront : ∀ qs, tagPayloads name elements ++ qs
      = .tagStart :: .identifier name.text :: (elements.map Element.token ++ .tagEnd :: qs) := by
    intro qs
    simp [tagPayloads, tagFront]
  have hopened : (Payload.identifier name.text == .tagStart) = false := rfl
  rw [hfront, hfront, ← helements, capitalNames, capitalNames, hopened, beq_self_eq_true,
    if_pos rfl, hname]
  rfl

mutual
theorem capitalNames_flat (n : Node) (ps : List Payload) :
    capitalNames false (n.flat ++ ps) = n.flat ++ capitalNames false ps := by
  cases n with
  | text content => rfl
  | echo elements => exact capitalNames_tagPayloads .echo elements ps
  | loop header children =>
      rw [Node.flat, List.append_assoc, List.append_assoc, capitalNames_tagPayloads,
        capitalNames_flats children, capitalNames_tagPayloads, List.append_assoc,
        List.append_assoc]
theorem capitalNames_flats (ns : List Node) (ps : List Payload) :
    capitalNames false (Node.flats ns ++ ps) = Node.flats ns ++ capitalNames false ps := by
  cases ns with
  | nil => rfl
  | cons n ns =>
      rw [Node.flats, List.append_assoc, capitalNames_flat n, capitalNames_flats ns,
        List.append_assoc]
end

/-! ## Reading back -/

/-- **A tree in normal form is read back**, under strict options if its loops allow these. -/
theorem parse_sources {options : Options} {ns : List Node} (hns : Node.AreNormal ns)
    (hplain : options.strict = true → Node.ArePlain ns) :
    parse options (Node.sources ns) = .ok ns := by
  have hscans : Scans .text (Node.sources ns ++ []) (Node.flats ns ++ [.endOfInput]) :=
    scans_nodes ns hns .nil (.finished rfl)
  rw [List.append_nil] at hscans
  refine parse_of_scans hscans ?_ hplain
  rw [capitalNames_flats]
  rfl

/-- **What is read back of a tree.** The text of any tree parses to its top nodes with every run of
texts joined, and that document has the same text again; a document is equal to what is read back
of it exactly if it is in normal form. -/
theorem parse_render (t : Tree) (children : List Node) :
    (parse .default t.render = .ok (joinTexts t.nodes) ∧
      (Tree.document (joinTexts t.nodes)).render = t.render) ∧
    ((∃ document, parse .default (Tree.document children).render = .ok document ∧
      (Tree.document document).same (.document children) = true) ↔ Node.AreNormal children) := by
  have hrender : ∀ t : Tree, (Tree.document (joinTexts t.nodes)).render = t.render := by
    intro t
    rw [Tree.render_eq, Tree.render_eq, Tree.nodes, sources_joinTexts]
  have hparse : ∀ t : Tree, parse .default t.render = .ok (joinTexts t.nodes) := by
    intro t
    rw [← hrender, Tree.render_eq]
    exact parse_sources (areNormal_joinTexts t.nodes) (fun h => by simp [Options.default] at h)
  refine ⟨⟨hparse t, hrender t⟩, ?_⟩
  rw [hparse (.document children), Tree.nodes]
  constructor
  · rintro ⟨document, hdocument, hsame⟩
    cases hdocument
    -- what is read back is in normal form, and equality keeps texts apart as they are
    rw [Tree.same_eq] at hsame
    exact areNormal_of_sames _ _ hsame (areNormal_joinTexts children)
  · intro hchildren
    exact ⟨children, by rw [joinTexts_of_areNormal children hchildren], Tree.same_refl _⟩

/-- **A parsed document is read back under the options that it was read with.** -/
theorem parse_render_of_parse {options : Options} {t : Text} {document : List Node}
    (h : parse options t = .ok document) :
    ∃ document', parse options (Tree.document document).render = .ok document' ∧
      document' = document ∧ (Tree.document document').same (.document document) = true ∧
      (Tree.document document').render = (Tree.document document).render := by
  -- the parser has built a tree in normal form, and one that its options allow
  obtain ⟨_, _, _, hplain⟩ := flat_of_parse h
  refine ⟨document, ?_, rfl, Tree.same_refl _, rfl⟩
  rw [Tree.render_eq]
  exact parse_sources (areNormal_of_parse h) hplain

def echoAndBrace : List Node :=
  [.echo [.var ⟨['i'], by decide⟩, .function ⟨['f'], by decide⟩], .text ['\x7b']]

/-- Elements that are glued together and a brace alone are written in another way than they are
read, and read back. -/
theorem parse_render_of_parse_echoAndBrace :
    parse .default "\x7b$=i@f$\x7d\x7b".toList = .ok echoAndBrace ∧
      ∃ document', parse .default (Tree.document echoAndBrace).render = .ok document' ∧
        document' = echoAndBrace ∧
        (Tree.document document').same (.document echoAndBrace) = true ∧
        (Tree.document document').render = (Tree.document echoAndBrace).render := by
  have hscans : Scans .text "\x7b$=i@f$\x7d\x7b".toList
      [.tagStart, .identifier ['='], .identifier ['i'], .function ['f'], .tagEnd, .text ['\x7b'],
        .endOfInput] :=
    .token rfl (by simp) (.token rfl (by simp) (.token rfl (by simp) (.token rfl (by simp)
      (.token rfl (by simp) (.token rfl (by simp) (.finished rfl))))))
  have hparse : parse .default "\x7b$=i@f$\x7d\x7b".toList = .ok echoAndBrace :=
    parse_of_scans hscans rfl (fun h => by simp [Options.default] at h)
  exact ⟨hparse, parse_render_of_parse hparse⟩

end TagTemplate
