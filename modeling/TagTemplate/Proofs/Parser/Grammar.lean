import TagTemplate.Proofs.Parser.Replay

set_option autoImplicit false

/-! # The grammar of templates

A tree is written with one list of tokens, `Node.flats`, and the parser accepts a text exactly if
its tokens, with the names of tags in capitals, are the list of some tree and the end of the input;
that tree is then the result. From the parser to the grammar (`flat_of_parse`), the invariant is
that the state of the builder stands for the tokens read so far (`BuildState.Moves.flat`). The other
direction (`parse_of_flat`) is an induction over trees: from any state outside of tags, the tokens
of a node add it to the innermost open container (`BuildState.replay_node`).
-/

namespace TagTemplate

/-! ## The tokens of a tree -/

/-- The payloads of a tag up to its last element, its name in capitals. -/
def tagFront (name : TagName) (elements : List Element) : List Payload :=
  .tagStart :: .identifier name.text :: elements.map Element.token

def tagPayloads (name : TagName) (elements : List Element) : List Payload :=
  tagFront name elements ++ [.tagEnd]

mutual
/-- The payloads that a node is written with. -/
def Node.flat : Node → List Payload
  | .text content => [.text content]
  | .echo elements => tagPayloads .echo elements
  | .loop header children =>
    tagPayloads .loop header.expressions ++ Node.flats children ++ tagPayloads .ending []
def Node.flats : List Node → List Payload
  | [] => []
  | n :: rest => n.flat ++ Node.flats rest
end

theorem Node.flats_append (as bs : List Node) :
    Node.flats (as ++ bs) = Node.flats as ++ Node.flats bs := by
  induction as with
  | nil => rfl
  | cons n as ih => simp only [List.cons_append, Node.flats, ih, List.append_assoc]

mutual
/-- The loops of a node have no function and no operator as a bound or a step, at any depth. -/
def Node.IsPlain : Node → Prop
  | .loop header children => (∀ e ∈ header.bounds, e.isPlain = true) ∧ Node.ArePlain children
  | _ => True
def Node.ArePlain : List Node → Prop
  | [] => True
  | n :: rest => n.IsPlain ∧ Node.ArePlain rest
end

theorem Node.arePlain_iff {ns : List Node} : Node.ArePlain ns ↔ ∀ n ∈ ns, n.IsPlain := by
  induction ns with
  | nil => simp [Node.ArePlain]
  | cons n ns ih => simp [Node.ArePlain, ih]

/-! ## Names of tags in capitals

The letters of the names of tags are ASCII letters, and no other letter has one of these as its
capital; so other letters are left as they are. -/

/-- A payload with its name in capitals, if it is one. -/
def Payload.capitals : Payload → Payload
  | .identifier name => .identifier (name.map Char.toUpper)
  | p => p

/-- A list of payloads, those directly behind a tag opening in capitals; whether the first payload
is directly behind one is given. -/
def capitalNames (opened : Bool) : List Payload → List Payload
  | [] => []
  | p :: rest => (if opened then p.capitals else p) :: capitalNames (p == .tagStart) rest

theorem capitals_eq_identifier_iff {p : Payload} {name : Text} :
    p.capitals = .identifier name ↔ ∃ written, p = .identifier written ∧
      written.map Char.toUpper = name := by
  cases p <;> simp [Payload.capitals]

/-! ## What a state stands for -/

/-- The payloads up to the body of the innermost open loop. -/
def flatOpen : List OpenLoop → List Payload
  | [] => []
  | l :: loops =>
    flatOpen loops ++ Node.flats l.before.reverse ++ tagPayloads .loop l.header.expressions

def Unfinished.flat (u : Unfinished) : List Payload :=
  flatOpen u.loops ++ Node.flats u.nodes.reverse

/-- The payloads read of a tag that is not closed yet. -/
def Place.flat : Place → List Payload
  | .outside => []
  | .tagOpened _ => [.tagStart]
  | .arguments tag _ _ read => tagFront tag.tagName read.reverse
  | .ending _ _ => tagFront .ending []

def Place.isOpened : Place → Bool
  | .tagOpened _ => true
  | _ => false

def BuildState.flat (s : BuildState) : List Payload := s.unfinished.flat ++ s.place.flat

theorem flat_add (u : Unfinished) (n : Node) : (u.add n).flat = u.flat ++ n.flat := by
  simp [Unfinished.flat, Unfinished.add, Node.flats_append, Node.flats]

theorem flat_openLoop (u : Unfinished) (header : LoopHeader) :
    (u.openLoop header).flat = u.flat ++ tagPayloads .loop header.expressions := by
  simp [Unfinished.flat, Unfinished.openLoop, flatOpen, Node.flats]

theorem flat_closeLoop {u closed : Unfinished} (h : u.closeLoop? = some closed) :
    closed.flat = u.flat ++ tagPayloads .ending [] := by
  unfold Unfinished.closeLoop? at h
  split at h
  · simp at h
  · next header before loops hloops =>
    cases h
    simp [Unfinished.flat, hloops, flatOpen, Node.flats_append, Node.flats, Node.flat]

namespace BuildState

variable {strict : Bool} {s s' : BuildState} {t : Token} {ts : List Token}

/-- **Behind a move the state stands for one more payload**, in capitals if it is a tag's name. -/
theorem Moves.flat (h : Moves strict s t s') :
    s'.flat = s.flat ++ [if s.place.isOpened then t.payload.capitals else t.payload] ∧
      s'.place.isOpened = (t.payload == .tagStart) := by
  cases h with
  | text hp => simp [BuildState.flat, flat_add, Place.flat, Place.isOpened, Node.flat, hp]
  | opening hp => simp [BuildState.flat, Place.flat, Place.isOpened, hp]
  | argumentsName tag hp hname =>
      simp [BuildState.flat, Place.flat, Place.isOpened, tagFront, Payload.capitals, hp, hname]
  | endingName hp hname =>
      simp [BuildState.flat, Place.flat, Place.isOpened, tagFront, Payload.capitals, hp, hname]
  | argument e hp =>
      refine ⟨by simp [BuildState.flat, Place.flat, Place.isOpened, tagFront, hp], ?_⟩
      rw [hp]
      cases e <;> rfl
  | echo hp =>
      simp [BuildState.flat, flat_add, Place.flat, Place.isOpened, Node.flat, tagPayloads,
        ArgumentTag.tagName, hp]
  | loop hp hheader =>
      obtain ⟨helements, -⟩ := loopHeader?_eq_ok_iff.mp hheader
      simp [BuildState.flat, flat_openLoop, Place.flat, Place.isOpened, tagPayloads,
        ArgumentTag.tagName, helements, hp]
  | ending hp hclosed =>
      simp [BuildState.flat, flat_closeLoop hclosed, Place.flat, Place.isOpened, tagPayloads, hp]

end BuildState

/-! ## Strict options -/

/-- All loops of an unfinished document have plain bounds, the open ones included. -/
def Unfinished.IsPlain (u : Unfinished) : Prop :=
  (∀ n ∈ u.nodes, n.IsPlain) ∧
    ∀ l ∈ u.loops, (∀ e ∈ l.header.bounds, e.isPlain = true) ∧ ∀ n ∈ l.before, n.IsPlain

theorem Unfinished.IsPlain.add {u : Unfinished} {n : Node} (h : u.IsPlain) (hn : n.IsPlain) :
    (u.add n).IsPlain := by
  refine ⟨fun m hm => ?_, h.2⟩
  rcases List.mem_cons.mp hm with rfl | hm
  · exact hn
  · exact h.1 m hm

theorem Unfinished.IsPlain.openLoop {u : Unfinished} {header : LoopHeader} (h : u.IsPlain)
    (hheader : ∀ e ∈ header.bounds, e.isPlain = true) : (u.openLoop header).IsPlain := by
  refine ⟨by simp [Unfinished.openLoop], fun l hl => ?_⟩
  rcases List.mem_cons.mp hl with rfl | hl
  · exact ⟨hheader, h.1⟩
  · exact h.2 l hl

theorem Unfinished.IsPlain.closeLoop {u closed : Unfinished} (h : u.IsPlain)
    (hclosed : u.closeLoop? = some closed) : closed.IsPlain := by
  unfold Unfinished.closeLoop? at hclosed
  split at hclosed
  · simp at hclosed
  · next header before loops hloops =>
    cases hclosed
    have hopen : ∀ l ∈ ⟨header, before⟩ :: loops,
        (∀ e ∈ l.header.bounds, e.isPlain = true) ∧ ∀ n ∈ l.before, n.IsPlain := by
      rw [← hloops]
      exact h.2
    obtain ⟨hheader, hbefore⟩ := hopen ⟨header, before⟩ (by simp)
    refine ⟨fun n hn => ?_, fun l hl => hopen l (by simp [hl])⟩
    rcases List.mem_cons.mp hn with rfl | hn
    · refine ⟨hheader, Node.arePlain_iff.mpr fun n hn => ?_⟩
      exact h.1 n (by simpa using hn)
    · exact hbefore n hn

theorem BuildState.Moves.isPlain {s s' : BuildState} {t : Token} (h : Moves true s t s')
    (hs : s.unfinished.IsPlain) : s'.unfinished.IsPlain := by
  cases h with
  | text hp => exact hs.add trivial
  | echo hp => exact hs.add trivial
  | loop hp hheader => exact hs.openLoop ((loopHeader?_eq_ok_iff.mp hheader).2 rfl)
  | ending hp hclosed => exact hs.closeLoop hclosed
  | _ => exact hs

/-! ## From the parser to the grammar -/

namespace BuildState

variable {strict : Bool} {s s' : BuildState} {ts : List Token}

/-- A replay that finishes has read the payloads of its document. -/
theorem flat_of_replay {last : Token} {document : List Node} (hts : ∀ t ∈ ts, t.isEnd = false)
    (h : s.replay strict (ts ++ [last]) = .ok (.finished document)) :
    s.flat ++ capitalNames s.place.isOpened ((ts ++ [last]).map Token.payload)
      = Node.flats document ++ [.endOfInput] := by
  -- the payloads that the state stands for grow by one with every token that is replayed
  induction ts generalizing s with
  | nil =>
      rw [List.nil_append, replay] at h
      split at h
      · simp [replay] at h
      · next heq =>
        cases h
        obtain ⟨hplace, hp, hloops, rfl⟩ := step_finished_iff.mp heq
        simp [BuildState.flat, Unfinished.flat, flatOpen, capitalNames, Place.flat,
          Place.isOpened, hplace, hp, hloops]
      · simp at h
  | cons t ts ih =>
      rw [List.cons_append, replay] at h
      split at h
      · next s' heq =>
        obtain ⟨hflat, hopened⟩ := (step_next_iff.mp heq).flat
        have hlater := ih (fun t' ht' => hts t' (by simp [ht'])) h
        rw [hflat, hopened] at hlater
        rw [← hlater]
        simp [capitalNames]
      · next heq =>
        -- only the end of the input finishes a document
        obtain ⟨-, hp, -⟩ := step_finished_iff.mp heq
        exact absurd hp (Token.isEnd_eq_false_iff.mp (hts t (by simp)))
      · simp at h

/-- Under strict options the loops of a finished document have plain bounds. -/
theorem arePlain_of_replay {document : List Node} (hs : s.unfinished.IsPlain)
    (h : s.replay true ts = .ok (.finished document)) : Node.ArePlain document := by
  induction ts generalizing s with
  | nil => simp [replay] at h
  | cons t ts ih =>
      rw [replay] at h
      split at h
      · next heq => exact ih ((step_next_iff.mp heq).isPlain hs) h
      · next heq =>
        cases h
        obtain ⟨-, -, -, rfl⟩ := step_finished_iff.mp heq
        exact Node.arePlain_iff.mpr fun n hn => hs.1 n (by simpa using hn)
      · simp at h

end BuildState

/-! ## From the grammar to the parser -/

theorem exists_of_capitalNames_cons {opened : Bool} {ts : List Token} {p : Payload}
    {ps : List Payload} (h : capitalNames opened (ts.map Token.payload) = p :: ps) :
    ∃ t ts', ts = t :: ts' ∧ (if opened then t.payload.capitals else t.payload) = p ∧
      capitalNames (t.payload == .tagStart) (ts'.map Token.payload) = ps := by
  cases ts with
  | nil => simp [capitalNames] at h
  | cons t ts =>
      obtain ⟨hp, hps⟩ := List.cons.inj h
      exact ⟨t, ts, rfl, hp, hps⟩

namespace BuildState

variable (strict : Bool) (u : Unfinished) {ts : List Token} {ps : List Payload}

/-- The front of a tag leads behind its name. -/
theorem replay_tagName {name : TagName}
    (h : capitalNames false (ts.map Token.payload) = tagFront name [] ++ ps) :
    ∃ (opening : Position) (t : Token) (ts' : List Token),
      (∃ written, t.payload = .identifier written ∧ written.map Char.toUpper = name.text) ∧
      capitalNames false (ts'.map Token.payload) = ps ∧
      replay strict ⟨.outside, u⟩ ts = replay strict ⟨.tagOpened opening, u⟩ (t :: ts') := by
  obtain ⟨t₁, ts₁, rfl, hp₁, h₁⟩ := exists_of_capitalNames_cons h
  have hstart : t₁.payload = .tagStart := hp₁
  rw [hstart] at h₁
  obtain ⟨t₂, ts₂, rfl, hp₂, h₂⟩ := exists_of_capitalNames_cons h₁
  obtain ⟨written, hwritten, hname⟩ := capitals_eq_identifier_iff.mp hp₂
  rw [hwritten] at h₂
  refine ⟨t₁.position, t₂, ts₂, ⟨written, hwritten, hname⟩, h₂, ?_⟩
  exact replay_of_next (Moves.opening hstart).step

/-- The elements of a tag are added to those read before. -/
theorem replay_arguments (tag : ArgumentTag) (opening name : Position) (read : List Element)
    {elements : List Element}
    (h : capitalNames false (ts.map Token.payload) = elements.map Element.token ++ ps) :
    ∃ ts', capitalNames false (ts'.map Token.payload) = ps ∧
      replay strict ⟨.arguments tag opening name read, u⟩ ts
        = replay strict ⟨.arguments tag opening name (elements.reverse ++ read), u⟩ ts' := by
  induction elements generalizing read ts with
  | nil => exact ⟨ts, h, rfl⟩
  | cons e elements ih =>
      obtain ⟨t, ts', rfl, hp, h'⟩ := exists_of_capitalNames_cons h
      have htoken : t.payload = e.token := hp
      have hopened : (t.payload == .tagStart) = false := by
        rw [htoken]
        cases e <;> rfl
      rw [hopened] at h'
      obtain ⟨ts'', hrest, hreplay⟩ := ih (e :: read) h'
      refine ⟨ts'', hrest, ?_⟩
      rw [replay_of_next (Moves.argument e htoken).step, hreplay]
      simp

/-- A tag with arguments leads to its end, with all its elements read. -/
theorem replay_tag (tag : ArgumentTag) {elements : List Element}
    (h : capitalNames false (ts.map Token.payload) = tagPayloads tag.tagName elements ++ ps) :
    ∃ (opening name : Position) (t : Token) (ts' : List Token), t.payload = .tagEnd ∧
      capitalNames false (ts'.map Token.payload) = ps ∧
      replay strict ⟨.outside, u⟩ ts
        = replay strict ⟨.arguments tag opening name elements.reverse, u⟩ (t :: ts') := by
  have hfront : tagPayloads tag.tagName elements ++ ps
      = tagFront tag.tagName [] ++ (elements.map Element.token ++ .tagEnd :: ps) := by
    simp [tagPayloads, tagFront]
  rw [hfront] at h
  obtain ⟨opening, t, ts', ⟨written, hwritten, hname⟩, h', hreplay⟩ :=
    replay_tagName strict u h
  obtain ⟨ts'', hend, hreplay'⟩ := replay_arguments strict u tag opening
    t.position [] h'
  obtain ⟨t₁, ts₁, rfl, hp₁, h₁⟩ := exists_of_capitalNames_cons hend
  have htagEnd : t₁.payload = .tagEnd := hp₁
  rw [htagEnd] at h₁
  refine ⟨opening, t.position, t₁, ts₁, htagEnd, h₁, ?_⟩
  rw [hreplay, replay_of_next (Moves.argumentsName tag hwritten hname).step, hreplay']
  simp

/-- An end tag closes the innermost loop. -/
theorem replay_ending {closed : Unfinished} (hclosed : u.closeLoop? = some closed)
    (h : capitalNames false (ts.map Token.payload) = tagPayloads .ending [] ++ ps) :
    ∃ ts', capitalNames false (ts'.map Token.payload) = ps ∧
      replay strict ⟨.outside, u⟩ ts = replay strict ⟨.outside, closed⟩ ts' := by
  have hfront : tagPayloads .ending [] ++ ps = tagFront .ending [] ++ .tagEnd :: ps := rfl
  rw [hfront] at h
  obtain ⟨opening, t, ts', ⟨written, hwritten, hname⟩, h', hreplay⟩ :=
    replay_tagName strict u h
  obtain ⟨t₁, ts₁, rfl, hp₁, h₁⟩ := exists_of_capitalNames_cons h'
  have htagEnd : t₁.payload = .tagEnd := hp₁
  rw [htagEnd] at h₁
  refine ⟨ts₁, h₁, ?_⟩
  rw [hreplay, replay_of_next (Moves.endingName hwritten hname).step,
    replay_of_next (Moves.ending htagEnd hclosed).step]

mutual
/-- **The tokens of a node add it to the innermost open container.** -/
theorem replay_node (n : Node) {u : Unfinished} {ts : List Token} {ps : List Payload}
    (h : capitalNames false (ts.map Token.payload) = n.flat ++ ps)
    (hplain : strict = true → n.IsPlain) :
    ∃ ts', capitalNames false (ts'.map Token.payload) = ps ∧
      replay strict ⟨.outside, u⟩ ts = replay strict ⟨.outside, u.add n⟩ ts' := by
  cases n with
  | text content =>
      obtain ⟨t, ts', rfl, hp, h'⟩ := exists_of_capitalNames_cons h
      have htext : t.payload = .text content := hp
      rw [htext] at h'
      exact ⟨ts', h', replay_of_next (Moves.text htext).step⟩
  | echo elements =>
      obtain ⟨opening, name, t, ts', hend, h', hreplay⟩ :=
        replay_tag strict u .echo h
      refine ⟨ts', h', ?_⟩
      rw [hreplay, replay_of_next (Moves.echo hend).step, List.reverse_reverse]
  | loop header children =>
      -- the opening tag, the children in the open loop, and the tag that closes it
      rw [Node.flat, List.append_assoc, List.append_assoc] at h
      obtain ⟨opening, name, t, ts₁, hend, h₁, hreplay₁⟩ :=
        replay_tag strict u .loop h
      have hheader : loopHeader? strict header.expressions.reverse.reverse = .ok header := by
        rw [List.reverse_reverse]
        exact loopHeader?_eq_ok_iff.mpr ⟨rfl, fun hstrict => (hplain hstrict).1⟩
      obtain ⟨ts₂, h₂, hreplay₂⟩ := replay_nodes children (u := u.openLoop header) h₁
        (fun hstrict => (hplain hstrict).2)
      have hclosed : Unfinished.closeLoop?
          ⟨children.reverse ++ (u.openLoop header).nodes, (u.openLoop header).loops⟩
            = some (u.add (.loop header children)) := by
        simp [Unfinished.closeLoop?, Unfinished.openLoop, Unfinished.add]
      obtain ⟨ts₃, h₃, hreplay₃⟩ := replay_ending strict _ hclosed h₂
      refine ⟨ts₃, h₃, ?_⟩
      rw [hreplay₁, replay_of_next (Moves.loop hend hheader).step, hreplay₂, hreplay₃]
/-- The tokens of several nodes add them, one after the other. -/
theorem replay_nodes (ns : List Node) {u : Unfinished} {ts : List Token} {ps : List Payload}
    (h : capitalNames false (ts.map Token.payload) = Node.flats ns ++ ps)
    (hplain : strict = true → Node.ArePlain ns) :
    ∃ ts', capitalNames false (ts'.map Token.payload) = ps ∧
      replay strict ⟨.outside, u⟩ ts
        = replay strict ⟨.outside, ⟨ns.reverse ++ u.nodes, u.loops⟩⟩ ts' := by
  cases ns with
  | nil => exact ⟨ts, h, rfl⟩
  | cons n ns =>
      rw [Node.flats, List.append_assoc] at h
      obtain ⟨ts₁, h₁, hreplay₁⟩ := replay_node n (u := u) h (fun hstrict => (hplain hstrict).1)
      obtain ⟨ts₂, h₂, hreplay₂⟩ := replay_nodes ns (u := u.add n) h₁
        (fun hstrict => (hplain hstrict).2)
      refine ⟨ts₂, h₂, ?_⟩
      rw [hreplay₁, hreplay₂]
      simp [Unfinished.add]
end

/-- The tokens of a tree and the end of the input finish this tree. -/
theorem replay_document {document : List Node}
    (h : capitalNames false (ts.map Token.payload) = Node.flats document ++ [.endOfInput])
    (hplain : strict = true → Node.ArePlain document) :
    start.replay strict ts = .ok (.finished document) := by
  obtain ⟨ts', h', hreplay⟩ := replay_nodes strict document (u := .empty) h hplain
  obtain ⟨t, ts'', rfl, hp, -⟩ := exists_of_capitalNames_cons h'
  have hend : t.payload = .endOfInput := hp
  rw [start, hreplay]
  apply replay_of_finished
  exact step_finished_iff.mpr ⟨rfl, hend, rfl, by simp [Unfinished.empty]⟩

end BuildState

/-! ## The grammar -/

/-- The tokens of a text that parses are those that its document is written with. -/
theorem flat_of_parse {options : Options} {t : Text} {document : List Node}
    (h : parse options t = .ok document) :
    ∃ tokens, tokenize t = .ok tokens ∧
      capitalNames false (tokens.map Token.payload) = Node.flats document ++ [.endOfInput] ∧
      (options.strict = true → Node.ArePlain document) := by
  obtain ⟨ts, l, tail, hreads, hends, htokenize, hconcludes⟩ := exists_reads_parse options t
  rw [h] at hconcludes
  obtain ⟨hreplay, hfailure⟩ := BuildState.Concludes.ok_iff.mp hconcludes
  cases hends with
  -- where the loop over the tokens fails, the parse does not succeed
  | failed hnext => simp at hfailure
  | finished hnext hend =>
      refine ⟨_, htokenize, BuildState.flat_of_replay hreads.isEnd_eq_false hreplay, ?_⟩
      intro hstrict
      rw [hstrict] at hreplay
      exact BuildState.arePlain_of_replay ⟨by simp [BuildState.start, Unfinished.empty],
        by simp [BuildState.start, Unfinished.empty]⟩ hreplay

/-- A text parses to a document if its tokens are those that the document is written with. -/
theorem parse_of_flat {options : Options} {t : Text} {document : List Node} {tokens : List Token}
    (htokens : tokenize t = .ok tokens)
    (hflat : capitalNames false (tokens.map Token.payload)
      = Node.flats document ++ [.endOfInput])
    (hplain : options.strict = true → Node.ArePlain document) :
    parse options t = .ok document := by
  obtain ⟨ts, l, tail, _, _, htokenize, hconcludes⟩ := exists_reads_parse options t
  rw [htokens] at htokenize
  generalize hfailure : tail.failure = failure at htokenize hconcludes
  cases failure with
  | some failure => simp at htokenize
  | none =>
      obtain rfl : tokens = ts ++ tail.tokens := Except.ok.inj htokenize
      rw [BuildState.replay_document _ hflat hplain] at hconcludes
      exact hconcludes.unique (.finished document)

/-- A text parses to a document if the payloads scanned from it are those that the document is
written with. -/
theorem parse_of_scans {options : Options} {t : Text} {document : List Node} {ps : List Payload}
    (hscans : Scans .text t ps)
    (hflat : capitalNames false ps = Node.flats document ++ [.endOfInput])
    (hplain : options.strict = true → Node.ArePlain document) :
    parse options t = .ok document := by
  obtain ⟨tokens, htokens, hpayloads⟩ := exists_tokenize_iff.mpr hscans
  exact parse_of_flat htokens (by rw [hpayloads]; exact hflat) hplain

/-- **The parser accepts the grammar and builds its trees.** A text parses to a document exactly if
its tokens, with the names of tags in capitals, are those that the document is written with, and
under strict options no loop has a function or an operator as a bound or a step. -/
theorem parse_eq_ok_iff (options : Options) (t : Text) (document : List Node) :
    parse options t = .ok document ↔
      ∃ tokens, tokenize t = .ok tokens ∧
        capitalNames false (tokens.map Token.payload) = Node.flats document ++ [.endOfInput] ∧
        (options.strict = true → Node.ArePlain document) :=
  ⟨flat_of_parse, fun ⟨_, htokens, hflat, hplain⟩ => parse_of_flat htokens hflat hplain⟩

end TagTemplate
