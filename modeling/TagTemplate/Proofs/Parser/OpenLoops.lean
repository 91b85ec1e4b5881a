import TagTemplate.Proofs.Lexer.Cut
import TagTemplate.Proofs.Parser.Lockstep
import TagTemplate.Proofs.Parser.TagOrder
import TagTemplate.Proofs.Parser.TagReport
import TagTemplate.Tree.Render

set_option autoImplicit false

/-! # Loops that a text leaves open

A text that ends outside of tags leaves an unfinished document (`Leaves`): the nodes read so far and
the loops that are still open, which are those that its tags have left open (`Leaves.tracks`). An
end tag behind the text closes the innermost of these loops, wherever the text stops
(`Leaves.append_endTag`), so any number of end tags closes as many loops as there are. The main
result is `parse_append_endTags`: it takes exactly as many end tags as loops are reported to be
open; with fewer of them the loops that are left are reported, and with more the first end tag too
many.
-/

namespace TagTemplate

namespace BuildState

/-- **The open loops of the builder are those that the tags of its tokens have left open.** -/
theorem Tracks.of_replay {strict : Bool} {before : List TagTokens} {u u' : Unfinished}
    {ts : List Token} (htracks : Tracks before u) (hmoded : Moded .text (ts.map Token.payload))
    (h : replay strict ⟨.outside, u⟩ ts = .ok (.next ⟨.outside, u'⟩)) :
    Tracks (before ++ tagsOf ts) u' := by
  -- by induction on the number of tokens, since a tag is passed as a whole
  cases ts with
  | nil =>
      cases h
      rw [tagsOf, List.append_nil]
      exact htracks
  | cons t ts =>
      obtain ⟨hp, hps⟩ := hmoded
      generalize hpayload : t.payload = p at hp hps
      cases hp with
      | endOfInput =>
          -- no move is made at the end of the input
          obtain ⟨s', hstep, -⟩ := exists_of_replay_next h
          have hnot := step_next_not_end hstep
          rw [Token.isEnd_iff.mpr hpayload] at hnot
          cases hnot
      | text content =>
          have htags : tagsOf (t :: ts) = tagsOf ts := by simp [tagsOf, hpayload]
          have htracks' : Tracks before (u.add (.text content)) := ⟨htracks.depth, htracks.opened⟩
          rw [replay_of_next (Moves.text hpayload).step] at h
          rw [htags]
          exact htracks'.of_replay hps h
      | tagStart =>
          rw [replay_of_next (Moves.opening hpayload).step] at h
          rw [tagsOf, if_pos hpayload]
          cases settles t htracks hps with
          | faulty hfault hreplay =>
              rw [hreplay] at h
              cases h
          | cut hfault hreplay hinner hplace =>
              -- the tag is not finished, so the builder would still be in it
              rw [hreplay] at h
              cases h
              cases hplace
          | @legal inner rest u₁ hfault hts hne hinner hmoded' htracks' hreplay =>
              have hlt : rest.length < ts.length := by
                -- a whole tag has been passed, so fewer tokens are left
                have hpos := List.length_pos_iff.mpr hne
                rw [hts, List.length_append]
                omega
              rw [hreplay] at h
              have hlater := htracks'.of_replay hmoded' h
              have htags : tagsOf ts = tagsOf rest := by
                rw [hts, tagsOf_append hinner]
              rw [htags, List.append_cons]
              exact hlater
termination_by ts.length

end BuildState

/-! ## Unfinished documents -/

/-- A text leaves an unfinished document: it is read to its end, which is outside of tags, and its
tokens lead the builder there. -/
def Leaves (strict : Bool) (t : Text) (u : Unfinished) : Prop :=
  ∃ ts l, (Lexer.ofText t).Reads ts l ∧ l.rest = [] ∧ l.mode = .text ∧
    BuildState.start.replay strict ts = .ok (.next ⟨.outside, u⟩)

/-- An end tag, where it begins at a position. -/
def endTagTokens (p : Position) : List Token :=
  [⟨.tagStart, p⟩, ⟨.identifier TagName.ending.text, p.advance tagStartText⟩,
    ⟨.tagEnd, p.advance (tagStartText ++ TagName.ending.text)⟩]

/-- An end tag is read in front of every text. -/
theorem Lexer.Ready.reads_endTag {l : Lexer} (h : l.Ready) (hmode : l.mode = .text) {s : Text}
    (hrest : l.rest = endTagText ++ s) :
    ∃ l', l.Reads (endTagTokens l.position) l' ∧ l'.rest = s ∧ l'.mode = .text := by
  have hnext : l.next = l.afterScan (scan .text (endTagText ++ s)) := by
    rw [h.next, hmode, hrest]
  have hmet := h.met
  obtain ⟨mode, rest, position, last, met⟩ := l
  cases hmode
  cases hrest
  cases hmet
  exact ⟨_, .token hnext rfl (.token rfl rfl (.token rfl rfl (.done _))), rfl, rfl⟩

/-- The builder closes the innermost loop at an end tag, and reports the name if there is none. -/
theorem BuildState.replay_endTag (strict : Bool) (p : Position) (u : Unfinished)
    (ts : List Token) : replay strict ⟨.outside, u⟩ (endTagTokens p ++ ts) =
      match u.closeLoop? with
      | some closed => replay strict ⟨.outside, closed⟩ ts
      | none => .error (.malformed ⟨.endWithoutLoop, p.advance tagStartText⟩) := by
  rw [endTagTokens, List.cons_append, List.cons_append, List.cons_append,
    replay_of_next (Moves.opening rfl).step, replay_of_next (Moves.endingName rfl rfl).step]
  cases hclosed : u.closeLoop? with
  | some closed => exact replay_of_next (Moves.ending rfl hclosed).step
  | none => exact replay_of_error (by simp [step, stepEnding, hclosed, failAt])

/-- A lexer at the end of the text, outside of tags, has the end of the input as its only token. -/
theorem Lexer.Ready.exists_drain_of_nil {l : Lexer} (h : l.Ready) (hmode : l.mode = .text)
    (hrest : l.rest = []) :
    ∃ last l', last.payload = .endOfInput ∧ last.position = l.position ∧
      l.drain = ⟨[last], none, l'⟩ := by
  have hend : (scan l.mode l.rest).result = .ok .endOfInput := by
    rw [hmode, hrest]
    rfl
  obtain ⟨last, l', hnext, hlast⟩ := h.next_of_scan hend
  refine ⟨last, l', hlast, ?_, Lexer.drain_of_end hnext (Token.isEnd_iff.mpr hlast)⟩
  rw [(h.position_of_next hnext).1, hmode]
  rfl

section Leaves

variable {strict : Bool} {t s : Text} {u closed : Unfinished}

/-- The tokens of a text that leaves a document, in front of text that begins with a tag. -/
theorem Leaves.exists_reads (h : Leaves strict t u) (hs : StartsTag s) :
    ∃ ts l, (Lexer.ofText (t ++ s)).Reads ts l ∧ l.rest = s ∧ l.mode = .text ∧
      l.position = Position.start.advance t ∧
      BuildState.start.replay strict ts = .ok (.next ⟨.outside, u⟩) := by
  obtain ⟨ts, l, hreads, hrest, hmode, hreplay⟩ := h
  have hfollows : l.mode.Follows l.rest s := by
    rw [hmode]
    exact fun _ => hs
  obtain ⟨front, ht, hposition, hreads'⟩ := hreads.exchange_ofText fun _ _ => .inr hfollows
  rw [hrest, List.append_nil] at ht
  subst ht
  exact ⟨ts, l.withRest s, hreads', rfl, hmode, hposition, hreplay⟩

/-- **The open loops of the document are those that the tags of the text have left open.** -/
theorem Leaves.tracks (h : Leaves strict t u) : BuildState.Tracks t.tags u := by
  obtain ⟨ts, l, hreads, hrest, hmode, hreplay⟩ := h
  have hready := Lexer.ready_ofText t
  obtain ⟨last, l', hlast, -, hdrain⟩ := (hreads.ready hready).exists_drain_of_nil hmode hrest
  have htags : t.tags = tagsOf ts := by
    have houtside : (ts.map Token.payload).foldl modeAfter .text = .text :=
      (hreads.mode_eq hready).symm.trans hmode
    have hnone : tagsOf [last] = [] := by
      rw [tagsOf, if_neg (by simp [hlast]), tagsOf]
    rw [Text.tags, hreads.drain_eq, hdrain, tagsOf_append_of_mode houtside, hnone, List.append_nil]
  have hmoded : Moded .text (ts.map Token.payload) := by
    have hnone : Moded l.mode [] := trivial
    have hmoded := hreads.moded hready hnone
    rwa [List.append_nil] at hmoded
  have hstart : BuildState.Tracks [] .empty := ⟨rfl, rfl⟩
  rw [htags]
  exact hstart.of_replay hmoded hreplay

/-- **An end tag closes the innermost loop**, wherever the text stops outside of tags. -/
theorem Leaves.append_endTag (h : Leaves strict t u) (hclosed : u.closeLoop? = some closed) :
    Leaves strict (t ++ endTagText) closed := by
  obtain ⟨ts, l, hreads, hrest, hmode, -, hreplay⟩ := h.exists_reads (s := endTagText) (.tagStart _)
  have hready := hreads.ready (Lexer.ready_ofText _)
  obtain ⟨l', hending, hrest', hmode'⟩ := hready.reads_endTag hmode (s := []) (by rw [hrest]; rfl)
  refine ⟨ts ++ endTagTokens l.position, l', hreads.append hending, hrest', hmode', ?_⟩
  have hending := BuildState.replay_endTag strict l.position u []
  rw [hclosed, List.append_nil] at hending
  rw [BuildState.replay_append_of_next hreplay, hending]
  rfl

/-- The end of the input behind a text that leaves a document. -/
theorem Leaves.replay_drain (h : Leaves strict t u) :
    ∃ last : Token, last.payload = .endOfInput ∧ last.position = Position.start.advance t ∧
      (Lexer.ofText t).drain.failure = none ∧
      BuildState.start.replay strict (Lexer.ofText t).drain.tokens
        = BuildState.replay strict ⟨.outside, u⟩ [last] := by
  obtain ⟨ts, l, hreads, hrest, hmode, hposition, hreplay⟩ := h.exists_reads .nil
  rw [List.append_nil] at hreads
  obtain ⟨last, l', hlast, hstop, hend⟩ :=
    (hreads.ready (Lexer.ready_ofText t)).exists_drain_of_nil hmode hrest
  have hdrain := hreads.drain_eq
  rw [hend] at hdrain
  refine ⟨last, hlast, hstop.trans hposition, by rw [hdrain], ?_⟩
  rw [hdrain, BuildState.replay_append_of_next hreplay]

/-- A text that leaves no loop open parses. -/
theorem Leaves.parse_eq_ok {options : Options} (h : Leaves options.strict t u)
    (hloops : u.loops = []) : parse options t = .ok u.nodes.reverse := by
  obtain ⟨last, hlast, -, hfailure, hreplay⟩ := h.replay_drain
  have hconcludes := BuildState.concludes_parse options t
  rw [BuildState.replay_of_finished
    (BuildState.step_finished_iff.mpr ⟨rfl, hlast, hloops, rfl⟩)] at hreplay
  rw [hreplay, hfailure] at hconcludes
  exact hconcludes.unique (.finished _)

/-- A text that leaves loops open is refused for them, at its end. -/
theorem Leaves.parse_eq_loopsNotClosed {options : Options} (h : Leaves options.strict t u)
    {l : OpenLoop} (hl : u.loops.head? = some l) :
    parse options t = .error (.malformed
      ⟨.loopsNotClosed u.loops.length l.header.var, Position.start.advance t⟩) := by
  obtain ⟨last, hlast, hposition, -, hreplay⟩ := h.replay_drain
  have hstep : BuildState.step options.strict ⟨.outside, u⟩ last = .error (.malformed
      ⟨.loopsNotClosed u.loops.length l.header.var, Position.start.advance t⟩) := by
    obtain ⟨loops, hloops⟩ := List.head?_eq_some_iff.mp hl
    simp [BuildState.step, stepOutside, hlast, hloops, failAt, hposition]
  rw [BuildState.parse_eq_malformed_iff_replay, hreplay, BuildState.replay_of_error hstep]

/-- An end tag behind a text that leaves no loop open is refused, at its name. -/
theorem Leaves.parse_eq_endWithoutLoop {options : Options} (h : Leaves options.strict t u)
    (hloops : u.loops = []) (s : Text) :
    parse options (t ++ (endTagText ++ s)) = .error (.malformed
      ⟨.endWithoutLoop, Position.start.advance (t ++ tagStartText)⟩) := by
  obtain ⟨ts, l, hreads, hrest, hmode, hposition, hreplay⟩ :=
    h.exists_reads (s := endTagText ++ s) (.tagStart _)
  have hready := hreads.ready (Lexer.ready_ofText _)
  obtain ⟨l', hending, -, -⟩ := hready.reads_endTag hmode hrest
  have hclosed : u.closeLoop? = none := by
    rw [Unfinished.closeLoop?, hloops]
  rw [BuildState.parse_eq_malformed_iff_replay, (hreads.append hending).drain_eq,
    List.append_assoc, BuildState.replay_append_of_next hreplay, BuildState.replay_endTag, hclosed,
    hposition, ← Position.advance_append]

/-! ## Any number of end tags -/

def endTags (n : Nat) : Text := (List.replicate n endTagText).flatten

theorem endTags_add (m n : Nat) : endTags (m + n) = endTags m ++ endTags n := by
  rw [endTags, List.replicate_add, List.flatten_append]
  rfl

theorem endTags_one : endTags 1 = endTagText := rfl

/-- **As many end tags as there are open loops close as many of them**, the innermost first. -/
theorem Leaves.append_endTags (h : Leaves strict t u) {j : Nat} (hj : j ≤ u.loops.length) :
    ∃ u', Leaves strict (t ++ endTags j) u' ∧ u'.loops = u.loops.drop j := by
  induction j with
  | zero =>
      refine ⟨u, ?_, rfl⟩
      have hnone : t ++ endTags 0 = t := List.append_nil t
      rw [hnone]
      exact h
  | succ j ih =>
      obtain ⟨u', h', hloops⟩ := ih (by omega)
      have hdrop : u.loops.drop j = u.loops[j] :: u.loops.drop (j + 1) :=
        List.drop_eq_getElem_cons (by omega)
      have hclosed : u'.closeLoop? = some ⟨.loop u.loops[j].header u'.nodes.reverse ::
          u.loops[j].before, u.loops.drop (j + 1)⟩ := by
        rw [Unfinished.closeLoop?, hloops, hdrop]
      have hlater := h'.append_endTag hclosed
      rw [List.append_assoc, ← endTags_one, ← endTags_add] at hlater
      exact ⟨_, hlater, rfl⟩

/-- **What end tags behind a text come to**: with fewer of them than loops are open the loops that
are left are reported, with as many of them there is a document, and with more of them the first one
too many is reported. -/
theorem Leaves.parse_endTags {options : Options} (h : Leaves options.strict t u) (j : Nat) :
    (j < u.loops.length → ∃ v, (openVariables t.tags).reverse[u.loops.length - j - 1]? = some v ∧
      parse options (t ++ endTags j) = .error (.malformed
        ⟨.loopsNotClosed (u.loops.length - j) v, Position.start.advance (t ++ endTags j)⟩)) ∧
    (j = u.loops.length → ∃ document, parse options (t ++ endTags j) = .ok document) ∧
    (u.loops.length < j → parse options (t ++ endTags j) = .error (.malformed
      ⟨.endWithoutLoop,
        Position.start.advance (t ++ endTags u.loops.length ++ tagStartText)⟩)) := by
  refine ⟨fun hj => ?_, fun hj => ?_, fun hj => ?_⟩
  · -- too few: the innermost of the loops that are left is reported
    obtain ⟨u', h', hloops⟩ := h.append_endTags (Nat.le_of_lt hj)
    have hhead : u'.loops.head? = some u.loops[j] := by
      rw [hloops, List.head?_drop, List.getElem?_eq_getElem hj]
    have hlength : u'.loops.length = u.loops.length - j := by
      rw [hloops, List.length_drop]
    refine ⟨u.loops[j].header.var, ?_, ?_⟩
    · -- the builder holds the loops from the inside, and they are counted from the outside
      have hindex : u.loops.length - 1 - (u.loops.length - j - 1) = j := by omega
      rw [h.tracks.opened, List.getElem?_reverse (by rw [List.length_map]; omega), List.length_map,
        hindex, List.getElem?_map, List.getElem?_eq_getElem hj]
      rfl
    · rw [h'.parse_eq_loopsNotClosed hhead, hlength]
  · obtain ⟨u', h', hloops⟩ := h.append_endTags (Nat.le_of_eq hj)
    rw [hj, List.drop_length] at hloops
    exact ⟨_, h'.parse_eq_ok hloops⟩
  · -- too many: all loops are closed in front of the first one too many
    obtain ⟨u', h', hloops⟩ := h.append_endTags (Nat.le_refl _)
    rw [List.drop_length] at hloops
    obtain ⟨more, rfl⟩ : ∃ more, j = u.loops.length + (1 + more) :=
      ⟨j - u.loops.length - 1, by omega⟩
    rw [endTags_add, endTags_add, endTags_one, ← List.append_assoc]
    exact h'.parse_eq_endWithoutLoop hloops (endTags more)

end Leaves

/-! ## Where a parse fails -/

namespace BuildState

variable {strict : Bool} {s : BuildState} {l : Lexer} {run : ParseRun} {failure : ParseFailure}

/-- The request at which a parse fails: the tokens in front of it lead the builder to a state and
the lexer to the mode that its place calls for, and there the lexer gives no token, or one at which
the builder fails. -/
structure FailsBehind (strict : Bool) (s : BuildState) (l : Lexer) (run : ParseRun)
    (failure : ParseFailure) (ts : List Token) (s' : BuildState) (l' : Lexer) : Prop where
  result : run.result = .error failure
  reads : l.Reads ts l'
  replay : s.replay strict ts = .ok (.next s')
  mode : l'.mode = s'.place.mode
  lexer : run.lexer.mode = l'.mode
  request : (run.tokens = ts ∧ ∃ f, failure = .ofLex f) ∨
    ∃ t l'', run.tokens = ts ++ [t] ∧ l'.next = (.ok t, l'') ∧ s'.step strict t = .error failure

/-- **A parse that fails does so at a request.** -/
theorem Parses.exists_failsBehind (h : Parses strict s l run)
    (hfailure : run.result = .error failure) :
    ∃ ts s' l', FailsBehind strict s l run failure ts s' l' := by
  induction h with
  | @lexFailed s l l' f hmode hnext =>
      cases hfailure
      exact ⟨[], s, l, rfl, .done l, rfl, hmode, Lexer.mode_of_next hnext, .inl ⟨rfl, f, rfl⟩⟩
  | @malformed s l l' t e hmode hnext hstep =>
      cases hfailure
      exact ⟨[], s, l, rfl, .done l, rfl, hmode, Lexer.mode_of_next hnext,
        .inr ⟨t, l', rfl, hnext, hstep⟩⟩
  | finished hmode hnext hstep => cases hfailure
  | @token s s₁ l l₁ t run hmode hnext hstep _ ih =>
      obtain ⟨ts, s', l', -, hreads, hreplay, hmode', hlexer, hrequest⟩ := ih hfailure
      refine ⟨t :: ts, s', l', hfailure, .token hnext (step_next_not_end hstep) hreads, ?_, hmode',
        hlexer, ?_⟩
      · rw [replay_of_next hstep, hreplay]
      · rcases hrequest with ⟨rfl, hf⟩ | ⟨t', l'', htokens, hrest⟩
        · exact .inl ⟨rfl, hf⟩
        · exact .inr ⟨t', l'', by rw [htokens]; rfl, hrest⟩

theorem loopHeader?_ne_loopsNotClosed {elements : List Element} {k : Nat} {v : Identifier} :
    loopHeader? strict elements ≠ .error (.loopsNotClosed k v) := by
  intro h
  unfold loopHeader? loopHeaderOf at h
  grind

/-- Open loops are reported outside of tags, at the end of the input. -/
theorem outside_of_loopsNotClosed {t : Token} {k : Nat} {v : Identifier} {p : Position}
    (h : s.step strict t = .error (.malformed ⟨.loopsNotClosed k v, p⟩)) :
    s.place = .outside ∧ t.payload = .endOfInput := by
  obtain ⟨place, u⟩ := s
  cases place with
  | outside =>
      simp only [step, stepOutside, failAt] at h
      grind
  | tagOpened opening =>
      simp only [step, stepTagName, failAt] at h
      grind
  | arguments tag opening name read =>
      simp only [step, stepArgument, closeArguments, failAt] at h
      grind [loopHeader?_ne_loopsNotClosed]
  | ending opening name =>
      simp only [step, stepEnding, failAt] at h
      grind

end BuildState

/-- A text whose open loops are reported leaves them open. -/
theorem exists_leaves_of_loopsNotClosed {options : Options} {t : Text} {k : Nat}
    {innermost : Identifier} {position : Position}
    (h : parse options t = .error (.malformed ⟨.loopsNotClosed k innermost, position⟩)) :
    ∃ u, Leaves options.strict t u := by
  obtain ⟨ts, ⟨place, u⟩, l, hfails⟩ :=
    (BuildState.parses_parseRun options t).exists_failsBehind h
  rcases hfails.request with ⟨-, f, hf⟩ | ⟨last, l', -, hnext, hstep⟩
  · cases f <;> cases hf
  · obtain ⟨rfl, hlast⟩ := BuildState.outside_of_loopsNotClosed hstep
    have hmode : l.mode = .text := hfails.mode
    obtain ⟨hresult, -⟩ := (hfails.reads.ready (Lexer.ready_ofText t)).scan_of_next hnext
    rw [hmode, hlast] at hresult
    exact ⟨u, ts, l, hfails.reads, eq_nil_of_readText hresult, hmode, hfails.replay⟩

/-- What is reported of such a text are the loops that it leaves. -/
theorem exists_leaves_of_openLoops {options : Options} {t : Text} {k : Nat}
    {innermost : Identifier} {position : Position}
    (h : parse options t = .error (.malformed ⟨.loopsNotClosed k innermost, position⟩)) :
    ∃ u, Leaves options.strict t u ∧ u.loops.length = k ∧ 0 < k ∧
      (openVariables t.tags).head? = some innermost ∧ position = Position.start.advance t := by
  obtain ⟨u, hleaves⟩ := exists_leaves_of_loopsNotClosed h
  refine ⟨u, hleaves, ?_⟩
  cases hloops : u.loops with
  | nil =>
      rw [hleaves.parse_eq_ok hloops] at h
      cases h
  | cons l loops =>
      have hhead : u.loops.head? = some l := by rw [hloops, List.head?_cons]
      rw [hleaves.parse_eq_loopsNotClosed hhead, hloops] at h
      cases h
      refine ⟨rfl, Nat.succ_pos _, ?_, rfl⟩
      rw [hleaves.tracks.opened, hloops, List.map_cons, List.head?_cons]

/-- Only open loops are reported with their kind of failure. -/
theorem SyntaxCause.eq_loopsNotClosed_of_kind {cause : SyntaxCause}
    (h : cause.kind = .unbalancedFor) : ∃ k v, cause = .loopsNotClosed k v := by
  cases cause with
  | loopsNotClosed k v => exact ⟨k, v, rfl⟩
  | _ => cases h

/-- **Open loops are counted exactly.** If a text is refused for loops that are open, the diagnostic
counts those that its tags have left open and names the variable of the innermost. With fewer end
tags behind the text as many loops are reported as are left, the innermost of them by its variable;
with as many it parses; and with more the first end tag too many is reported, at its name. -/
theorem parse_append_endTags {options : Options} {t : Text} {e : SyntaxError}
    (h : parse options t = .error (.malformed e)) (hkind : e.diagnostic.kind = .unbalancedFor) :
    ∃ k, 0 < k ∧ (openVariables t.tags).length = k ∧
      (∃ innermost ∈ (openVariables t.tags).head?,
        e.diagnostic = .openLoops k innermost (Position.start.advance t)) ∧
      ∀ j,
        (j < k → ∃ v, (openVariables t.tags).reverse[k - j - 1]? = some v ∧
          ∃ e', parse options (t ++ endTags j) = .error (.malformed e') ∧
            e'.diagnostic = .openLoops (k - j) v (Position.start.advance (t ++ endTags j))) ∧
        (j = k → ∃ document, parse options (t ++ endTags j) = .ok document) ∧
        (k < j → ∃ e', parse options (t ++ endTags j) = .error (.malformed e') ∧
          e'.diagnostic =
            .endWithoutLoop (Position.start.advance (t ++ endTags k ++ tagStartText))) := by
  obtain ⟨cause, position⟩ := e
  obtain ⟨k, innermost, rfl⟩ := SyntaxCause.eq_loopsNotClosed_of_kind hkind
  obtain ⟨u, hleaves, hcount, hpos, hinnermost, rfl⟩ := exists_leaves_of_openLoops h
  refine ⟨k, hpos, ?_, ⟨innermost, hinnermost, rfl⟩, fun j => ?_⟩
  · rw [hleaves.tracks.opened, List.length_map, hcount]
  · obtain ⟨hfewer, hequal, hmore⟩ := hleaves.parse_endTags j
    rw [hcount] at hfewer hequal hmore
    refine ⟨fun hj => ?_, hequal, fun hj => ⟨_, hmore hj, rfl⟩⟩
    obtain ⟨v, hv, hparse⟩ := hfewer hj
    exact ⟨v, hv, _, hparse, rfl⟩

def twoOpenings : Text := "\x7b$FOR g--$\x7d\x7b$FOR h--$\x7d".toList

/-- One end tag leaves the outer loop open, two close both, and the third is refused. -/
theorem parse_append_endTags_twoOpenings :
    ∃ e₀ e₁ e₃ : SyntaxError,
      parse .default twoOpenings = .error (.malformed e₀) ∧ e₀.diagnostic =
        ⟨"2 FOR tag(s) not closed with END (innermost: h)", .unbalancedFor, 22, 1, 23⟩ ∧
      parse .default (twoOpenings ++ endTags 1) = .error (.malformed e₁) ∧ e₁.diagnostic =
        ⟨"1 FOR tag(s) not closed with END (innermost: g)", .unbalancedFor, 29, 1, 30⟩ ∧
      (∃ document, parse .default (twoOpenings ++ endTags 2) = .ok document) ∧
      parse .default (twoOpenings ++ endTags 3) = .error (.malformed e₃) ∧ e₃.diagnostic =
        ⟨"END tag without a matching FOR", .unbalancedEnd, 38, 1, 39⟩ := by
  have htokens : (Lexer.ofText twoOpenings).drain.tokens =
      [⟨.tagStart, ⟨0, 1, 1⟩⟩, ⟨.identifier "FOR".toList, ⟨2, 1, 3⟩⟩,
        ⟨.identifier ['g'], ⟨6, 1, 7⟩⟩, ⟨.operator '-', ⟨7, 1, 8⟩⟩, ⟨.operator '-', ⟨8, 1, 9⟩⟩,
        ⟨.tagEnd, ⟨9, 1, 10⟩⟩, ⟨.tagStart, ⟨11, 1, 12⟩⟩, ⟨.identifier "FOR".toList, ⟨13, 1, 14⟩⟩,
        ⟨.identifier ['h'], ⟨17, 1, 18⟩⟩, ⟨.operator '-', ⟨18, 1, 19⟩⟩,
        ⟨.operator '-', ⟨19, 1, 20⟩⟩, ⟨.tagEnd, ⟨20, 1, 21⟩⟩, ⟨.endOfInput, ⟨22, 1, 23⟩⟩] := by
    set_option maxRecDepth 2048 in cbv
  have h : parse .default twoOpenings
      = .error (.malformed ⟨.loopsNotClosed 2 ⟨['h'], by decide⟩, ⟨22, 1, 23⟩⟩) := by
    rw [BuildState.parse_eq_malformed_iff_replay, htokens]
    rfl
  have hopened : openVariables twoOpenings.tags = [⟨['h'], by decide⟩, ⟨['g'], by decide⟩] := by
    rw [Text.tags, htokens]
    rfl
  obtain ⟨k, -, hk, -, hbehind⟩ := parse_append_endTags h rfl
  rw [hopened] at hk hbehind
  obtain rfl : 2 = k := hk
  obtain ⟨v, hv, e₁, hone, hone'⟩ := (hbehind 1).1 (by decide)
  obtain ⟨e₃, hthree, hthree'⟩ := (hbehind 3).2.2 (by decide)
  cases hv
  exact ⟨_, e₁, e₃, h, rfl, hone, hone', (hbehind 2).2.1 rfl, hthree, hthree'⟩

end TagTemplate
