import TagTemplate.Proofs.Parser.OpenLoops

set_option autoImplicit false

/-! # What stands before a failure

A parse that fails does so in a tag, in a run of plain text, or at the end of the text, where loops
are left open. The text in front of that tag or run, or the whole text, is fine in itself
(`failurePoint`): it stops outside of tags, its tokens are those that the parse has read so far, and
so it leaves an unfinished document (`exists_leaves_take_failurePoint`). The main result is
`parse_take_failurePoint`: with an end tag for every loop that is open there, and with no other
number of end tags, it parses.
-/

namespace TagTemplate

/-! ## The tag that is being read -/

/-- The last of the elements with a property is found from the back. -/
theorem find?_reverse_of_last {α : Type} {p : α → Bool} {a : α} {front back : List α}
    (ha : p a = true) (hback : ∀ b ∈ back, p b = false) :
    (front ++ a :: back).reverse.find? p = some a := by
  have hnone : back.reverse.find? p = none := by
    rw [List.find?_eq_none]
    intro b hb
    rw [hback b (List.mem_reverse.mp hb)]
    simp
  rw [List.reverse_append, List.reverse_cons, List.append_assoc, List.find?_append, hnone,
    Option.none_or, List.singleton_append, List.find?_cons_of_pos ha]

namespace BuildState

variable {strict : Bool} {s s' : BuildState} {ts : List Token}

/-- A builder that has come into a tag has passed its opening, outside of tags, and no other opening
since then. -/
theorem exists_opening_of_replay (hs : s.place = .outside)
    (h : s.replay strict ts = .ok (.next s')) (hs' : s'.place.mode = .tag) :
    ∃ before opening inner u, ts = before ++ opening :: inner ∧ opening.payload = .tagStart ∧
      (∀ t ∈ inner, t.payload ≠ .tagStart) ∧
      s.replay strict before = .ok (.next ⟨.outside, u⟩) := by
  -- by induction from the back, since the opening is the last one
  induction ts using List.reverseRecOn generalizing s' with
  | nil =>
      cases h
      rw [hs] at hs'
      cases hs'
  | append_singleton ts t ih =>
      obtain ⟨s₁, hfront, hlast⟩ := exists_of_replay_append_next h
      obtain ⟨s₂, hstep, hdone⟩ := exists_of_replay_next hlast
      cases hdone
      have hmoves := step_next_iff.mp hstep
      have hinside : s₁.place.mode = .tag → t.payload ≠ .tagStart →
          ∃ before opening inner u, ts ++ [t] = before ++ opening :: inner ∧
            opening.payload = .tagStart ∧ (∀ t ∈ inner, t.payload ≠ .tagStart) ∧
            s.replay strict before = .ok (.next ⟨.outside, u⟩) := by
        intro hmode ht
        obtain ⟨before, opening, inner, u, rfl, hopening, hinner, hbefore⟩ := ih hfront hmode
        refine ⟨before, opening, inner ++ [t], u, by simp, hopening, ?_, hbefore⟩
        intro t' ht'
        rcases List.mem_append.mp ht' with ht' | ht'
        · exact hinner t' ht'
        · rw [List.mem_singleton.mp ht']
          exact ht
      cases hmoves with
      | text hp => cases hs'
      | opening hp => exact ⟨ts, t, [], _, rfl, hp, by simp, hfront⟩
      | argumentsName tag hp hname => exact hinside rfl (by simp [hp])
      | endingName hp hname => exact hinside rfl (by simp [hp])
      | argument e hp => exact hinside rfl (by rw [hp]; cases e <;> simp [Element.token])
      | echo hp => cases hs'
      | loop hp hheader => cases hs'
      | ending hp hclosed => cases hs'

end BuildState

/-! ## Where the part of a text begins in which its parse fails -/

/-- Where the part of a text begins in which its parse fails: at the opening of the tag that is
being read, or outside of tags at the end of the text if loops are left open there, and otherwise at
the start of the run of plain text. -/
def failurePoint (options : Options) (t : Text) : Nat :=
  let run := parseRun options t
  match run.lexer.mode, run.result with
  | .tag, _ =>
    match run.tokens.reverse.find? fun token => token.payload == .tagStart with
    | some opening => opening.position.offset
    | none => 0
  | .text, .error (.malformed ⟨.loopsNotClosed _ _, _⟩) => t.length
  | .text, _ => (Lexer.turn^[run.tokens.length] (Lexer.ofText t)).position.offset

variable {options : Options} {t : Text}

/-- **A text is cut where the builder is outside of tags**: the part in front of the cut leaves the
document that the builder has there. -/
theorem leaves_take {strict : Bool} {ts : List Token} {l : Lexer} {u : Unfinished}
    (hreads : (Lexer.ofText t).Reads ts l)
    (hreplay : BuildState.start.replay strict ts = .ok (.next ⟨.outside, u⟩)) :
    Leaves strict (t.take l.position.offset) u := by
  have hmode : l.mode = .text := by
    rw [hreads.mode_eq (Lexer.ready_ofText t)]
    exact (BuildState.mode_of_replay hreplay).symm
  have hfollows : l.mode.Follows l.rest [] := by
    rw [hmode]
    exact fun _ => .nil
  obtain ⟨front, ht, hposition, hfront⟩ := hreads.exchange_ofText fun _ _ => .inr hfollows
  have htake : t.take l.position.offset = front := by
    rw [hposition, Position.advance_offset, ht, show Position.start.offset = 0 from rfl,
      Nat.zero_add, List.take_left]
  rw [List.append_nil] at hfront
  rw [htake]
  exact ⟨ts, l.withRest [], hfront, rfl, hmode, hreplay⟩

/-- Outside of tags is the only place where text is read. -/
theorem Place.eq_outside {place : Place} (h : place.mode = .text) : place = .outside := by
  cases place with
  | outside => rfl
  | tagOpened opening => cases h
  | arguments tag opening name read => cases h
  | ending opening name => cases h

namespace BuildState

/-- Outside of tags the builder refuses no token but the end of the input, for open loops. -/
theorem exists_loopsNotClosed {strict : Bool} {u : Unfinished} {token : Token}
    {failure : ParseFailure} (hp : TextPayload token.payload)
    (h : step strict ⟨.outside, u⟩ token = .error failure) :
    ∃ k innermost position, failure = .malformed ⟨.loopsNotClosed k innermost, position⟩ := by
  simp only [step, stepOutside, failAt] at h
  generalize token.payload = p at hp h
  cases hp with
  | endOfInput =>
      cases hloops : u.loops with
      | nil => simp [hloops] at h
      | cons l loops =>
          rw [hloops] at h
          cases h
          exact ⟨_, _, _, rfl⟩
  | tagStart => cases h
  | text content hne => cases h

section FailsBehind

variable {failure : ParseFailure} {ts : List Token} {s : BuildState} {l : Lexer}

/-- In a tag no further tag is opened, so what a parse reads at the request at which it fails there
opens none. -/
theorem FailsBehind.exists_tokens
    (h : FailsBehind options.strict start (Lexer.ofText t) (parseRun options t) failure ts s l)
    (hmode : s.place.mode = .tag) :
    ∃ more, (parseRun options t).tokens = ts ++ more ∧
      ∀ token ∈ more, token.payload ≠ .tagStart := by
  rcases h.request with ⟨htokens, -⟩ | ⟨last, l', htokens, hnext, -⟩
  · exact ⟨[], by rw [htokens, List.append_nil], by simp⟩
  · refine ⟨[last], htokens, fun token htoken hstart => ?_⟩
    obtain rfl := List.mem_singleton.mp htoken
    obtain ⟨hresult, -⟩ := (h.reads.ready (Lexer.ready_ofText t)).scan_of_next hnext
    have hmakes := scan_makes hresult
    rw [h.mode, hmode, hstart] at hmakes
    rcases hmakes.delimiter with hdelimiter | hdelimiter <;> cases hdelimiter

/-- A parse that fails in a tag does so behind the opening of that tag, and the text in front of the
opening leaves an unfinished document. -/
theorem FailsBehind.leaves_of_tag
    (h : FailsBehind options.strict start (Lexer.ofText t) (parseRun options t) failure ts s l)
    (hmode : s.place.mode = .tag) :
    ∃ u, Leaves options.strict (t.take (failurePoint options t)) u := by
  have hready := Lexer.ready_ofText t
  obtain ⟨more, htokens, hmore⟩ := h.exists_tokens hmode
  obtain ⟨before, opening, inner, u, rfl, hopening, hinner, hbefore⟩ :=
    exists_opening_of_replay rfl h.replay hmode
  obtain ⟨l₁, hfront, hback⟩ := h.reads.exists_of_append
  -- the opening is the last one among all the tokens of the parse
  have hlast : ((parseRun options t).tokens.reverse.find? fun token => token.payload == .tagStart)
      = some opening := by
    rw [htokens, List.append_assoc, List.cons_append]
    refine find?_reverse_of_last (by rw [hopening]; rfl) fun token htoken => ?_
    rw [beq_eq_false_iff_ne]
    exact (List.mem_append.mp htoken).elim (hinner token) (hmore token)
  have hposition : opening.position = l₁.position := by
    have hmode₁ : l₁.mode = .text := by
      rw [hfront.mode_eq hready]
      exact (mode_of_replay hbefore).symm
    cases hback with
    | token hnext _ _ =>
        rw [((hfront.ready hready).position_of_next hnext).1, hmode₁]
        rfl
  have hpoint : failurePoint options t = l₁.position.offset := by
    simp only [failurePoint, h.lexer, h.mode, hmode, hlast, hposition]
  rw [hpoint]
  exact ⟨u, leaves_take hfront hbefore⟩

/-- A parse that fails outside of tags does so in front of a run of plain text, or at the end of the
text for open loops, and the text up to there leaves an unfinished document. -/
theorem FailsBehind.leaves_of_text
    (h : FailsBehind options.strict start (Lexer.ofText t) (parseRun options t) failure ts s l)
    (hmode : s.place.mode = .text) :
    ∃ u, Leaves options.strict (t.take (failurePoint options t)) u := by
  have hresult := h.result
  obtain ⟨place, u⟩ := s
  obtain rfl : place = .outside := Place.eq_outside hmode
  rcases h.request with ⟨htokens, f, rfl⟩ | ⟨last, l', -, hnext, hstep⟩
  · -- the lexer gives no token, and has stopped where the run of plain text begins
    have hpoint : failurePoint options t = l.position.offset := by
      simp only [failurePoint, h.lexer, h.mode, hmode, hresult, htokens, h.reads.iterate_turn]
      cases f <;> rfl
    rw [hpoint]
    exact ⟨u, leaves_take h.reads h.replay⟩
  · -- the builder fails at a token outside of tags, which is the end of the input
    obtain ⟨hlast, -⟩ := (h.reads.ready (Lexer.ready_ofText t)).scan_of_next hnext
    have hmakes := scan_makes hlast
    rw [h.mode] at hmakes
    obtain ⟨k, innermost, position, rfl⟩ := exists_loopsNotClosed hmakes hstep
    have hpoint : failurePoint options t = t.length := by
      simp only [failurePoint, h.lexer, h.mode, hmode, hresult]
    rw [hpoint, List.take_length]
    exact exists_leaves_of_loopsNotClosed hresult

end FailsBehind

end BuildState

/-- **The part in front of a failure leaves an unfinished document.** -/
theorem exists_leaves_take_failurePoint {failure : ParseFailure}
    (h : parse options t = .error failure) :
    ∃ u, Leaves options.strict (t.take (failurePoint options t)) u := by
  obtain ⟨ts, s, l, hfails⟩ := (BuildState.parses_parseRun options t).exists_failsBehind h
  cases hmode : s.place.mode with
  | tag => exact hfails.leaves_of_tag hmode
  | text => exact hfails.leaves_of_text hmode

/-- **Everything in front of a failure is fine.** If the parse of a text fails, the part in front of
the tag or the plain text in which it fails, or the whole text if loops are left open, parses with a
number of end tags behind it, and with no other number of them: the number of loops that its tags
leave open. -/
theorem parse_take_failurePoint {failure : ParseFailure} (h : parse options t = .error failure) :
    ∃ k : Nat, (openVariables (Text.tags (t.take (failurePoint options t)))).length = k ∧
      ∀ j, (∃ document, parse options (t.take (failurePoint options t) ++ endTags j)
        = .ok document) ↔ j = k := by
  obtain ⟨u, hleaves⟩ := exists_leaves_take_failurePoint h
  refine ⟨u.loops.length, by rw [hleaves.tracks.opened, List.length_map], fun j => ?_⟩
  obtain ⟨hless, hequal, hmore⟩ := hleaves.parse_endTags j
  constructor
  · rintro ⟨document, hdocument⟩
    rcases Nat.lt_trichotomy j u.loops.length with hj | hj | hj
    · obtain ⟨v, -, herror⟩ := hless hj
      rw [herror] at hdocument
      cases hdocument
    · exact hj
    · rw [hmore hj] at hdocument
      cases hdocument
  · exact hequal

/-- A loop that stays open, and plain text that begins with a brace and has an invalid escape. -/
def loopBeforeEscape : Text := "\x7b$FOR g--$\x7d\x7b\\n".toList

/-- The plain text begins behind the loop tag, and the text up to there needs one end tag. -/
theorem parse_take_failurePoint_escape :
    parse .default loopBeforeEscape
      = .error (.lexical ⟨.fault (.textEscape (some 'n')), ⟨12, 1, 13⟩⟩) ∧
      failurePoint .default loopBeforeEscape = 11 ∧
      ∀ j, (∃ document, parse .default (loopBeforeEscape.take 11 ++ endTags j) = .ok document) ↔
        j = 1 := by
  have htokens : (Lexer.ofText loopBeforeEscape).drain.tokens =
      [⟨.tagStart, ⟨0, 1, 1⟩⟩, ⟨.identifier "FOR".toList, ⟨2, 1, 3⟩⟩,
        ⟨.identifier ['g'], ⟨6, 1, 7⟩⟩, ⟨.operator '-', ⟨7, 1, 8⟩⟩, ⟨.operator '-', ⟨8, 1, 9⟩⟩,
        ⟨.tagEnd, ⟨9, 1, 10⟩⟩] := by
    set_option maxRecDepth 2048 in cbv
  have hfailure : (Lexer.ofText loopBeforeEscape).drain.failure =
      some (.error ⟨.fault (.textEscape (some 'n')), ⟨12, 1, 13⟩⟩) := by
    set_option maxRecDepth 2048 in cbv
  have hmode : (Lexer.ofText loopBeforeEscape).drain.lexer.mode = .text := by
    set_option maxRecDepth 2048 in cbv
  have h : (parseRun .default loopBeforeEscape).result
      = .error (.ofLex (.error ⟨.fault (.textEscape (some 'n')), ⟨12, 1, 13⟩⟩)) := by
    have hconcludes := BuildState.concludes_parse .default loopBeforeEscape
    rw [htokens, hfailure] at hconcludes
    exact hconcludes.unique (.lexFailed _ _)
  have hpoint : failurePoint .default loopBeforeEscape = 11 := by
    rw [(BuildState.parses_parseRun .default loopBeforeEscape).drain_eq_of_lexFailure h]
      at htokens hmode
    dsimp only at htokens hmode
    simp only [failurePoint, h, htokens, hmode]
    set_option maxRecDepth 2048 in cbv
  have hone : (openVariables (Text.tags (loopBeforeEscape.take 11))).length = 1 := by
    have hfront : (Lexer.ofText (loopBeforeEscape.take 11)).drain.tokens =
        (Lexer.ofText loopBeforeEscape).drain.tokens ++ [⟨.endOfInput, ⟨11, 1, 12⟩⟩] := by
      rw [htokens]
      set_option maxRecDepth 2048 in cbv
    rw [Text.tags, hfront, htokens]
    rfl
  obtain ⟨k, hk, hends⟩ := parse_take_failurePoint h
  rw [hpoint] at hk hends
  rw [hone] at hk
  rw [← hk] at hends
  exact ⟨h, hpoint, hends⟩

end TagTemplate
