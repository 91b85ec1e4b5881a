import TagTemplate.Proofs.Lexer.Final
import TagTemplate.Proofs.Lexer.Lexeme
import TagTemplate.Proofs.Parser.Replay

set_option autoImplicit false

/-! # Progress and termination

No request moves a lexer back, and one that gives a token moves it forward, unless the token is the
end of the input, which is given at the end of the text and not again. So there is a number that no
request raises and every token lowers: the characters that are left, and one more for the end of the
input (`Lexer.tokensLeft`). It bounds the tokens of every session (`Lexer.length_produced_le`),
whatever modes the lexer is set to.

The loops that read a text to its end have no counter. Here each is given a budget, one unit for
every token that it asks for, and gives up when the budget is spent (`Lexer.drainWithin`,
`BuildState.runWithin`). One unit more than there are characters is always enough, and then the
loop comes to what it comes to without a budget. The main result is `requests_bounded`.
-/

namespace TagTemplate

namespace Lexer

/-! ## Progress -/

section Progress

variable {t : Text} {l l' : Lexer}

/-- What a lexer has passed and what is left make up the text. -/
theorem StandsIn.offset_add_length (h : l.StandsIn t) :
    l.position.offset + l.rest.length = t.length := by
  obtain ⟨front, htext, hposition⟩ := h.place
  have hlength : t.length = front.length + l.rest.length := by
    rw [← List.length_append, ← htext]
  have hoffset : l.position.offset = 0 + front.length := by
    rw [hposition, Position.advance_offset]
    rfl
  omega

/-- A request for a token does not move the lexer back. -/
theorem offset_le_of_next {result : Except LexFailure Token} (hnext : l.next = (result, l')) :
    l.position.offset ≤ l'.position.offset := by
  cases outcome_of_next hnext with
  | stopped hmet => exact Nat.le_refl _
  | pastEnd hmet hend => exact Nat.le_refl _
  | token hready hmet hlast hstart hstop => exact Nat.le_trans hstart hstop
  | fault hready hmet hlast hstart hstop => exact Nat.le_trans hstart hstop
  | digitLimit hready hmet hlast hstop => exact hstop

/-- **No request moves the lexer back.** -/
theorem offset_le_ask (l : Lexer) (request : Request) :
    l.position.offset ≤ (l.ask request).2.position.offset := by
  have heffect := l.effect_ask request
  generalize request.produced? (l.ask request).1 = produced, (l.ask request).2 = l' at heffect ⊢
  cases heffect with
  | token hnext => exact offset_le_of_next hnext
  | failed hnext => exact offset_le_of_next hnext
  | setMode mode => exact Nat.le_refl _

/-- **A token moves the lexer forward**, unless it is the end of the input. -/
theorem StandsIn.offset_lt_of_next (h : l.StandsIn t) {token : Token}
    (hnext : l.next = (.ok token, l')) (hend : token.isEnd = false) :
    l.position.offset < l'.position.offset := by
  have hless := next_rest_lt hnext hend
  have hbefore := h.offset_add_length
  have hbehind := (h.next hnext).1.offset_add_length
  omega

/-- The end of the input is given at the end of the text. -/
theorem StandsIn.offset_of_end (h : l.StandsIn t) {token : Token}
    (hnext : l.next = (.ok token, l')) (hend : token.isEnd = true) :
    l'.position.offset = t.length := by
  cases outcome_of_next hnext with
  | token hready hmet hlast hstart hstop =>
      exact (h.next hnext).1.offset_of_rest (hready.rest_of_end hnext hend)

end Progress

/-! ## The tokens of a session -/

section Sessions

variable {t : Text} {l l' : Lexer}

/-- How many tokens a lexer can give at most: one for each character that is left, and the end of
the input, if it has not been given before. -/
def tokensLeft (l : Lexer) : Nat := if l.isFinished then 0 else l.rest.length + 1

theorem tokensLeft_of_finished (h : l.isFinished = true) : l.tokensLeft = 0 := if_pos h

theorem Ready.tokensLeft (h : l.Ready) : l.tokensLeft = l.rest.length + 1 := by
  rw [Lexer.tokensLeft, h.unfinished]
  rfl

/-- A request that fails leaves no more tokens than there were. -/
theorem StandsIn.tokensLeft_of_error (h : l.StandsIn t) {failure : LexFailure}
    (hnext : l.next = (.error failure, l')) : l'.tokensLeft ≤ l.tokensLeft := by
  have hle := offset_le_of_next hnext
  have hbefore := h.offset_add_length
  have hbehind := (h.next hnext).1.offset_add_length
  have hsame : l'.isFinished = l.isFinished := by
    rw [isFinished, isFinished, last_of_next_error hnext]
  unfold Lexer.tokensLeft
  rw [hsame]
  split
  · exact Nat.le_refl _
  · omega

/-- A token uses up one of those that were left. -/
theorem tokensLeft_of_ok {token : Token} (hnext : l.next = (.ok token, l')) :
    1 + l'.tokensLeft ≤ l.tokensLeft := by
  cases outcome_of_next hnext with
  | token hready hmet hlast hstart hstop =>
      rw [hready.tokensLeft]
      by_cases hend : token.isEnd = true
      · have hfinished : l'.isFinished = true := by rw [isFinished, hlast]; exact hend
        rw [tokensLeft_of_finished hfinished]
        omega
      · have hnot : token.isEnd = false := by simpa using hend
        have hless := next_rest_lt hnext hnot
        rw [(hready.of_next hnext hnot).tokensLeft]
        omega

/-- **One request** uses up the token that it produces, if it produces one. -/
theorem StandsIn.tokensLeft_ask (h : l.StandsIn t) (request : Request) :
    (request.produced? (l.ask request).1).toList.length + (l.ask request).2.tokensLeft
      ≤ l.tokensLeft := by
  have heffect := l.effect_ask request
  generalize request.produced? (l.ask request).1 = produced, (l.ask request).2 = l' at heffect ⊢
  cases heffect with
  | token hnext => exact tokensLeft_of_ok hnext
  | failed hnext =>
      show 0 + l'.tokensLeft ≤ l.tokensLeft
      rw [Nat.zero_add]
      exact h.tokensLeft_of_error hnext
  | setMode mode =>
      show 0 + l.tokensLeft ≤ l.tokensLeft
      omega

/-- **A session** produces no more tokens than there are left. -/
theorem length_produced_le (requests : List Request) (h : l.StandsIn t) :
    (l.produced requests).length ≤ l.tokensLeft := by
  induction requests generalizing l with
  | nil => exact Nat.zero_le _
  | cons request requests ih =>
      have hone := h.tokensLeft_ask request
      have hlater := ih (h.ask request).1
      rw [produced, List.length_append]
      omega

end Sessions

/-! ## The loop over a text -/

/-- The run of a lexer up to the end of the input or the first failure, with a budget of requests;
nothing if the budget is spent before. -/
def drainWithin : Nat → Lexer → Option TokenRun
  | 0, _ => none
  | n + 1, l =>
    match l.next with
    | (.error failure, l') => some ⟨[], some failure, l'⟩
    | (.ok t, l') =>
      if t.isEnd then some ⟨[t], none, l'⟩
      else (drainWithin n (l'.behind t)).map fun run => { run with tokens := t :: run.tokens }

/-- **One request more than there are characters left is enough** for the loop over a text. -/
theorem drainWithin_eq_drain {n : Nat} {l : Lexer} (h : l.rest.length < n) :
    drainWithin n l = some l.drain := by
  -- on the budget: a token that is not the end of the input lowers both sides of `h`
  induction n generalizing l with
  | zero => omega
  | succ n ih =>
      unfold drainWithin
      cases hnext : l.next with
      | mk result l' =>
          cases result with
          | error failure => rw [drain_of_error hnext]
          | ok token =>
              by_cases hend : token.isEnd = true
              · rw [drain_of_end hnext hend]
                exact if_pos hend
              · have hnot : token.isEnd = false := by simpa using hend
                have hless := next_rest_lt hnext hnot
                have hlater : drainWithin n (l'.behind token) = some (l'.behind token).drain := by
                  apply ih
                  show l'.rest.length < n
                  omega
                rw [drain_of_token hnext hnot]
                dsimp only
                rw [if_neg hend, hlater]
                rfl

end Lexer

/-! ## The loops of the parser -/

namespace BuildState

/-- The parse from a state of the builder and a lexer on, with a budget of requests; nothing if the
budget is spent before the parse is over. -/
def runWithin (options : Options) : Nat → BuildState → Lexer → Option ParseRun
  | 0, _, _ => none
  | n + 1, s, l =>
    match (l.setMode s.place.mode).next with
    | (.error failure, l') => some ⟨[], .error (.ofLex failure), l'⟩
    | (.ok t, l') =>
      match s.step options.strict t with
      | .error failure => some ⟨[t], .error failure, l'⟩
      | .ok (.finished document) => some ⟨[t], .ok document, l'⟩
      | .ok (.next s') =>
        (runWithin options n s' l').map fun run => { run with tokens := t :: run.tokens }

/-- **One request more than there are characters left is enough** for the parser, among the
arguments of a tag as well as outside of tags. -/
theorem runWithin_eq_run {options : Options} {n : Nat} {s : BuildState} {l : Lexer}
    (h : l.rest.length < n) : runWithin options n s l = some (s.run options l) := by
  -- on the budget: the builder goes on only behind a token that is not the end of the input
  induction n generalizing s l with
  | zero => omega
  | succ n ih =>
      have hmode : (l.setMode s.place.mode).mode = s.place.mode := rfl
      rw [runWithin, ← run_setMode]
      cases hnext : (l.setMode s.place.mode).next with
      | mk result l' =>
          cases result with
          | error failure => rw [run_of_lexFailure hmode hnext]
          | ok t =>
              dsimp only
              cases hstep : s.step options.strict t with
              | error failure => rw [run_of_failure hmode hnext hstep]
              | ok step =>
                  cases step with
                  | finished document => rw [run_of_finished hmode hnext hstep]
                  | next s' =>
                      have hless : l'.rest.length < (l.setMode s.place.mode).rest.length :=
                        Lexer.next_rest_lt hnext (step_next_not_end hstep)
                      have hsame : (l.setMode s.place.mode).rest = l.rest := rfl
                      have hlater : runWithin options n s' l' = some (s'.run options l') := by
                        apply ih
                        rw [hsame] at hless
                        omega
                      obtain ⟨hmode', hrun⟩ := run_of_next hmode hnext hstep
                      -- the mode behind the token is the one that the next place asks for
                      have hbehind : l'.behind t = l'.setMode s'.place.mode := by
                        rw [← hmode']
                        rfl
                      dsimp only
                      rw [hlater, hrun, hbehind, run_setMode]
                      rfl

end BuildState

/-- **Every session and every loop makes progress and comes to an end.** In every session over a
text no request moves the lexer back; every token but the end of the input moves it forward, and the
end of the input is given at the end of the text; and no more tokens are given than the text has
characters, and one. With a budget of as many requests the loop over the text and the parser, with
any options, come to what they come to without a budget. -/
theorem requests_bounded (t : Text) :
    (∀ requests request, ((Lexer.ofText t).askAll requests).position.offset
      ≤ (((Lexer.ofText t).askAll requests).ask request).2.position.offset) ∧
    (∀ requests token l, ((Lexer.ofText t).askAll requests).ask .next = (.token token, l) →
      (token.payload ≠ .endOfInput →
        ((Lexer.ofText t).askAll requests).position.offset < l.position.offset) ∧
      (token.payload = .endOfInput → l.position.offset = t.length)) ∧
    (∀ requests, ((Lexer.ofText t).produced requests).length ≤ t.length + 1) ∧
    Lexer.drainWithin (t.length + 1) (Lexer.ofText t) = some (Lexer.ofText t).drain ∧
    ∀ options, BuildState.runWithin options (t.length + 1) .start (Lexer.ofText t)
      = some (parseRun options t) := by
  refine ⟨fun requests => Lexer.offset_le_ask _, ?_, ?_, ?_, ?_⟩
  · intro requests token l hask
    have hstands := Lexer.standsIn_askAll t requests
    have hnext := Lexer.ask_next_eq_token_iff.mp hask
    constructor
    · intro hp
      exact hstands.offset_lt_of_next hnext (Token.isEnd_eq_false_iff.mpr hp)
    · intro hp
      exact hstands.offset_of_end hnext (Token.isEnd_iff.mpr hp)
  · intro requests
    have hleft : (Lexer.ofText t).tokensLeft = t.length + 1 := (Lexer.ready_ofText t).tokensLeft
    have hle := Lexer.length_produced_le requests (Lexer.standsIn_ofText t)
    omega
  · exact Lexer.drainWithin_eq_drain (Nat.lt_succ_self _)
  · intro options
    exact BuildState.runWithin_eq_run (Nat.lt_succ_self _)

/-- A tag that is cut off behind its opening: the whitespace is passed, and the end of the input is
given behind it. -/
theorem requests_bounded_cutOff :
    ∃ l, ((Lexer.ofText "\x7b$ \n".toList).askAll [.next, .setMode (.mode .tag)]).ask .next
        = (.token ⟨.endOfInput, ⟨4, 2, 1⟩⟩, l) ∧ l.position.offset = 4 :=
  ⟨_, rfl, ((requests_bounded "\x7b$ \n".toList).2.1 [.next, .setMode (.mode .tag)]
    ⟨.endOfInput, ⟨4, 2, 1⟩⟩ _ rfl).2 rfl⟩

end TagTemplate
