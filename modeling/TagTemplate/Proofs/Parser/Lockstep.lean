import TagTemplate.Proofs.Lexer.Lexeme
import TagTemplate.Proofs.Lexer.Request
import TagTemplate.Proofs.Parser.Replay

set_option autoImplicit false

/-! # The parser and the loop over a text read the same tokens

The parser switches the mode of its lexer when it has a tag behind it, and the loop over a text at
every token that opens or closes a tag. `BuildState.Parses` is a parse as a relation, one request
after the other, each made in the mode that the place calls for, and every parse is one
(`BuildState.parses_run`). By induction on it the parser reads a front of the tokens of the loop
(`BuildState.Parses.tokens_prefix`), and all of them if it succeeds
(`BuildState.Parses.drain_eq_of_ok`). The main result is `parse_follows_tokenize`.
-/

namespace TagTemplate

namespace Lexer

variable {l l' : Lexer} {token : Token}

/-- The loop begins with the token that the next request gives. -/
theorem exists_drain_cons (hnext : l.next = (.ok token, l')) :
    ∃ ts, l.drain.tokens = token :: ts := by
  by_cases hend : token.isEnd = true
  · exact ⟨[], by rw [drain_of_end hnext hend]⟩
  · exact ⟨_, by rw [drain_of_token hnext (by simpa using hend)]⟩

end Lexer

/-- Different failures of the lexer are different failures of the parser. -/
theorem ParseFailure.ofLex_inj {a b : LexFailure} : ofLex a = ofLex b ↔ a = b := by
  cases a <;> cases b <;> simp [ofLex]

namespace BuildState

/-! ## Parses, one request at a time -/

/-- A parse from a state and a lexer in the mode that its place calls for: what it has read, what it
comes to, and its lexer behind that. -/
inductive Parses (strict : Bool) : BuildState → Lexer → ParseRun → Prop
  | lexFailed {s : BuildState} {l l' : Lexer} {failure : LexFailure}
      (hmode : l.mode = s.place.mode) (hnext : l.next = (.error failure, l')) :
      Parses strict s l ⟨[], .error (.ofLex failure), l'⟩
  | malformed {s : BuildState} {l l' : Lexer} {t : Token} {e : SyntaxError}
      (hmode : l.mode = s.place.mode) (hnext : l.next = (.ok t, l'))
      (hstep : s.step strict t = .error (.malformed e)) :
      Parses strict s l ⟨[t], .error (.malformed e), l'⟩
  | finished {s : BuildState} {l l' : Lexer} {t : Token} {document : List Node}
      (hmode : l.mode = s.place.mode) (hnext : l.next = (.ok t, l'))
      (hstep : s.step strict t = .ok (.finished document)) :
      Parses strict s l ⟨[t], .ok document, l'⟩
  | token {s s' : BuildState} {l l' : Lexer} {t : Token} {run : ParseRun}
      (hmode : l.mode = s.place.mode) (hnext : l.next = (.ok t, l'))
      (hstep : s.step strict t = .ok (.next s')) (hrest : Parses strict s' (l'.behind t) run) :
      Parses strict s l { run with tokens := t :: run.tokens }

/-- **The parser parses**, from every state and ready lexer. -/
theorem parses_run (options : Options) (s : BuildState) (l : Lexer) (hready : l.Ready)
    (hmode : l.mode = s.place.mode) : Parses options.strict s l (s.run options l) := by
  cases hnext : l.next with
  | mk result l' =>
      cases result with
      | error failure =>
          rw [run_of_lexFailure hmode hnext]
          exact .lexFailed hmode hnext
      | ok t =>
          cases hstep : s.step options.strict t with
          | error failure =>
              obtain ⟨e, rfl⟩ := step_error_of_next hready hmode hnext hstep
              rw [run_of_failure hmode hnext hstep]
              exact .malformed hmode hnext hstep
          | ok step =>
              cases step with
              | finished document =>
                  rw [run_of_finished hmode hnext hstep]
                  exact .finished hmode hnext hstep
              | next s' =>
                  have ht := step_next_not_end hstep
                  have hlt := Lexer.next_rest_lt hnext ht
                  obtain ⟨hmode', hrun⟩ := run_of_next hmode hnext hstep
                  rw [hrun]
                  have hready' : (l'.behind t).Ready := (hready.of_next hnext ht).setMode _
                  exact .token hmode hnext hstep (parses_run options s' _ hready' hmode')
termination_by l.rest.length
decreasing_by exact hlt

theorem parses_parseRun (options : Options) (t : Text) :
    Parses options.strict start (Lexer.ofText t) (parseRun options t) :=
  parses_run options start (Lexer.ofText t) (Lexer.ready_ofText t) rfl

section Parses

variable {strict : Bool} {s : BuildState} {l : Lexer} {run : ParseRun}

/-- **The parser reads a front of the tokens of the loop.** -/
theorem Parses.tokens_prefix (h : Parses strict s l run) : run.tokens <+: l.drain.tokens := by
  induction h with
  | lexFailed hmode hnext => exact List.nil_prefix
  | malformed hmode hnext hstep =>
      obtain ⟨ts, hts⟩ := Lexer.exists_drain_cons hnext
      exact ⟨ts, by rw [hts]; rfl⟩
  | finished hmode hnext hstep =>
      obtain ⟨ts, hts⟩ := Lexer.exists_drain_cons hnext
      exact ⟨ts, by rw [hts]; rfl⟩
  | token hmode hnext hstep _ ih =>
      rw [Lexer.drain_of_token hnext (step_next_not_end hstep)]
      exact List.cons_prefix_cons.mpr ⟨rfl, ih⟩

/-- **A parse that succeeds has read all that the loop reads**, in text mode at the end. -/
theorem Parses.drain_eq_of_ok (h : Parses strict s l run) (hready : l.Ready)
    {document : List Node} (hok : run.result = .ok document) :
    l.drain = ⟨run.tokens, none, run.lexer⟩ ∧ run.lexer.rest = [] ∧ run.lexer.mode = .text ∧
      ∃ ts last, run.tokens = ts ++ [last] ∧ last.isEnd = true := by
  induction h with
  | lexFailed hmode hnext => simp at hok
  | malformed hmode hnext hstep => simp at hok
  | @finished s l l' t _ hmode hnext hstep =>
      -- the document is finished outside of tags, where the mode is that of text
      obtain ⟨hplace, hp, -⟩ := step_finished_iff.mp hstep
      have hend := Token.isEnd_iff.mpr hp
      refine ⟨Lexer.drain_of_end hnext hend, hready.rest_of_end hnext hend, ?_,
        [], t, rfl, hend⟩
      rw [Lexer.mode_of_next hnext, hmode, hplace]
      rfl
  | @token s s' l l' t run hmode hnext hstep _ ih =>
      have ht := step_next_not_end hstep
      obtain ⟨hdrain, hrest, hmode', ts, last, htokens, hend⟩ :=
        ih ((hready.of_next hnext ht).setMode _) hok
      refine ⟨?_, hrest, hmode', t :: ts, last, ?_, hend⟩
      · rw [Lexer.drain_of_token hnext ht, hdrain]
      · rw [htokens]
        rfl

/-- **A parse that its lexer stops has read all that the loop reads.** -/
theorem Parses.drain_eq_of_lexFailure (h : Parses strict s l run) {failure : LexFailure}
    (hfailure : run.result = .error (.ofLex failure)) :
    l.drain = ⟨run.tokens, some failure, run.lexer⟩ := by
  induction h with
  | @lexFailed s l l' failure' hmode hnext =>
      rw [Lexer.drain_of_error hnext, ParseFailure.ofLex_inj.mp (Except.error.inj hfailure)]
  | malformed hmode hnext hstep => cases failure <;> simp [ParseFailure.ofLex] at hfailure
  | finished hmode hnext hstep => simp at hfailure
  | token hmode hnext hstep _ ih =>
      rw [Lexer.drain_of_token hnext (step_next_not_end hstep), ih hfailure]

/-- A parse leaves its lexer in the text. -/
theorem Parses.standsIn (h : Parses strict s l run) {t : Text} (hl : l.StandsIn t) :
    run.lexer.StandsIn t := by
  induction h with
  | lexFailed hmode hnext => exact (hl.next hnext).1
  | malformed hmode hnext hstep => exact (hl.next hnext).1
  | finished hmode hnext hstep => exact (hl.next hnext).1
  | token hmode hnext hstep _ ih => exact ih ((hl.next hnext).1.setMode _)

/-- An error of the syntax comes from the tokens that were read. -/
theorem Parses.replay_of_malformed (h : Parses strict s l run) {e : SyntaxError}
    (he : run.result = .error (.malformed e)) :
    s.replay strict run.tokens = .error (.malformed e) := by
  induction h with
  | @lexFailed s l l' failure hmode hnext => cases failure <;> simp [ParseFailure.ofLex] at he
  | malformed hmode hnext hstep =>
      cases he
      exact replay_of_error hstep
  | finished hmode hnext hstep => simp at he
  | token hmode hnext hstep _ ih =>
      rw [replay_of_next hstep]
      exact ih he

end Parses

/-! ## Parses and the tokens of the loop -/

/-- Behind a failure no further token is looked at. -/
theorem replay_append_of_error {strict : Bool} {s : BuildState} {ts : List Token}
    {failure : ParseFailure} (h : s.replay strict ts = .error failure) (us : List Token) :
    s.replay strict (ts ++ us) = .error failure := by
  induction ts generalizing s with
  | nil => simp [replay] at h
  | cons t ts ih =>
      rw [List.cons_append]
      cases hstep : s.step strict t with
      | error failure' =>
          rw [replay_of_error hstep] at h ⊢
          exact h
      | ok step =>
          cases step with
          | finished document =>
              rw [replay_of_finished hstep] at h
              simp at h
          | next s' =>
              rw [replay_of_next hstep] at h ⊢
              exact ih h

/-- Tokens that do not form a template are an error in every text that begins with them. -/
theorem parse_eq_malformed_of_prefix {options : Options} {t : Text} {ts : List Token}
    {e : SyntaxError} (hts : ts <+: (Lexer.ofText t).drain.tokens)
    (h : start.replay options.strict ts = .error (.malformed e)) :
    parse options t = .error (.malformed e) := by
  obtain ⟨us, hus⟩ := hts
  rw [parse_eq_malformed_iff_replay, ← hus]
  exact replay_append_of_error h us

end BuildState

/-- **The parser follows the loop over the text.** It reads a front of the tokens of the loop. If it
succeeds, the text is tokenized, the parser has read all the tokens, the end of the input included,
and its lexer stands behind the text in text mode. If tokenizing fails, the parser fails as well:
with the same failure, or with an error that its tokens have in whatever text they come first. -/
theorem parse_follows_tokenize (options : Options) (t : Text) :
    (parseRun options t).tokens <+: (Lexer.ofText t).drain.tokens ∧
    (∀ document, parse options t = .ok document →
      tokenize t = .ok (parseRun options t).tokens ∧
      (∃ ts last, (parseRun options t).tokens = ts ++ [last] ∧ last.payload = .endOfInput) ∧
      (parseRun options t).lexer.position.offset = t.length ∧
      (parseRun options t).lexer.mode = .text) ∧
    ∀ failure, tokenize t = .error failure →
      parse options t = .error (.ofLex failure) ∨
      ∃ e, parse options t = .error (.malformed e) ∧
        ∀ t', (parseRun options t).tokens <+: (Lexer.ofText t').drain.tokens →
          parse options t' = .error (.malformed e) := by
  have hparses := BuildState.parses_parseRun options t
  refine ⟨hparses.tokens_prefix, fun document hok => ?_, fun failure hfailure => ?_⟩
  · obtain ⟨hdrain, hrest, hmode, ts, last, htokens, hend⟩ :=
      hparses.drain_eq_of_ok (Lexer.ready_ofText t) hok
    have htokenize : tokenize t = .ok (Lexer.ofText t).drain.tokens :=
      tokenize_eq_ok_of_drain (by rw [hdrain])
    have hstands := hparses.standsIn (Lexer.standsIn_ofText t)
    refine ⟨?_, ⟨ts, last, htokens, Token.isEnd_iff.mp hend⟩, hstands.offset_of_rest hrest, hmode⟩
    rw [htokenize, hdrain]
  · have hconcludes := BuildState.concludes_parse options t
    rw [drain_failure_of_tokenize hfailure] at hconcludes
    cases hresult : parse options t with
    | ok document =>
        -- a parse that succeeds leaves no failure of the loop
        rw [hresult] at hconcludes
        obtain ⟨-, hnone⟩ := BuildState.Concludes.ok_iff.mp hconcludes
        simp at hnone
    | error failure' =>
        rw [hresult] at hconcludes
        generalize BuildState.start.replay options.strict _ = replayed at hconcludes
        cases hconcludes with
        | lexFailed s failure => exact Or.inl rfl
        | malformed e rest =>
            refine Or.inr ⟨e, rfl, fun t' ht' => ?_⟩
            exact BuildState.parse_eq_malformed_of_prefix ht' (hparses.replay_of_malformed hresult)

end TagTemplate
