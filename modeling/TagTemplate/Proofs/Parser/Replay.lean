import TagTemplate.Parser.Parse
import TagTemplate.Proofs.Lexer.Run
import TagTemplate.Proofs.Parser.Step

set_option autoImplicit false

/-! # A parse replays the tokens of the text

The parser sets the mode of its lexer from the place of the builder, and the loop over a whole text
sets it from the last token. The two agree (`BuildState.Moves.mode`), so a parse is the builder's
steps over the tokens that the loop gives (`BuildState.replay`), cut off where the builder fails.
The main result is `BuildState.concludes_run`: it leaves of a parse only the replay and the failure
of the loop, and says nothing of lexers any more.
-/

namespace TagTemplate

namespace BuildState

/-- The builder's steps over a list of tokens; tokens behind the end or a failure are not looked
at. -/
def replay (strict : Bool) : BuildState → List Token → Except ParseFailure Step
  | s, [] => .ok (.next s)
  | s, t :: ts =>
    match s.step strict t with
    | .ok (.next s') => replay strict s' ts
    | .ok (.finished document) => .ok (.finished document)
    | .error failure => .error failure

variable {strict : Bool} {s s' : BuildState} {t : Token} {ts : List Token}

theorem replay_of_next (h : s.step strict t = .ok (.next s')) :
    s.replay strict (t :: ts) = s'.replay strict ts := by
  rw [replay, h]

theorem replay_of_finished {document : List Node}
    (h : s.step strict t = .ok (.finished document)) :
    s.replay strict (t :: ts) = .ok (.finished document) := by
  rw [replay, h]

theorem replay_of_error {failure : ParseFailure} (h : s.step strict t = .error failure) :
    s.replay strict (t :: ts) = .error failure := by
  rw [replay, h]

/-- A replay that goes on has gone on behind its first token. -/
theorem exists_of_replay_next (h : s.replay strict (t :: ts) = .ok (.next s')) :
    ∃ s₁, s.step strict t = .ok (.next s₁) ∧ s₁.replay strict ts = .ok (.next s') := by
  cases hstep : s.step strict t with
  | error failure =>
      rw [replay_of_error hstep] at h
      cases h
  | ok step =>
      cases step with
      | finished document =>
          rw [replay_of_finished hstep] at h
          cases h
      | next s₁ =>
          rw [replay_of_next hstep] at h
          exact ⟨s₁, rfl, h⟩

/-- A replay that goes on has gone on behind every part of its tokens. -/
theorem exists_of_replay_append_next {us : List Token}
    (h : s.replay strict (ts ++ us) = .ok (.next s')) :
    ∃ s₁, s.replay strict ts = .ok (.next s₁) ∧ s₁.replay strict us = .ok (.next s') := by
  induction ts generalizing s with
  | nil => exact ⟨s, rfl, h⟩
  | cons t ts ih =>
      obtain ⟨s₁, hstep, hlater⟩ := exists_of_replay_next h
      rw [replay_of_next hstep]
      exact ih hlater

/-- A replay that goes on does so over the tokens behind. -/
theorem replay_append_of_next (h : s.replay strict ts = .ok (.next s')) (us : List Token) :
    s.replay strict (ts ++ us) = s'.replay strict us := by
  induction ts generalizing s with
  | nil =>
      cases h
      rfl
  | cons t ts ih =>
      obtain ⟨s₁, hstep, hlater⟩ := exists_of_replay_next h
      rw [List.cons_append, replay_of_next hstep, ih hlater]

/-! ## One mode -/

/-- **The place behind a token calls for the mode that the token switches to.** -/
theorem Moves.mode (h : Moves strict s t s') :
    s'.place.mode = modeAfter s.place.mode t.payload := by
  cases h with
  | text hp => rw [hp]; rfl
  | opening hp => rw [hp]; rfl
  | argumentsName tag hp hname => rw [hp]; rfl
  | endingName hp hname => rw [hp]; rfl
  | argument e hp => rw [hp]; cases e <;> rfl
  | echo hp => rw [hp]; rfl
  | loop hp hheader => rw [hp]; rfl
  | ending hp hclosed => rw [hp]; rfl

/-- The place behind tokens calls for the mode that they lead to. -/
theorem mode_of_replay (h : s.replay strict ts = .ok (.next s')) :
    s'.place.mode = (ts.map Token.payload).foldl modeAfter s.place.mode := by
  induction ts generalizing s with
  | nil =>
      cases h
      rfl
  | cons t ts ih =>
      obtain ⟨s₁, hstep, hlater⟩ := exists_of_replay_next h
      rw [ih hlater, (step_next_iff.mp hstep).mode]
      rfl

end BuildState

/-- A request leaves the mode alone. -/
theorem Lexer.mode_of_next {l l' : Lexer} {result : Except LexFailure Token}
    (h : l.next = (result, l')) : l'.mode = l.mode := by
  have hmode : l.next.2.mode = l.mode := by
    unfold Lexer.next
    split
    · rfl
    · split
      · rfl
      · unfold Lexer.afterScan
        dsimp only
        split <;> rfl
  rw [h] at hmode
  exact hmode

namespace BuildState

variable {options : Options} {s s' : BuildState} {l l' : Lexer} {t : Token}

/-! ## The parse, one token at a time

The lexer of these lemmas is already in the mode that the place calls for. -/

theorem setMode_of_mode (hmode : l.mode = s.place.mode) : l.setMode s.place.mode = l := by
  rw [← hmode]
  rfl

/-- A parse sets the mode itself. -/
theorem run_setMode (options : Options) (s : BuildState) (l : Lexer) :
    s.run options (l.setMode s.place.mode) = s.run options l := by
  rw [run, run]
  rfl

theorem run_of_lexFailure (hmode : l.mode = s.place.mode) {failure : LexFailure}
    (hnext : l.next = (.error failure, l')) :
    s.run options l = ⟨[], .error (.ofLex failure), l'⟩ := by
  rw [run]
  split
  · next heq =>
    rw [setMode_of_mode hmode, hnext] at heq
    cases heq
    rfl
  · next heq =>
    rw [setMode_of_mode hmode, hnext] at heq
    cases heq

theorem run_of_failure (hmode : l.mode = s.place.mode) (hnext : l.next = (.ok t, l'))
    {failure : ParseFailure} (hstep : s.step options.strict t = .error failure) :
    s.run options l = ⟨[t], .error failure, l'⟩ := by
  rw [run]
  split
  · next heq =>
    rw [setMode_of_mode hmode, hnext] at heq
    cases heq
  · next heq =>
    rw [setMode_of_mode hmode, hnext] at heq
    cases heq
    split
    · next heq =>
      rw [hstep] at heq
      cases heq
      rfl
    · next heq => rw [hstep] at heq; cases heq
    · next heq => rw [hstep] at heq; cases heq

theorem run_of_finished (hmode : l.mode = s.place.mode) (hnext : l.next = (.ok t, l'))
    {document : List Node} (hstep : s.step options.strict t = .ok (.finished document)) :
    s.run options l = ⟨[t], .ok document, l'⟩ := by
  rw [run]
  split
  · next heq =>
    rw [setMode_of_mode hmode, hnext] at heq
    cases heq
  · next heq =>
    rw [setMode_of_mode hmode, hnext] at heq
    cases heq
    split
    · next heq => rw [hstep] at heq; cases heq
    · next heq =>
      rw [hstep] at heq
      cases heq
      rfl
    · next heq => rw [hstep] at heq; cases heq

/-- Behind a move the parse goes on with the lexer in its new mode. -/
theorem run_of_next (hmode : l.mode = s.place.mode) (hnext : l.next = (.ok t, l'))
    (hstep : s.step options.strict t = .ok (.next s')) :
    (l'.behind t).mode = s'.place.mode ∧
      s.run options l = { s'.run options (l'.behind t) with
        tokens := t :: (s'.run options (l'.behind t)).tokens } := by
  have hbehind : l'.setMode s'.place.mode = l'.behind t := by
    rw [(step_next_iff.mp hstep).mode, ← hmode, ← Lexer.mode_of_next hnext]
    rfl
  have hrun : s'.run options (l'.behind t) = s'.run options l' := by rw [← hbehind, run_setMode]
  refine ⟨by rw [← hbehind]; rfl, ?_⟩
  rw [hrun, run]
  split
  · next heq =>
    rw [setMode_of_mode hmode, hnext] at heq
    cases heq
  · next heq =>
    rw [setMode_of_mode hmode, hnext] at heq
    cases heq
    split
    · next heq => rw [hstep] at heq; cases heq
    · next heq => rw [hstep] at heq; cases heq
    · next heq =>
      rw [hstep] at heq
      cases heq
      rfl

/-! ## The whole parse -/

/-- What a parse comes to, from the replay of the tokens and the failure that ended them. -/
inductive Concludes : Except ParseFailure Step → Option LexFailure →
    Except ParseFailure (List Node) → Prop
  | finished (document : List Node) : Concludes (.ok (.finished document)) none (.ok document)
  | malformed (error : SyntaxError) (rest : Option LexFailure) :
      Concludes (.error (.malformed error)) rest (.error (.malformed error))
  | lexFailed (s : BuildState) (failure : LexFailure) :
      Concludes (.ok (.next s)) (some failure) (.error (.ofLex failure))

section Concludes

variable {replayed : Except ParseFailure Step} {rest : Option LexFailure}

theorem Concludes.ok_iff {document : List Node} :
    Concludes replayed rest (.ok document) ↔
      replayed = .ok (.finished document) ∧ rest = none := by
  constructor
  · intro h
    cases h
    exact ⟨rfl, rfl⟩
  · rintro ⟨rfl, rfl⟩
    exact .finished document

theorem Concludes.digitLimit_iff {count : Nat} :
    Concludes replayed rest (.error (.digitLimit count)) ↔
      (∃ s, replayed = .ok (.next s)) ∧ rest = some (.digitLimit count) := by
  constructor
  · intro h
    generalize hresult : Except.error (ParseFailure.digitLimit count) = result at h
    cases h with
    | finished document => cases hresult
    | malformed error rest => cases hresult
    | lexFailed s failure =>
        cases failure with
        | error error => cases hresult
        | digitLimit count' =>
            cases hresult
            exact ⟨⟨s, rfl⟩, rfl⟩
  · rintro ⟨⟨s, rfl⟩, rfl⟩
    exact .lexFailed s (.digitLimit count)

theorem Concludes.malformed_iff {e : SyntaxError} :
    Concludes replayed rest (.error (.malformed e)) ↔ replayed = .error (.malformed e) := by
  constructor
  · intro h
    generalize hresult : Except.error (ParseFailure.malformed e) = result at h
    cases h with
    | finished document => cases hresult
    | malformed error rest =>
        cases hresult
        rfl
    | lexFailed s failure => cases failure <;> cases hresult
  · rintro rfl
    exact .malformed e rest

theorem Concludes.not_rejected {rejection : Rejection} :
    ¬ Concludes replayed rest (.error (.rejected rejection)) := by
  intro h
  generalize hresult : Except.error (ParseFailure.rejected rejection) = result at h
  cases h with
  | finished document => cases hresult
  | malformed error rest => cases hresult
  | lexFailed s failure => cases failure <;> cases hresult

/-- The replay and the failure decide the result. -/
theorem Concludes.unique {a b : Except ParseFailure (List Node)} (ha : Concludes replayed rest a)
    (hb : Concludes replayed rest b) : a = b := by
  cases ha <;> cases hb <;> rfl

end Concludes

/-- A token that a lexer gives is one that its mode makes, and so the step fails with an error of
the syntax if it fails. -/
theorem step_error_of_next (hready : l.Ready) (hmode : l.mode = s.place.mode)
    (hnext : l.next = (.ok t, l')) {failure : ParseFailure}
    (hstep : s.step options.strict t = .error failure) : ∃ e, failure = .malformed e := by
  refine step_error (fun htag => ?_) hstep
  obtain ⟨hresult, -⟩ := hready.scan_of_next hnext
  rw [hmode, htag] at hresult
  exact readTag_payload hresult

/-- **A parse replays the tokens of the loop and ends with the first failure of the two.** -/
theorem concludes_run {ts : List Token} {last : Lexer} {tail : TokenRun}
    (hreads : Lexer.Reads l ts last) (hends : Lexer.Ends last tail) (hready : l.Ready)
    (hmode : l.mode = s.place.mode) :
    Concludes (s.replay options.strict (ts ++ tail.tokens)) tail.failure
      (s.run options l).result := by
  -- the lexer stays in the mode that the place calls for, so both see the same tokens
  induction hreads generalizing s with
  | done l =>
      cases hends with
      | failed hnext =>
          rw [run_of_lexFailure hmode hnext]
          exact .lexFailed s _
      | @finished t l' hnext hend =>
          cases hstep : s.step options.strict t with
          | error failure =>
              obtain ⟨e, rfl⟩ := step_error_of_next hready hmode hnext hstep
              rw [run_of_failure hmode hnext hstep]
              rw [List.nil_append, replay_of_error hstep]
              exact .malformed e _
          | ok step =>
              cases step with
              | finished document =>
                  rw [run_of_finished hmode hnext hstep]
                  rw [List.nil_append, replay_of_finished hstep]
                  exact .finished document
              | next s' =>
                  -- no move is made at the end of the input
                  rw [step_next_not_end hstep] at hend
                  cases hend
  | @token l l' final t ts hnext ht _ ih =>
      cases hstep : s.step options.strict t with
      | error failure =>
          obtain ⟨e, rfl⟩ := step_error_of_next hready hmode hnext hstep
          rw [run_of_failure hmode hnext hstep, List.cons_append, replay_of_error hstep]
          exact .malformed e _
      | ok step =>
          cases step with
          | finished document =>
              -- only the end of the input finishes a document
              obtain ⟨-, hp, -⟩ := step_finished_iff.mp hstep
              exact absurd hp (Token.isEnd_eq_false_iff.mp ht)
          | next s' =>
              obtain ⟨hmode', hrun⟩ := run_of_next hmode hnext hstep
              rw [hrun, List.cons_append, replay_of_next hstep]
              exact ih hends ((hready.of_next hnext ht).setMode _) hmode'

/-- A parse is decided by the tokens of the loop and the failure that ended it. -/
theorem concludes_parse (options : Options) (t : Text) :
    Concludes (start.replay options.strict (Lexer.ofText t).drain.tokens)
      (Lexer.ofText t).drain.failure (parse options t) := by
  obtain ⟨ts, l, tail, hreads, hends, hdrain⟩ := (Lexer.ofText t).exists_reads_ends
  rw [hdrain]
  exact concludes_run hreads hends (Lexer.ready_ofText t) rfl

/-- An error of the syntax is one of the replay. -/
theorem parse_eq_malformed_iff_replay {options : Options} {t : Text} {e : SyntaxError} :
    parse options t = .error (.malformed e) ↔
      start.replay options.strict (Lexer.ofText t).drain.tokens = .error (.malformed e) := by
  have hconcludes := concludes_parse options t
  constructor
  · intro h
    rw [h] at hconcludes
    exact Concludes.malformed_iff.mp hconcludes
  · intro h
    exact hconcludes.unique (Concludes.malformed_iff.mpr h)

end BuildState

/-- **Tokenizing and parsing a text share one run of the lexer.** -/
theorem exists_reads_parse (options : Options) (t : Text) :
    ∃ ts l tail, (Lexer.ofText t).Reads ts l ∧ l.Ends tail ∧
      tokenize t = (match tail.failure with
        | none => .ok (ts ++ tail.tokens)
        | some failure => .error failure) ∧
      BuildState.Concludes (BuildState.start.replay options.strict (ts ++ tail.tokens))
        tail.failure (parse options t) := by
  obtain ⟨ts, l, tail, hreads, hends, hdrain⟩ := (Lexer.ofText t).exists_reads_ends
  refine ⟨ts, l, tail, hreads, hends, ?_, ?_⟩
  · cases hfailure : tail.failure <;> simp [tokenize, hdrain, hfailure]
  · exact BuildState.concludes_run hreads hends (Lexer.ready_ofText t) rfl

end TagTemplate
