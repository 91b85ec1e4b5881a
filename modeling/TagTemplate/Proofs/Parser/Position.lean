import TagTemplate.Proofs.Parser.Lockstep

set_option autoImplicit false

/-! # Where positions come from

The builder makes no position of its own: it keeps those of the opening and of the name of the tag
that it is in (`Place.positions`), and reports an error at one of these or at the token that it was
given (`BuildState.position_of_step_error`). So an error of the syntax is reported at a token that
was read, and the positions of these are exact. The main result is `position_exact`, for the lexer
in all sessions and for the parser.
-/

namespace TagTemplate

/-- The position of the error that a parse ends with, if it is a lexical error or one of the
syntax. -/
def ParseFailure.position? : ParseFailure → Option Position
  | .lexical e => some e.position
  | .malformed e => some e.position
  | _ => none

namespace BuildState

variable {strict : Bool} {s s' : BuildState} {t : Token}

/-- A move keeps positions that it had, or takes that of its token. -/
theorem Moves.positions_subset (h : Moves strict s t s') :
    s'.place.positions ⊆ t.position :: s.place.positions := by
  cases h <;> simp [Place.positions]

/-- **A parse reports exact positions**, if the positions that its place keeps are exact. -/
theorem Parses.exact_position {l : Lexer} {run : ParseRun} (h : Parses strict s l run) {text : Text}
    (hl : l.StandsIn text) (hs : ∀ p ∈ s.place.positions, p.Exact text) :
    (∀ token ∈ run.tokens, token.position.Exact text) ∧
      ∀ failure, run.result = .error failure → ∀ p ∈ failure.position?, p.Exact text := by
  induction h with
  | @lexFailed s l l' failure hmode hnext =>
      refine ⟨by simp, fun failure' hfailure p hp => ?_⟩
      cases hfailure
      cases failure with
      | error e =>
          cases hp
          exact (hl.next hnext).2.2 e rfl
      | digitLimit count => simp [ParseFailure.ofLex, ParseFailure.position?] at hp
  | @malformed s l l' t e hmode hnext hstep =>
      have htoken : t.position.Exact text := (hl.next hnext).2.1 t rfl
      refine ⟨by simpa using htoken, fun failure hfailure p hp => ?_⟩
      cases hfailure
      cases hp
      rcases List.mem_cons.mp (position_of_step_error hstep) with hp | hp
      · rw [hp]
        exact htoken
      · exact hs _ hp
  | @finished s l l' t document hmode hnext hstep =>
      have htoken : t.position.Exact text := (hl.next hnext).2.1 t rfl
      exact ⟨by simpa using htoken, by simp⟩
  | @token s s' l l' t run hmode hnext hstep _ ih =>
      obtain ⟨hl', htoken, -⟩ := hl.next hnext
      have hs' : ∀ p ∈ s'.place.positions, p.Exact text := by
        intro p hp
        rcases List.mem_cons.mp ((step_next_iff.mp hstep).positions_subset hp) with rfl | hp
        · exact htoken t rfl
        · exact hs p hp
      obtain ⟨htokens, hfailure⟩ := ih (hl'.setMode _) hs'
      refine ⟨fun token ht => ?_, hfailure⟩
      rcases List.mem_cons.mp ht with rfl | ht
      · exact htoken _ rfl
      · exact htokens token ht

end BuildState

/-- **Positions are exact.** Whatever a lexer has been asked for, with success or without, its
position is exact, its offset is where the text begins that it has still to read, and the position
of the next answer is exact, a token or a lexical error. The position of every error that a parse
ends with is exact as well. -/
theorem position_exact (t : Text) (requests : List Request) (request : Request)
    (options : Options) :
    ((Lexer.ofText t).askAll requests).position.Exact t ∧
    ((Lexer.ofText t).askAll requests).rest
      = t.drop ((Lexer.ofText t).askAll requests).position.offset ∧
    (∀ p ∈ (((Lexer.ofText t).askAll requests).ask request).1.position?, p.Exact t) ∧
    ∀ failure, parse options t = .error failure → ∀ p ∈ failure.position?, p.Exact t := by
  have hstands := Lexer.standsIn_askAll t requests
  have hparses := BuildState.parses_parseRun options t
  exact ⟨hstands.exact, hstands.rest_eq_drop, (hstands.ask request).2,
    (hparses.exact_position (Lexer.standsIn_ofText t)
      (by simp [BuildState.start, Place.positions])).2⟩

end TagTemplate
