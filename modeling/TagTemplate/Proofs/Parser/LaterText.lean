import TagTemplate.Proofs.Lexer.Cut
import TagTemplate.Proofs.Lexer.Extension
import TagTemplate.Proofs.Parser.OpenLoops

set_option autoImplicit false

/-! # Errors that no later text repairs

Some tokens are complete where they stand: no character behind them continues them or changes what
they are (`Payload.IsComplete`). These are the delimiters of tags and the equals sign. All tokens in
front of a complete one are followed by it, so they are read as before, whatever stands behind the
text (`Lexer.Reads.append_text`).

An error in the arguments of a tag, or an end tag too many, is met at the end of the tag or at an
equals sign (`BuildState.isComplete_of_step_error`). The tokens up to there are those of every
longer text, and they decide the error. The main result is `parse_append_of_completed`.
-/

namespace TagTemplate

/-! ## Complete tokens -/

/-- No character behind the token continues it: it opens or closes a tag, or is an equals sign. -/
def Payload.IsComplete (p : Payload) : Prop := p.isDelimiter = true ∨ p = .identifier ['=']

/-- The end of the input is not complete: text behind it takes its place. -/
theorem Payload.IsComplete.ne_endOfInput {p : Payload} (h : p.IsComplete) : p ≠ .endOfInput := by
  rintro rfl
  rcases h with hdelimiter | hequals
  · cases hdelimiter
  · cases hequals

/-- The token of an equals sign is read from an equals sign only. -/
theorem exists_of_readTag_equals {t : Text} (h : (readTag t).result = .ok (.identifier ['='])) :
    ∃ rest, t = '=' :: rest := by
  generalize hp : Payload.identifier ['='] = p at h
  cases readTag_cases h with
  | equals rest => exact ⟨rest, rfl⟩
  | @name c rest hstart =>
      -- a name begins with a letter
      obtain ⟨rfl, -⟩ : c = '=' ∧ rest.takeWhile isIdentifierPart = [] := by simpa using hp.symm
      exact absurd hstart (by decide)
  | number hstart hread =>
      obtain ⟨e, rfl⟩ := exists_element_of_readNumber hread
      exact absurd hp.symm e.token_ne_equals
  | endOfInput => cases hp
  | tagEnd rest => cases hp
  | function tail hstart => cases hp
  | string hfault => cases hp
  | operator op hnumber => cases hp

/-- **A complete token does not depend on what stands behind the text.** -/
theorem Payload.IsComplete.scan_append {mode : Mode} {t : Text} {p : Payload} (hp : p.IsComplete)
    (h : (scan mode t).result = .ok p) (s : Text) :
    scan mode (t ++ s) = ⟨(scan mode t).extend s, (scan mode t).blank⟩ := by
  rcases hp with hdelimiter | rfl
  · have hsettled : Settled mode t p := .inr hdelimiter
    exact hsettled.scan_append h s
  · cases mode with
    | text =>
        -- outside of tags there are no names
        have hread : (readText t).result = .ok (.identifier ['=']) := h
        cases readText_cases hread
    | tag =>
        obtain ⟨rest, hrest⟩ := exists_of_readTag_equals h
        have hequals : ∀ more, readTag ('=' :: more) = ⟨['='], more, .ok (.identifier ['='])⟩ :=
          fun _ => rfl
        have hsplit : t ++ s = t.takeWhile isBlank ++ ('=' :: (rest ++ s)) := by
          rw [← List.cons_append, ← hrest, ← List.append_assoc, List.takeWhile_append_dropWhile]
        have hscan : scan .tag t = ⟨readTag (t.dropWhile isBlank), t.takeWhile isBlank⟩ := rfl
        have hblank : ∀ c ∈ t.takeWhile isBlank, isBlank c = true :=
          fun c hc => List.mem_takeWhile_imp hc
        rw [hscan, hrest, hequals, hsplit, scan_tag_of_readTag hblank rfl]
        rfl

namespace Lexer

variable {l l' : Lexer} {ts : List Token} {token : Token}

/-- **The tokens in front of a rest are read in every longer text**, at the same positions. -/
theorem Reads.append_text {t : Text} (h : (ofText t).Reads ts l) (hrest : l.rest ≠ []) (s : Text) :
    (ofText (t ++ s)).Reads ts (l.withRest (l.rest ++ s)) := by
  obtain ⟨front, ht, -, hreads⟩ := h.exchange_ofText fun _ _ => .inr (Mode.follows_append hrest s)
  have hsplit : t ++ s = front ++ (l.rest ++ s) := by
    rw [← List.append_assoc, ← ht]
  rw [hsplit]
  exact hreads

/-- **A complete token is read in every longer text**, at the same position. -/
theorem Ready.next_append_text (h : l.Ready) (hnext : l.next = (.ok token, l'))
    (hcomplete : token.payload.IsComplete) (s : Text) :
    ∃ l'', (l.withRest (l.rest ++ s)).next = (.ok token, l'') := by
  obtain ⟨hresult, -⟩ := h.scan_of_next hnext
  have hscan := hcomplete.scan_append hresult s
  refine ⟨l'.withRest ((scan l.mode l.rest).rest ++ s), h.next_withRest hnext ?_⟩
  rw [hscan, ← hresult]
  rfl

end Lexer

/-! ## Errors of completed tags -/

/-- The kinds of failure that a tag can have once it is completed. -/
def FailureKind.IsOfCompleted (kind : FailureKind) : Prop :=
  kind = .arity ∨ kind = .invalidArgument ∨ kind = .unbalancedEnd

namespace BuildState

/-- **The builder meets the error of a completed tag at a complete token**: the end of the tag, or
an equals sign among its arguments. -/
theorem isComplete_of_step_error {strict : Bool} {s : BuildState} {t : Token} {e : SyntaxError}
    (h : s.step strict t = .error (.malformed e)) (hkind : e.cause.kind.IsOfCompleted) :
    t.payload.IsComplete := by
  -- a cause of another kind is none of a completed tag
  have hother : ∀ {cause : SyntaxCause} {p : Position}, ¬ cause.kind.IsOfCompleted →
      failAt cause p ≠ .error (.malformed e) := by
    intro cause p hne heq
    cases heq
    exact hne hkind
  obtain ⟨place, u⟩ := s
  cases place with
  | outside =>
      simp only [step, stepOutside] at h
      split at h
      · cases h
      · cases h
      · split at h
        · cases h
        · exact absurd h (hother (by simp [FailureKind.IsOfCompleted, SyntaxCause.kind]))
      · exact absurd h (hother (by simp [FailureKind.IsOfCompleted, SyntaxCause.kind]))
  | tagOpened opening =>
      simp only [step, stepTagName] at h
      split at h
      · exact absurd h (hother (by simp [FailureKind.IsOfCompleted, SyntaxCause.kind]))
      · split at h
        · cases h
        · cases h
        · cases h
        · exact absurd h (hother (by simp [FailureKind.IsOfCompleted, SyntaxCause.kind]))
      · exact absurd h (hother (by simp [FailureKind.IsOfCompleted, SyntaxCause.kind]))
  | arguments tag opening name read =>
      simp only [step, stepArgument] at h
      split at h
      · next hp =>
        rw [hp]
        exact .inl rfl
      · exact absurd h (hother (by simp [FailureKind.IsOfCompleted, SyntaxCause.kind]))
      · split at h
        · exact absurd h (hother (by simp [FailureKind.IsOfCompleted, SyntaxCause.kind]))
        · split at h
          · next hequals => exact .inr hequals
          · split at h <;> cases h
  | ending opening name =>
      simp only [step, stepEnding] at h
      split at h
      · exact absurd h (hother (by simp [FailureKind.IsOfCompleted, SyntaxCause.kind]))
      · next hp =>
        rw [hp]
        exact .inl rfl
      · exact absurd h (hother (by simp [FailureKind.IsOfCompleted, SyntaxCause.kind]))

/-- **A parse that fails at a complete token reads the same tokens in every longer text.** -/
theorem FailsBehind.tokens_prefix {options : Options} {t : Text} {e : SyntaxError} {ts : List Token}
    {s : BuildState} {l : Lexer} (h : FailsBehind options.strict start (Lexer.ofText t)
      (parseRun options t) (.malformed e) ts s l)
    (hkind : e.cause.kind.IsOfCompleted) (more : Text) :
    (parseRun options t).tokens <+: (Lexer.ofText (t ++ more)).drain.tokens := by
  rcases h.request with ⟨-, failure, hfailure⟩ | ⟨last, l', htokens, hnext, hstep⟩
  · -- the lexer has given all tokens
    cases failure <;> cases hfailure
  · have hcomplete := isComplete_of_step_error hstep hkind
    have hready := h.reads.ready (Lexer.ready_ofText t)
    -- the failing token is text that the tokens in front of it leave over
    have hrest : l.rest ≠ [] := by
      have hnot := Token.isEnd_eq_false_iff.mpr hcomplete.ne_endOfInput
      have hlt := Lexer.next_rest_lt hnext hnot
      exact List.ne_nil_of_length_pos (by omega)
    obtain ⟨l'', hlast⟩ := hready.next_append_text hnext hcomplete more
    obtain ⟨behind, hbehind⟩ := Lexer.exists_drain_cons hlast
    rw [htokens, (h.reads.append_text hrest more).drain_eq, hbehind]
    exact ⟨behind, by simp⟩

end BuildState

/-- **No later text repairs a completed tag.** If a text is refused for the number of arguments of a
tag, for one of its arguments, or for an end tag without a loop, then it is refused for the same
cause at the same position, with whatever text behind it. -/
theorem parse_append_of_completed {options : Options} {t : Text} {e : SyntaxError}
    (h : parse options t = .error (.malformed e))
    (hkind : e.cause.kind = .arity ∨ e.cause.kind = .invalidArgument ∨
      e.cause.kind = .unbalancedEnd) (s : Text) :
    parse options (t ++ s) = .error (.malformed e) := by
  have hparses := BuildState.parses_parseRun options t
  obtain ⟨ts, s', l, hfails⟩ := hparses.exists_failsBehind h
  exact BuildState.parse_eq_malformed_of_prefix (hfails.tokens_prefix hkind s)
    (hparses.replay_of_malformed h)

/-- A loop tag that stops behind an equals sign among its arguments. -/
def equalsInLoop : Text := "\x7b$for i 1=".toList

/-- The equals sign is refused, whatever follows it. -/
theorem parse_append_of_completed_equals :
    parse .default equalsInLoop
        = .error (.malformed ⟨.equalsArgument .loop, ⟨9, 1, 10⟩⟩) ∧
      SyntaxCause.kind (.equalsArgument .loop) = .invalidArgument ∧
      ∀ s, parse .default (equalsInLoop ++ s)
        = .error (.malformed ⟨.equalsArgument .loop, ⟨9, 1, 10⟩⟩) := by
  have htokens : (Lexer.ofText equalsInLoop).drain.tokens =
      [⟨.tagStart, ⟨0, 1, 1⟩⟩, ⟨.identifier "for".toList, ⟨2, 1, 3⟩⟩,
        ⟨.identifier ['i'], ⟨6, 1, 7⟩⟩, ⟨.integer 1, ⟨8, 1, 9⟩⟩, ⟨.identifier ['='], ⟨9, 1, 10⟩⟩,
        ⟨.endOfInput, ⟨10, 1, 11⟩⟩] := by
    set_option maxRecDepth 2048 in cbv
  have h : parse .default equalsInLoop
      = .error (.malformed ⟨.equalsArgument .loop, ⟨9, 1, 10⟩⟩) := by
    rw [BuildState.parse_eq_malformed_iff_replay, htokens]
    rfl
  exact ⟨h, rfl, fun s => parse_append_of_completed h (.inr (.inl rfl)) s⟩

end TagTemplate
