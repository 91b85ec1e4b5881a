import TagTemplate.Lexer.Tokenize

set_option autoImplicit false

/-! # Runs of a lexer

A run reads token after token, switching the mode behind each (`Lexer.Reads`), and the loop over a
whole text is the longest run there is: it ends at the end of the input or where the next request
fails (`Lexer.drain_eq`). Where positions do not matter, a run is described by the payloads alone,
straight from the text (`Scans`), and `exists_tokenize_iff` says that this is the same.
-/

namespace TagTemplate

namespace Lexer

variable {l l' : Lexer} {t : Token}

/-! ## Requests -/

/-- A lexer that scans when it is asked: it has met no fault and not come to the end. -/
structure Ready (l : Lexer) : Prop where
  met : l.met = none
  unfinished : l.isFinished = false

theorem ready_ofText (t : Text) : (ofText t).Ready := ⟨rfl, rfl⟩

theorem Ready.setMode (h : l.Ready) (mode : Mode) : (l.setMode mode).Ready := ⟨h.met, h.unfinished⟩

theorem Ready.next (h : l.Ready) : l.next = l.afterScan (scan l.mode l.rest) := by
  unfold Lexer.next
  rw [h.met]
  dsimp only
  rw [h.unfinished]
  rfl

/-- What a request that gave a token did: it scanned the token and moved behind it. -/
theorem Ready.scan_of_next (h : l.Ready) (hnext : l.next = (.ok t, l')) :
    (scan l.mode l.rest).result = .ok t.payload ∧ l'.rest = (scan l.mode l.rest).rest ∧
      l'.mode = l.mode ∧ l'.met = none ∧ l'.last = some t := by
  rw [h.next, afterScan] at hnext
  dsimp only at hnext
  split at hnext
  · next payload hresult =>
    obtain ⟨ht, rfl⟩ := Prod.mk.inj hnext
    cases Except.ok.inj ht
    exact ⟨hresult, rfl, rfl, h.met, rfl⟩
  · simp at hnext
  · simp at hnext

theorem Ready.of_next (h : l.Ready) (hnext : l.next = (.ok t, l')) (ht : t.isEnd = false) :
    l'.Ready := by
  obtain ⟨-, -, -, hmet, hlast⟩ := h.scan_of_next hnext
  exact ⟨hmet, by rw [isFinished, hlast]; exact ht⟩

/-- A scan that makes a token is a request that gives it. -/
theorem Ready.next_of_scan (h : l.Ready) {payload : Payload}
    (hscan : (scan l.mode l.rest).result = .ok payload) :
    ∃ t l', l.next = (.ok t, l') ∧ t.payload = payload := by
  rw [h.next, afterScan]
  dsimp only
  rw [hscan]
  exact ⟨_, _, rfl, rfl⟩

/-! ## Runs -/

/-- The lexer behind a token, in the mode for the next one. -/
def behind (l : Lexer) (t : Token) : Lexer := l.setMode (modeAfter l.mode t.payload)

/-- A lexer reads a list of tokens, none of them the end of the input, and stands behind them. -/
inductive Reads : Lexer → List Token → Lexer → Prop
  | done (l : Lexer) : Reads l [] l
  | token {l l' l'' : Lexer} {t : Token} {ts : List Token} (hnext : l.next = (.ok t, l'))
      (ht : t.isEnd = false) (hrest : Reads (l'.behind t) ts l'') : Reads l (t :: ts) l''

theorem Reads.ready {ts : List Token} (hreads : Reads l ts l') (h : l.Ready) : l'.Ready := by
  induction hreads with
  | done l => exact h
  | token hnext ht _ ih => exact ih ((h.of_next hnext ht).setMode _)

/-- No token that was read is the end of the input. -/
theorem Reads.isEnd_eq_false {ts : List Token} (hreads : Reads l ts l') :
    ∀ t ∈ ts, t.isEnd = false := by
  induction hreads with
  | done l => simp
  | token hnext ht _ ih =>
      intro t' ht'
      rcases List.mem_cons.mp ht' with rfl | ht'
      · exact ht
      · exact ih t' ht'

theorem drain_of_error {failure : LexFailure} (hnext : l.next = (.error failure, l')) :
    l.drain = ⟨[], some failure, l'⟩ := by
  rw [drain]
  split
  · next heq =>
    rw [hnext] at heq
    cases heq
    rfl
  · next heq =>
    rw [hnext] at heq
    cases heq

theorem drain_of_end (hnext : l.next = (.ok t, l')) (ht : t.isEnd = true) :
    l.drain = ⟨[t], none, l'⟩ := by
  rw [drain]
  split
  · next heq =>
    rw [hnext] at heq
    cases heq
  · next heq =>
    rw [hnext] at heq
    cases heq
    rw [dif_pos ht]

theorem drain_of_token (hnext : l.next = (.ok t, l')) (ht : t.isEnd = false) :
    l.drain = { (l'.behind t).drain with tokens := t :: (l'.behind t).drain.tokens } := by
  rw [drain]
  split
  · next heq =>
    rw [hnext] at heq
    cases heq
  · next heq =>
    rw [hnext] at heq
    cases heq
    rw [dif_neg (by simp [ht])]
    rfl

/-- The loop runs through all that can be read in front of a point. -/
theorem Reads.drain_eq {ts : List Token} (h : Reads l ts l') :
    l.drain = { l'.drain with tokens := ts ++ l'.drain.tokens } := by
  induction h with
  | done l => rfl
  | token hnext ht _ ih => rw [drain_of_token hnext ht, ih]; rfl

/-- How the loop can end: behind the tokens it read there is the end of the input, or the next
request fails. -/
inductive Ends (l : Lexer) : TokenRun → Prop
  | finished {t : Token} {l' : Lexer} (hnext : l.next = (.ok t, l')) (ht : t.isEnd = true) :
      Ends l ⟨[t], none, l'⟩
  | failed {failure : LexFailure} {l' : Lexer} (hnext : l.next = (.error failure, l')) :
      Ends l ⟨[], some failure, l'⟩

/-- **The loop over a text is a run that cannot go on.** -/
theorem exists_reads_ends (l : Lexer) : ∃ ts l' run, Reads l ts l' ∧ Ends l' run ∧
    l.drain = { run with tokens := ts ++ run.tokens } := by
  cases hnext : l.next with
  | mk result l' =>
      cases result with
      | error failure =>
          exact ⟨[], l, _, .done l, .failed hnext, drain_of_error hnext⟩
      | ok t =>
          by_cases ht : t.isEnd = true
          · exact ⟨[], l, _, .done l, .finished hnext ht, drain_of_end hnext ht⟩
          · have hfalse : t.isEnd = false := by simpa using ht
            have hlt := next_rest_lt hnext hfalse
            obtain ⟨ts, l'', run, hreads, hends, hdrain⟩ := exists_reads_ends (l'.behind t)
            refine ⟨t :: ts, l'', run, .token hnext hfalse hreads, hends, ?_⟩
            rw [drain_of_token hnext hfalse, hdrain]
            rfl
termination_by l.rest.length
decreasing_by exact hlt

end Lexer

/-! ## The tokens of a text -/

theorem tokenize_eq_ok_of_drain {t : Text} (h : (Lexer.ofText t).drain.failure = none) :
    tokenize t = .ok (Lexer.ofText t).drain.tokens := by
  unfold tokenize
  dsimp only
  rw [h]

theorem drain_failure_of_tokenize {t : Text} {failure : LexFailure}
    (h : tokenize t = .error failure) : (Lexer.ofText t).drain.failure = some failure := by
  unfold tokenize at h
  dsimp only at h
  split at h
  · simp at h
  · next hfailure =>
    cases h
    exact hfailure

/-- The loop over a tokenized text reads up to the end of the input. -/
theorem exists_reads_of_tokenize {t : Text} {tokens : List Token} (h : tokenize t = .ok tokens) :
    ∃ ts last l l', (Lexer.ofText t).Reads ts l ∧ l.next = (.ok last, l') ∧ last.isEnd = true ∧
      tokens = ts ++ [last] := by
  obtain ⟨ts, l, run, hreads, hends, hdrain⟩ := (Lexer.ofText t).exists_reads_ends
  unfold tokenize at h
  rw [hdrain] at h
  cases hends with
  | @finished last l' hnext hend =>
      exact ⟨ts, last, l, l', hreads, hnext, hend, (Except.ok.inj h).symm⟩
  | failed hnext => simp at h

/-! ## Payloads alone -/

/-- The payloads that are scanned from a text in a mode, up to the end of the input. -/
inductive Scans : Mode → Text → List Payload → Prop
  | finished {mode : Mode} {t : Text} (h : (scan mode t).result = .ok .endOfInput) :
      Scans mode t [.endOfInput]
  | token {mode : Mode} {t : Text} {p : Payload} {ps : List Payload}
      (h : (scan mode t).result = .ok p) (hp : p ≠ .endOfInput)
      (hrest : Scans (modeAfter mode p) (scan mode t).rest ps) : Scans mode t (p :: ps)

theorem Token.isEnd_iff {t : Token} : t.isEnd = true ↔ t.payload = .endOfInput := by
  rw [isEnd, beq_iff_eq]

theorem Token.isEnd_eq_false_iff {t : Token} : t.isEnd = false ↔ t.payload ≠ .endOfInput := by
  rw [isEnd, beq_eq_false_iff_ne]

namespace Lexer

theorem Reads.scans {l l' : Lexer} {ts : List Token} {ps : List Payload} (hreads : Reads l ts l')
    (h : l.Ready) (hscans : Scans l'.mode l'.rest ps) :
    Scans l.mode l.rest (ts.map Token.payload ++ ps) := by
  induction hreads with
  | done l => exact hscans
  | token hnext ht _ ih =>
      obtain ⟨hresult, hrest, hmode, -, -⟩ := h.scan_of_next hnext
      have hnot := Token.isEnd_eq_false_iff.mp ht
      refine .token hresult hnot ?_
      have hlater := ih ((h.of_next hnext ht).setMode _) hscans
      rw [← hrest, ← hmode]
      exact hlater

theorem drain_of_scans {mode : Mode} {text : Text} {ps : List Payload}
    (hscans : Scans mode text ps) : ∀ {l : Lexer}, l.Ready → l.mode = mode → l.rest = text →
      l.drain.failure = none ∧ l.drain.tokens.map Token.payload = ps := by
  induction hscans with
  | finished hresult =>
      intro l h hmode hrest
      subst hmode hrest
      obtain ⟨t, l', hnext, ht⟩ := h.next_of_scan hresult
      rw [drain_of_end hnext (Token.isEnd_iff.mpr ht)]
      exact ⟨rfl, by simp [ht]⟩
  | token hresult hp _ ih =>
      intro l h hmode hrest
      subst hmode hrest
      obtain ⟨t, l', hnext, rfl⟩ := h.next_of_scan hresult
      have ht := Token.isEnd_eq_false_iff.mpr hp
      obtain ⟨-, hrest', hmode', -, -⟩ := h.scan_of_next hnext
      obtain ⟨hfailure, htokens⟩ := ih ((h.of_next hnext ht).setMode (modeAfter l'.mode t.payload))
        (by rw [hmode']; rfl) hrest'
      rw [drain_of_token hnext ht]
      exact ⟨hfailure, by rw [List.map_cons]; exact congrArg _ htokens⟩

end Lexer

/-- **A text has tokens with given payloads exactly if these are scanned from it.** -/
theorem exists_tokenize_iff {t : Text} {ps : List Payload} :
    (∃ tokens, tokenize t = .ok tokens ∧ tokens.map Token.payload = ps) ↔ Scans .text t ps := by
  have hready := Lexer.ready_ofText t
  constructor
  · rintro ⟨tokens, htokens, rfl⟩
    obtain ⟨ts, last, l, l', hreads, hnext, hend, rfl⟩ := exists_reads_of_tokenize htokens
    obtain ⟨hresult, -⟩ := (hreads.ready hready).scan_of_next hnext
    have hp := Token.isEnd_iff.mp hend
    rw [hp] at hresult
    rw [List.map_append, List.map_cons, List.map_nil, hp]
    exact hreads.scans hready (.finished hresult)
  · intro hscans
    obtain ⟨hfailure, htokens⟩ := Lexer.drain_of_scans hscans hready rfl rfl
    exact ⟨_, tokenize_eq_ok_of_drain hfailure, htokens⟩

end TagTemplate
