import TagTemplate.Proofs.Lexer.Lookahead
import TagTemplate.Proofs.Lexer.Partition

set_option autoImplicit false

/-! # Cutting a text between two tokens

A run over a text can be cut in two where one token ends, and the text behind the cut can be
exchanged for another one: the tokens in front of the cut are read as before, at the same positions
(`Lexer.Reads.exchange`). The only condition is at the cut itself, where the new text has to be one
that can follow the last token; the tokens before that one are followed by the next token, which
does not change. Behind the end of a tag every text can follow, and behind plain text every tag.
-/

namespace TagTemplate

/-! ## In front of a token -/

/-- A token can follow whatever it followed before, with another text behind it and with more
whitespace in front of it. -/
theorem scan_follows {mode : Mode} {t blanks : Text} {p : Payload}
    (h : (scan mode t).result = .ok p) (hp : p ≠ .endOfInput) (hblanks : mode.Skips blanks)
    (s : Text) :
    mode.Follows t ((scan mode t).blank ++ (blanks ++ ((scan mode t).passed ++ s))) := by
  cases mode with
  | text =>
      obtain rfl : blanks = [] := hblanks
      intro hstarts
      cases hstarts with
      | nil => exact absurd (Except.ok.inj h).symm hp
      | tagStart rest => exact .tagStart s
  | tag =>
      intro c hc
      by_cases hnone : blanks = []
      · -- the text begins as before
        subst hnone
        have hne : (scan .tag t).blank ++ (scan .tag t).passed ≠ [] :=
          List.append_ne_nil_of_right_ne_nil _ (scan_passed_ne_nil h hp)
        rw [List.nil_append, ← List.append_assoc, List.head?_append_of_ne_nil _ hne] at hc
        refine .inl ?_
        rw [← scan_split .tag t, List.head?_append_of_ne_nil _ hne]
        exact hc
      · -- the text begins with whitespace
        refine .inr (isBlank_ends ?_)
        rw [← List.append_assoc, List.head?_append_of_ne_nil _ (by simp [hnone])] at hc
        rcases List.mem_append.mp (List.mem_of_mem_head? hc) with hc | hc
        · exact scan_skips .tag t c hc
        · exact hblanks c hc

namespace Lexer

variable {l l' l'' : Lexer} {ts ts' : List Token}

/-! ## Runs one behind the other -/

theorem Reads.append (h : l.Reads ts l') (h' : l'.Reads ts' l'') : l.Reads (ts ++ ts') l'' := by
  induction h with
  | done l => exact h'
  | token hnext ht _ ih => exact .token hnext ht (ih h')

theorem Reads.exists_of_append (h : l.Reads (ts ++ ts') l'') :
    ∃ l', l.Reads ts l' ∧ l'.Reads ts' l'' := by
  induction ts generalizing l with
  | nil => exact ⟨l, .done l, h⟩
  | cons t ts ih =>
      cases h with
      | token hnext ht hrest =>
          obtain ⟨l', hfront, hback⟩ := ih hrest
          exact ⟨l', .token hnext ht hfront, hback⟩

/-- A run leaves the lexer in the mode that the tokens lead to. -/
theorem Reads.mode_eq (hreads : l.Reads ts l') (h : l.Ready) :
    l'.mode = (ts.map Token.payload).foldl modeAfter l.mode := by
  induction hreads with
  | done l => rfl
  | token hnext ht _ ih =>
      obtain ⟨-, -, hmode, -, -⟩ := h.scan_of_next hnext
      have hlater := ih ((h.of_next hnext ht).setMode _)
      rw [List.map_cons, List.foldl_cons, hlater, ← hmode]
      rfl

/-! ## Another text behind the cut -/

def withRest (l : Lexer) (s : Text) : Lexer := { l with rest := s }

theorem Ready.withRest (h : l.Ready) (s : Text) : (l.withRest s).Ready := ⟨h.met, h.unfinished⟩

/-- A lexer that scans the same token from another text gives it at the same position. -/
theorem Ready.next_withRest {t : Token} (h : l.Ready) (hnext : l.next = (.ok t, l')) {r s : Text}
    (hscan : scan l.mode r =
      ⟨⟨(scan l.mode l.rest).passed, s, .ok t.payload⟩, (scan l.mode l.rest).blank⟩) :
    (l.withRest r).next = (.ok t, l'.withRest s) := by
  rw [h.next, afterScan] at hnext
  dsimp only at hnext
  split at hnext
  · cases hnext
    rw [(h.withRest r).next]
    show (l.withRest r).afterScan (scan l.mode r) = _
    rw [hscan]
    rfl
  · simp at hnext
  · simp at hnext

/-- **The text behind the tokens of a run can be exchanged**, for one that can follow the last of
them: the same tokens are read at the same positions. What the run passed is empty if it read no
token, and otherwise it can stand, with the new text behind it, wherever the old rest could. -/
theorem Reads.exchange (hreads : l.Reads ts l') (h : l.Ready) {s : Text}
    (hs : ∀ t ∈ ts.getLast?, t.payload.isDelimiter = true ∨ l'.mode.Follows l'.rest s) :
    ∃ front, l.rest = front ++ l'.rest ∧ (ts = [] → front = []) ∧
      (ts ≠ [] → l.mode.Follows l.rest (front ++ s)) ∧
      (l.withRest (front ++ s)).Reads ts (l'.withRest s) := by
  induction hreads with
  | done l => exact ⟨[], rfl, fun _ => rfl, by simp, .done _⟩
  | @token l l' l'' t ts hnext ht hrest ih =>
      obtain ⟨hresult, hrest', hmode, -, -⟩ := h.scan_of_next hnext
      have hnot := Token.isEnd_eq_false_iff.mp ht
      obtain ⟨front, hsplit, hnil, hfollows, hreads⟩ := ih ((h.of_next hnext ht).setMode _)
        fun t' ht' => hs t' (by rw [List.getLast?_cons, Option.mem_def.mp ht']; rfl)
      -- the token is followed by the next one, or by the new text if it is the last
      have hown : t.payload.isDelimiter = true ∨
          l.mode.Follows (scan l.mode l.rest).rest (front ++ s) := by
        cases hdelimiter : t.payload.isDelimiter with
        | true => exact .inl rfl
        | false =>
            refine .inr ?_
            have hsame : (l'.behind t).mode = l.mode := by
              rw [← hmode]
              exact modeAfter_of_not_delimiter hdelimiter
            rw [← hrest', ← hsame]
            by_cases hlast : ts = []
            · subst hlast
              cases hrest
              rw [hnil rfl]
              exact (hs t (by simp)).resolve_left (by simp [hdelimiter])
            · exact hfollows hlast
      have hscan := scan_exchange hresult hnot (scan_skips l.mode l.rest) hown
      refine ⟨(scan l.mode l.rest).blank ++ ((scan l.mode l.rest).passed ++ front), ?_, by simp,
        fun _ => ?_, ?_⟩
      · conv_lhs => rw [← scan_split l.mode l.rest, ← hrest']
        have hbehind : l'.rest = front ++ l''.rest := hsplit
        rw [hbehind]
        simp only [List.append_assoc]
      · simp only [List.append_assoc]
        exact scan_follows hresult hnot l.mode.skips_nil (front ++ s)
      · simp only [List.append_assoc]
        exact .token (h.next_withRest hnext hscan) ht hreads

/-- A run over a text, cut behind its tokens: the lexer stands behind the front of the text, and in
front of another text it comes to the same place. -/
theorem Reads.exchange_ofText {t s : Text} (hreads : (ofText t).Reads ts l)
    (hs : ∀ token ∈ ts.getLast?, token.payload.isDelimiter = true ∨ l.mode.Follows l.rest s) :
    ∃ front, t = front ++ l.rest ∧ l.position = Position.start.advance front ∧
      (ofText (front ++ s)).Reads ts (l.withRest s) := by
  obtain ⟨front, ht, -, -, hreads'⟩ := hreads.exchange (ready_ofText t) hs
  obtain ⟨front', ht', hposition⟩ := (hreads.standsIn (standsIn_ofText t)).place
  obtain rfl : front = front' := List.append_cancel_right (ht.symm.trans ht')
  exact ⟨front, ht, hposition, hreads'⟩

end Lexer

/-! ## Payloads alone -/

/-- **A text whose tokens go on behind the end of a tag is cut there**: what stands behind has the
tokens that follow, and in its place every other text can stand with its own tokens. -/
theorem Scans.exists_cut {t : Text} {ps qs : List Payload} (h : Scans .text t (ps ++ qs))
    (hlast : ps.getLast? = some .tagEnd) :
    ∃ front rest, t = front ++ rest ∧ Scans .text rest qs ∧
      ∀ s rs, Scans .text s rs → Scans .text (front ++ s) (ps ++ rs) := by
  have hready := Lexer.ready_ofText t
  obtain ⟨tokens, htokens, hpayloads⟩ := exists_tokenize_iff.mpr h
  obtain ⟨ts, last, l, l', hreads, hnext, hend, rfl⟩ := exists_reads_of_tokenize htokens
  have hp := Token.isEnd_iff.mp hend
  obtain ⟨as, bs, hsplit, rfl, rfl⟩ := List.map_eq_append_iff.mp hpayloads
  -- the end of the input is behind the cut
  rcases List.eq_nil_or_concat' bs with rfl | ⟨bs, last', rfl⟩
  · rw [← List.append_nil as, ← hsplit] at hlast
    simp [hp] at hlast
  rw [← List.append_assoc] at hsplit
  obtain ⟨rfl, hsame⟩ := List.append_inj' hsplit rfl
  obtain rfl : last = last' := List.singleton_inj.mp hsame
  obtain ⟨l₁, hfront, hback⟩ := hreads.exists_of_append
  have hready₁ := hfront.ready hready
  have hmode : l₁.mode = .text := by
    obtain ⟨before, hbefore⟩ := List.getLast?_eq_some_iff.mp hlast
    rw [hfront.mode_eq hready, hbefore, List.foldl_append]
    rfl
  have hdelimiter : ∀ token ∈ as.getLast?, token.payload.isDelimiter = true := by
    intro token htoken
    rw [List.getLast?_map, Option.mem_def.mp htoken] at hlast
    rw [Option.some.inj hlast]
    rfl
  have hcut : ∀ s, ∃ front, t = front ++ l₁.rest ∧
      (Lexer.ofText (front ++ s)).Reads as (l₁.withRest s) := by
    intro s
    obtain ⟨front, ht, -, hreads'⟩ :=
      hfront.exchange_ofText fun token htoken => .inl (hdelimiter token htoken)
    exact ⟨front, ht, hreads'⟩
  obtain ⟨front, ht, -⟩ := hcut []
  refine ⟨front, l₁.rest, ht, ?_, fun s rs hrs => ?_⟩
  · have hfinished : Scans l.mode l.rest [.endOfInput] := by
      obtain ⟨hresult, -⟩ := (hreads.ready hready).scan_of_next hnext
      rw [hp] at hresult
      exact .finished hresult
    rw [List.map_append, List.map_singleton, hp, ← hmode]
    exact hback.scans hready₁ hfinished
  · obtain ⟨front', ht', hreads'⟩ := hcut s
    obtain rfl : front = front' := List.append_cancel_right (ht.symm.trans ht')
    refine hreads'.scans (Lexer.ready_ofText _) ?_
    show Scans l₁.mode s rs
    rw [hmode]
    exact hrs

end TagTemplate
