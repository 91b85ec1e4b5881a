import TagTemplate.Proofs.Lexer.Lookahead

set_option autoImplicit false

/-! # Text behind a token

What is put behind a text does not matter to a token that leaves some of the text behind, because
the rest that the scan looks at begins as before, and neither to the delimiters of tags
(`Settled.scan_append`). Plain text at the end of a text is not settled in this way: it goes on into
plain text that is put behind it (`readText_append_readText`), unless the two characters at the
joint open a tag.
-/

namespace TagTemplate

/-! ## Runs -/

def Run.append (r r' : Run) : Run := ⟨r.passed ++ r'.passed, r.value ++ r'.value, r'.rest, r'.fault⟩

/-- No tag opening arises where two texts are put together. -/
def NoTagAcross (t s : Text) : Prop := t.getLast? ≠ some '\x7b' ∨ s.head? ≠ some '$'

theorem NoTagAcross.of_append {before t s : Text} (h : NoTagAcross (before ++ t) s) :
    NoTagAcross t s := by
  rcases h with hlast | hhead
  · refine .inl fun ht => hlast ?_
    rw [List.getLast?_append, ht]
    rfl
  · exact .inr hhead

theorem NoTagAcross.of_cons {c : Char} {t s : Text} (h : NoTagAcross (c :: t) s) :
    NoTagAcross t s := by
  have happend : NoTagAcross ([c] ++ t) s := h
  exact happend.of_append

/-- A run of plain text up to the end of the text goes on in the text behind it. -/
theorem textRun_append_of_rest_eq_nil {t s : Text} (hfault : (textRun t).fault = none)
    (hrest : (textRun t).rest = []) (hjoint : NoTagAcross t s) :
    textRun (t ++ s) = (textRun t).append (textRun s) := by
  fun_induction textRun t with
  | case1 => rfl
  | case2 rest => simp [Run.done] at hrest
  | case3 c rest d hd ih =>
      rw [List.cons_append, List.cons_append, textRun, hd]
      dsimp only
      rw [ih hfault hrest hjoint.of_cons.of_cons]
      simp [Run.cons, Run.append]
  | case4 => simp [Run.failed] at hfault
  | case5 => simp [Run.failed] at hfault
  | case6 c rest htag hescape hlast ih =>
      rw [List.cons_append, textRun_cons (ne_backslash hescape hlast),
        ih hfault hrest hjoint.of_cons]
      · simp [Run.cons, Run.append]
      · rintro rfl hhead
        cases rest with
        | nil => exact hjoint.elim (· rfl) (· hhead)
        | cons d rest =>
            obtain rfl : d = '$' := by simpa using hhead
            exact htag rest rfl rfl

/-! ## One token -/

/-- A reading of the same token with more text behind it. -/
def Reading.extend (r : Reading) (s : Text) : Reading := { r with rest := r.rest ++ s }

/-- A token is settled if it leaves some of the text behind, or opens or closes a tag. -/
def Settled (mode : Mode) (t : Text) (p : Payload) : Prop :=
  (scan mode t).rest ≠ [] ∨ p.isDelimiter = true

/-- Where text is left over, more text behind it begins as before. -/
theorem Mode.follows_append {mode : Mode} {rest : Text} (hrest : rest ≠ []) (s : Text) :
    mode.Follows rest (rest ++ s) := by
  cases mode with
  | text =>
      intro hstarts
      cases hstarts with
      | nil => exact absurd rfl hrest
      | tagStart rest => exact .tagStart (rest ++ s)
  | tag =>
      intro c hc
      rw [List.head?_append_of_ne_nil _ hrest] at hc
      exact .inl hc

/-- What a settled token leaves behind, with more text behind it, can follow the token as well. -/
theorem Settled.follows {mode : Mode} {t : Text} {p : Payload} (h : Settled mode t p) (s : Text) :
    p.isDelimiter = true ∨ mode.Follows (scan mode t).rest ((scan mode t).rest ++ s) :=
  h.symm.imp_right fun hrest => Mode.follows_append hrest s

/-- **A settled token does not depend on what stands behind the text.** -/
theorem Settled.scan_append {mode : Mode} {t : Text} {p : Payload} (hsettled : Settled mode t p)
    (h : (scan mode t).result = .ok p) (s : Text) :
    scan mode (t ++ s) = ⟨(scan mode t).extend s, (scan mode t).blank⟩ := by
  have hend : p ≠ .endOfInput := by
    rintro rfl
    rcases hsettled with hrest | hdelimiter
    · exact hrest (scan_rest_of_endOfInput h)
    · simp [Payload.isDelimiter] at hdelimiter
  have hsplit : t ++ s = (scan mode t).blank ++
      ((scan mode t).passed ++ ((scan mode t).rest ++ s)) := by
    conv_lhs => rw [← scan_split mode t]
    simp only [List.append_assoc]
  rw [hsplit, scan_exchange h hend (scan_skips mode t) (hsettled.follows s), ← h]
  rfl

/-- Plain text at the end of a text stays alone in front of a tag or the end. -/
theorem readText_append_startsTag {t s content : Text}
    (h : (readText t).result = .ok (.text content)) (hrest : (readText t).rest = [])
    (hjoint : NoTagAcross t s) (hs : StartsTag s) :
    (readText (t ++ s)).result = .ok (.text content) ∧ (readText (t ++ s)).rest = s := by
  have hstop : textRun s = .done s := by cases hs <;> rfl
  cases readText_cases h with
  | text hfault hpassed hvalue hread =>
      rw [hread] at hrest
      have happend := textRun_append_of_rest_eq_nil hfault hrest hjoint
      rw [hstop] at happend
      rw [readText_of_textRun (by rw [happend]; simp [Run.append, hpassed]), happend]
      simp [Run.toReading, Run.append, Run.done]

/-- **Plain text at the end of a text goes on into plain text behind it.** -/
theorem readText_append_readText {t s content next : Text}
    (h : (readText t).result = .ok (.text content)) (hrest : (readText t).rest = [])
    (hjoint : NoTagAcross t s) (hs : (readText s).result = .ok (.text next)) :
    (readText (t ++ s)).result = .ok (.text (content ++ next)) ∧
      (readText (t ++ s)).rest = (readText s).rest := by
  cases readText_cases h with
  | text hfault hpassed hvalue hread =>
      cases readText_cases hs with
      | text hfault' hpassed' hvalue' hread' =>
          rw [hread] at hrest
          have happend := textRun_append_of_rest_eq_nil hfault hrest hjoint
          rw [readText_of_textRun (by rw [happend]; simp [Run.append, hpassed]), happend, hread']
          simp [Run.toReading, Run.append, hfault']

end TagTemplate
