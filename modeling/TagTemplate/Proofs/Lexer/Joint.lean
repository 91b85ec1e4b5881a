import TagTemplate.Proofs.Lexer.Extension

set_option autoImplicit false

/-! # Tokens of texts one behind the other

Two texts are put together, and the first one ends in text mode. Every token of the first is settled
and read as before, but for a plain text at its end (`Scans.text_of_not_settled`). Behind it the
second text is read from text mode on, as if it stood alone; where plain text meets plain text the
two are read as one. So the tokens of the whole are those of the two texts, joined where two texts
meet (`Scans.append`).
-/

namespace TagTemplate

/-! ## Lists that meet -/

/-- One list behind another; the last element of the first and the first element of the second
become one if they can be joined. -/
def appendJoining {α : Type} (join? : α → α → Option α) (as bs : List α) : List α :=
  match as.getLast?, bs with
  | some a, b :: back =>
    match join? a b with
    | some c => as.dropLast ++ c :: back
    | none => as ++ bs
  | _, _ => as ++ bs

section

variable {α : Type} {join? : α → α → Option α}

theorem appendJoining_of_some (front : List α) {a b c : α} (h : join? a b = some c)
    (back : List α) : appendJoining join? (front ++ [a]) (b :: back) = front ++ c :: back := by
  simp [appendJoining, h]

theorem appendJoining_of_none {as bs : List α}
    (h : ∀ a ∈ as.getLast?, ∀ b ∈ bs.head?, join? a b = none) :
    appendJoining join? as bs = as ++ bs := by
  unfold appendJoining
  split
  · next a b back hlast =>
    rw [h a hlast b (by simp)]
  · rfl

/-- **Two elements are joined, or one list stands behind the other.** -/
theorem appendJoining_cases (join? : α → α → Option α) (as bs : List α) :
    (∃ front a b back c, as = front ++ [a] ∧ bs = b :: back ∧ join? a b = some c) ∨
      ∀ a ∈ as.getLast?, ∀ b ∈ bs.head?, join? a b = none := by
  by_cases hnone : ∀ a ∈ as.getLast?, ∀ b ∈ bs.head?, join? a b = none
  · exact .inr hnone
  · push Not at hnone
    obtain ⟨a, ha, b, hb, hjoin⟩ := hnone
    obtain ⟨front, rfl⟩ := List.getLast?_eq_some_iff.mp ha
    obtain ⟨back, rfl⟩ := List.head?_eq_some_iff.mp hb
    obtain ⟨c, hc⟩ := Option.ne_none_iff_exists'.mp hjoin
    exact .inl ⟨front, a, b, back, c, rfl, rfl, hc⟩

/-- Only the last element of the first list can be joined. -/
theorem appendJoining_cons {a : α} {as bs : List α}
    (h : as ≠ [] ∨ ∀ b ∈ bs.head?, join? a b = none) :
    appendJoining join? (a :: as) bs = a :: appendJoining join? as bs := by
  by_cases hnil : as = []
  · subst hnil
    have hnone : ∀ a' ∈ [a].getLast?, ∀ b ∈ bs.head?, join? a' b = none := by
      intro a' ha'
      obtain rfl : a = a' := by simpa using ha'
      exact h.resolve_left (by simp)
    rw [appendJoining_of_none hnone, appendJoining_of_none (by simp)]
    rfl
  · rcases appendJoining_cases join? as bs with ⟨front, a', b, back, c, rfl, rfl, hc⟩ | hnone
    · rw [appendJoining_of_some front hc, ← List.cons_append, appendJoining_of_some _ hc]
      rfl
    · have hlast : (a :: as).getLast? = as.getLast? := List.getLast?_cons_of_ne_nil hnil
      rw [appendJoining_of_none hnone, appendJoining_of_none (by rw [hlast]; exact hnone)]
      rfl

end

/-! ## Tokens -/

def Payload.join? : Payload → Payload → Option Payload
  | .text a, .text b => some (.text (a ++ b))
  | _, _ => none

def Payload.concat (ps qs : List Payload) : List Payload := appendJoining Payload.join? ps qs

/-- Where nothing is left, only the end of the input is scanned. -/
theorem Scans.of_nil {mode : Mode} {ps : List Payload} (h : Scans mode [] ps) :
    ps = [.endOfInput] := by
  have hresult : (scan mode []).result = .ok .endOfInput := by cases mode <;> rfl
  cases h with
  | finished _ => rfl
  | token htoken hp _ =>
      rw [hresult] at htoken
      exact absurd (Except.ok.inj htoken).symm hp

/-- In text mode nothing is left where only the end of the input is scanned. -/
theorem Scans.eq_nil_of_end {t : Text} (h : Scans .text t [.endOfInput]) : t = [] := by
  cases h with
  | finished hend => exact eq_nil_of_readText hend
  | token _ hp _ => exact absurd rfl hp

section

variable {mode : Mode} {t : Text} {p : Payload} {ps : List Payload}

/-- A settled token is read in front of more text as well. -/
theorem Scans.token_append {s : Text} (hsettled : Settled mode t p)
    (h : (scan mode t).result = .ok p) (hp : p ≠ .endOfInput)
    (hrest : Scans (modeAfter mode p) ((scan mode t).rest ++ s) ps) :
    Scans mode (t ++ s) (p :: ps) := by
  have happend := hsettled.scan_append h s
  refine .token ?_ hp ?_
  · rw [happend]
    exact h
  · rw [happend]
    exact hrest

/-- Behind a settled token that is no delimiter there are other tokens, if the text ends in text
mode. -/
theorem Settled.ne_nil_or (hsettled : Settled mode t p)
    (hrest : Scans (modeAfter mode p) (scan mode t).rest (ps ++ [.endOfInput]))
    (hmode : ps.foldl modeAfter (modeAfter mode p) = .text) :
    ps ≠ [] ∨ p.isDelimiter = true := by
  refine hsettled.imp_left fun hleft => ?_
  rintro rfl
  -- only in text mode the end of the input means that nothing at all is left
  have htext : modeAfter mode p = .text := hmode
  rw [htext] at hrest
  exact hleft hrest.eq_nil_of_end

/-- A token that is not settled is a plain text at the end, if the text ends in text mode. -/
theorem Scans.text_of_not_settled (hsettled : ¬ Settled mode t p)
    (h : (scan mode t).result = .ok p) (hp : p ≠ .endOfInput)
    (hrest : Scans (modeAfter mode p) (scan mode t).rest (ps ++ [.endOfInput]))
    (hmode : ps.foldl modeAfter (modeAfter mode p) = .text) :
    mode = .text ∧ ps = [] ∧ (scan mode t).rest = [] ∧ ∃ content, p = .text content := by
  have hnil : (scan mode t).rest = [] := by
    by_contra hleft
    exact hsettled (.inl hleft)
  have hnot : p.isDelimiter = false := Bool.eq_false_iff.mpr fun hdelimiter =>
    hsettled (.inr hdelimiter)
  have hlast : ps = [] := by
    rw [hnil] at hrest
    simpa using hrest.of_nil
  subst hlast
  have htext : mode = .text := by
    rw [modeAfter_of_not_delimiter hnot] at hmode
    exact hmode
  subst htext
  refine ⟨rfl, rfl, hnil, ?_⟩
  have hread : (readText t).result = .ok p := h
  cases readText_payload hread with
  | endOfInput => exact absurd rfl hp
  | tagStart => simp [Payload.isDelimiter] at hnot
  | text content _ => exact ⟨content, rfl⟩

end

/-- Plain text at the end of a text meets what stands behind it. -/
theorem Scans.text_append {t s content : Text} {qs : List Payload}
    (h : (readText t).result = .ok (.text content)) (hrest : (readText t).rest = [])
    (hs : Scans .text s qs) (hjoint : NoTagAcross t s) :
    Scans .text (t ++ s) (Payload.concat [.text content] qs) := by
  have halone : StartsTag s → Scans .text (t ++ s) (.text content :: qs) := by
    intro hstarts
    obtain ⟨hresult, hbehind⟩ := readText_append_startsTag h hrest hjoint hstarts
    refine .token hresult (by simp) ?_
    show Scans .text (readText (t ++ s)).rest qs
    rw [hbehind]
    exact hs
  cases hs with
  | finished hend =>
      obtain rfl : s = [] := eq_nil_of_readText hend
      exact halone .nil
  | @token _ _ q qs hq hqend hlater =>
      have hread : (readText s).result = .ok q := hq
      cases readText_cases hread with
      | endOfInput => exact absurd rfl hqend
      | tagStart rest => exact halone (.tagStart rest)
      | text _ _ _ _ =>
          obtain ⟨hresult, hbehind⟩ := readText_append_readText h hrest hjoint hread
          refine .token hresult (by simp) ?_
          show Scans .text (readText (t ++ s)).rest qs
          rw [hbehind]
          exact hlater

/-- **Two texts one behind the other have the tokens of both**, if the first ends in text mode and
no tag opening arises between them. -/
theorem Scans.append {mode : Mode} {t s : Text} {ps qs : List Payload}
    (h : Scans mode t (ps ++ [.endOfInput])) (hmode : ps.foldl modeAfter mode = .text)
    (hs : Scans .text s qs) (hjoint : NoTagAcross t s) :
    Scans mode (t ++ s) (Payload.concat ps qs) := by
  generalize hall : ps ++ [.endOfInput] = all at h
  induction h generalizing ps with
  | @finished mode t hend =>
      obtain rfl : ps = [] := by
        have hlength := congrArg List.length hall
        simpa using hlength
      obtain rfl : mode = .text := hmode
      obtain rfl : t = [] := eq_nil_of_readText hend
      rw [Payload.concat, appendJoining_of_none (by simp)]
      exact hs
  | @token mode t p rest htoken hp hrest ih =>
      cases ps with
      | nil => exact absurd (List.cons.inj hall).1.symm hp
      | cons p' ps =>
          obtain ⟨rfl, rfl⟩ := List.cons.inj hall
          have hbehind : NoTagAcross (scan mode t).rest s := by
            rw [← scan_split mode t] at hjoint
            exact hjoint.of_append
          have hlater := ih hmode hbehind rfl
          by_cases hsettled : Settled mode t p'
          · have hapart : ps ≠ [] ∨ ∀ q ∈ qs.head?, p'.join? q = none := by
              refine (hsettled.ne_nil_or hrest hmode).imp_right fun hdelimiter q _ => ?_
              cases p' <;> first | rfl | simp [Payload.isDelimiter] at hdelimiter
            rw [Payload.concat, appendJoining_cons hapart]
            exact .token_append hsettled htoken hp hlater
          · obtain ⟨rfl, rfl, hnil, content, rfl⟩ :=
              Scans.text_of_not_settled hsettled htoken hp hrest hmode
            exact .text_append htoken hnil hs hjoint

end TagTemplate
