import TagTemplate.Lexer.Progress
import TagTemplate.Proofs.Text.Position

set_option autoImplicit false

/-! # Requests to a lexer

Whoever holds a lexer can ask for the next token, ask for the last token again, and set the mode, in
any order and as often as wanted; every request gets an answer and leaves a lexer, whether it
succeeds or fails. The invariant of all such sessions is `Lexer.StandsIn`: the lexer has passed a
front of its text, still has the rest to read, and every position that it keeps is exact. One
request preserves it (`Lexer.StandsIn.ask`), and so does any number of them
(`Lexer.standsIn_askAll`).
-/

namespace TagTemplate

/-! ## Sessions -/

/-- What a lexer can be asked for. -/
inductive Request
  | next
  | token
  | setMode (mode : Datum)

/-- What a lexer answers: a token, nothing but that the mode is set, a failure, or the refusal of
what should have named a mode. -/
inductive Answer
  | token (t : Token)
  | done
  | failed (failure : LexFailure)
  | refused (rejection : InputRejection)

/-- The position that an answer carries: that of a token, or that of a lexical error. -/
def Answer.position? : Answer → Option Position
  | token t => some t.position
  | failed (.error e) => some e.position
  | _ => none

namespace Lexer

def ask (l : Lexer) : Request → Answer × Lexer
  | .next =>
    match l.next with
    | (.ok t, l') => (.token t, l')
    | (.error failure, l') => (.failed failure, l')
  | .token =>
    match l.token with
    | .ok t => (.token t, l)
    | .error e => (.failed (.error e), l)
  | .setMode mode =>
    match l.setModeTo mode with
    | .ok l' => (.done, l')
    | .error rejection => (.refused rejection, l)

def askAll (l : Lexer) (requests : List Request) : Lexer :=
  requests.foldl (fun l request => (l.ask request).2) l

/-! ## Standing in a text -/

/-- A lexer stands in a text: what it has passed and what it has still to read make up the text, its
position is the one behind the passed part, and the positions of its last token and of the fault
that it has met are exact. -/
structure StandsIn (t : Text) (l : Lexer) : Prop where
  place : ∃ front, t = front ++ l.rest ∧ l.position = Position.start.advance front
  last : ∀ token ∈ l.last, token.position.Exact t
  met : ∀ fault ∈ l.met, fault.position.Exact t

variable {t : Text} {l l' : Lexer}

theorem standsIn_ofText (t : Text) : (ofText t).StandsIn t where
  place := ⟨[], rfl, rfl⟩
  last := by simp [ofText]
  met := by simp [ofText]

theorem StandsIn.setMode (h : l.StandsIn t) (mode : Mode) : (l.setMode mode).StandsIn t :=
  ⟨h.place, h.last, h.met⟩

/-- The position of a lexer that stands in a text is exact. -/
theorem StandsIn.exact (h : l.StandsIn t) : l.position.Exact t := by
  obtain ⟨front, ht, hposition⟩ := h.place
  exact Position.exact_iff.mpr ⟨front, l.rest, ht, hposition⟩

/-- What a lexer has still to read begins at its offset. -/
theorem StandsIn.rest_eq_drop (h : l.StandsIn t) : l.rest = t.drop l.position.offset := by
  obtain ⟨front, ht, hposition⟩ := h.place
  have hoffset : l.position.offset = front.length := by
    rw [hposition, Position.advance_offset]
    exact Nat.zero_add _
  rw [hoffset, ht, List.drop_left]

/-- A lexer with nothing left to read stands at the end of its text. -/
theorem StandsIn.offset_of_rest (h : l.StandsIn t) (hrest : l.rest = []) :
    l.position.offset = t.length := by
  obtain ⟨front, ht, hposition⟩ := h.place
  rw [hrest, List.append_nil] at ht
  rw [hposition, ht, Position.advance_offset]
  exact Nat.zero_add _

/-- What a scan cuts off the rest, and the positions around it. -/
theorem StandsIn.scan (h : l.StandsIn t) :
    (l.position.advance (scan l.mode l.rest).blank).Exact t ∧
      ∃ front, t = front ++ (scan l.mode l.rest).rest ∧
        (l.position.advance (scan l.mode l.rest).blank).advance (scan l.mode l.rest).passed
          = Position.start.advance front := by
  obtain ⟨front, ht, hposition⟩ := h.place
  have hsplit := scan_split l.mode l.rest
  generalize TagTemplate.scan l.mode l.rest = s at hsplit ⊢
  rw [← hsplit] at ht
  rw [hposition, ← Position.advance_append, ← Position.advance_append]
  refine ⟨Position.exact_iff.mpr ⟨front ++ s.blank, s.passed ++ s.rest, ?_, rfl⟩,
    front ++ s.blank ++ s.passed, ?_, rfl⟩
  · rw [ht]
    simp only [List.append_assoc]
  · rw [ht]
    simp only [List.append_assoc]

/-- A request for a token leaves the lexer in the text, and a token or an error that it gives has an
exact position. -/
theorem StandsIn.next (h : l.StandsIn t) {result : Except LexFailure Token}
    (hnext : l.next = (result, l')) :
    l'.StandsIn t ∧ (∀ token, result = .ok token → token.position.Exact t) ∧
      ∀ e, result = .error (.error e) → e.position.Exact t := by
  unfold Lexer.next at hnext
  split at hnext
  · -- the lexer repeats the fault that it has met
    next fault hmet =>
    cases hnext
    refine ⟨h, by simp, fun e he => ?_⟩
    cases he
    exact h.met fault (by simp [hmet])
  · split at hnext
    · cases hnext
      refine ⟨h, by simp, fun e he => ?_⟩
      cases he
      exact h.exact
    · obtain ⟨hstart, front, ht, hstop⟩ := h.scan
      have hstopExact := Position.exact_iff.mpr ⟨front, _, ht, hstop⟩
      unfold afterScan at hnext
      dsimp only at hnext
      split at hnext
      · cases hnext
        refine ⟨⟨⟨front, ht, hstop⟩, ?_, h.met⟩, ?_, by simp⟩
        · intro token htoken
          cases htoken
          exact hstart
        · intro token htoken
          cases htoken
          exact hstart
      · cases hnext
        exact ⟨⟨⟨front, ht, hstop⟩, h.last, h.met⟩, by simp, by simp⟩
      · next fault _ =>
        have hplace : ∀ start stop : Position, start.Exact t → stop.Exact t →
            (faultPosition fault start stop).Exact t := by
          intro start stop h1 h2
          unfold faultPosition
          split
          · exact h1
          · exact h2
        cases hnext
        refine ⟨⟨⟨front, ht, hstop⟩, h.last, ?_⟩, by simp, ?_⟩
        · intro met hmet
          cases hmet
          exact hplace _ _ hstart hstopExact
        · intro e he
          cases he
          exact hplace _ _ hstart hstopExact

/-- **One request**: the lexer still stands in its text, and the position of the answer is exact. -/
theorem StandsIn.ask (h : l.StandsIn t) (request : Request) :
    (l.ask request).2.StandsIn t ∧ ∀ p ∈ (l.ask request).1.position?, p.Exact t := by
  cases request with
  | next =>
      cases hnext : l.next with
      | mk result l' =>
          obtain ⟨hlater, htoken, herror⟩ := h.next hnext
          cases result with
          | ok token =>
              have hask : l.ask .next = (.token token, l') := by rw [Lexer.ask, hnext]
              rw [hask]
              refine ⟨hlater, fun p hp => ?_⟩
              cases hp
              exact htoken token rfl
          | error failure =>
              have hask : l.ask .next = (.failed failure, l') := by rw [Lexer.ask, hnext]
              rw [hask]
              refine ⟨hlater, fun p hp => ?_⟩
              cases failure with
              | error e =>
                  cases hp
                  exact herror e rfl
              | digitLimit count => simp [Answer.position?] at hp
  | token =>
      unfold Lexer.ask Lexer.token
      cases hlast : l.last with
      | some token =>
          refine ⟨h, fun p hp => ?_⟩
          cases hp
          exact h.last token hlast
      | none =>
          refine ⟨h, fun p hp => ?_⟩
          cases hp
          exact h.exact
  | setMode mode =>
      unfold Lexer.ask Lexer.setModeTo
      cases mode with
      | mode m => exact ⟨h.setMode m, by simp [Answer.position?]⟩
      | _ => exact ⟨h, by simp [Answer.position?]⟩

/-- **All requests**: whatever a lexer has been asked for, it stands in its text. -/
theorem standsIn_askAll (t : Text) (requests : List Request) :
    ((ofText t).askAll requests).StandsIn t := by
  have hlater : ∀ l : Lexer, l.StandsIn t → (l.askAll requests).StandsIn t := by
    induction requests with
    | nil => exact fun l h => h
    | cons request requests ih => exact fun l h => ih _ (h.ask request).1
  exact hlater _ (standsIn_ofText t)

end Lexer

end TagTemplate
