import TagTemplate.Proofs.Lexer.Outcome

set_option autoImplicit false

/-! # Failures and the end of the input are final

A lexer that has met a fault of its text, or has produced the end of the input, has one answer left
to all requests for the next token (`Lexer.finalError?`). No request takes that away, moves the
lexer or changes its last token (`Lexer.ask_of_finalError`), so the answers stay the same in every
session from there on (`Lexer.isFinal_of_finalError`). The last token of a lexer is throughout the
last one that a request for the next token has produced (`Lexer.last_askAll`). The main result is
`final_of_fault_or_end`.
-/

namespace TagTemplate

/-- The token that a request has produced: a request for the last token again produces none. -/
def Request.produced? : Request → Answer → Option Token
  | .next, .token t => some t
  | _, _ => none

namespace Lexer

def produced (l : Lexer) : List Request → List Token
  | [] => []
  | request :: requests =>
    (request.produced? (l.ask request).1).toList ++ (l.ask request).2.produced requests

/-- What a lexer at a position answers to a request for its last token: the last of the tokens that
it has produced, or an error if there is none. -/
def lastAnswer (tokens : List Token) (position : Position) : Answer :=
  match tokens.getLast? with
  | some t => .token t
  | none => .failed (.error ⟨.noToken, position⟩)

/-- Whatever a lexer is asked for from here on, it answers every request for the next token with one
error and every request for the last token with one answer, and it does not move. -/
structure IsFinal (l : Lexer) (e : LexError) (last : Answer) : Prop where
  next : ∀ requests, ((l.askAll requests).ask .next).1 = .failed (.error e)
  token : ∀ requests, ((l.askAll requests).ask .token).1 = last
  position : ∀ requests, (l.askAll requests).position = l.position

variable {l l' : Lexer}

/-! ## The last token -/

theorem ask_next_eq_token_iff {t : Token} :
    l.ask .next = (.token t, l') ↔ l.next = (.ok t, l') := by
  cases hnext : l.next with
  | mk result l'' => cases result <;> simp [ask, hnext]

theorem ask_next_eq_failed_iff {failure : LexFailure} :
    l.ask .next = (.failed failure, l') ↔ l.next = (.error failure, l') := by
  cases hnext : l.next with
  | mk result l'' => cases result <;> simp [ask, hnext]

/-- What a request does to a lexer, with the token that it produces: it is a request for the next
token, which succeeds or fails, or it changes nothing but the mode. -/
inductive Effect (l : Lexer) : Option Token → Lexer → Prop
  | token {t : Token} {l' : Lexer} (hnext : l.next = (.ok t, l')) : Effect l (some t) l'
  | failed {failure : LexFailure} {l' : Lexer} (hnext : l.next = (.error failure, l')) :
      Effect l none l'
  | setMode (mode : Mode) : Effect l none (l.setMode mode)

/-- **Every request has one of the effects.** -/
theorem effect_ask (l : Lexer) (request : Request) :
    l.Effect (request.produced? (l.ask request).1) (l.ask request).2 := by
  cases request with
  | next =>
      cases hnext : l.next with
      | mk result l' =>
          cases result with
          | ok t =>
              rw [ask_next_eq_token_iff.mpr hnext]
              exact .token hnext
          | error failure =>
              rw [ask_next_eq_failed_iff.mpr hnext]
              exact .failed hnext
  | token =>
      have hsame : (l.ask .token).2 = l := by
        unfold ask
        cases l.token <;> rfl
      rw [hsame]
      exact .setMode l.mode
  | setMode mode =>
      cases mode with
      | mode m => exact .setMode m
      | _ => exact .setMode l.mode

/-- A request that fails leaves the last token as it was. -/
theorem last_of_next_error {failure : LexFailure} (hnext : l.next = (.error failure, l')) :
    l'.last = l.last := by
  cases outcome_of_next hnext with
  | stopped hmet => rfl
  | pastEnd hmet hend => rfl
  | fault hready hmet hlast hstart hstop => exact hlast
  | digitLimit hready hmet hlast hstop => exact hlast

/-- The last token of a lexer behind a request is the one that the request has produced, or the one
it was before. -/
theorem last_ask (l : Lexer) (request : Request) :
    (l.ask request).2.last = (request.produced? (l.ask request).1).or l.last := by
  have heffect := l.effect_ask request
  generalize request.produced? (l.ask request).1 = produced, (l.ask request).2 = l' at heffect ⊢
  cases heffect with
  | token hnext =>
      cases outcome_of_next hnext with
      | token hready hmet hlast hstart hstop => exact hlast
  | failed hnext => exact last_of_next_error hnext
  | setMode mode => rfl

/-- **The last token of a lexer is the last that requests have produced.** -/
theorem last_askAll (l : Lexer) (requests : List Request) :
    (l.askAll requests).last = (l.produced requests).getLast?.or l.last := by
  induction requests generalizing l with
  | nil => rfl
  | cons request requests ih =>
      have hlater : l.askAll (request :: requests) = (l.ask request).2.askAll requests := rfl
      rw [hlater, ih, last_ask, produced, List.getLast?_append, Option.or_assoc]
      cases request.produced? (l.ask request).1 <;> rfl

/-- A request for the last token is answered from the last token and the position alone. -/
theorem ask_token (l : Lexer) : (l.ask .token).1 = lastAnswer l.last.toList l.position := by
  unfold ask token
  cases l.last <;> rfl

theorem lastAnswer_askAll_ofText (t : Text) (requests : List Request) (position : Position) :
    lastAnswer ((ofText t).askAll requests).last.toList position =
      lastAnswer ((ofText t).produced requests) position := by
  have hnone : (ofText t).last = none := rfl
  rw [last_askAll, hnone, Option.or_none]
  unfold lastAnswer
  cases ((ofText t).produced requests).getLast? <;> rfl

/-! ## Nothing is left to scan -/

/-- The error that a lexer answers to every request for a token, if it does not scan any more. -/
def finalError? (l : Lexer) : Option LexError :=
  match l.met with
  | some met => some ⟨.stopped met.fault, met.position⟩
  | none => if l.isFinished then some ⟨.pastEnd, l.position⟩ else none

variable {e : LexError}

/-- A lexer that scans has no final error. -/
theorem Ready.finalError? (h : l.Ready) : l.finalError? = none := by
  unfold Lexer.finalError?
  rw [h.met]
  dsimp only
  rw [h.unfinished]
  rfl

/-- A lexer that does not scan any more answers with its final error and stays as it is. -/
theorem next_of_finalError (h : l.finalError? = some e) : l.next = (.error (.error e), l) := by
  cases hnext : l.next with
  | mk result l' =>
      cases outcome_of_next hnext with
      | stopped hmet =>
          simp only [finalError?, hmet, Option.some_inj] at h
          rw [h]
      | pastEnd hmet hend =>
          simp only [finalError?, hmet, hend, if_true, Option.some_inj] at h
          rw [h]
      | token hready hmet hlast hstart hstop => simp [hready.finalError?] at h
      | fault hready hmet hlast hstart hstop => simp [hready.finalError?] at h
      | digitLimit hready hmet hlast hstop => simp [hready.finalError?] at h

/-- **One request** leaves the final error, the position and the last token as they are. -/
theorem ask_of_finalError (h : l.finalError? = some e) (request : Request) :
    (l.ask request).2.finalError? = some e ∧ (l.ask request).2.position = l.position ∧
      (l.ask request).2.last = l.last := by
  have heffect := l.effect_ask request
  generalize request.produced? (l.ask request).1 = produced, (l.ask request).2 = l' at heffect ⊢
  cases heffect with
  | token hnext =>
      rw [next_of_finalError h] at hnext
      cases hnext
  | failed hnext =>
      rw [next_of_finalError h] at hnext
      cases hnext
      exact ⟨h, rfl, rfl⟩
  | setMode mode => exact ⟨h, rfl, rfl⟩

/-- **All requests** leave the final error, the position and the last token as they are. -/
theorem askAll_of_finalError (h : l.finalError? = some e) (requests : List Request) :
    (l.askAll requests).finalError? = some e ∧ (l.askAll requests).position = l.position ∧
      (l.askAll requests).last = l.last := by
  induction requests generalizing l with
  | nil => exact ⟨h, rfl, rfl⟩
  | cons request requests ih =>
      obtain ⟨herror, hposition, hlast⟩ := ask_of_finalError h request
      obtain ⟨herror', hposition', hlast'⟩ := ih herror
      exact ⟨herror', hposition'.trans hposition, hlast'.trans hlast⟩

/-- A lexer with a final error gives no other answer any more. -/
theorem isFinal_of_finalError (h : l.finalError? = some e) :
    l.IsFinal e (lastAnswer l.last.toList l.position) where
  next requests := by
    rw [ask_next_eq_failed_iff.mpr (next_of_finalError (askAll_of_finalError h requests).1)]
  token requests := by
    obtain ⟨-, hposition, hlast⟩ := askAll_of_finalError h requests
    rw [ask_token, hposition, hlast]
  position requests := (askAll_of_finalError h requests).2.1

/-! ## What makes a lexer stop scanning -/

/-- Behind a fault a lexer repeats it, and has the last token that it had before. -/
theorem finalError_of_fault {fault : LexFault} {place : Position}
    (hnext : l.next = (.error (.error ⟨.fault fault, place⟩), l')) :
    l'.finalError? = some ⟨.stopped fault, place⟩ ∧ l'.last = l.last := by
  cases outcome_of_next hnext with
  | fault hready hmet hlast hstart hstop => exact ⟨by rw [finalError?, hmet], hlast⟩

/-- Behind the end of the input a lexer says that it is past that. -/
theorem finalError_of_end {t : Token} (hnext : l.next = (.ok t, l')) (hend : t.isEnd = true) :
    l'.finalError? = some ⟨.pastEnd, l'.position⟩ ∧ l'.last = some t := by
  cases outcome_of_next hnext with
  | token hready hmet hlast hstart hstop =>
      have hfinished : l'.isFinished = true := by rw [isFinished, hlast]; exact hend
      exact ⟨by rw [finalError?, hmet]; exact if_pos hfinished, hlast⟩

end Lexer

/-- **Failures and the end of the input are final.** Take any session over a text. If the next
request for a token then fails at a fault of the text, every later one fails with the wording of
that fault behind a fixed prefix, at the same place; if it gives the end of the input, every later
one fails because of that, where the lexer stands. Both are reported as lexical errors. In both cases
the lexer does not move any more,
and requests for its last token are answered with the one that was last produced, or with an error
if there was none. -/
theorem final_of_fault_or_end (t : Text) (requests : List Request) :
    (∀ fault place l,
      ((Lexer.ofText t).askAll requests).ask .next
        = (.failed (.error ⟨.fault fault, place⟩), l) →
      ∃ e, l.IsFinal e (Lexer.lastAnswer ((Lexer.ofText t).produced requests) l.position) ∧
        e.cause.message
          = "Lexer stopped after an earlier error: " ++ (LexCause.fault fault).message ∧
        e.position = place ∧ e.diagnostic = .atPosition
          ("Lexer stopped after an earlier error: " ++ (LexCause.fault fault).message) .lexical
          place) ∧
    ∀ token l,
      ((Lexer.ofText t).askAll requests).ask .next = (.token token, l) →
      token.payload = .endOfInput →
      ∃ e, l.IsFinal e (.token token) ∧
        e.cause.message = "Cannot tokenize past end of input" ∧ e.position = l.position ∧
        e.diagnostic = .atPosition "Cannot tokenize past end of input" .lexical l.position := by
  refine ⟨fun fault place l hask => ?_, fun token l hask hp => ?_⟩
  · have hnext := Lexer.ask_next_eq_failed_iff.mp hask
    obtain ⟨herror, hlast⟩ := Lexer.finalError_of_fault hnext
    have hfinal := Lexer.isFinal_of_finalError herror
    rw [hlast, Lexer.lastAnswer_askAll_ofText] at hfinal
    exact ⟨_, hfinal, rfl, rfl, rfl⟩
  · have hnext := Lexer.ask_next_eq_token_iff.mp hask
    obtain ⟨herror, hlast⟩ := Lexer.finalError_of_end hnext (Token.isEnd_iff.mpr hp)
    have hfinal := Lexer.isFinal_of_finalError herror
    rw [hlast] at hfinal
    exact ⟨_, hfinal, rfl, rfl, rfl⟩

/-- Behind the opening of a tag, a character that begins no token stops the lexer. -/
theorem final_of_fault_or_end_hash :
    ∃ l e,
      ((Lexer.ofText "\x7b$ #".toList).askAll [.next, .setMode (.mode .tag)]).ask .next
        = (.failed (.error ⟨.fault (.unexpectedCharacter '#'), ⟨3, 1, 4⟩⟩), l) ∧
      l.IsFinal e (.token ⟨.tagStart, .start⟩) ∧
      e.cause.message = "Lexer stopped after an earlier error: "
        ++ (LexCause.fault (.unexpectedCharacter '#')).message ∧
      e.position = ⟨3, 1, 4⟩ ∧ e.diagnostic = ⟨"Lexer stopped after an earlier error: " ++
        (LexCause.fault (.unexpectedCharacter '#')).message, .lexical, 3, 1, 4⟩ := by
  obtain ⟨e, hfinal, hmessage, hposition, hdiagnostic⟩ :=
    (final_of_fault_or_end "\x7b$ #".toList [.next, .setMode (.mode .tag)]).1
      (.unexpectedCharacter '#') ⟨3, 1, 4⟩ _ rfl
  exact ⟨_, e, rfl, hfinal, hmessage, hposition, hdiagnostic⟩

end TagTemplate
