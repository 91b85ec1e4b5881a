import TagTemplate.Proofs.Lexer.Request
import TagTemplate.Proofs.Lexer.Run

set_option autoImplicit false

/-! # Lexing looks only forward

What a lexer answers depends on the text that it has still to read and on its mode, and not on the
text that it has passed: that text only moves the positions (`Position.behind`). So a lexer behind a
text and a new lexer over the rest go side by side (`Lexer.IsBehind`). One request to both gets the
same answer but for the positions, and they are side by side again (`Lexer.IsBehind.ask`), so all
requests do (`Lexer.IsBehind.answers`). The one thing that a lexer remembers of the passed text is
its last token, so requests for that are left out. The main result is `answers_behind`.
-/

namespace TagTemplate

/-! ## Positions behind a text -/

namespace Position

/-- The place in a text that begins with the given one, of a place in what stands behind it. Offsets
and lines are counted on, and so are the columns of the first line, which goes on where the given
text stops. -/
def behind (u : Text) (p : Position) : Position where
  offset := p.offset + u.length
  line := p.line + u.count '\n'
  column := if p.line = 1 then p.column + u.lastLineLength else p.column

variable {u : Text} {p : Position}

theorem behind_step (hp : 0 < p.line) (c : Char) : (p.behind u).step c = (p.step c).behind u := by
  unfold step behind
  by_cases hc : c = '\n'
  · -- the next line is not the first one any more
    have hline : p.line + 1 ≠ 1 := by omega
    simp only [hc, if_true, if_neg hline, mk.injEq, and_true]
    omega
  · simp only [hc, if_false, mk.injEq, true_and]
    split <;> omega

/-- Further text is counted alike. -/
theorem behind_advance (hp : 0 < p.line) (t : Text) :
    (p.behind u).advance t = (p.advance t).behind u := by
  induction t generalizing p with
  | nil => rfl
  | cons c t ih =>
      have hline : 0 < (p.step c).line := by
        unfold step
        split
        · exact Nat.succ_pos _
        · exact hp
      rw [advance_cons, advance_cons, behind_step hp, ih hline]

/-- The start of what stands behind a text is the end of that. -/
theorem behind_start (u : Text) : start.behind u = start.advance u := by
  have hoffset := advance_offset start u
  have hline := advance_line start u
  have hcolumn := advance_column u
  generalize start.advance u = q at hoffset hline hcolumn
  obtain ⟨offset, line, column⟩ := q
  dsimp only at hoffset hline hcolumn
  rw [hoffset, hline, hcolumn]
  rfl

end Position

def LexError.behind (u : Text) (e : LexError) : LexError := ⟨e.cause, e.position.behind u⟩

def Answer.behind (u : Text) : Answer → Answer
  | token t => .token ⟨t.payload, t.position.behind u⟩
  | failed (.error e) => .failed (.error (e.behind u))
  | answer => answer

namespace Lexer

def answers (l : Lexer) : List Request → List Answer
  | [] => []
  | request :: requests => (l.ask request).1 :: (l.ask request).2.answers requests

/-! ## Two lexers side by side -/

/-- A lexer stands behind a text where another one stands without that text in front: they have the
same text still to read, in the same mode, and have met the same fault or the end of the input if the
other one has. -/
structure IsBehind (u : Text) (l fresh : Lexer) : Prop where
  mode : l.mode = fresh.mode
  rest : l.rest = fresh.rest
  position : l.position = fresh.position.behind u
  line_pos : 0 < fresh.position.line
  met : l.met = fresh.met.map fun met => ⟨met.fault, met.position.behind u⟩
  finished : l.isFinished = fresh.isFinished

variable {u : Text} {l fresh : Lexer}

theorem IsBehind.setMode (h : l.IsBehind u fresh) (mode : Mode) :
    (l.setMode mode).IsBehind u (fresh.setMode mode) :=
  ⟨rfl, h.rest, h.position, h.line_pos, h.met, h.finished⟩

theorem faultPosition_behind (fault : LexFault) (start stop : Position) :
    faultPosition fault (start.behind u) (stop.behind u)
      = (faultPosition fault start stop).behind u := by
  unfold faultPosition
  split <;> rfl

def nextAnswer : Except LexFailure Token → Answer
  | .ok t => .token t
  | .error failure => .failed failure

theorem ask_next (l : Lexer) : l.ask .next = (nextAnswer l.next.1, l.next.2) := by
  unfold ask
  cases l.next with
  | mk result l' => cases result <;> rfl

/-- The same scan leads both lexers to the same result, and side by side. -/
theorem IsBehind.afterScan (h : l.IsBehind u fresh) (s : Scan) :
    nextAnswer (l.afterScan s).1 = (nextAnswer (fresh.afterScan s).1).behind u ∧
      (l.afterScan s).2.IsBehind u (fresh.afterScan s).2 := by
  have hline : ∀ t, 0 < (fresh.position.advance t).line := by
    intro t
    rw [Position.advance_line]
    exact Nat.lt_add_right _ h.line_pos
  have hstart : l.position.advance s.blank = (fresh.position.advance s.blank).behind u := by
    rw [h.position, Position.behind_advance h.line_pos]
  have hstop : (l.position.advance s.blank).advance s.passed
      = ((fresh.position.advance s.blank).advance s.passed).behind u := by
    rw [hstart, Position.behind_advance (hline _)]
  have hlater : 0 < ((fresh.position.advance s.blank).advance s.passed).line := by
    rw [← Position.advance_append]
    exact hline _
  unfold Lexer.afterScan
  dsimp only
  rw [hstop, hstart]
  cases s.result with
  | ok payload => exact ⟨rfl, h.mode, rfl, rfl, hlater, h.met, rfl⟩
  | error failure =>
      cases failure with
      | digitLimit count => exact ⟨rfl, h.mode, rfl, rfl, hlater, h.met, h.finished⟩
      | fault fault =>
          dsimp only
          rw [faultPosition_behind]
          exact ⟨rfl, h.mode, rfl, rfl, hlater, rfl, h.finished⟩

/-- A request for the next token. -/
theorem IsBehind.next (h : l.IsBehind u fresh) :
    nextAnswer l.next.1 = (nextAnswer fresh.next.1).behind u ∧ l.next.2.IsBehind u fresh.next.2 := by
  have hmet := h.met
  unfold Lexer.next
  cases hfresh : fresh.met with
  | some met =>
      -- both repeat the fault that they have met
      rw [hfresh] at hmet
      rw [hmet]
      exact ⟨rfl, h⟩
  | none =>
      rw [hfresh] at hmet
      rw [hmet, h.finished]
      dsimp only [Option.map_none]
      by_cases hend : fresh.isFinished = true
      · rw [if_pos hend, if_pos hend, h.position]
        exact ⟨rfl, h⟩
      · rw [if_neg hend, if_neg hend, h.mode, h.rest]
        exact h.afterScan _

/-- **One request** to both lexers, for the next token or for a mode. -/
theorem IsBehind.ask (h : l.IsBehind u fresh) {request : Request} (hrequest : request ≠ .token) :
    (l.ask request).1 = (fresh.ask request).1.behind u ∧
      (l.ask request).2.IsBehind u (fresh.ask request).2 := by
  cases request with
  | next =>
      rw [ask_next, ask_next]
      exact h.next
  | token => exact absurd rfl hrequest
  | setMode mode =>
      unfold Lexer.ask Lexer.setModeTo
      cases mode with
      | mode m => exact ⟨rfl, h.setMode m⟩
      | _ => exact ⟨rfl, h⟩

/-- **All requests** to both lexers. -/
theorem IsBehind.answers (h : l.IsBehind u fresh) {requests : List Request}
    (hrequests : ∀ request ∈ requests, request ≠ .token) :
    l.answers requests = (fresh.answers requests).map (Answer.behind u) ∧
      (l.askAll requests).IsBehind u (fresh.askAll requests) := by
  induction requests generalizing l fresh with
  | nil => exact ⟨rfl, h⟩
  | cons request requests ih =>
      obtain ⟨hanswer, hnext⟩ := h.ask (hrequests request (by simp))
      obtain ⟨hanswers, hlater⟩ := ih hnext fun r hr => hrequests r (by simp [hr])
      refine ⟨?_, hlater⟩
      rw [Lexer.answers, Lexer.answers, List.map_cons, hanswer, hanswers]

end Lexer

/-- **Lexing looks only forward.** Take any session over a text in two parts that has come to stand
between the parts, without having met a fault or the end of the input. From there on, all requests
for the next token and for a mode are answered as a new lexer over the second part answers them if
it is set to the same mode: with the same tokens, the same errors and the same refusals, in the same
order. Their positions are those behind the first part, and so are the positions of the lexers
themselves, which stay in the same mode with the same text to read. -/
theorem answers_behind (u s : Text) (before after : List Request)
    (hready : ((Lexer.ofText (u ++ s)).askAll before).Ready)
    (hplace : ((Lexer.ofText (u ++ s)).askAll before).position.offset = u.length)
    (hafter : ∀ request ∈ after, request ≠ .token) :
    ((Lexer.ofText (u ++ s)).askAll before).answers after
      = (((Lexer.ofText s).setMode ((Lexer.ofText (u ++ s)).askAll before).mode).answers after).map
          (Answer.behind u) ∧
    (((Lexer.ofText (u ++ s)).askAll before).askAll after).IsBehind u
      (((Lexer.ofText s).setMode ((Lexer.ofText (u ++ s)).askAll before).mode).askAll after) := by
  have hstands := Lexer.standsIn_askAll (u ++ s) before
  generalize (Lexer.ofText (u ++ s)).askAll before = l at hready hplace hstands ⊢
  obtain ⟨front, htext, hposition⟩ := hstands.place
  have hlength : u.length = front.length := by
    rw [← hplace, hposition, Position.advance_offset]
    exact Nat.zero_add _
  obtain ⟨rfl, hrest⟩ := List.append_inj htext hlength
  have hbehind : l.IsBehind u ((Lexer.ofText s).setMode l.mode) :=
    ⟨rfl, hrest.symm, hposition.trans (Position.behind_start u).symm, Nat.one_pos, hready.met,
      hready.unfinished⟩
  exact hbehind.answers hafter

/-- Behind two lines and the opening of a tag: a name on the line of the opening, a character that
begins no token on the next line, and the fault once more. -/
theorem answers_behind_opening :
    ((Lexer.ofText "a\nb\x7b$x \n#".toList).askAll [.next, .next, .setMode (.mode .tag)]).answers
        [.next, .next, .next]
      = [.token ⟨.identifier ['x'], ⟨5, 2, 4⟩⟩,
        .failed (.error ⟨.fault (.unexpectedCharacter '#'), ⟨8, 3, 1⟩⟩),
        .failed (.error ⟨.stopped (.unexpectedCharacter '#'), ⟨8, 3, 1⟩⟩)] :=
  (answers_behind "a\nb\x7b$".toList "x \n#".toList [.next, .next, .setMode (.mode .tag)]
    [.next, .next, .next] ⟨rfl, rfl⟩ rfl (by simp)).1.trans rfl

end TagTemplate
