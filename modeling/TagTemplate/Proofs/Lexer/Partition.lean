import TagTemplate.Proofs.Lexer.Lexeme
import TagTemplate.Proofs.Lexer.Order
import TagTemplate.Proofs.Lexer.Request

set_option autoImplicit false

/-! # Tokens cut up the text

The loop over a text takes one turn for every token (`Lexer.turn`). A turn moves the lexer over the
whitespace in front of a token and over a lexeme of it, and over nothing else (`CutsOut`), so the
tokens of a text cut the text up from its beginning to its end. With the order in which they follow
one another this is `Partitions`, and the main result is that it holds of the tokens of every text
(`partitions_of_tokenize`).
-/

namespace TagTemplate

/-! ## Turns of the loop -/

/-- The part of a text between two offsets. -/
def Text.slice (t : Text) (start stop : Nat) : Text := (t.take stop).drop start

theorem Text.slice_append (a b c : Text) :
    slice (a ++ b ++ c) a.length (a.length + b.length) = b := by
  unfold slice
  rw [← List.length_append, List.take_left, List.drop_left]

namespace Lexer

variable {t : Text} {l l' : Lexer} {token : Token}

/-- One turn of the loop over a text: the lexer behind the next token, in the mode for the one after
it. -/
def turn (l : Lexer) : Lexer :=
  match l.next with
  | (.ok token, l') => l'.behind token
  | (.error _, l') => l'

theorem turn_of_next (hnext : l.next = (.ok token, l')) : l.turn = l'.behind token := by
  rw [turn, hnext]

/-- A token begins behind the whitespace that its scan skipped, and the lexer stops behind what the
scan passed. -/
theorem Ready.position_of_next (h : l.Ready) (hnext : l.next = (.ok token, l')) :
    token.position = l.position.advance (scan l.mode l.rest).blank ∧
      l'.position = token.position.advance (scan l.mode l.rest).passed := by
  rw [h.next, afterScan] at hnext
  dsimp only at hnext
  split at hnext
  · cases hnext
    exact ⟨rfl, rfl⟩
  · simp at hnext
  · simp at hnext

end Lexer

/-! ## One token -/

/-- A lexer cuts a token out of a text: the token is what it gives next, a lexeme of the token
reaches from there to the lexer behind it, and only whitespace of tags stands in front of it, or
nothing at all in text mode. -/
structure CutsOut (t : Text) (l : Lexer) (token : Token) : Prop where
  next : l.next.1 = .ok token
  start_le : l.position.offset ≤ token.position.offset
  le_stop : token.position.offset ≤ l.turn.position.offset
  blank : ∀ c ∈ t.slice l.position.offset token.position.offset, c ∈ [' ', '\t', '\r', '\n']
  tight : l.mode = .text → t.slice l.position.offset token.position.offset = []
  lexeme : Lexeme token.payload (t.slice token.position.offset l.turn.position.offset)

theorem scan_blank {mode : Mode} {t : Text} :
    ∀ c ∈ (scan mode t).blank, c ∈ [' ', '\t', '\r', '\n'] := by
  cases mode with
  | text => simp [scan]
  | tag =>
      intro c hc
      have hblank : isBlank c = true := List.mem_takeWhile_imp hc
      simpa [isBlank, or_assoc] using hblank

/-- **One turn cuts out one token.** -/
theorem Lexer.Ready.cutsOut {t : Text} {l l' : Lexer} {token : Token} (h : l.Ready)
    (hstands : l.StandsIn t) (hnext : l.next = (.ok token, l')) : CutsOut t l token := by
  obtain ⟨hresult, -⟩ := h.scan_of_next hnext
  obtain ⟨hstart, hstop⟩ := h.position_of_next hnext
  obtain ⟨front, ht, hposition⟩ := hstands.place
  have hlexeme := scan_lexeme hresult
  have hblank : ∀ c ∈ (scan l.mode l.rest).blank, c ∈ [' ', '\t', '\r', '\n'] := scan_blank
  have htight : l.mode = .text → (scan l.mode l.rest).blank = [] := by
    intro hmode
    rw [hmode]
    rfl
  have hsplit := scan_split l.mode l.rest
  generalize scan l.mode l.rest = s at *
  -- the three offsets are the lengths of the parts of the text in front of them
  have h0 : l.position.offset = front.length := by
    rw [hposition, Position.advance_offset]
    exact Nat.zero_add _
  have h1 : token.position.offset = front.length + s.blank.length := by
    rw [hstart, Position.advance_offset, h0]
  have h2 : l.turn.position.offset = (front ++ s.blank).length + s.passed.length := by
    have hturn : l.turn.position = l'.position := by rw [turn_of_next hnext]; rfl
    rw [hturn, hstop, Position.advance_offset, h1, List.length_append]
  have hgap : t.slice l.position.offset token.position.offset = s.blank := by
    rw [h0, h1, ht, ← hsplit, List.append_assoc s.blank, ← List.append_assoc front,
      Text.slice_append]
  have hsource : t.slice token.position.offset l.turn.position.offset = s.passed := by
    rw [h2, h1, ht, ← hsplit, ← List.append_assoc, ← List.append_assoc, ← List.length_append,
      Text.slice_append]
  refine ⟨by rw [hnext], ?_, ?_, ?_, ?_, ?_⟩
  · rw [h0, h1]
    exact Nat.le_add_right _ _
  · rw [h1, h2, List.length_append]
    exact Nat.le_add_right _ _
  · rw [hgap]
    exact hblank
  · rw [hgap]
    exact htight
  · rw [hsource]
    exact hlexeme

/-! ## All tokens -/

/-- A run leaves its lexer in the text. -/
theorem Lexer.Reads.standsIn {t : Text} {l l' : Lexer} {ts : List Token} (hreads : l.Reads ts l')
    (hstands : l.StandsIn t) : l'.StandsIn t := by
  induction hreads with
  | done l => exact hstands
  | token hnext ht _ ih => exact ih ((hstands.next hnext).1.setMode _)

/-- A run of tokens is as many turns. -/
theorem Lexer.Reads.iterate_turn {l l' : Lexer} {ts : List Token} (hreads : l.Reads ts l') :
    turn^[ts.length] l = l' := by
  induction hreads with
  | done l => rfl
  | token hnext ht _ ih =>
      rw [List.length_cons, Function.iterate_succ_apply, turn_of_next hnext, ih]

/-- Every turn of a run cuts out its token, and so does the turn behind the run. -/
theorem Lexer.Reads.cutsOut {t : Text} {l l' l'' : Lexer} {ts : List Token} {last : Token}
    (hreads : l.Reads ts l') (h : l.Ready) (hstands : l.StandsIn t)
    (hlast : l'.next = (.ok last, l'')) :
    ∀ i token, (ts ++ [last])[i]? = some token → CutsOut t (turn^[i] l) token := by
  induction hreads with
  | done l =>
      intro i token htoken
      cases i with
      | zero =>
          obtain rfl : last = token := by simpa using htoken
          exact h.cutsOut hstands hlast
      | succ i => simp at htoken
  | token hnext ht _ ih =>
      intro i token htoken
      cases i with
      | zero =>
          cases htoken
          exact h.cutsOut hstands hnext
      | succ i =>
          have hready' := h.of_next hnext ht
          have hstands' := (hstands.next hnext).1
          have hlater := ih (hready'.setMode _) (hstands'.setMode _) hlast
          rw [Function.iterate_succ_apply, turn_of_next hnext]
          exact hlater i token (by simpa using htoken)

/-- The end of the input stands at the end of the text. -/
theorem Lexer.Ready.offset_of_end {t : Text} {l l' : Lexer} {token : Token} (h : l.Ready)
    (hstands : l.StandsIn t) (hnext : l.next = (.ok token, l')) (hend : token.isEnd = true) :
    token.position.offset = t.length := by
  obtain ⟨hresult, -⟩ := h.scan_of_next hnext
  obtain ⟨-, hstop⟩ := h.position_of_next hnext
  have hlexeme := scan_lexeme hresult
  rw [Token.isEnd_iff.mp hend] at hlexeme
  rw [hlexeme.eq_nil, Position.advance_nil] at hstop
  rw [← hstop]
  exact (hstands.next hnext).1.offset_of_rest (h.rest_of_end hnext hend)

/-- Tokens partition a text: turn after turn cuts out one of them, the end of the input is the last
of them and no other, and it stands at the end of the text. No text token is empty or follows on
another, the delimiters of tags take turns, an opening first, and no text stands between an opening
and the next end of a tag. -/
structure Partitions (t : Text) (tokens : List Token) : Prop where
  cutsOut : ∀ i token, tokens[i]? = some token →
    CutsOut t (Lexer.turn^[i] (Lexer.ofText t)) token
  last : ∃ front token, tokens = front ++ [token] ∧ token.payload = .endOfInput ∧
    token.position.offset = t.length ∧ ∀ other ∈ front, other.payload ≠ .endOfInput
  parted : PartedTexts (tokens.map Token.payload)
  takeTurns : TakeTurns .tagStart .tagEnd
    ((tokens.map Token.payload).filter Payload.isDelimiter)
  text_free : ∀ before inside rest,
    tokens.map Token.payload = before ++ .tagStart :: (inside ++ rest) →
    Payload.tagEnd ∉ inside → ∀ p ∈ inside, p.isText = false

/-- **Tokenizing loses nothing and invents nothing**: the tokens of a text partition it. -/
theorem partitions_of_tokenize {t : Text} {tokens : List Token} (h : tokenize t = .ok tokens) :
    Partitions t tokens := by
  obtain ⟨ts, last, l, l', hreads, hnext, hend, rfl⟩ := exists_reads_of_tokenize h
  have hready := Lexer.ready_ofText t
  have hstands := Lexer.standsIn_ofText t
  have hmoded : Moded .text ((ts ++ [last]).map Token.payload) := by
    have hdrain : (Lexer.ofText t).drain.tokens = ts ++ [last] := by
      rw [hreads.drain_eq, Lexer.drain_of_end hnext hend]
    rw [← hdrain]
    exact hready.drain_moded
  refine ⟨hreads.cutsOut hready hstands hnext, ⟨ts, last, rfl, Token.isEnd_iff.mp hend, ?_, ?_⟩,
    ?_, hmoded.takeTurns, ?_⟩
  · exact (hreads.ready hready).offset_of_end (hreads.standsIn hstands) hnext hend
  · exact fun other hother => Token.isEnd_eq_false_iff.mp (hreads.isEnd_eq_false other hother)
  · exact (exists_tokenize_iff.mp ⟨_, h, rfl⟩).parted
  · intro before inside rest heq
    rw [heq] at hmoded
    exact hmoded.of_append.text_free

/-- An escaped brace in front of a tag, a string with an escape sequence and a number glued to it
and to the end of the tag. -/
theorem partitions_of_tokenize_glued :
    ∃ tokens, tokenize "\\\x7b\x7b$ =\"\\n\" -07$\x7d".toList = .ok tokens ∧ tokens.length = 7 ∧
      Partitions "\\\x7b\x7b$ =\"\\n\" -07$\x7d".toList tokens :=
  ⟨[⟨.text ['\x7b'], ⟨0, 1, 1⟩⟩, ⟨.tagStart, ⟨2, 1, 3⟩⟩, ⟨.identifier ['='], ⟨5, 1, 6⟩⟩,
      ⟨.string ['\n'], ⟨6, 1, 7⟩⟩, ⟨.integer (-7), ⟨11, 1, 12⟩⟩, ⟨.tagEnd, ⟨14, 1, 15⟩⟩,
      ⟨.endOfInput, ⟨16, 1, 17⟩⟩],
    by cbv, rfl, partitions_of_tokenize (by cbv)⟩

end TagTemplate
