import TagTemplate.Proofs.Lexer.Final
import TagTemplate.Proofs.Lexer.NumberLiteral
import TagTemplate.Proofs.Lexer.Partition
import TagTemplate.Proofs.Parser.Step

set_option autoImplicit false

/-! # Canonical sources

An element and a piece of plain text can be written in several ways, and one of them is the
canonical one: the literal of the element, and the rendering of the text. Two things are said of it
here. The literal of an element is read back as that element wherever it stands, if only the text
behind it closes a token (`element_literal_read_back`). And a source that was read differs from the
canonical source of its value in few places: an opening brace without a backslash gets one in plain
text, and the escape sequences of line breaks and tabs become these characters in a string
(`canonical_source`).

For the second the source is cut into units, each an escape sequence or a single character
(`Text.units`). Which backslash belongs to which character is decided from
left to right, as in the lexer: of a run of backslashes every other one begins a unit.
-/

namespace TagTemplate

/-! ## The literal of an element -/

/-- What a lexer has still to read is what lies behind its offset. -/
theorem Lexer.StandsIn.rest_eq {l : Lexer} {front rest : Text} (h : l.StandsIn (front ++ rest))
    (hoffset : l.position.offset = front.length) : l.rest = rest := by
  rw [h.rest_eq_drop, hoffset, List.drop_left]

/-- **The literal of an element is read back wherever it stands.** Let a lexer that scans stand in a
tag, in front of the literal of an element, with nothing, whitespace or the end of the tag behind
the literal. The next token spans exactly the literal, the element that is constructed from the kind
and the value of the token is the one that was written, and the lexer moves to the text behind. -/
theorem element_literal_read_back (e : Element) {front rest : Text} {l : Lexer}
    (hready : l.Ready) (hmode : l.mode = .tag) (hstands : l.StandsIn (front ++ e.literal ++ rest))
    (hoffset : l.position.offset = front.length) (hcloses : ClosesToken rest) :
    ∃ token l', l.next = (.ok token, l') ∧ token.position = l.position ∧
      Text.slice (front ++ e.literal ++ rest) token.position.offset l'.position.offset
        = e.literal ∧
      (∃ kind, token.payload.elementKind? = some kind ∧
        Element.construct kind token.payload.value = .ok e) ∧
      l'.StandsIn (front ++ e.literal ++ rest) ∧ l'.rest = rest ∧
      l'.position.offset = (front ++ e.literal).length := by
  have hread : readTag l.rest = ⟨e.literal, rest, .ok e.token⟩ := by
    rw [List.append_assoc] at hstands
    rw [hstands.rest_eq hoffset]
    exact readTag_literal e hcloses
  have hnext := hready.next_of_readTag hmode hread
  have hbehind : (l.position.advance e.literal).offset = front.length + e.literal.length := by
    rw [Position.advance_offset, hoffset]
  refine ⟨_, _, hnext, rfl, ?_, ⟨e.kind, token_elementKind? e, construct_token e⟩,
    (hstands.next hnext).1, rfl, ?_⟩
  · show Text.slice _ l.position.offset (l.position.advance e.literal).offset = e.literal
    rw [hbehind, hoffset, Text.slice_append]
  · rw [List.length_append]
    exact hbehind

/-- A string that holds both delimiters of a tag, a quote and a backslash, glued to the end of its
tag. -/
theorem element_literal_read_back_delimiters :
    ∃ token l', ((Lexer.ofText "\x7b$=\"\\\"$\x7d\x7b$\\\\\"$\x7d".toList).askAll
        [.next, .setMode (.mode .tag), .next]).next = (.ok token, l') ∧
      (∃ kind, token.payload.elementKind? = some kind ∧
        Element.construct kind token.payload.value = .ok (.string "\"$\x7d\x7b$\\".toList)) ∧
      l'.rest = ['$', '\x7d'] := by
  have hstands : ((Lexer.ofText "\x7b$=\"\\\"$\x7d\x7b$\\\\\"$\x7d".toList).askAll
      [.next, .setMode (.mode .tag), .next]).StandsIn (['\x7b', '$', '=']
        ++ (Element.string "\"$\x7d\x7b$\\".toList).literal ++ ['$', '\x7d']) :=
    Lexer.standsIn_askAll _ _
  obtain ⟨token, l', hnext, -, -, hbuilds, -, hrest, -⟩ :=
    element_literal_read_back _ ⟨rfl, rfl⟩ rfl hstands rfl (.tagEnd [])
  exact ⟨token, l', hnext, hbuilds, hrest⟩

/-! ## Units of a source -/

namespace Text

/-- The units of a source: an escape sequence, which is a backslash and the character behind it, or
a single character. -/
def units : Text → List Text
  | [] => []
  | '\\' :: c :: rest => ['\\', c] :: units rest
  | c :: rest => [c] :: units rest

/-- A source with its units exchanged as a table says; a unit that is not in the table stays. -/
def replaceUnits (table : List (Text × Text)) (source : Text) : Text :=
  source.units.flatMap fun unit => (table.lookup unit).getD unit

variable {table : List (Text × Text)}

theorem replaceUnits_escape (c : Char) (rest : Text) :
    replaceUnits table ('\\' :: c :: rest)
      = (table.lookup ['\\', c]).getD ['\\', c] ++ replaceUnits table rest := by
  rw [replaceUnits, units, List.flatMap_cons]
  rfl

theorem replaceUnits_plain {c : Char} (hc : c ≠ '\\') (rest : Text) :
    replaceUnits table (c :: rest) = (table.lookup [c]).getD [c] ++ replaceUnits table rest := by
  have hunits : units (c :: rest) = [c] :: units rest := by
    -- `c` is no backslash, so the equation for escape sequences does not apply
    rw [units]
    rintro d more rfl
    exact absurd rfl hc
  rw [replaceUnits, hunits, List.flatMap_cons]
  rfl

end Text

/-- **Encoding what a source decodes to** exchanges units of the source: those that a table
exchanges in the way in which the encoding writes what they stand for. -/
theorem Decodes.replaceUnits {escapes : List (Char × Char)} {delimiter source value : Text}
    (h : Decodes escapes delimiter source value) {table : List (Text × Text)}
    {encode : Char → Text}
    (hplain : ∀ c rest, c ≠ '\\' → ¬ delimiter <+: c :: rest →
      (table.lookup [c]).getD [c] = encode c)
    (hescape : ∀ c d, (c, d) ∈ escapes → (table.lookup ['\\', c]).getD ['\\', c] = encode d)
    (rest : Text) :
    (source ++ rest).replaceUnits table = value.flatMap encode ++ rest.replaceUnits table := by
  -- one rule of the decoding passes one unit; the rest stands by for the quote behind a string
  induction h with
  | nil => rfl
  | @plain c source value hc hdelimiter _ ih =>
      rw [List.cons_append, Text.replaceUnits_plain hc, hplain c source hc hdelimiter, ih,
        List.flatMap_cons, List.append_assoc]
  | @escaped c d source value hc _ ih =>
      rw [List.cons_append, List.cons_append, Text.replaceUnits_escape, hescape c d hc, ih,
        List.flatMap_cons, List.append_assoc]

/-! ## Canonical plain text -/

/-- What the canonical source of plain text has in place of a brace that no backslash escapes. -/
def bareBraces : List (Text × Text) := [(['\x7b'], ['\\', '\x7b'])]

theorem Decodes.textSource_eq {source value : Text}
    (h : Decodes textEscapes tagStartText source value) :
    textSource value = source.replaceUnits bareBraces := by
  have hplain : ∀ c rest, c ≠ '\\' → ¬ tagStartText <+: c :: rest →
      (bareBraces.lookup [c]).getD [c] = textChar c := by
    intro c rest hc _
    by_cases hbrace : c = '\x7b'
    · rw [hbrace]
      rfl
    · simp [bareBraces, textChar, hc, hbrace]
  have hescape : ∀ c d, (c, d) ∈ textEscapes →
      (bareBraces.lookup ['\\', c]).getD ['\\', c] = textChar d := by
    intro c d hmem
    simp only [textEscapes, List.mem_cons, Prod.mk.injEq, List.not_mem_nil, or_false] at hmem
    rcases hmem with ⟨rfl, rfl⟩ | ⟨rfl, rfl⟩ <;> rfl
  have hsource := h.replaceUnits hplain hescape []
  rw [List.append_nil] at hsource
  rw [hsource]
  exact (List.append_nil _).symm

/-! ## Canonical strings -/

/-- What the canonical source of a string has in place of the escape sequences of line breaks and
tabs. -/
def writtenBreaks : List (Text × Text) :=
  [(['\\', 'n'], ['\n']), (['\\', 'r'], ['\r']), (['\\', 't'], ['\t'])]

theorem Decodes.stringLiteral_eq {source value : Text}
    (h : Decodes stringEscapes ['\x22'] source value) :
    Element.stringLiteral value
      = Text.replaceUnits writtenBreaks ('\x22' :: (source ++ ['\x22'])) := by
  have hplain : ∀ c rest, c ≠ '\\' → ¬ ['\x22'] <+: c :: rest →
      (writtenBreaks.lookup [c]).getD [c] = Element.stringChar c := by
    intro c rest hc hquote
    have hne : c ≠ '\x22' := by
      rintro rfl
      exact hquote ⟨rest, rfl⟩
    simp [writtenBreaks, List.lookup_cons, Element.stringChar, hc, hne]
  have hescape : ∀ c d, (c, d) ∈ stringEscapes →
      (writtenBreaks.lookup ['\\', c]).getD ['\\', c] = Element.stringChar d := by
    intro c d hmem
    simp only [stringEscapes, List.mem_cons, Prod.mk.injEq, List.not_mem_nil, or_false] at hmem
    rcases hmem with ⟨rfl, rfl⟩ | ⟨rfl, rfl⟩ | ⟨rfl, rfl⟩ | ⟨rfl, rfl⟩ | ⟨rfl, rfl⟩ <;> rfl
  have hquote : '\x22' ≠ '\\' := by decide
  rw [Text.replaceUnits_plain hquote, h.replaceUnits hplain hescape ['\x22']]
  rfl

/-! ## Tokens of a session -/

/-- A token that a session over a text gives has a lexeme between where it begins and where the
lexer stands behind it. -/
theorem Lexer.lexeme_of_ask {t : Text} {requests : List Request} {token : Token} {l : Lexer}
    (h : ((ofText t).askAll requests).ask .next = (.token token, l)) :
    Lexeme token.payload (t.slice token.position.offset l.position.offset) := by
  have hnext := ask_next_eq_token_iff.mp h
  have hstands := standsIn_askAll t requests
  cases outcome_of_next hnext with
  | token hready hmet hlast hstart hstop =>
      have hlexeme := (hready.cutsOut hstands hnext).lexeme
      rw [turn_of_next hnext] at hlexeme
      exact hlexeme

/-- **Canonical escaping changes only what it must.** Take a token that any session over a text
gives, and its source, which reaches from where the token begins to where the lexer stands behind
it. If the token is plain text, its rendering is the source with a backslash in front of every brace
that has none of its own; if it is a string, its literal is the source with line breaks and tabs in
place of their escape sequences. Nothing else changes. -/
theorem canonical_source (t : Text) (requests : List Request) (token : Token) (l : Lexer)
    (h : ((Lexer.ofText t).askAll requests).ask .next = (.token token, l)) :
    (∀ content, token.payload = .text content →
      (Tree.node (.text content)).render
        = (t.slice token.position.offset l.position.offset).replaceUnits bareBraces) ∧
    ∀ value, token.payload = .string value →
      (Element.string value).literal
        = (t.slice token.position.offset l.position.offset).replaceUnits writtenBreaks := by
  have hlexeme := Lexer.lexeme_of_ask h
  generalize t.slice token.position.offset l.position.offset = source at hlexeme
  constructor
  · intro content hpayload
    have hrender : (Tree.node (.text content)).render = textSource content := by
      simp [Tree.render, renderPending]
    rw [hpayload] at hlexeme
    cases hlexeme with
    | text hne hdecodes => rw [hrender, hdecodes.textSource_eq]
  · intro value hpayload
    rw [hpayload] at hlexeme
    cases hlexeme with
    | string hdecodes => exact hdecodes.stringLiteral_eq

/-- Backslashes in front of a brace and in front of an escaped line break: in the first source they
escape one another and not the brace. -/
theorem canonical_source_backslashes :
    (∃ token l, ((Lexer.ofText "\\\\\x7b\x7b$=\"\\\\\\n\"$\x7d".toList).askAll []).ask .next
        = (.token token, l) ∧ token.payload = .text "\\\x7b".toList ∧
      (Tree.node (.text "\\\x7b".toList)).render = "\\\\\\\x7b".toList) ∧
    ∃ token l, ((Lexer.ofText "\\\\\x7b\x7b$=\"\\\\\\n\"$\x7d".toList).askAll
        [.next, .next, .setMode (.mode .tag), .next]).ask .next = (.token token, l) ∧
      token.payload = .string "\\\n".toList ∧
      (Element.string "\\\n".toList).literal = "\"\\\\\n\"".toList := by
  have htext := canonical_source "\\\\\x7b\x7b$=\"\\\\\\n\"$\x7d".toList [] _ _ rfl
  have hstring := canonical_source "\\\\\x7b\x7b$=\"\\\\\\n\"$\x7d".toList
    [.next, .next, .setMode (.mode .tag), .next] _ _ rfl
  exact ⟨⟨_, _, rfl, rfl, (htext.1 _ rfl).trans rfl⟩, _, _, rfl, rfl, (hstring.2 _ rfl).trans rfl⟩

end TagTemplate
