import TagTemplate.Element.Construct
import TagTemplate.Proofs.Lexer.NumberLiteral

set_option autoImplicit false

/-! # Names

Whether a text is an identifier is decided in two places: by the test of the whole text, which the
constructors of variables and functions apply, and by the scan of a tag, character by character. They
agree on every text (`identifier_scanned_iff`). A text is read as one token and nothing else if the
end of the input is the next token behind it (`Lexer.GivesOnly`); the equals sign is the one text
that is read as a name without being an identifier.
-/

namespace TagTemplate

namespace Lexer

variable {l : Lexer} {p : Payload}

/-- A lexer gives one token, with the given payload, and then the end of the input. -/
def GivesOnly (l : Lexer) (p : Payload) : Prop :=
  ∃ token last l' l'', l.next = (.ok token, l') ∧ token.payload = p ∧
    l'.next = (.ok last, l'') ∧ last.payload = .endOfInput

/-- What a lexer gives was read from a lexeme in what it had still to read. -/
theorem Ready.lexeme_of_givesOnly (h : l.Ready) (hgives : l.GivesOnly p) :
    Lexeme p (scan l.mode l.rest).passed := by
  obtain ⟨token, last, l', l'', hnext, rfl, -, -⟩ := hgives
  obtain ⟨hscan, -⟩ := h.scan_of_next hnext
  exact scan_lexeme hscan

/-- A token that takes up all that is left is the only one. -/
theorem Ready.givesOnly_of_readTag (h : l.Ready) (hmode : l.mode = .tag) {passed : Text}
    (hp : p ≠ .endOfInput) (hread : readTag l.rest = ⟨passed, [], .ok p⟩) : l.GivesOnly p := by
  have hnext := h.next_of_readTag hmode hread
  have hready := h.of_next hnext (Token.isEnd_eq_false_iff.mpr hp)
  have hend : readTag [] = ⟨[], [], .ok .endOfInput⟩ := rfl
  have hlast := hready.next_of_readTag hmode hend
  exact ⟨_, _, _, _, hnext, rfl, hlast, rfl⟩

end Lexer

/-- A checked name is given exactly if the text is an identifier. -/
theorem exists_identifierOf_iff (role : NameRole) (t : Text) :
    (∃ name, Element.identifierOf role (.text t) = .ok name) ↔ isIdentifier t = true := by
  unfold Element.identifierOf
  by_cases h : isIdentifier t = true <;> simp [h]

/-- **The test and the scan define the same identifiers.** In a tag, a text is read as the name that
it is, with nothing else before the end of the input, exactly if it is an identifier or the equals
sign; behind an at sign it is read as a function exactly if it is an identifier; and exactly then
there are a variable and a function of this name, while any other text is refused for its value. -/
theorem identifier_scanned_iff (t : Text) :
    (((Lexer.ofText t).setMode .tag).GivesOnly (.identifier t) ↔
      isIdentifier t = true ∨ t = ['=']) ∧
    (((Lexer.ofText ('@' :: t)).setMode .tag).GivesOnly (.function t) ↔ isIdentifier t = true) ∧
    ((∃ e, Element.construct .var (.text t) = .ok e) ↔ isIdentifier t = true) ∧
    ((∃ e, Element.construct .function (.text t) = .ok e) ↔ isIdentifier t = true) ∧
    (isIdentifier t = false → ∃ rejection rejection',
      Element.construct .var (.text t) = .error rejection ∧ rejection.refusal =
        ⟨.valueError, "Invalid variable name: " ++ String.ofList (Text.quoted t)⟩ ∧
      Element.construct .function (.text t) = .error rejection' ∧ rejection'.refusal =
        ⟨.valueError, "Invalid function name: " ++ String.ofList (Text.quoted t)⟩) := by
  have hready : ∀ s, ((Lexer.ofText s).setMode .tag).Ready :=
    fun s => (Lexer.ready_ofText s).setMode .tag
  have hmap : ∀ (role : NameRole) (make : Identifier → Element),
      (∃ e, (Element.identifierOf role (.text t)).map make = .ok e) ↔ isIdentifier t = true := by
    intro role make
    rw [← exists_identifierOf_iff role t]
    cases Element.identifierOf role (.text t) <;> simp [Except.map]
  refine ⟨⟨fun hgives => ?_, ?_⟩, ⟨fun hgives => ?_, fun hname => ?_⟩, hmap .var .var,
    hmap .function .function, fun hname => ?_⟩
  · have hlexeme := (hready t).lexeme_of_givesOnly hgives
    generalize (scan _ _).passed = passed at hlexeme
    cases hlexeme with
    | equals => exact .inr rfl
    | identifier hname => exact .inl hname
  · rintro (hname | rfl)
    · have hread := readTag_identifier ⟨t, hname⟩ .nil
      rw [List.append_nil] at hread
      exact (hready t).givesOnly_of_readTag rfl (by simp) hread
    · have hread : readTag ['='] = ⟨['='], [], .ok (.identifier ['='])⟩ := rfl
      exact (hready _).givesOnly_of_readTag rfl (by simp) hread
  · have hlexeme := (hready _).lexeme_of_givesOnly hgives
    generalize (scan _ _).passed = passed at hlexeme
    cases hlexeme with
    | function hname => exact hname
  · have hread := readTag_function ⟨t, hname⟩ .nil
    rw [List.append_nil] at hread
    exact (hready _).givesOnly_of_readTag rfl (by simp) hread
  · have hrefused : ∀ role, Element.identifierOf role (.text t) = .error (.nameForm role t) :=
      fun role => by simp [Element.identifierOf, hname]
    refine ⟨.nameForm .var t, .nameForm .function t, ?_, rfl, ?_, rfl⟩
    · rw [Element.construct, hrefused]
      rfl
    · rw [Element.construct, hrefused]
      rfl

end TagTemplate
