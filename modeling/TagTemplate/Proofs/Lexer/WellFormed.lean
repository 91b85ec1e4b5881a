import TagTemplate.Proofs.Lexer.Final
import TagTemplate.Proofs.Lexer.Order
import TagTemplate.Proofs.Parser.Step

set_option autoImplicit false

/-! # Well-formed tokens

The kinds and values of well-formed tokens are listed here for each mode (`Mode.Admits`), in the
terms in which a token shows them: the value is a datum, which could be anything. What a mode makes
is in its list (`Mode.Makes.admits`), and a request gives nothing else (`Lexer.makes_of_next`). The
constructors of elements check their arguments once more, in words of their own; no argument of a
tag is refused, and its element keeps the value of the token (`TagPayload.exists_builds`). The main
result is `token_admitted`.
-/

namespace TagTemplate

/-! ## The tokens of a mode -/

/-- The kinds and values of the well-formed tokens of a mode. -/
inductive Mode.Admits : Mode → TokenKind → Datum → Prop
  | endOfInput (mode : Mode) : Admits mode .endOfInput .none
  | text (content : Text) (h : content ≠ []) : Admits .text .textString (.text content)
  | tagStart : Admits .text .tagStart (.text ['\x7b', '$'])
  | tagEnd : Admits .tag .tagEnd (.text ['$', '\x7d'])
  | equals : Admits .tag .identifier (.text ['='])
  | name (name : Text) (h : isIdentifier name = true) : Admits .tag .identifier (.text name)
  | function (name : Text) (h : isIdentifier name = true) : Admits .tag .function (.text name)
  | integer (n : Int) (hlow : -2147483648 ≤ n) (hhigh : n ≤ 2147483647) :
      Admits .tag .integer (.integer n)
  | double (x : Double) : Admits .tag .double (.float (.finite x))
  | string (content : Text) : Admits .tag .tagString (.text content)
  | operator (c : Char) (h : c ∈ ['+', '-', '*', '/', '%', '^']) :
      Admits .tag .operator (.text [c])

theorem TextPayload.admits {p : Payload} (h : TextPayload p) : Mode.text.Admits p.kind p.value := by
  cases h with
  | endOfInput => exact .endOfInput .text
  | tagStart => exact .tagStart
  | text content hne => exact .text content hne

/-- What makes an element valid makes its token well formed. -/
theorem Element.admits (e : Element) : Mode.tag.Admits e.token.kind e.token.value := by
  cases e with
  | integer constant =>
      have hrange := constant.valid
      unfold inIntegerRange integerMin integerMax at hrange
      rw [Bool.and_eq_true, decide_eq_true_iff, decide_eq_true_iff] at hrange
      exact .integer constant.value hrange.1 hrange.2
  | double value => exact .double value
  | string value => exact .string value
  | function name => exact .function name.name name.valid
  | operator op =>
      refine .operator op.symbol ?_
      cases op <;> decide
  | var name => exact .name name.name name.valid

theorem TagPayload.admits {p : Payload} (h : TagPayload p) : Mode.tag.Admits p.kind p.value := by
  cases h with
  | endOfInput => exact .endOfInput .tag
  | tagEnd => exact .tagEnd
  | equals => exact .equals
  | element e => exact e.admits

/-- **What a mode makes is well formed.** -/
theorem Mode.Makes.admits {mode : Mode} {p : Payload} (h : mode.Makes p) :
    mode.Admits p.kind p.value := by
  cases mode with
  | text => exact TextPayload.admits h
  | tag => exact TagPayload.admits h

/-- Text mode makes no arguments. -/
theorem TextPayload.elementKind? {p : Payload} (h : TextPayload p) : p.elementKind? = none := by
  cases h <;> rfl

/-- **One request** gives a token that the mode of the lexer makes, if it gives one. -/
theorem Lexer.makes_of_next {l l' : Lexer} {t : Token} (hnext : l.next = (.ok t, l')) :
    l.mode.Makes t.payload := by
  cases outcome_of_next hnext with
  | token hready hmet hlast hstart hstop => exact scan_makes (hready.scan_of_next hnext).1

/-! ## Arguments -/

/-- An element is built from a payload: its kind is the one that the payload stands for, its
constructor takes the value of the payload, and the element keeps that value. -/
structure Payload.Builds (p : Payload) (e : Element) : Prop where
  kind : p.elementKind? = some e.kind
  construct : Element.construct e.kind p.value = .ok e
  payload : e.payload = p.value

theorem Element.token_builds (e : Element) : e.token.Builds e :=
  ⟨token_elementKind? e, construct_token e, (token_value e).symm⟩

/-- The builder of a document takes what is built from an argument as the next element of the
tag. -/
theorem Payload.Builds.stepArgument {t : Token} {e : Element} (h : t.payload.Builds e)
    (hequals : t.payload ≠ .identifier ['=']) (strict : Bool) (u : Unfinished) (tag : ArgumentTag)
    (opening name : Position) (read : List Element) :
    stepArgument strict u tag opening name read t
      = .ok (.next ⟨.arguments tag opening name (e :: read), u⟩) := by
  have hkind := h.kind
  have hconstruct := h.construct
  unfold TagTemplate.stepArgument
  split
  · next hp => simp [hp, Payload.elementKind?] at hkind
  · next hp => simp [hp, Payload.elementKind?] at hkind
  · rw [hkind]
    dsimp only
    rw [if_neg hequals, hconstruct]

/-- Between the delimiters of a tag there are the name `=` and what elements are built from. -/
theorem TagPayload.exists_builds {p : Payload} (h : TagPayload p) (hinput : p ≠ .endOfInput)
    (htag : p ≠ .tagEnd) (hequals : p ≠ .identifier ['=']) : ∃ e, p.Builds e := by
  cases h with
  | endOfInput => exact absurd rfl hinput
  | tagEnd => exact absurd rfl htag
  | equals => exact absurd rfl hequals
  | element e => exact ⟨e, e.token_builds⟩

/-- **Tokens are well formed.** Take any session over a text, and let the next request give a token.
Its kind and its value are in the list of the mode that the lexer is in. If that is tag mode, and
the token is not the name `=`, nor the end of the tag or of the input, then it is an argument: the
element of its kind is constructed from its value and has exactly that value, and the builder takes
it as the next element, whatever the tag and the elements before it. In text mode no token is an
argument. -/
theorem token_admitted (t : Text) (requests : List Request) {mode : Mode} {token : Token}
    {l : Lexer} (hmode : ((Lexer.ofText t).askAll requests).mode = mode)
    (hask : ((Lexer.ofText t).askAll requests).ask .next = (.token token, l)) :
    mode.Admits token.payload.kind token.payload.value ∧
    (mode = .tag → token.payload ≠ .endOfInput → token.payload ≠ .tagEnd →
      token.payload ≠ .identifier ['='] →
      ∃ e, token.payload.Builds e ∧ ∀ strict u tag opening name read,
        stepArgument strict u tag opening name read token
          = .ok (.next ⟨.arguments tag opening name (e :: read), u⟩)) ∧
    (mode = .text → token.payload.elementKind? = none) := by
  have hmakes := Lexer.makes_of_next (Lexer.ask_next_eq_token_iff.mp hask)
  rw [hmode] at hmakes
  refine ⟨hmakes.admits, fun htag hinput hend hequals => ?_, fun htext => ?_⟩
  · rw [htag] at hmakes
    obtain ⟨e, hbuilds⟩ := TagPayload.exists_builds hmakes hinput hend hequals
    exact ⟨e, hbuilds, hbuilds.stepArgument hequals⟩
  · rw [htext] at hmakes
    exact TextPayload.elementKind? hmakes

/-- Behind the opening of a tag and its name, a minus sign in front of a digit begins a number. -/
theorem token_admitted_negativeNumber :
    ∃ l, ((Lexer.ofText "\x7b$=-7".toList).askAll
        [.next, .setMode (.mode .tag), .next]).mode = .tag ∧
      ((Lexer.ofText "\x7b$=-7".toList).askAll [.next, .setMode (.mode .tag), .next]).ask .next
        = (.token ⟨.integer (-7), ⟨3, 1, 4⟩⟩, l) ∧
      Mode.tag.Admits .integer (.integer (-7)) ∧ ∃ e, (Payload.integer (-7)).Builds e := by
  have hask : ((Lexer.ofText "\x7b$=-7".toList).askAll
      [.next, .setMode (.mode .tag), .next]).ask .next
        = (.token ⟨.integer (-7), ⟨3, 1, 4⟩⟩, _) := rfl
  obtain ⟨hadmits, hargument, -⟩ := token_admitted "\x7b$=-7".toList
    [.next, .setMode (.mode .tag), .next] rfl hask
  obtain ⟨e, hbuilds, -⟩ := hargument rfl (by decide) (by decide) (by decide)
  exact ⟨_, rfl, rfl, hadmits, e, hbuilds⟩

end TagTemplate
