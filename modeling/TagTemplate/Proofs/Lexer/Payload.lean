import TagTemplate.Proofs.Lexer.Reading

set_option autoImplicit false

/-! # The payloads that scans make

In text mode a scan makes plain text, a tag opening or the end of the input; in tag mode the end of
the tag or of the input, the name `=`, or the payload of an element (`readText_payload`,
`readTag_payload`).
-/

namespace TagTemplate

/-! ## Elements and their payloads -/

namespace Element

/-- The payload that an element is read from. -/
def token : Element → Payload
  | .integer constant => .integer constant.value
  | .double value => .double value
  | .string value => .string value
  | .function name => .function name.name
  | .operator op => .operator op.symbol
  | .var name => .identifier name.name

/-- A name that is an identifier is not the name `=`. -/
theorem token_ne_equals (e : Element) : e.token ≠ .identifier ['='] := by
  cases e with
  | var name =>
      intro h
      have hname : name.name = ['='] := by simpa [token] using h
      have hvalid := name.valid
      rw [hname] at hvalid
      exact absurd hvalid (by decide)
  | _ => simp [token]

end Element

/-! ## Text mode -/

inductive TextPayload : Payload → Prop
  | endOfInput : TextPayload .endOfInput
  | tagStart : TextPayload .tagStart
  | text (content : Text) (h : content ≠ []) : TextPayload (.text content)

theorem readText_payload {t : Text} {p : Payload} (h : (readText t).result = .ok p) :
    TextPayload p := by
  cases readText_cases h with
  | endOfInput => exact .endOfInput
  | tagStart rest => exact .tagStart
  | text hfault hpassed hvalue hread => exact .text _ hvalue

/-! ## Tag mode -/

inductive TagPayload : Payload → Prop
  | endOfInput : TagPayload .endOfInput
  | tagEnd : TagPayload .tagEnd
  | equals : TagPayload (.identifier ['='])
  | element (e : Element) : TagPayload e.token

theorem tagPayload_name {c : Char} {tail : Text} (hstart : isIdentifierStart c = true)
    (htail : tail.all isIdentifierPart = true) :
    TagPayload (.identifier (c :: tail)) ∧ TagPayload (.function (c :: tail)) := by
  have hvalid : isIdentifier (c :: tail) = true := by simp [isIdentifier, hstart, htail]
  exact ⟨.element (.var ⟨_, hvalid⟩), .element (.function ⟨_, hvalid⟩)⟩

/-- A number literal makes an integer or a double. -/
theorem exists_element_of_numberPayload {negative : Bool} {body : Text} {p : Payload}
    (h : numberPayload negative body = .ok p) : ∃ e : Element, e.token = p := by
  unfold numberPayload at h
  dsimp only at h
  split at h
  · split at h
    · cases h
    · generalize (if negative = true then -(Nat.ofDigitChars 10 body 0 : Int)
        else (Nat.ofDigitChars 10 body 0 : Int)) = value at h
      split at h
      · next hrange =>
        cases h
        exact ⟨.integer ⟨value, hrange⟩, rfl⟩
      · cases h
  · split at h
    · split at h
      · next x _ =>
        cases h
        exact ⟨.double x, rfl⟩
      · cases h
    · cases h

theorem exists_element_of_readNumber {t : Text} {p : Payload}
    (h : (readNumber t).result = .ok p) : ∃ e : Element, e.token = p := by
  unfold readNumber at h
  dsimp only at h
  split at h
  · cases h
  · split at h
    · next hpayload =>
      cases h
      exact exists_element_of_numberPayload hpayload
    · cases h

theorem readTag_payload {t : Text} {p : Payload} (h : (readTag t).result = .ok p) :
    TagPayload p := by
  cases readTag_cases h with
  | endOfInput => exact .endOfInput
  | tagEnd rest => exact .tagEnd
  | equals rest => exact .equals
  | name rest hstart => exact (tagPayload_name hstart List.all_takeWhile).1
  | number hstart hread =>
      obtain ⟨e, rfl⟩ := exists_element_of_readNumber hread
      exact .element e
  | function tail hstart => exact (tagPayload_name hstart List.all_takeWhile).2
  | string hfault => exact .element (.string _)
  | operator op hnumber => exact .element (.operator op)

end TagTemplate
