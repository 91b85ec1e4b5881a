import TagTemplate.Lexer.Progress

set_option autoImplicit false

/-! # What is read, by the first characters

The first characters of a text decide what is read at its front. In text mode a tag opening is read,
or plain text up to the next one (`ReadsText`). In a tag there is one equation for each kind of
token, and `readTag_cases` says that there are no other ways to a token (`ReadsTag`).
-/

namespace TagTemplate

/-! ## Text mode -/

/-- A run of plain text in front of no tag opening is not empty, unless the input ends. -/
theorem textRun_value_ne_nil {t : Text} (hne : t ≠ []) (htag : ∀ rest, t ≠ '\x7b' :: '$' :: rest)
    (hfault : (textRun t).fault = none) : (textRun t).value ≠ [] := by
  revert hfault
  fun_cases textRun t <;> simp_all [Run.failed, Run.cons]

/-- Where a run of plain text passes something, it is what is read. -/
theorem readText_of_textRun {t : Text} (h : (textRun t).passed ≠ []) :
    readText t = (textRun t).toReading .text := by
  unfold readText
  split
  · simp [textRun, Run.done] at h
  · simp [textRun, Run.done] at h
  · rfl

/-- The ways to a token in text mode. -/
inductive ReadsText : Text → Payload → Prop
  | endOfInput : ReadsText [] .endOfInput
  | tagStart (rest : Text) : ReadsText ('\x7b' :: '$' :: rest) .tagStart
  | text {t : Text} (hfault : (textRun t).fault = none) (hpassed : (textRun t).passed ≠ [])
      (hvalue : (textRun t).value ≠ [])
      (hread : readText t
        = ⟨(textRun t).passed, (textRun t).rest, .ok (.text (textRun t).value)⟩) :
      ReadsText t (.text (textRun t).value)

/-- **Every token of text mode is read in one of these ways.** -/
theorem readText_cases {t : Text} {p : Payload} (h : (readText t).result = .ok p) :
    ReadsText t p := by
  unfold readText at h
  split at h
  · cases h
    exact .endOfInput
  · next rest =>
    cases h
    exact .tagStart rest
  · next hnil htag =>
    have hread : readText t = (textRun t).toReading .text := by
      rw [readText]
      · exact hnil
      · exact htag
    unfold Run.toReading at h hread
    dsimp only at h
    split at h
    · next hfault =>
      cases h
      rw [hfault] at hread
      exact .text hfault (textRun_passed_ne_nil hnil (fun rest => htag rest) hfault)
        (textRun_value_ne_nil hnil (fun rest => htag rest) hfault) hread
    · simp at h

/-! ## Tags -/

theorem isLetter_eq_false_of_lt {c : Char} (h : c.toNat < 0x41) : Unicode.isLetter c = false := by
  rw [Unicode.isLetter, Unicode.letterRanges, Unicode.inRanges, if_pos h]

theorem isIdentifierStart_of_isDigit {c : Char} (h : c.isDigit = true) :
    isIdentifierStart c = false := by
  apply isLetter_eq_false_of_lt
  simp only [Char.isDigit, Bool.and_eq_true, decide_eq_true_iff] at h
  have h9 : c.toNat ≤ '9'.toNat := h.2
  have : '9'.toNat = 57 := by decide
  omega

theorem digit_ne {c d : Char} (h : c.isDigit = true) (hd : d.isDigit = false) : c ≠ d := by
  rintro rfl
  rw [h] at hd
  exact absurd hd (by decide)

/-- Behind the two fixed tokens, the first character decides what is read in a tag. -/
theorem readTag_cons {c : Char} (rest : Text) (hdollar : c ≠ '$') (hequals : c ≠ '=') :
    readTag (c :: rest) =
      if isIdentifierStart c then
        ⟨c :: rest.takeWhile isIdentifierPart, rest.dropWhile isIdentifierPart,
          .ok (.identifier (c :: rest.takeWhile isIdentifierPart))⟩
      else if startsNumber (c :: rest) then readNumber (c :: rest)
      else if c = '@' then readFunction rest
      else if c = '\x22' then readString rest
      else if (Operator.ofSymbol? c).isSome then ⟨[c], rest, .ok (.operator c)⟩
      else .stuck (c :: rest) (.fault (.unexpectedCharacter c)) := by
  unfold readTag
  split
  · next heq => simp at heq
  · next heq => exact absurd (List.cons.inj heq).1 hdollar
  · next heq => exact absurd (List.cons.inj heq).1 hequals
  · next heq =>
    obtain ⟨rfl, rfl⟩ := List.cons.inj heq
    rfl

/-- A letter at the front starts a name. -/
theorem readTag_of_isIdentifierStart {c : Char} (h : isIdentifierStart c = true) (rest : Text) :
    readTag (c :: rest) = ⟨c :: rest.takeWhile isIdentifierPart, rest.dropWhile isIdentifierPart,
      .ok (.identifier (c :: rest.takeWhile isIdentifierPart))⟩ := by
  have hdollar : c ≠ '$' := by
    rintro rfl
    exact absurd h (by decide)
  have hequals : c ≠ '=' := by
    rintro rfl
    exact absurd h (by decide)
  rw [readTag_cons rest hdollar hequals, if_pos h]

/-- A number is read where one starts. -/
theorem readTag_of_startsNumber {t : Text} (h : startsNumber t = true) :
    readTag t = readNumber t := by
  cases t with
  | nil => simp [startsNumber] at h
  | cons c rest =>
      by_cases hminus : c = '-'
      · subst hminus
        have hletter : isIdentifierStart '-' = false := by decide
        rw [readTag_cons rest (by decide) (by decide), hletter, h]
        rfl
      · have hdigit : c.isDigit = true := by simpa [startsNumber, hminus] using h
        have hletter := isIdentifierStart_of_isDigit hdigit
        rw [readTag_cons rest (digit_ne hdigit (by decide)) (digit_ne hdigit (by decide)), hletter,
          h]
        rfl

/-- A letter behind an at sign starts the name of a function. -/
theorem readTag_function_of_isIdentifierStart {c : Char} (h : isIdentifierStart c = true)
    (tail : Text) :
    readTag ('@' :: c :: tail) = ⟨'@' :: c :: tail.takeWhile isIdentifierPart,
      tail.dropWhile isIdentifierPart, .ok (.function (c :: tail.takeWhile isIdentifierPart))⟩ := by
  have hletter : isIdentifierStart '@' = false := by decide
  have hread : readTag ('@' :: c :: tail) = readFunction (c :: tail) := by
    rw [readTag_cons _ (by decide) (by decide), hletter]
    rfl
  rw [hread, readFunction, if_pos h]

/-- A quote opens a string. -/
theorem readTag_quote (rest : Text) : readTag ('\x22' :: rest) = readString rest := by
  have hletter : isIdentifierStart '\x22' = false := by decide
  rw [readTag_cons rest (by decide) (by decide), hletter]
  rfl

/-- A symbol at the front is an operator, unless it is the minus sign of a number. -/
theorem readTag_symbol (op : Operator) {rest : Text}
    (h : startsNumber (op.symbol :: rest) = false) :
    readTag (op.symbol :: rest) = ⟨[op.symbol], rest, .ok (.operator op.symbol)⟩ := by
  have hletter : isIdentifierStart op.symbol = false := by cases op <;> decide
  have hsymbol : (Operator.ofSymbol? op.symbol).isSome = true := by
    rw [Operator.ofSymbol?_symbol]
    rfl
  rw [readTag_cons _ (by cases op <;> decide) (by cases op <;> decide), hletter, h,
    if_neg (by simp), if_neg (by simp), if_neg (by cases op <;> decide),
    if_neg (by cases op <;> decide), if_pos hsymbol]

/-- The ways to a token in a tag. -/
inductive ReadsTag : Text → Payload → Prop
  | endOfInput : ReadsTag [] .endOfInput
  | tagEnd (rest : Text) : ReadsTag ('$' :: '\x7d' :: rest) .tagEnd
  | equals (rest : Text) : ReadsTag ('=' :: rest) (.identifier ['='])
  | name {c : Char} (rest : Text) (hstart : isIdentifierStart c = true) :
      ReadsTag (c :: rest) (.identifier (c :: rest.takeWhile isIdentifierPart))
  | number {t : Text} {p : Payload} (hstart : startsNumber t = true)
      (h : (readNumber t).result = .ok p) : ReadsTag t p
  | function {c : Char} (tail : Text) (hstart : isIdentifierStart c = true) :
      ReadsTag ('@' :: c :: tail) (.function (c :: tail.takeWhile isIdentifierPart))
  | string {rest : Text} (hfault : (stringRun rest).fault = none) :
      ReadsTag ('\x22' :: rest) (.string (stringRun rest).value)
  | operator (op : Operator) {rest : Text} (h : startsNumber (op.symbol :: rest) = false) :
      ReadsTag (op.symbol :: rest) (.operator op.symbol)

/-- **Every token of a tag is read in one of these ways.** -/
theorem readTag_cases {t : Text} {p : Payload} (h : (readTag t).result = .ok p) :
    ReadsTag t p := by
  unfold readTag at h
  split at h
  · cases h
    exact .endOfInput
  · next rest =>
    cases h
    exact .tagEnd rest
  · next rest =>
    cases h
    exact .equals rest
  · next c rest _ _ =>
    split at h
    · next hstart =>
      cases h
      exact .name rest hstart
    · split at h
      · next hnumber => exact .number hnumber h
      · next hnumber =>
        split at h
        · next hat =>
          subst hat
          unfold readFunction at h
          split at h
          · next c tail _ =>
            split at h
            · next hstart =>
              cases h
              exact .function tail hstart
            · cases h
          · cases h
        · split at h
          · next hquote =>
            subst hquote
            unfold readString Run.toReading at h
            dsimp only at h
            split at h
            · next hfault =>
              cases h
              exact .string hfault
            · cases h
          · split at h
            · next hsymbol =>
              obtain ⟨op, hop⟩ := Option.isSome_iff_exists.mp hsymbol
              cases h
              rw [Bool.not_eq_true] at hnumber
              rw [← Operator.ofSymbol?_eq_some hop] at hnumber ⊢
              exact .operator op hnumber
            · cases h

end TagTemplate
