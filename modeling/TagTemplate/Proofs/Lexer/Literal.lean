import TagTemplate.Tree.Render
import TagTemplate.Proofs.Lexer.Payload
import TagTemplate.Proofs.Number.Literal

set_option autoImplicit false

/-! # Scanning what was written

Plain text and the literals of elements are read back as the payloads they were written for, and a
scan passes exactly what was written. What follows matters: plain text has to be followed by a tag
opening or the end (`StartsTag`), and a literal by whitespace, the end of the tag or the end
(`ClosesToken`), so that the scan cannot run on into it. The main results are `readText_textSource`
and `readTag_literal`.
-/

namespace TagTemplate

/-! ## What follows -/

/-- Behind plain text: the end of the input or a tag opening. -/
inductive StartsTag : Text → Prop
  | nil : StartsTag []
  | tagStart (rest : Text) : StartsTag ('\x7b' :: '$' :: rest)

/-- Behind a token of a tag: the end of the input, whitespace or the end of the tag. -/
inductive ClosesToken : Text → Prop
  | nil : ClosesToken []
  | blank (c : Char) (rest : Text) (h : isBlank c = true) : ClosesToken (c :: rest)
  | tagEnd (rest : Text) : ClosesToken ('$' :: '\x7d' :: rest)

theorem isBlank_iff {c : Char} : isBlank c = true ↔ c = ' ' ∨ c = '\t' ∨ c = '\r' ∨ c = '\n' := by
  simp [isBlank, or_assoc]

/-- Whitespace continues neither a name nor a number. -/
theorem isBlank_ends {c : Char} (h : isBlank c = true) :
    isIdentifierPart c = false ∧ isNumberPart c = false := by
  rcases isBlank_iff.mp h with rfl | rfl | rfl | rfl <;> decide

/-- What closes a token continues neither a name nor a number. -/
theorem ClosesToken.head {rest : Text} (h : ClosesToken rest) :
    ∀ c ∈ rest.head?, isIdentifierPart c = false ∧ isNumberPart c = false := by
  intro c hc
  cases h with
  | nil => simp at hc
  | blank c' _ hblank =>
      obtain rfl : c' = c := by simpa using hc
      exact isBlank_ends hblank
  | tagEnd _ =>
      obtain rfl : '$' = c := by simpa using hc
      decide

/-- What is read at the front is not blank. -/
theorem head_of_readTag {t : Text} {p : Payload} (h : (readTag t).result = .ok p) :
    ∀ c ∈ t.head?, isBlank c = false := by
  intro c hc
  cases t with
  | nil => simp at hc
  | cons d rest =>
      obtain rfl : d = c := by simpa using hc
      rw [← Bool.not_eq_true]
      intro hblank
      -- no token begins with whitespace
      have hstuck : (readTag (d :: rest)).result = .error (.fault (.unexpectedCharacter d)) := by
        rcases isBlank_iff.mp hblank with rfl | rfl | rfl | rfl <;> rfl
      rw [hstuck] at h
      simp at h

/-- The head of what is left behind a run of characters of a class is not of the class. -/
theorem head_dropWhile {p : Char → Bool} {t : Text} : ∀ c ∈ (t.dropWhile p).head?, p c = false := by
  intro c hc
  have h := List.head?_dropWhile_not p t
  rw [Option.mem_def] at hc
  rw [hc] at h
  simpa using h

/-- A run of characters of a class ends where the next character is not of the class. -/
theorem takeWhile_append_stop {p : Char → Bool} {s rest : Text} (hs : ∀ c ∈ s, p c = true)
    (hrest : ∀ c ∈ rest.head?, p c = false) :
    (s ++ rest).takeWhile p = s ∧ (s ++ rest).dropWhile p = rest := by
  rw [List.takeWhile_append_of_pos hs, List.dropWhile_append_of_pos hs]
  cases rest with
  | nil => simp
  | cons c rest =>
      have hc : p c = false := hrest c (by simp)
      simp [hc]

/-- Where no whitespace is in front of a token, none is skipped. -/
theorem scan_tag_of_head {t : Text} (h : ∀ c ∈ t.head?, isBlank c = false) :
    scan .tag t = ⟨readTag t, []⟩ := by
  obtain ⟨htake, hdrop⟩ := takeWhile_append_stop (s := []) (p := isBlank) (by simp) h
  rw [List.nil_append] at htake hdrop
  rw [scan, htake, hdrop]

/-- Whitespace in front of a token is skipped, and nothing else. -/
theorem scan_tag_of_readTag {blanks t : Text} {p : Payload}
    (hblanks : ∀ c ∈ blanks, isBlank c = true) (h : (readTag t).result = .ok p) :
    scan .tag (blanks ++ t) = ⟨readTag t, blanks⟩ := by
  obtain ⟨htake, hdrop⟩ := takeWhile_append_stop hblanks (head_of_readTag h)
  rw [scan, htake, hdrop]

/-! ## Plain text and strings -/

theorem textRun_textSource (content : Text) {rest : Text} (h : StartsTag rest) :
    textRun (textSource content ++ rest) = ⟨textSource content, content, rest, none⟩ := by
  induction content with
  | nil =>
      cases h with
      | nil => rfl
      | tagStart rest => simp [textSource, textRun, Run.done]
  | cons c content ih =>
      have hsource : textSource (c :: content) = textChar c ++ textSource content := by
        simp [textSource]
      by_cases hescape : c = '\\' ∨ c = '\x7b'
      · have hc : textEscape? c = some c := by
          rcases hescape with rfl | rfl <;> decide
        rw [hsource, textChar, if_pos hescape]
        simp [textRun, hc, ih, Run.cons]
      · obtain ⟨h1, h2⟩ := not_or.mp hescape
        rw [hsource, textChar, if_neg hescape]
        simp [textRun, h1, h2, ih, Run.cons]

theorem stringRun_stringChars (value rest : Text) :
    stringRun (value.flatMap Element.stringChar ++ '\x22' :: rest)
      = ⟨value.flatMap Element.stringChar ++ ['\x22'], value, rest, none⟩ := by
  induction value with
  | nil => rfl
  | cons c value ih =>
      by_cases hescape : c = '\\' ∨ c = '\x22'
      · have hc : stringEscape? c = some c := by
          rcases hescape with rfl | rfl <;> decide
        simp [Element.stringChar, hescape, stringRun, hc, ih, Run.cons]
      · obtain ⟨h1, h2⟩ := not_or.mp hescape
        simp [Element.stringChar, h1, h2, stringRun, ih, Run.cons]

theorem textSource_ne_nil {content : Text} (h : content ≠ []) : textSource content ≠ [] := by
  obtain ⟨c, rest, rfl⟩ := List.exists_cons_of_ne_nil h
  by_cases hescape : c = '\\' ∨ c = '\x7b' <;> simp [textSource, textChar, hescape]

/-- **Plain text in front of a tag or the end is read back.** -/
theorem readText_textSource {content rest : Text} (hne : content ≠ []) (h : StartsTag rest) :
    readText (textSource content ++ rest)
      = ⟨textSource content, rest, .ok (.text content)⟩ := by
  have hrun := textRun_textSource content h
  have hpassed : (textRun (textSource content ++ rest)).passed ≠ [] := by
    rw [hrun]
    exact textSource_ne_nil hne
  rw [readText_of_textRun hpassed, hrun]
  rfl

/-! ## The front of a tag -/

/-- A name at the front is read up to the first character that does not continue it. -/
theorem readTag_of_isIdentifier {name rest : Text} (hname : isIdentifier name = true)
    (hrest : ∀ c ∈ rest.head?, isIdentifierPart c = false) :
    readTag (name ++ rest) = ⟨name, rest, .ok (.identifier name)⟩ := by
  cases name with
  | nil => simp [isIdentifier] at hname
  | cons c tail =>
      simp only [isIdentifier, Bool.and_eq_true, List.all_eq_true] at hname
      obtain ⟨hstart, htail⟩ := hname
      obtain ⟨htake, hdrop⟩ := takeWhile_append_stop htail hrest
      rw [List.cons_append, readTag_of_isIdentifierStart hstart, htake, hdrop]

theorem readTag_identifier (name : Identifier) {rest : Text} (h : ClosesToken rest) :
    readTag (name.name ++ rest) = ⟨name.name, rest, .ok (.identifier name.name)⟩ :=
  readTag_of_isIdentifier name.valid fun c hc => (h.head c hc).1

theorem readTag_function (name : Identifier) {rest : Text} (h : ClosesToken rest) :
    readTag ('@' :: name.name ++ rest) = ⟨'@' :: name.name, rest, .ok (.function name.name)⟩ := by
  obtain ⟨text, hvalid⟩ := name
  cases text with
  | nil => simp [isIdentifier] at hvalid
  | cons c tail =>
      simp only [isIdentifier, Bool.and_eq_true, List.all_eq_true] at hvalid
      obtain ⟨hstart, htail⟩ := hvalid
      obtain ⟨htake, hdrop⟩ := takeWhile_append_stop htail (fun d hd => (h.head d hd).1)
      rw [List.cons_append, List.cons_append, readTag_function_of_isIdentifierStart hstart, htake,
        hdrop]

theorem readTag_string (value rest : Text) :
    readTag (Element.stringLiteral value ++ rest)
      = ⟨Element.stringLiteral value, rest, .ok (.string value)⟩ := by
  have hrun := stringRun_stringChars value rest
  rw [Element.stringLiteral, List.append_assoc, List.cons_append, readTag_quote]
  simp [readString, hrun, Run.toReading]

/-- A symbol at the front is an operator, unless it is a minus sign in front of a digit. -/
theorem readTag_operator (op : Operator) {rest : Text}
    (h : ∀ c ∈ rest.head?, c.isDigit = false) :
    readTag (op.symbol :: rest) = ⟨[op.symbol], rest, .ok (.operator op.symbol)⟩ := by
  apply readTag_symbol
  cases rest with
  | nil => cases op <;> rfl
  | cons c rest =>
      have hc : c.isDigit = false := h c (by simp)
      cases op <;> simp [Operator.symbol, startsNumber, hc]

/-! ## Numbers -/

theorem splitSign_signText (negative : Bool) {body : Text} (h : ∀ c ∈ body.head?, c ≠ '-') :
    splitSign (signText negative ++ body) = (negative, body) := by
  cases negative with
  | true => rfl
  | false =>
      unfold splitSign
      split
      · next heq => exact absurd rfl (h '-' (by rw [signText] at heq; simp_all))
      · rfl

/-- What a number literal makes in front of a text, by its sign and the digits and points behind it.
A letter, digit or underscore directly behind the literal spoils it. -/
def literalPayload (negative : Bool) (body after : Text) : Except ScanFailure Payload :=
  match after.head?.filter isIdentifierPart with
  | some c => .error (.fault (.malformedNumber (signText negative ++ body ++ [c])))
  | none => numberPayload negative body

theorem literalPayload_of_ends {negative : Bool} {body after : Text}
    (h : ∀ c ∈ after.head?, isIdentifierPart c = false) :
    literalPayload negative body after = numberPayload negative body := by
  have hnone : after.head?.filter isIdentifierPart = none := by
    rw [Option.filter_eq_none_iff]
    intro c hc
    simpa using h c hc
  rw [literalPayload, hnone]

/-- A sign and all the digits and points behind it are read together, and all of them are passed or
nothing is. -/
theorem readNumber_literal {negative : Bool} {body after : Text}
    (hbody : ∀ c ∈ body, isNumberPart c = true)
    (hlongest : ∀ c ∈ after.head?, isNumberPart c = false)
    (hminus : ∀ c ∈ (body ++ after).head?, c ≠ '-') :
    readNumber (signText negative ++ (body ++ after)) =
      match literalPayload negative body after with
      | .ok payload => ⟨signText negative ++ body, after, .ok payload⟩
      | .error failure => .stuck (signText negative ++ (body ++ after)) failure := by
  obtain ⟨htake, hdrop⟩ := takeWhile_append_stop hbody hlongest
  unfold readNumber literalPayload
  rw [splitSign_signText negative hminus]
  dsimp only
  rw [htake, hdrop]
  cases after.head?.filter isIdentifierPart with
  | some c => rfl
  | none => cases numberPayload negative body <;> rfl

/-- A sign, digits and points in front of something else are read together. -/
theorem readNumber_of_parts {negative : Bool} {body after : Text}
    (hbody : ∀ c ∈ body, isNumberPart c = true)
    (hafter : ∀ c ∈ after.head?, isIdentifierPart c = false ∧ isNumberPart c = false)
    (hminus : ∀ c ∈ (body ++ after).head?, c ≠ '-') :
    readNumber (signText negative ++ (body ++ after)) =
      match numberPayload negative body with
      | .ok payload => ⟨signText negative ++ body, after, .ok payload⟩
      | .error failure => .stuck (signText negative ++ (body ++ after)) failure := by
  rw [readNumber_literal hbody (fun c hc => (hafter c hc).2) hminus,
    literalPayload_of_ends fun c hc => (hafter c hc).1]

/-- A digit at the front, or behind a minus sign there, starts a number. -/
theorem readTag_of_isDigit {negative : Bool} {d : Char} (hd : d.isDigit = true) (rest : Text) :
    readTag (signText negative ++ d :: rest) = readNumber (signText negative ++ d :: rest) := by
  apply readTag_of_startsNumber
  cases negative with
  | true => exact hd
  | false =>
      have hminus : d ≠ '-' := digit_ne hd (by decide)
      simpa [signText, startsNumber, hminus] using hd

/-- A number literal is read as its payload, and all of it is passed; without a payload nothing
is. -/
theorem readTag_parts {negative : Bool} {d : Char} {digits rest : Text} (hd : d.isDigit = true)
    (hdigits : ∀ c ∈ digits, isNumberPart c = true) (h : ClosesToken rest) :
    readTag (signText negative ++ (d :: digits) ++ rest) =
      match numberPayload negative (d :: digits) with
      | .ok payload => ⟨signText negative ++ (d :: digits), rest, .ok payload⟩
      | .error failure => .stuck (signText negative ++ (d :: digits) ++ rest) failure := by
  have hparts : ∀ c ∈ d :: digits, isNumberPart c = true := by
    intro c hc
    rcases List.mem_cons.mp hc with rfl | hc
    · simp [isNumberPart, hd]
    · exact hdigits c hc
  have hminus : ∀ c ∈ (d :: digits ++ rest).head?, c ≠ '-' := by
    intro c hc
    obtain rfl : d = c := by simpa using hc
    exact digit_ne hd (by decide)
  rw [List.append_assoc, List.cons_append, readTag_of_isDigit hd, ← List.cons_append,
    readNumber_of_parts hparts h.head hminus]

/-- A number literal with a payload is read as that. -/
theorem readTag_number {negative : Bool} {d : Char} {digits rest : Text} {payload : Payload}
    (hd : d.isDigit = true) (hdigits : ∀ c ∈ digits, isNumberPart c = true)
    (hpayload : numberPayload negative (d :: digits) = .ok payload) (h : ClosesToken rest) :
    readTag (signText negative ++ (d :: digits) ++ rest)
      = ⟨signText negative ++ (d :: digits), rest, .ok payload⟩ := by
  rw [readTag_parts hd hdigits h, hpayload]

theorem isNumberPart_of_isDigit {c : Char} (h : c.isDigit = true) : isNumberPart c = true := by
  simp [isNumberPart, h]

/-- Digits alone are an integer, if there are not too many and the value is in range. -/
theorem numberPayload_integer {negative : Bool} {body : Text} (hbody : ∀ c ∈ body, c.isDigit = true)
    (hlength : body.length ≤ maxIntegerDigits) {value : ℤ}
    (hvalue : value = if negative then -(Nat.ofDigitChars 10 body 0 : ℤ)
      else (Nat.ofDigitChars 10 body 0 : ℤ))
    (hrange : inIntegerRange value = true) :
    numberPayload negative body = .ok (.integer value) := by
  have hdrop : body.dropWhile Char.isDigit = [] := List.dropWhile_eq_nil_iff.mpr hbody
  unfold numberPayload
  dsimp only
  rw [hdrop]
  dsimp only
  rw [if_neg (by omega), ← hvalue, if_pos hrange]

/-- A numeral is the double that it is read as, if it is read as one. -/
theorem numberPayload_numeral (negative : Bool) {whole fraction : Text}
    (h : IsNumeral whole fraction) :
    numberPayload negative (whole ++ '.' :: fraction) =
      match Double.ofNumeral? negative whole fraction with
      | some x => .ok (.double x)
      | none =>
          .error (.fault (.doubleRange (signText negative ++ (whole ++ '.' :: fraction)))) := by
  have hpoint : ∀ c ∈ ('.' :: fraction).head?, c.isDigit = false := by simp
  obtain ⟨htake, hdrop⟩ := takeWhile_append_stop h.whole_digits hpoint
  have hall : fraction.all Char.isDigit = true := List.all_eq_true.mpr h.fraction_digits
  unfold numberPayload
  dsimp only
  rw [hdrop, htake]
  exact if_pos ⟨h.whole_ne_nil, h.fraction_ne_nil, hall⟩

/-- A numeral with a sign is read as its double; nothing is passed if there is none. -/
theorem readTag_numeral (negative : Bool) {whole fraction rest : Text}
    (h : IsNumeral whole fraction) (hrest : ClosesToken rest) :
    readTag (signText negative ++ (whole ++ '.' :: fraction) ++ rest) =
      match Double.ofNumeral? negative whole fraction with
      | some x => ⟨signText negative ++ (whole ++ '.' :: fraction), rest, .ok (.double x)⟩
      | none => .stuck (signText negative ++ (whole ++ '.' :: fraction) ++ rest)
          (.fault (.doubleRange (signText negative ++ (whole ++ '.' :: fraction)))) := by
  have hpayload := numberPayload_numeral negative h
  obtain ⟨d, digits, hcons⟩ := List.exists_cons_of_ne_nil h.whole_ne_nil
  have hd : d.isDigit = true := h.whole_digits d (by simp [hcons])
  have hparts : ∀ c ∈ digits ++ '.' :: fraction, isNumberPart c = true := by
    intro c hc
    rcases List.mem_append.mp hc with hc | hc
    · exact isNumberPart_of_isDigit (h.whole_digits c (by simp [hcons, hc]))
    rcases List.mem_cons.mp hc with rfl | hc
    · decide
    · exact isNumberPart_of_isDigit (h.fraction_digits c hc)
  rw [hcons, List.cons_append] at hpayload ⊢
  rw [readTag_parts hd hparts hrest, hpayload]
  cases Double.ofNumeral? negative (d :: digits) fraction <;> rfl

theorem decimalText_eq (n : ℤ) :
    decimalText n = signText (decide (n < 0)) ++ Nat.toDigits 10 n.natAbs := by
  unfold decimalText
  by_cases h : n < 0 <;> simp [h, signText]

theorem readTag_decimalText {n : ℤ} (hn : inIntegerRange n = true) {rest : Text}
    (h : ClosesToken rest) :
    readTag (decimalText n ++ rest) = ⟨decimalText n, rest, .ok (.integer n)⟩ := by
  have hdigits : ∀ c ∈ Nat.toDigits 10 n.natAbs, c.isDigit = true := fun c hc =>
    Nat.isDigit_of_mem_toDigits (by decide) (by decide) hc
  have hlength : (Nat.toDigits 10 n.natAbs).length ≤ maxIntegerDigits := by
    have hten : (Nat.toDigits 10 n.natAbs).length ≤ 10 := by
      rw [Nat.length_toDigits_le_iff (by decide) (by decide)]
      unfold inIntegerRange integerMin integerMax at hn
      rw [Bool.and_eq_true, decide_eq_true_iff, decide_eq_true_iff] at hn
      omega
    exact le_trans hten (by decide)
  have hvalue : n = if decide (n < 0) then -(Nat.ofDigitChars 10 (Nat.toDigits 10 n.natAbs) 0 : ℤ)
      else (Nat.ofDigitChars 10 (Nat.toDigits 10 n.natAbs) 0 : ℤ) := by
    rw [Nat.ofDigitChars_ten_toDigits]
    split
    · next hneg =>
      have := of_decide_eq_true hneg
      omega
    · next hneg =>
      have := of_decide_eq_false (Bool.eq_false_of_not_eq_true hneg)
      omega
  have hpayload := numberPayload_integer hdigits hlength hvalue hn
  obtain ⟨d, digits, hcons⟩ := List.exists_cons_of_ne_nil (Nat.toDigits_ne_nil (n := n.natAbs))
  rw [hcons] at hdigits hpayload
  rw [decimalText_eq, hcons]
  exact readTag_number (hdigits d (by simp))
    (fun c hc => isNumberPart_of_isDigit (hdigits c (by simp [hc]))) hpayload h

theorem readTag_double (x : Double) {rest : Text} (h : ClosesToken rest) :
    readTag (x.literal ++ rest) = ⟨x.literal, rest, .ok (.double x)⟩ := by
  obtain ⟨whole, fraction, hliteral, hnumeral, hread⟩ := x.exists_literal_numeral
  have hsign : x.signText = signText x.negative := rfl
  rw [hliteral, hsign, readTag_numeral x.negative hnumeral h, hread]

/-! ## Elements -/

/-- **The literal of an element is read back.** -/
theorem readTag_literal (e : Element) {rest : Text} (h : ClosesToken rest) :
    readTag (e.literal ++ rest) = ⟨e.literal, rest, .ok e.token⟩ := by
  cases e with
  | integer constant => exact readTag_decimalText constant.valid h
  | double value => exact readTag_double value h
  | string value => exact readTag_string value rest
  | function name => exact readTag_function name h
  | operator op =>
      refine readTag_operator op (fun c hc => ?_)
      have hpart := (h.head c hc).2
      simp only [isNumberPart, Bool.or_eq_false_iff] at hpart
      exact hpart.1
  | var name => exact readTag_identifier name h

end TagTemplate
