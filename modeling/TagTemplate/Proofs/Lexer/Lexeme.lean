import TagTemplate.Proofs.Lexer.Payload
import TagTemplate.Proofs.Lexer.Run
import TagTemplate.Proofs.Number.Nearest

set_option autoImplicit false

/-! # Lexemes

The source of a token is a lexeme of it: a stretch of text that decodes to the value of the token
and is written as tokens of its kind are (`Lexeme`). Plain text and strings decode character by
character (`Decodes`): a backslash forms an escape sequence with what stands behind it, every other
character stands for itself, and no delimiter begins at one of these. An integer is its sign and
its digits, and a double is the nearest one to the decimal that is written. The main result is that
a scan passes a lexeme of the token that it makes (`scan_lexeme`).
-/

namespace TagTemplate

/-! ## Decoding -/

/-- The escape sequences of plain text: what stands behind the backslash, and its meaning. -/
def textEscapes : List (Char × Char) := [('\\', '\\'), ('\x7b', '\x7b')]

/-- The escape sequences of strings: what stands behind the backslash, and its meaning. -/
def stringEscapes : List (Char × Char) :=
  [('\\', '\\'), ('\x22', '\x22'), ('n', '\n'), ('r', '\r'), ('t', '\t')]

/-- A source decodes to a value: its escape sequences stand for their meaning, and every other
character, which is no backslash and begins no delimiter, for itself. -/
inductive Decodes (escapes : List (Char × Char)) (delimiter : Text) : Text → Text → Prop
  | nil : Decodes escapes delimiter [] []
  | plain {c : Char} {source value : Text} (hc : c ≠ '\\') (hd : ¬ delimiter <+: c :: source)
      (h : Decodes escapes delimiter source value) :
      Decodes escapes delimiter (c :: source) (c :: value)
  | escaped {c d : Char} {source value : Text} (hc : (c, d) ∈ escapes)
      (h : Decodes escapes delimiter source value) :
      Decodes escapes delimiter ('\\' :: c :: source) (d :: value)

theorem mem_textEscapes {c d : Char} (h : textEscape? c = some d) : (c, d) ∈ textEscapes := by
  grind [textEscape?, textEscapes]

theorem mem_stringEscapes {c d : Char} (h : stringEscape? c = some d) :
    (c, d) ∈ stringEscapes := by
  grind [stringEscape?, stringEscapes]

/-- What the runs do not take for an escape sequence does not begin with a backslash. -/
theorem ne_backslash {c : Char} {rest : Text}
    (hescape : ∀ d rest', c = '\\' → rest = d :: rest' → False)
    (hlast : c = '\\' → rest = [] → False) : c ≠ '\\' := by
  intro hc
  cases rest with
  | nil => exact hlast hc rfl
  | cons d rest => exact hescape d rest hc rfl

/-- A run of plain text decodes to its value. -/
theorem textRun_decodes {t : Text} (h : (textRun t).fault = none) :
    Decodes textEscapes tagStartText (textRun t).passed (textRun t).value := by
  fun_induction textRun t with
  | case1 => exact .nil
  | case2 rest => exact .nil
  | case3 c rest d hd ih => exact .escaped (mem_textEscapes hd) (ih h)
  | case4 c rest hd => simp [Run.failed] at h
  | case5 => simp [Run.failed] at h
  | case6 c rest hopening hescape hlast ih =>
      refine .plain (ne_backslash hescape hlast) ?_ (ih h)
      -- a delimiter in the part that was passed would be one in the whole text
      intro hprefix
      have hpassed : (textRun rest).passed <+: rest := ⟨_, textRun_split rest⟩
      obtain ⟨rest', hrest⟩ := hprefix.trans (List.cons_prefix_cons.mpr ⟨rfl, hpassed⟩)
      simp only [tagStartText, List.cons_append, List.nil_append, List.cons.injEq] at hrest
      exact hopening rest' hrest.1.symm hrest.2.symm

/-- A run of a string is what decodes to its value, and the closing quote. -/
theorem stringRun_decodes {t : Text} (h : (stringRun t).fault = none) :
    ∃ source, (stringRun t).passed = source ++ ['\x22'] ∧
      Decodes stringEscapes ['\x22'] source (stringRun t).value := by
  fun_induction stringRun t with
  | case1 => simp [Run.failed] at h
  | case2 rest => exact ⟨[], rfl, .nil⟩
  | case3 c rest d hd ih =>
      obtain ⟨source, hpassed, hdecodes⟩ := ih h
      refine ⟨'\\' :: c :: source, ?_, .escaped (mem_stringEscapes hd) hdecodes⟩
      simp [Run.cons, hpassed]
  | case4 c rest hd => simp [Run.failed] at h
  | case5 => simp [Run.failed] at h
  | case6 c rest hclosing hescape hlast ih =>
      obtain ⟨source, hpassed, hdecodes⟩ := ih h
      refine ⟨c :: source, ?_, .plain (ne_backslash hescape hlast) ?_ hdecodes⟩
      · simp [Run.cons, hpassed]
      · rintro ⟨rest', hrest⟩
        simp only [List.cons_append, List.nil_append, List.cons.injEq] at hrest
        exact hclosing hrest.1.symm

/-! ## Lexemes -/

/-- The whole number that digits with a sign denote. -/
def signedInteger (negative : Bool) (digits : Text) : Int :=
  if negative then -(Nat.ofDigitChars 10 digits 0 : Int) else Nat.ofDigitChars 10 digits 0

/-- A source is a lexeme of a payload. -/
inductive Lexeme : Payload → Text → Prop
  | endOfInput : Lexeme .endOfInput []
  | text {source value : Text} (hne : source ≠ [])
      (h : Decodes textEscapes tagStartText source value) : Lexeme (.text value) source
  | tagStart : Lexeme .tagStart tagStartText
  | tagEnd : Lexeme .tagEnd tagEndText
  | equals : Lexeme (.identifier ['=']) ['=']
  | identifier {name : Text} (h : isIdentifier name = true) : Lexeme (.identifier name) name
  | integer {negative : Bool} {digits : Text} (hne : digits ≠ [])
      (h : ∀ c ∈ digits, c.isDigit = true) :
      Lexeme (.integer (signedInteger negative digits)) (signText negative ++ digits)
  | double {whole fraction : Text} {x : Double} (h : IsNumeral whole fraction)
      (hx : x.Covers (numeralValue whole fraction)) :
      Lexeme (.double x) (signText x.negative ++ (whole ++ '.' :: fraction))
  | string {source value : Text} (h : Decodes stringEscapes ['\x22'] source value) :
      Lexeme (.string value) ('\x22' :: (source ++ ['\x22']))
  | function {name : Text} (h : isIdentifier name = true) : Lexeme (.function name) ('@' :: name)
  | operator (op : Operator) : Lexeme (.operator op.symbol) [op.symbol]

/-- What the digits and points of a number literal can make: digits alone an integer, and digits on
both sides of one point a double. -/
inductive MakesNumber (negative : Bool) (body : Text) : Payload → Prop
  | integer (hdigits : ∀ c ∈ body, c.isDigit = true) (hshort : body.length ≤ maxIntegerDigits)
      (hrange : inIntegerRange (signedInteger negative body) = true) :
      MakesNumber negative body (.integer (signedInteger negative body))
  | double {whole fraction : Text} {x : Double} (hbody : body = whole ++ '.' :: fraction)
      (h : IsNumeral whole fraction) (hx : Double.ofNumeral? negative whole fraction = some x) :
      MakesNumber negative body (.double x)

/-- Every number is made in one of these ways. -/
theorem makesNumber_of_numberPayload {negative : Bool} {body : Text} {p : Payload}
    (hparts : ∀ c ∈ body, isNumberPart c = true) (h : numberPayload negative body = .ok p) :
    MakesNumber negative body p := by
  unfold numberPayload at h
  dsimp only at h
  split at h
  · next hdigits =>
    have hall : ∀ c ∈ body, c.isDigit = true := List.dropWhile_eq_nil_iff.mp hdigits
    have hvalue : signedInteger negative body = if negative then
        -(Nat.ofDigitChars 10 body 0 : Int) else Nat.ofDigitChars 10 body 0 := rfl
    rw [← hvalue] at h
    split at h
    · simp at h
    · next hshort =>
      split at h
      · next hrange =>
        cases h
        exact .integer hall (Nat.not_lt.mp hshort) hrange
      · simp at h
  · next c fraction hpoint =>
    split at h
    · next hnumeral =>
      obtain ⟨hwhole, hfraction, hdigits⟩ := hnumeral
      split at h
      · next x hx =>
        cases h
        have hbody : body = body.takeWhile Char.isDigit ++ c :: fraction := by
          rw [← hpoint, List.takeWhile_append_dropWhile]
        -- what ends the digits is a part of the number, so it is the point
        have hc : c = '.' := by
          have hnot : c.isDigit = false := by
            have hhead := List.head?_dropWhile_not Char.isDigit body
            rw [hpoint] at hhead
            simpa using hhead
          have hpart : isNumberPart c = true := hparts c (by rw [hbody]; simp)
          simpa [isNumberPart, hnot] using hpart
        rw [hc] at hbody
        refine .double hbody ⟨hwhole, hfraction, ?_, ?_⟩ hx
        · exact fun d hd => List.mem_takeWhile_imp hd
        · exact List.all_eq_true.mp hdigits
      · simp at h
    · simp at h

/-- The digits and points of a number literal are a lexeme of what they make, with their sign. -/
theorem numberPayload_lexeme {negative : Bool} {body : Text} {p : Payload} (hne : body ≠ [])
    (hparts : ∀ c ∈ body, isNumberPart c = true) (h : numberPayload negative body = .ok p) :
    Lexeme p (signText negative ++ body) := by
  cases makesNumber_of_numberPayload hparts h with
  | integer hdigits hshort hrange => exact .integer hne hdigits
  | double hbody hnumeral hx =>
      obtain ⟨hsign, hcovers⟩ := Double.ofNumeral?_eq_some_iff.mp hx
      rw [hbody, ← hsign]
      exact .double hnumeral hcovers

/-- Where a number starts there are digits behind the sign. -/
theorem numberBody_ne_nil {t : Text} (h : startsNumber t = true) :
    (splitSign t).2.takeWhile isNumberPart ≠ [] := by
  have hdigit : ∀ (c : Char) (rest : Text), c.isDigit = true →
      (c :: rest).takeWhile isNumberPart ≠ [] := by
    intro c rest hc
    simp [isNumberPart, hc]
  unfold startsNumber at h
  split at h
  · next c rest => exact hdigit c rest h
  · next c rest _ =>
    have hminus : c ≠ '-' := by
      rintro rfl
      exact absurd h (by decide)
    rw [splitSign_cons hminus]
    exact hdigit c rest h
  · simp at h

theorem readNumber_lexeme {t : Text} {p : Payload} (hstarts : startsNumber t = true)
    (h : (readNumber t).result = .ok p) : Lexeme p (readNumber t).passed := by
  have hne := numberBody_ne_nil hstarts
  unfold readNumber at h ⊢
  dsimp only at h ⊢
  split at h
  · simp [Reading.stuck] at h
  · split at h
    · next payload hpayload =>
      cases h
      exact numberPayload_lexeme hne (fun c hc => List.mem_takeWhile_imp hc) hpayload
    · simp [Reading.stuck] at h

theorem isIdentifier_takeWhile {c : Char} {rest : Text} (h : isIdentifierStart c = true) :
    isIdentifier (c :: rest.takeWhile isIdentifierPart) = true := by
  simp [isIdentifier, h, List.all_takeWhile]

theorem readText_lexeme {t : Text} {p : Payload} (h : (readText t).result = .ok p) :
    Lexeme p (readText t).passed := by
  cases readText_cases h with
  | endOfInput => exact .endOfInput
  | tagStart rest => exact .tagStart
  | text hfault hpassed hvalue hread =>
      rw [hread]
      exact .text hpassed (textRun_decodes hfault)

theorem readTag_lexeme {t : Text} {p : Payload} (h : (readTag t).result = .ok p) :
    Lexeme p (readTag t).passed := by
  cases readTag_cases h with
  | endOfInput => exact .endOfInput
  | tagEnd rest => exact .tagEnd
  | equals rest => exact .equals
  | name rest hstart =>
      rw [readTag_of_isIdentifierStart hstart]
      exact .identifier (isIdentifier_takeWhile hstart)
  | number hstart hread =>
      rw [readTag_of_startsNumber hstart]
      exact readNumber_lexeme hstart hread
  | function tail hstart =>
      rw [readTag_function_of_isIdentifierStart hstart]
      exact .function (isIdentifier_takeWhile hstart)
  | string hfault =>
      obtain ⟨source, hpassed, hdecodes⟩ := stringRun_decodes hfault
      rw [readTag_quote, readString, Run.toReading, hpassed]
      exact .string hdecodes
  | operator op hnumber =>
      rw [readTag_symbol op hnumber]
      exact .operator op

/-- **A scan passes a lexeme of the token that it makes.** -/
theorem scan_lexeme {mode : Mode} {t : Text} {p : Payload} (h : (scan mode t).result = .ok p) :
    Lexeme p (scan mode t).passed := by
  cases mode with
  | text => exact readText_lexeme h
  | tag => exact readTag_lexeme h

/-! ## The end of the input -/

theorem Lexeme.eq_nil {source : Text} (h : Lexeme .endOfInput source) : source = [] := by
  cases h
  rfl

theorem eq_nil_of_readText {t : Text} (h : (readText t).result = .ok .endOfInput) : t = [] := by
  cases readText_cases h
  rfl

theorem eq_nil_of_readTag {t : Text} (h : (readTag t).result = .ok .endOfInput) : t = [] := by
  cases readTag_cases h with
  | endOfInput => rfl
  | number hstart hread =>
      obtain ⟨e, he⟩ := exists_element_of_readNumber hread
      cases e <;> cases he

/-- **The end of the input is made only where nothing is left to read.** -/
theorem scan_rest_of_endOfInput {mode : Mode} {t : Text}
    (h : (scan mode t).result = .ok .endOfInput) : (scan mode t).rest = [] := by
  cases mode with
  | text =>
      have ht : t = [] := eq_nil_of_readText h
      subst ht
      rfl
  | tag =>
      have ht : t.dropWhile isBlank = [] := eq_nil_of_readTag h
      show (readTag (t.dropWhile isBlank)).rest = []
      rw [ht]
      rfl

/-- Behind the end of the input nothing is left to read. -/
theorem Lexer.Ready.rest_of_end {l l' : Lexer} {token : Token} (h : l.Ready)
    (hnext : l.next = (.ok token, l')) (hend : token.isEnd = true) : l'.rest = [] := by
  obtain ⟨hresult, hrest, -⟩ := h.scan_of_next hnext
  rw [Token.isEnd_iff.mp hend] at hresult
  rw [hrest]
  exact scan_rest_of_endOfInput hresult

end TagTemplate
