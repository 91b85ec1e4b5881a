import TagTemplate.Proofs.Lexer.DigitLimit
import TagTemplate.Proofs.Lexer.Lexeme
import TagTemplate.Proofs.Lexer.Request
import TagTemplate.Proofs.Number.Notation

set_option autoImplicit false

/-! # Number literals

A digit in a tag, or a minus sign directly before one, begins a number literal: the sign, if there
is one, and the longest run of digits and points behind it (`Lexer.AtLiteral`). The run is taken
whole before anything is asked about it, so a literal is never split. A request either gives an
integer or a double and moves behind the whole literal, or it fails and moves nowhere
(`Lexer.AtLiteral.next`).

Which of these happens depends on the literal and on the character behind it. An integer has no
point (`IsIntegerLiteral`), a double has one point and digits on both sides of it
(`IsDoubleLiteral`), and behind both no name may go on. Everything else is refused, a literal that
is out of range included. `number_literal_recognized` says that there is no other case.
-/

namespace TagTemplate

/-! ## The literals -/

/-- Behind a literal no letter, digit or underscore follows directly. -/
def EndsLiteral (after : Text) : Prop := ∀ c ∈ after.head?, isIdentifierPart c = false

/-- A literal in front of a text is an integer: it has no point and ends, it has not too many
digits, and its value fits into 32 bits. -/
structure IsIntegerLiteral (negative : Bool) (body after : Text) : Prop where
  pointless : '.' ∉ body
  ends : EndsLiteral after
  short : body.length ≤ 4300
  lower : -2 ^ 31 ≤ signedInteger negative body
  upper : signedInteger negative body ≤ 2 ^ 31 - 1

/-- A literal in front of a text is a double: it has one point, with digits on both sides, it ends,
and its value does not round to infinity. -/
structure IsDoubleLiteral (body after : Text) : Prop where
  numeral : ∃ whole fraction, body = whole ++ '.' :: fraction ∧ IsNumeral whole fraction ∧
    numeralValue whole fraction < 2 ^ 1024 - 2 ^ 970
  ends : EndsLiteral after

/-- A literal in front of a text is an integer but for the number of its digits. -/
structure IsLongLiteral (body after : Text) : Prop where
  pointless : '.' ∉ body
  ends : EndsLiteral after
  long : 4300 < body.length

/-- The parts of a literal are all digits if it has no point. -/
theorem forall_isDigit_iff {body : Text} (hparts : ∀ c ∈ body, isNumberPart c = true) :
    (∀ c ∈ body, c.isDigit = true) ↔ '.' ∉ body := by
  constructor
  · intro hdigits hpoint
    exact absurd (hdigits '.' hpoint) (by decide)
  · intro hpoint c hc
    have hpart := hparts c hc
    rw [isNumberPart, Bool.or_eq_true, beq_iff_eq] at hpart
    rcases hpart with hdigit | rfl
    · exact hdigit
    · exact absurd hc hpoint

theorem inIntegerRange_iff {n : Int} : inIntegerRange n = true ↔ -2 ^ 31 ≤ n ∧ n ≤ 2 ^ 31 - 1 := by
  rw [inIntegerRange, Bool.and_eq_true, decide_eq_true_iff, decide_eq_true_iff, integerMin,
    integerMax]
  norm_num

/-! ## What a literal makes -/

section Payload

variable {negative : Bool} {body after : Text} {p : Payload}

/-- A literal behind which a name goes on makes nothing. -/
theorem literalPayload_of_not_ends (negative : Bool) (body : Text) (h : ¬ EndsLiteral after) :
    ∃ literal, literalPayload negative body after = .error (.fault (.malformedNumber literal)) := by
  cases hhead : after.head?.filter isIdentifierPart with
  | none =>
      refine absurd ?_ h
      intro c hc
      simpa using Option.filter_eq_none_iff.mp hhead c hc
  | some c => exact ⟨signText negative ++ body ++ [c], by rw [literalPayload, hhead]⟩

theorem MakesNumber.numberPayload (h : MakesNumber negative body p) :
    numberPayload negative body = .ok p := by
  cases h with
  | integer hdigits hshort hrange => exact numberPayload_integer hdigits hshort rfl hrange
  | double hbody hnumeral hx => rw [hbody, numberPayload_numeral negative hnumeral, hx]

/-- **What a literal makes**, in front of any text. -/
theorem literalPayload_eq_ok_iff (hparts : ∀ c ∈ body, isNumberPart c = true) :
    literalPayload negative body after = .ok p ↔
      EndsLiteral after ∧ MakesNumber negative body p := by
  by_cases hends : EndsLiteral after
  · rw [literalPayload_of_ends hends]
    constructor
    · intro h
      exact ⟨hends, makesNumber_of_numberPayload hparts h⟩
    · rintro ⟨-, hmakes⟩
      exact hmakes.numberPayload
  · obtain ⟨literal, hfault⟩ := literalPayload_of_not_ends negative body hends
    rw [hfault]
    simp [hends]

theorem literalPayload_eq_integer_iff (hparts : ∀ c ∈ body, isNumberPart c = true) {n : Int} :
    literalPayload negative body after = .ok (.integer n) ↔
      IsIntegerLiteral negative body after ∧ n = signedInteger negative body := by
  rw [literalPayload_eq_ok_iff hparts]
  constructor
  · rintro ⟨hends, hmakes⟩
    cases hmakes with
    | integer hdigits hshort hrange =>
        obtain ⟨hlower, hupper⟩ := inIntegerRange_iff.mp hrange
        exact ⟨⟨(forall_isDigit_iff hparts).mp hdigits, hends, hshort, hlower, hupper⟩, rfl⟩
  · rintro ⟨h, rfl⟩
    have hrange := inIntegerRange_iff.mpr ⟨h.lower, h.upper⟩
    exact ⟨h.ends, .integer ((forall_isDigit_iff hparts).mpr h.pointless) h.short hrange⟩

theorem exists_literalPayload_eq_double_iff (hparts : ∀ c ∈ body, isNumberPart c = true) :
    (∃ x, literalPayload negative body after = .ok (.double x)) ↔ IsDoubleLiteral body after := by
  constructor
  · rintro ⟨x, hx⟩
    obtain ⟨hends, hmakes⟩ := (literalPayload_eq_ok_iff hparts).mp hx
    cases hmakes with
    | @double whole fraction _ hbody hnumeral hread =>
        have hlimit := (Double.exists_ofNumeral?_iff negative whole fraction).mp ⟨x, hread⟩
        exact ⟨⟨whole, fraction, hbody, hnumeral, hlimit⟩, hends⟩
  · intro h
    obtain ⟨whole, fraction, hbody, hnumeral, hlimit⟩ := h.numeral
    obtain ⟨x, hread⟩ := (Double.exists_ofNumeral?_iff negative whole fraction).mpr hlimit
    exact ⟨x, (literalPayload_eq_ok_iff hparts).mpr ⟨h.ends, .double hbody hnumeral hread⟩⟩

/-- A double is nearest to the number that its literal writes. -/
theorem isNearest_of_literalPayload (hparts : ∀ c ∈ body, isNumberPart c = true) {x : Double}
    (h : literalPayload negative body after = .ok (.double x)) :
    ∃ q, notationValue? (signText negative ++ body) = some q ∧ x.IsNearest q := by
  obtain ⟨-, hmakes⟩ := (literalPayload_eq_ok_iff hparts).mp h
  cases hmakes with
  | @double whole fraction _ hbody hnumeral hread =>
      obtain ⟨hsign, hcovers⟩ := Double.ofNumeral?_eq_some_iff.mp hread
      rw [hbody, notationValue?_numeral negative hnumeral]
      exact ⟨_, rfl, Double.isNearest_of_covers hsign (numeralValue_nonneg whole fraction) hcovers⟩

theorem literalPayload_eq_digitLimit_iff (hparts : ∀ c ∈ body, isNumberPart c = true) {count : ℕ} :
    literalPayload negative body after = .error (.digitLimit count) ↔
      IsLongLiteral body after ∧ count = body.length := by
  by_cases hends : EndsLiteral after
  · rw [literalPayload_of_ends hends, numberPayload_digitLimit_iff, forall_isDigit_iff hparts]
    constructor
    · rintro ⟨hpoint, rfl, hlong⟩
      exact ⟨⟨hpoint, hends, hlong⟩, rfl⟩
    · rintro ⟨h, rfl⟩
      exact ⟨h.pointless, rfl, h.long⟩
  · obtain ⟨literal, hfault⟩ := literalPayload_of_not_ends negative body hends
    rw [hfault]
    constructor
    · simp
    · rintro ⟨h, -⟩
      exact absurd h.ends hends

/-- A literal that is neither an integer nor a double makes nothing. -/
theorem exists_literalPayload_eq_error (hparts : ∀ c ∈ body, isNumberPart c = true)
    (hinteger : ¬ IsIntegerLiteral negative body after) (hdouble : ¬ IsDoubleLiteral body after) :
    ∃ failure, literalPayload negative body after = .error failure := by
  cases hpayload : literalPayload negative body after with
  | error failure => exact ⟨failure, rfl⟩
  | ok p =>
      obtain ⟨-, hmakes⟩ := (literalPayload_eq_ok_iff hparts).mp hpayload
      cases hmakes with
      | integer hdigits hshort hrange =>
          exact absurd ((literalPayload_eq_integer_iff hparts).mp hpayload).1 hinteger
      | double hbody hnumeral hread =>
          exact absurd ((exists_literalPayload_eq_double_iff hparts).mp ⟨_, hpayload⟩) hdouble

end Payload

/-! ## In front of a literal -/

namespace Lexer

/-- A lexer stands in a tag in front of a number literal: a minus sign, if there is one, and digits
and points behind it, which begin with a digit and go as far as they can. -/
structure AtLiteral (l : Lexer) (negative : Bool) (body after : Text) : Prop where
  ready : l.Ready
  mode : l.mode = .tag
  rest : l.rest = signText negative ++ (body ++ after)
  digit : ∃ d ∈ body.head?, d.isDigit = true
  parts : ∀ c ∈ body, isNumberPart c = true
  longest : ∀ c ∈ after.head?, isNumberPart c = false

variable {l : Lexer} {negative : Bool} {body after : Text}

/-- A token at the front of what is left in a tag is given, and nothing else is passed. -/
theorem Ready.next_of_readTag (hready : l.Ready) (hmode : l.mode = .tag) {passed rest : Text}
    {p : Payload} (hread : TagTemplate.readTag l.rest = ⟨passed, rest, .ok p⟩) :
    l.next = (.ok ⟨p, l.position⟩,
      { l with
        rest := rest
        position := l.position.advance passed
        last := some ⟨p, l.position⟩ }) := by
  have hhead : ∀ c ∈ l.rest.head?, isBlank c = false := head_of_readTag (by rw [hread])
  have hscan : TagTemplate.scan l.mode l.rest = ⟨TagTemplate.readTag l.rest, []⟩ := by
    rw [hmode]
    exact scan_tag_of_head hhead
  rw [hready.next, hscan, hread]
  rfl

/-- A digit, or a minus sign directly before one, begins a literal. -/
theorem Ready.atLiteral (hready : l.Ready) (hmode : l.mode = .tag) {d : Char} {more : Text}
    (hd : d.isDigit = true) (hrest : l.rest = signText negative ++ d :: more) :
    l.AtLiteral negative ((d :: more).takeWhile isNumberPart)
      ((d :: more).dropWhile isNumberPart) where
  ready := hready
  mode := hmode
  rest := by rw [List.takeWhile_append_dropWhile, hrest]
  digit := ⟨d, by rw [List.takeWhile_cons_of_pos (isNumberPart_of_isDigit hd)]; rfl, hd⟩
  parts := fun c hc => List.mem_takeWhile_imp hc
  longest := head_dropWhile

theorem AtLiteral.scan (h : l.AtLiteral negative body after) :
    TagTemplate.scan l.mode l.rest = ⟨readTag l.rest, []⟩ := by
  rw [h.mode]
  apply scan_tag_of_head
  obtain ⟨d, hhead, hd⟩ := h.digit
  intro c hc
  -- the first character is the sign or a digit, and neither is whitespace
  rw [h.rest, List.head?_append, List.head?_append, hhead] at hc
  rw [← Bool.not_eq_true, isBlank_iff]
  cases negative with
  | true =>
      obtain rfl : '-' = c := by simpa [signText] using hc
      decide
  | false =>
      obtain rfl : d = c := by simpa [signText] using hc
      rintro (rfl | rfl | rfl | rfl) <;> exact absurd hd (by decide)

theorem AtLiteral.readTag (h : l.AtLiteral negative body after) :
    TagTemplate.readTag l.rest = match literalPayload negative body after with
      | .ok payload => ⟨signText negative ++ body, after, .ok payload⟩
      | .error failure => .stuck l.rest failure := by
  obtain ⟨d, hhead, hd⟩ := h.digit
  obtain ⟨digits, rfl⟩ := List.head?_eq_some_iff.mp hhead
  -- the sign is the only one: behind it a digit follows
  have hminus : ∀ c ∈ (d :: digits ++ after).head?, c ≠ '-' := by
    intro c hc
    obtain rfl : d = c := by simpa using hc
    exact digit_ne hd (by decide)
  rw [h.rest]
  exact (readTag_of_isDigit hd (digits ++ after)).trans
    (readNumber_literal h.parts h.longest hminus)

/-- **A request in front of a literal** gives what the literal makes and moves behind all of it, or
it fails and does not move. -/
theorem AtLiteral.next (h : l.AtLiteral negative body after) :
    l.next = match literalPayload negative body after with
      | .ok payload => (.ok ⟨payload, l.position⟩,
          { l with
            rest := after
            position := l.position.advance (signText negative ++ body)
            last := some ⟨payload, l.position⟩ })
      | .error (.digitLimit count) => (.error (.digitLimit count), l)
      | .error (.fault fault) => (.error (.error ⟨.fault fault, l.position⟩),
          { l with met := some ⟨fault, l.position⟩ }) := by
  rw [h.ready.next, h.scan, h.readTag]
  cases literalPayload negative body after with
  | ok payload => rfl
  | error failure =>
      cases failure with
      | digitLimit count => rfl
      | fault fault => simp [afterScan, Reading.stuck, faultPosition]

/-- A request gives a token exactly if the literal makes its payload. -/
theorem AtLiteral.next_eq_ok_iff (h : l.AtLiteral negative body after) {p : Payload} :
    (∃ start l', l.next = (.ok ⟨p, start⟩, l')) ↔ literalPayload negative body after = .ok p := by
  rw [h.next]
  cases literalPayload negative body after with
  | ok payload => simp
  | error failure => cases failure <;> simp

/-- A minus sign that no digit follows is an operator. -/
theorem Ready.next_minus (hready : l.Ready) (hmode : l.mode = .tag) {rest : Text}
    (hrest : l.rest = '-' :: rest) (hdigit : ∀ d ∈ rest.head?, d.isDigit = false) :
    l.next = (.ok ⟨.operator '-', l.position⟩,
      { l with
        rest := rest
        position := l.position.advance ['-']
        last := some ⟨.operator '-', l.position⟩ }) := by
  apply hready.next_of_readTag hmode
  rw [hrest]
  exact readTag_operator .minus hdigit

/-- A request fails in front of a literal, and the lexer stays there. The failure is a lexical error
at this place, or, for an integer that has too many digits, the limit of digits. -/
def Refuses (l : Lexer) (body after : Text) : Prop :=
  ∃ failure l', l.next = (.error failure, l') ∧ l'.rest = l.rest ∧ l'.position = l.position ∧
    ((∃ fault, failure = .error ⟨.fault fault, l.position⟩) ∧ ¬ IsLongLiteral body after ∨
      failure = .digitLimit body.length ∧ IsLongLiteral body after)

/-- A lexer in front of a number literal recognizes it. It gives an integer exactly if the literal
is one, and then the one that the literal denotes; it gives a double exactly if the literal is one,
and then the nearest to the number that is written. The token spans the whole literal. A literal
that is neither is refused. -/
structure Recognizes (l : Lexer) (negative : Bool) (body after : Text) : Prop where
  integer : ∀ n, (∃ start l', l.next = (.ok ⟨.integer n, start⟩, l')) ↔
    IsIntegerLiteral negative body after ∧ n = signedInteger negative body
  double : (∃ x start l', l.next = (.ok ⟨.double x, start⟩, l')) ↔ IsDoubleLiteral body after
  nearest : ∀ x start l', l.next = (.ok ⟨.double x, start⟩, l') →
    ∃ q, notationValue? (signText negative ++ body) = some q ∧ x.IsNearest q
  span : ∀ token l', l.next = (.ok token, l') → token.position = l.position ∧ l'.rest = after ∧
    l'.position = l.position.advance (signText negative ++ body)
  refused : ¬ IsIntegerLiteral negative body after → ¬ IsDoubleLiteral body after →
    l.Refuses body after

theorem AtLiteral.refused (h : l.AtLiteral negative body after)
    (hinteger : ¬ IsIntegerLiteral negative body after) (hdouble : ¬ IsDoubleLiteral body after) :
    l.Refuses body after := by
  obtain ⟨failure, hfailure⟩ := exists_literalPayload_eq_error h.parts hinteger hdouble
  have hnext := h.next
  rw [hfailure] at hnext
  cases failure with
  | digitLimit count =>
      obtain ⟨hlong, rfl⟩ := (literalPayload_eq_digitLimit_iff h.parts).mp hfailure
      exact ⟨_, _, hnext, rfl, rfl, .inr ⟨rfl, hlong⟩⟩
  | fault fault =>
      refine ⟨_, _, hnext, rfl, rfl, .inl ⟨⟨fault, rfl⟩, ?_⟩⟩
      intro hlong
      have hlimit : literalPayload negative body after = .error (.digitLimit body.length) :=
        (literalPayload_eq_digitLimit_iff h.parts).mpr ⟨hlong, rfl⟩
      rw [hfailure] at hlimit
      simp at hlimit

theorem AtLiteral.recognizes (h : l.AtLiteral negative body after) :
    l.Recognizes negative body after where
  integer n := by rw [h.next_eq_ok_iff, literalPayload_eq_integer_iff h.parts]
  double := by
    have hmakes : (∃ x, literalPayload negative body after = .ok (.double x)) ↔
        IsDoubleLiteral body after := exists_literalPayload_eq_double_iff h.parts
    rw [← hmakes]
    exact exists_congr fun x => h.next_eq_ok_iff
  nearest x start l' hnext :=
    isNearest_of_literalPayload h.parts (h.next_eq_ok_iff.mp ⟨start, l', hnext⟩)
  span token l' hnext := by
    obtain ⟨payload, start⟩ := token
    have hpayload := h.next_eq_ok_iff.mp ⟨start, l', hnext⟩
    rw [h.next, hpayload] at hnext
    cases hnext
    exact ⟨rfl, rfl, rfl⟩
  refused := h.refused

end Lexer

/-- **Number literals are recognized exactly.** Let a lexer that scans stand in a tag. At a digit,
or at a minus sign directly before one, it recognizes the literal of the sign and the longest run of
digits and points: this is an integer, a double or refused as a whole. At any other minus sign it
gives the operator, of one character. -/
theorem number_literal_recognized {l : Lexer} (hready : l.Ready) (hmode : l.mode = .tag) :
    (∀ negative d more, d.isDigit = true → l.rest = signText negative ++ d :: more →
      l.Recognizes negative ((d :: more).takeWhile isNumberPart)
        ((d :: more).dropWhile isNumberPart)) ∧
    ∀ rest, l.rest = '-' :: rest → (∀ d ∈ rest.head?, d.isDigit = false) →
      ∃ l', l.next = (.ok ⟨.operator '-', l.position⟩, l') ∧ l'.rest = rest ∧
        l'.position = l.position.advance ['-'] := by
  constructor
  · intro negative d more hd hrest
    exact (hready.atLiteral hmode hd hrest).recognizes
  · intro rest hrest hdigit
    exact ⟨_, hready.next_minus hmode hrest hdigit, rfl, rfl⟩

/-- Two points and a letter behind the literal: nothing is read, not even the digits in front. -/
theorem number_literal_recognized_twoPoints :
    ∃ failure l', ((Lexer.ofText "\x7b$-1.2.3e".toList).askAll
        [.next, .setMode (.mode .tag)]).next = (.error failure, l') ∧
      l'.rest = "-1.2.3e".toList ∧ l'.position = ⟨2, 1, 3⟩ := by
  have hrecognizes := (number_literal_recognized (l := (Lexer.ofText "\x7b$-1.2.3e".toList).askAll
    [.next, .setMode (.mode .tag)]) ⟨rfl, rfl⟩ rfl).1 true '1' ".2.3e".toList rfl rfl
  have hletter : ¬ EndsLiteral ['e'] := by
    intro h
    exact absurd (h 'e' rfl) (by decide)
  obtain ⟨failure, l', hnext, hrest, hposition, -⟩ :=
    hrecognizes.refused (fun h => hletter h.ends) (fun h => hletter h.ends)
  exact ⟨failure, l', hnext, hrest, hposition⟩

end TagTemplate
