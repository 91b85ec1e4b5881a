import TagTemplate.Element.Construct
import TagTemplate.Proofs.Lexer.NumberLiteral

set_option autoImplicit false

/-! # Double literals

A double is made in two ways: the lexer reads a numeral, and the constructor of the element rounds a
number that it is given. A request in front of a numeral is settled by `Double.ofNumeral?` alone
(`Lexer.Ready.next_numeral`), and the constructor by `Double.ofRatio?` (`construct_fraction_iff`).
Both give the double that covers the number, so they agree and stop at the same limit: this is
`double_conversions_agree`. As the literal of a double is a numeral that is covered by the double,
nothing is lost between a double and its token (`double_literal_exact`).
-/

namespace TagTemplate

/-! ## A numeral at the front -/

/-- A numeral begins with a digit. -/
theorem IsNumeral.atLiteral {l : Lexer} (hready : l.Ready) (hmode : l.mode = .tag)
    {negative : Bool} {whole fraction rest : Text} (h : IsNumeral whole fraction)
    (hrest : l.rest = signText negative ++ (whole ++ '.' :: fraction) ++ rest)
    (hcloses : ClosesToken rest) :
    l.AtLiteral negative (whole ++ '.' :: fraction) rest where
  ready := hready
  mode := hmode
  rest := by rw [hrest, List.append_assoc]
  digit := by
    obtain ⟨d, digits, rfl⟩ := List.exists_cons_of_ne_nil h.whole_ne_nil
    exact ⟨d, rfl, h.whole_digits d (by simp)⟩
  parts := by
    intro c hc
    rcases List.mem_append.mp hc with hwhole | hfraction
    · exact isNumberPart_of_isDigit (h.whole_digits c hwhole)
    rcases List.mem_cons.mp hfraction with rfl | hfraction
    · decide
    · exact isNumberPart_of_isDigit (h.fraction_digits c hfraction)
  longest c hc := (hcloses.head c hc).2

/-- **A request in front of a numeral**: it gives the double that the numeral is read as and moves
behind the numeral, or it finds the numeral out of range and does not move. -/
theorem Lexer.Ready.next_numeral {l : Lexer} (hready : l.Ready) (hmode : l.mode = .tag)
    {negative : Bool} {whole fraction literal rest : Text} (h : IsNumeral whole fraction)
    (hliteral : literal = signText negative ++ (whole ++ '.' :: fraction))
    (hrest : l.rest = literal ++ rest) (hcloses : ClosesToken rest) :
    l.next = match Double.ofNumeral? negative whole fraction with
      | some x => (.ok ⟨.double x, l.position⟩,
          { l with
            rest := rest
            position := l.position.advance literal
            last := some ⟨.double x, l.position⟩ })
      | none => (.error (.error ⟨.fault (.doubleRange literal), l.position⟩),
          { l with met := some ⟨.doubleRange literal, l.position⟩ }) := by
  subst hliteral
  have hpayload := numberPayload_numeral negative h
  rw [← literalPayload_of_ends fun c hc => (hcloses.head c hc).1] at hpayload
  rw [(h.atLiteral hready hmode hrest hcloses).next, hpayload]
  cases Double.ofNumeral? negative whole fraction <;> rfl

/-! ## Constructing a double -/

/-- A number is its absolute value with its sign. -/
theorem withSign_abs (q : ℚ) : withSign (decide (q.num < 0)) |q| = q := by
  by_cases h : q.num < 0
  · rw [decide_eq_true h, withSign, if_pos rfl, abs_of_neg (Rat.num_neg.mp h), neg_neg]
  · rw [decide_eq_false h, withSign, if_neg (by simp),
      abs_of_nonneg (Rat.num_nonneg.mp (not_lt.mp h))]

/-- The sign of a number that is not zero. -/
theorem num_withSign_neg (negative : Bool) {v : ℚ} (h : 0 < v) :
    decide ((withSign negative v).num < 0) = negative := by
  cases negative with
  | true => exact decide_eq_true (Rat.num_neg.mpr (neg_neg_of_pos h))
  | false => exact decide_eq_false (not_lt.mpr (Rat.num_nonneg.mpr h.le))

/-- The absolute value of a number is the ratio that the constructor rounds. -/
theorem natAbs_num_div_den (q : ℚ) : (q.num.natAbs : ℚ) / q.den = |q| := by
  rw [Nat.cast_natAbs, Int.cast_abs, ← Nat.abs_cast q.den, ← abs_div, Rat.num_div_den]

namespace Element

/-- The constructor of doubles takes a fraction exactly if its ratio rounds to a double. -/
theorem construct_fraction (n : ℤ) (d : ℕ) :
    construct .double (.fraction n d) =
      match Double.ofRatio? (decide (n < 0)) n.natAbs d with
      | some x => .ok (.double x)
      | none => .error (.doubleRange (.fraction n d)) := rfl

/-- It takes a whole number as a ratio, too. -/
theorem construct_whole (n : ℤ) :
    construct .double (.integer n) =
      match Double.ofRatio? (decide (n < 0)) n.natAbs 1 with
      | some x => .ok (.double x)
      | none => .error (.doubleRange (.integer n)) := rfl

end Element

/-! ## The literal of a double -/

theorem Double.literal_head (x : Double) : x.literal.head? = some '-' ↔ x.negative = true := by
  obtain ⟨whole, fraction, hliteral, hnumeral, -⟩ := x.exists_literal_numeral
  obtain ⟨d, digits, rfl⟩ := List.exists_cons_of_ne_nil hnumeral.whole_ne_nil
  have hd : d ≠ '-' := digit_ne (hnumeral.whole_digits d (by simp)) (by decide)
  rw [hliteral, signText]
  cases x.negative with
  | true => simp
  | false => simpa using hd

/-- **No bit of a double is lost in its literal.** The element of a double has a literal of digits
on both sides of a point, with a minus sign in front exactly if the sign bit of the double is set.
It stands for the same number as the display of the double. Where a lexer stands in tag mode in
front of the literal, and whitespace, the end of the tag or the end of the input follows, the next
token is the very same double, and the lexer moves behind the literal. -/
theorem double_literal_exact (x : Double) :
    ∃ e, Element.construct .double (.float (.finite x)) = .ok e ∧
      (∃ whole fraction, e.literal = signText x.negative ++ (whole ++ '.' :: fraction) ∧
        IsNumeral whole fraction) ∧
      (e.literal.head? = some '-' ↔ x.negative = true) ∧
      (∃ q, notationValue? e.literal = some q ∧
        notationValue? (Datum.float (.finite x)).display = some q) ∧
      ∀ (l : Lexer) (rest : Text), l.Ready → l.mode = .tag → l.rest = e.literal ++ rest →
        ClosesToken rest → ∃ l', l.next = (.ok ⟨.double x, l.position⟩, l') ∧ l'.rest = rest ∧
          l'.position = l.position.advance e.literal := by
  obtain ⟨whole, fraction, hliteral, hnumeral, hread⟩ := x.exists_literal_numeral
  refine ⟨.double x, rfl, ⟨whole, fraction, hliteral, hnumeral⟩, x.literal_head,
    ⟨x.notedValue, x.notationValue?_literal, x.notationValue?_display⟩, ?_⟩
  intro l rest hready hmode hrest hcloses
  have hnext := hready.next_numeral hmode hnumeral hliteral hrest hcloses
  rw [hread] at hnext
  exact ⟨_, hnext, rfl, rfl⟩

/-- The sign of a zero is kept as well. -/
theorem double_literal_exact_negativeZero :
    ∃ l', ((Lexer.ofText "\x7b$=-0.0$\x7d".toList).askAll
        [.next, .setMode (.mode .tag), .next]).next
          = (.ok ⟨.double (.zero true), ⟨3, 1, 4⟩⟩, l') ∧ l'.rest = ['$', '\x7d'] := by
  obtain ⟨e, he, -, -, -, hscan⟩ := double_literal_exact (.zero true)
  cases he
  obtain ⟨l', hnext, hrest, -⟩ := hscan ((Lexer.ofText "\x7b$=-0.0$\x7d".toList).askAll
    [.next, .setMode (.mode .tag), .next]) ['$', '\x7d'] ⟨rfl, rfl⟩ rfl rfl (.tagEnd [])
  exact ⟨l', hnext, hrest⟩

/-! ## Both ways to make a double -/

/-- The double that the constructor makes of a number is nearest to it. -/
theorem Double.isNearest_of_ofRatio? {q : ℚ} {y : Double}
    (h : ofRatio? (decide (q.num < 0)) q.num.natAbs q.den = some y) :
    y.negative = decide (q.num < 0) ∧ y.Covers |q| ∧ y.IsNearest q := by
  obtain ⟨hsign, hcovers⟩ := covers_of_ofRatio? q.den_pos h
  rw [natAbs_num_div_den] at hcovers
  have hnearest := isNearest_of_covers hsign (abs_nonneg q) hcovers
  rw [withSign_abs] at hnearest
  exact ⟨hsign, hcovers, hnearest⟩

/-- Below the limit both ways lead to the same nearest double. -/
theorem Double.exists_both {negative : Bool} {whole fraction : Text} {q : ℚ}
    (hq : q = withSign negative (numeralValue whole fraction))
    (hrange : |q| < 2 ^ 1024 - 2 ^ 970) :
    ∃ x y, ofNumeral? negative whole fraction = some x ∧
      ofRatio? (decide (q.num < 0)) q.num.natAbs q.den = some y ∧ x.sameValue y = true ∧
      x.IsNearest q ∧ y.IsNearest q := by
  have hv := numeralValue_nonneg whole fraction
  have habs : |q| = numeralValue whole fraction := by rw [hq, abs_withSign negative hv]
  obtain ⟨x, hx⟩ := (exists_ofNumeral?_iff negative whole fraction).mpr (habs ▸ hrange)
  obtain ⟨y, hy⟩ := (exists_ofRatio?_iff (decide (q.num < 0)) q.num.natAbs q.den_pos).mpr
    ((natAbs_num_div_den q).symm ▸ hrange)
  obtain ⟨hxsign, hxcovers⟩ := ofNumeral?_eq_some_iff.mp hx
  obtain ⟨hysign, hycovers, hynearest⟩ := isNearest_of_ofRatio? hy
  have hsign : numeralValue whole fraction ≠ 0 → x.negative = y.negative := by
    intro hne
    rw [hxsign, hysign, hq, num_withSign_neg negative (lt_of_le_of_ne hv hne.symm)]
  rw [habs] at hycovers
  refine ⟨x, y, hx, hy, sameValue_of_covers hxcovers hycovers hv hsign, ?_, hynearest⟩
  rw [hq]
  exact isNearest_of_covers hxsign hv hxcovers

/-- At the limit and above it neither way leads to a double. -/
theorem Double.neither {negative : Bool} {whole fraction : Text} {q : ℚ}
    (hq : q = withSign negative (numeralValue whole fraction))
    (hrange : ¬ |q| < 2 ^ 1024 - 2 ^ 970) :
    ofNumeral? negative whole fraction = none ∧
      ofRatio? (decide (q.num < 0)) q.num.natAbs q.den = none := by
  have hv := numeralValue_nonneg whole fraction
  have habs : |q| = numeralValue whole fraction := by rw [hq, abs_withSign negative hv]
  constructor
  · refine Option.eq_none_iff_forall_ne_some.mpr fun x hx => hrange ?_
    rw [habs]
    exact (exists_ofNumeral?_iff negative whole fraction).mp ⟨x, hx⟩
  · refine Option.eq_none_iff_forall_ne_some.mpr fun y hy => hrange ?_
    rw [← natAbs_num_div_den q]
    exact (exists_ofRatio?_iff _ _ q.den_pos).mp ⟨y, hy⟩

/-- **The two ways to make a double agree.** Let a lexer stand in tag mode in front of digits on
both sides of a point, with or without a minus sign, and let whitespace, the end of the tag or the
end of the input follow. It gives a double exactly if the number that is written there is below
`2 ^ 1024 - 2 ^ 970` in absolute value, and exactly then a double is constructed from the number as
a fraction. The two doubles compare as equal, stand for the same number, and are nearest to the
number that was written, with an even mantissa where another double is equally near. Otherwise the
lexer reports the numeral as out of range and does not move, and the constructor refuses the fraction
for its value. The constructor treats the number alike if it is handed in as a whole number. -/
theorem double_conversions_agree {l : Lexer} {negative : Bool}
    {whole fraction literal rest : Text} {q : ℚ} (hnumeral : IsNumeral whole fraction)
    (hliteral : literal = signText negative ++ (whole ++ '.' :: fraction))
    (hq : notationValue? literal = some q) (hready : l.Ready) (hmode : l.mode = .tag)
    (hrest : l.rest = literal ++ rest) (hcloses : ClosesToken rest) :
    ((∃ x l', l.next = (.ok ⟨.double x, l.position⟩, l')) ↔ |q| < 2 ^ 1024 - 2 ^ 970) ∧
    ((∃ e, Element.construct .double (.fraction q.num q.den) = .ok e) ↔
      |q| < 2 ^ 1024 - 2 ^ 970) ∧
    (|q| < 2 ^ 1024 - 2 ^ 970 → ∃ x y l', l.next = (.ok ⟨.double x, l.position⟩, l') ∧
      l'.rest = rest ∧ l'.position = l.position.advance literal ∧
      Element.construct .double (.fraction q.num q.den) = .ok (.double y) ∧
      (q.den = 1 → Element.construct .double (.integer q.num) = .ok (.double y)) ∧
      (Element.double x).sameValue (.double y) = true ∧ x.value = y.value ∧
      x.IsNearest q ∧ y.IsNearest q) ∧
    (¬ |q| < 2 ^ 1024 - 2 ^ 970 →
      (∃ l', l.next = (.error (.error ⟨.fault (.doubleRange literal), l.position⟩), l') ∧
        l'.rest = l.rest ∧ l'.position = l.position) ∧
      (LexCause.fault (.doubleRange literal)).message
        = "Number out of range: " ++ String.ofList (Text.quoted literal) ∧
      (LexError.mk (.fault (.doubleRange literal)) l.position).diagnostic = .atPosition
        ("Number out of range: " ++ String.ofList (Text.quoted literal)) .lexical l.position ∧
      Element.construct .double (.fraction q.num q.den)
        = .error (.doubleRange (.fraction q.num q.den)) ∧
      (Rejection.doubleRange (.fraction q.num q.den)).errorClass = .valueError ∧
      (q.den = 1 → Element.construct .double (.integer q.num)
        = .error (.doubleRange (.integer q.num)) ∧
        (Rejection.doubleRange (.integer q.num)).errorClass = .valueError)) := by
  have hvalue : q = withSign negative (numeralValue whole fraction) := by
    rw [hliteral, notationValue?_numeral negative hnumeral] at hq
    exact (Option.some_inj.mp hq).symm
  have hnext := hready.next_numeral hmode hnumeral hliteral hrest hcloses
  have hfraction := Element.construct_fraction q.num q.den
  by_cases hrange : |q| < 2 ^ 1024 - 2 ^ 970
  · obtain ⟨x, y, hx, hy, hsame, hxnearest, hynearest⟩ := Double.exists_both hvalue hrange
    rw [hx] at hnext
    rw [hy] at hfraction
    refine ⟨iff_of_true ⟨x, _, hnext⟩ hrange, iff_of_true ⟨_, hfraction⟩ hrange, fun _ => ?_,
      absurd hrange⟩
    refine ⟨x, y, _, hnext, rfl, rfl, hfraction, fun hden => ?_, hsame,
      Double.value_eq_of_sameValue hsame, hxnearest, hynearest⟩
    rw [hden] at hy
    rw [Element.construct_whole, hy]
  · obtain ⟨hx, hy⟩ := Double.neither hvalue hrange
    rw [hx] at hnext
    rw [hy] at hfraction
    refine ⟨iff_of_false ?_ hrange, iff_of_false ?_ hrange, fun hin => absurd hin hrange,
      fun _ => ?_⟩
    · rintro ⟨x, l', htoken⟩
      simp [hnext] at htoken
    · rintro ⟨e, he⟩
      simp [hfraction] at he
    · refine ⟨⟨_, hnext, rfl, rfl⟩, rfl, rfl, hfraction, rfl, fun hden => ⟨?_, rfl⟩⟩
      rw [hden] at hy
      rw [Element.construct_whole, hy]

/-- Halfway between two doubles, at the end of the input. -/
theorem double_conversions_agree_halfway :
    ∃ x y l', ((Lexer.ofText "\x7b$=-9007199254740993.0".toList).askAll
        [.next, .setMode (.mode .tag), .next]).next = (.ok ⟨.double x, ⟨3, 1, 4⟩⟩, l') ∧
      Element.construct .double (.fraction (-9007199254740993) 1) = .ok (.double y) ∧
      Element.construct .double (.integer (-9007199254740993)) = .ok (.double y) ∧
      x.value = y.value ∧ x.IsNearest (-9007199254740993) := by
  have hnumeral : IsNumeral "9007199254740993".toList "0".toList :=
    ⟨by simp, by simp, List.all_eq_true.mp rfl, List.all_eq_true.mp rfl⟩
  have hliteral : "-9007199254740993.0".toList
      = signText true ++ ("9007199254740993".toList ++ '.' :: "0".toList) := rfl
  have hvalue : notationValue? "-9007199254740993.0".toList = some (-9007199254740993) := by
    have hdigits : Nat.ofDigitChars 10 ("9007199254740993".toList ++ "0".toList) 0
        = 90071992547409930 := rfl
    have hplaces : "0".toList.length = 1 := rfl
    rw [hliteral, notationValue?_numeral true hnumeral, withSign, if_pos rfl, numeralValue, hdigits,
      hplaces]
    norm_num
  have hrange : |(-9007199254740993 : ℚ)| < 2 ^ 1024 - 2 ^ 970 := by
    have hunit : (2 : ℚ) ^ 1 ≤ 2 ^ (971 : ℤ) := by
      rw [← zpow_natCast]
      exact zpow_le_zpow_right₀ (by norm_num) (by norm_num)
    rw [Double.limit_eq, abs_of_neg (by norm_num)]
    generalize (2 : ℚ) ^ (971 : ℤ) = p at hunit ⊢
    norm_num at hunit ⊢
    linarith
  obtain ⟨-, -, hagree, -⟩ := double_conversions_agree
    (l := (Lexer.ofText "\x7b$=-9007199254740993.0".toList).askAll
      [.next, .setMode (.mode .tag), .next])
    hnumeral hliteral hvalue ⟨rfl, rfl⟩ rfl rfl .nil
  obtain ⟨x, y, l', hnext, -, -, hfraction, hinteger, -, hsame, hnearest, -⟩ := hagree hrange
  exact ⟨x, y, l', hnext, hfraction, hinteger rfl, hsame, hnearest⟩

end TagTemplate
