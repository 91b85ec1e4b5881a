import TagTemplate.Proofs.Lexer.Literal
import TagTemplate.Proofs.Lexer.Run

set_option autoImplicit false

/-! # Integers beyond the limit of digits

A request for a token fails in one way that is no lexical error: in a tag, in front of an integer
literal with more digits than are converted (`Lexer.LongInteger`). The literal fails whatever its
value, so zeros in front count as well. `Lexer.Ready.next_digitLimit_iff` says that there is no
other case, and `tokenize_digitLimit_iff` says the same of a whole text.
-/

namespace TagTemplate

/-! ## The literals -/

/-- A text begins with an integer literal of a number of digits: they stand behind the sign, if
there is one, and what follows continues neither a number nor a name. -/
def StartsInteger (t : Text) (count : Nat) : Prop :=
  ∃ negative digits after, t = signText negative ++ (digits ++ after) ∧
    (∀ c ∈ digits, c.isDigit = true) ∧ digits.length = count ∧
    ∀ c ∈ after.head?, isIdentifierPart c = false ∧ isNumberPart c = false

/-- A lexer that stands in a tag, in front of an integer literal with too many digits. -/
structure Lexer.LongInteger (l : Lexer) (count : Nat) : Prop where
  mode : l.mode = .tag
  literal : StartsInteger (l.rest.dropWhile isBlank) count
  long : maxIntegerDigits < count

/-! ## One scan -/

theorem Run.toReading_ne_digitLimit (r : Run) (payload : Text → Payload) (count : Nat) :
    (r.toReading payload).result ≠ .error (.digitLimit count) := by
  unfold Run.toReading
  cases r.fault <;> simp

theorem readText_ne_digitLimit (t : Text) (count : Nat) :
    (readText t).result ≠ .error (.digitLimit count) := by
  unfold readText
  split
  · simp
  · simp
  · exact Run.toReading_ne_digitLimit _ _ count

theorem numberPayload_digitLimit_iff {negative : Bool} {body : Text} {count : Nat} :
    numberPayload negative body = .error (.digitLimit count) ↔
      (∀ c ∈ body, c.isDigit = true) ∧ body.length = count ∧ maxIntegerDigits < count := by
  unfold numberPayload
  dsimp only
  split
  · next hdigits =>
    have hall : ∀ c ∈ body, c.isDigit = true := List.dropWhile_eq_nil_iff.mp hdigits
    split
    · next hlong =>
      simp only [Except.error.injEq, ScanFailure.digitLimit.injEq]
      constructor
      · rintro rfl
        exact ⟨hall, rfl, hlong⟩
      · rintro ⟨-, hcount, -⟩
        exact hcount
    · next hshort =>
      have hnot : ¬ (body.length = count ∧ maxIntegerDigits < count) := by
        rintro ⟨rfl, hlong⟩
        exact hshort hlong
      generalize (if negative = true then -(Nat.ofDigitChars 10 body 0 : ℤ)
        else (Nat.ofDigitChars 10 body 0 : ℤ)) = value
      constructor
      · intro h
        split at h <;> simp at h
      · rintro ⟨-, hcount⟩
        exact absurd hcount hnot
  · next hpoint =>
    -- a literal with a point is a double or malformed, however long it is
    have hnot : ¬ ∀ c ∈ body, c.isDigit = true := by
      intro hall
      rw [List.dropWhile_eq_nil_iff.mpr hall] at hpoint
      simp at hpoint
    constructor
    · intro h
      split at h
      · split at h <;> simp at h
      · simp at h
    · rintro ⟨hall, -⟩
      exact absurd hall hnot

theorem startsInteger_of_readNumber {t : Text} {count : Nat}
    (h : (readNumber t).result = .error (.digitLimit count)) :
    StartsInteger t count ∧ maxIntegerDigits < count := by
  have hsplit := splitSign_split t
  unfold readNumber at h
  generalize splitSign t = parts at h hsplit
  obtain ⟨negative, unsigned⟩ := parts
  dsimp only at h hsplit
  split at h
  · simp [Reading.stuck] at h
  · next hclosed =>
    split at h
    · simp at h
    · next failure hpayload =>
      obtain rfl : failure = .digitLimit count := by simpa [Reading.stuck] using h
      obtain ⟨hdigits, hcount, hlong⟩ := numberPayload_digitLimit_iff.mp hpayload
      refine ⟨⟨negative, unsigned.takeWhile isNumberPart, unsigned.dropWhile isNumberPart, ?_,
        hdigits, hcount, fun c hc => ⟨?_, head_dropWhile c hc⟩⟩, hlong⟩
      · rw [List.takeWhile_append_dropWhile, hsplit]
      · rw [Option.filter_eq_none_iff] at hclosed
        simpa using hclosed c hc

theorem readNumber_digitLimit {t : Text} {count : Nat} (h : StartsInteger t count)
    (hlong : maxIntegerDigits < count) :
    (readTag t).result = .error (.digitLimit count) := by
  obtain ⟨negative, digits, after, rfl, hdigits, hcount, hafter⟩ := h
  have hpayload : numberPayload negative digits = .error (.digitLimit count) :=
    numberPayload_digitLimit_iff.mpr ⟨hdigits, hcount, hlong⟩
  have hparts : ∀ c ∈ digits, isNumberPart c = true := fun c hc =>
    isNumberPart_of_isDigit (hdigits c hc)
  cases digits with
  -- there are digits, because there are more than the limit
  | nil =>
      rw [List.length_nil] at hcount
      omega
  | cons d digits =>
      have hd : d.isDigit = true := hdigits d (by simp)
      have hminus : ∀ c ∈ (d :: digits ++ after).head?, c ≠ '-' := by
        intro c hc
        obtain rfl : d = c := by simpa using hc
        exact digit_ne hd (by decide)
      rw [List.cons_append, readTag_of_isDigit hd, ← List.cons_append,
        readNumber_of_parts hparts hafter hminus, hpayload]
      rfl

theorem readTag_digitLimit_iff {t : Text} {count : Nat} :
    (readTag t).result = .error (.digitLimit count) ↔
      StartsInteger t count ∧ maxIntegerDigits < count := by
  constructor
  · intro h
    unfold readTag at h
    split at h
    · simp at h
    · simp at h
    · simp at h
    · split at h
      · simp at h
      · split at h
        · exact startsInteger_of_readNumber h
        · split at h
          · unfold readFunction at h
            split at h
            · split at h <;> simp [Reading.stuck] at h
            · simp [Reading.stuck] at h
          · split at h
            · exact absurd h (Run.toReading_ne_digitLimit _ _ count)
            · split at h <;> simp [Reading.stuck] at h
  · rintro ⟨hstarts, hlong⟩
    exact readNumber_digitLimit hstarts hlong

namespace Lexer

/-! ## One request -/

/-- **A request fails at the limit of digits exactly in front of a long integer.** -/
theorem Ready.next_digitLimit_iff {l : Lexer} (h : l.Ready) {count : Nat} :
    (∃ l', l.next = (.error (.digitLimit count), l')) ↔ l.LongInteger count := by
  have hresult : (∃ l', l.next = (.error (.digitLimit count), l')) ↔
      (scan l.mode l.rest).result = .error (.digitLimit count) := by
    rw [h.next, afterScan]
    dsimp only
    generalize (scan l.mode l.rest).result = result
    split <;> simp
  rw [hresult]
  -- only tag mode reads numbers
  cases hmode : l.mode with
  | text =>
      constructor
      · intro htext
        exact absurd htext (readText_ne_digitLimit _ count)
      · intro hlong
        rw [hlong.mode] at hmode
        cases hmode
  | tag =>
      constructor
      · intro htag
        obtain ⟨hliteral, hlong⟩ := readTag_digitLimit_iff.mp htag
        exact ⟨hmode, hliteral, hlong⟩
      · intro hlong
        exact readTag_digitLimit_iff.mpr ⟨hlong.literal, hlong.long⟩

end Lexer

/-! ## A whole text -/

/-- Tokenizing fails at the limit of digits exactly if it comes to a long integer. -/
theorem tokenize_digitLimit_iff {t : Text} {count : Nat} :
    tokenize t = .error (.digitLimit count) ↔
      ∃ ts l, (Lexer.ofText t).Reads ts l ∧ l.LongInteger count := by
  have hready := Lexer.ready_ofText t
  constructor
  · intro h
    obtain ⟨ts, l, run, hreads, hends, hdrain⟩ := (Lexer.ofText t).exists_reads_ends
    rw [tokenize, hdrain] at h
    refine ⟨ts, l, hreads, ?_⟩
    cases hends with
    | finished hnext hend => simp at h
    | failed hnext =>
        obtain rfl := Except.error.inj h
        exact (hreads.ready hready).next_digitLimit_iff.mp ⟨_, hnext⟩
  · rintro ⟨ts, l, hreads, hlong⟩
    obtain ⟨l', hnext⟩ := (hreads.ready hready).next_digitLimit_iff.mpr hlong
    rw [tokenize, hreads.drain_eq, Lexer.drain_of_error hnext]

end TagTemplate
