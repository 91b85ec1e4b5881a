import TagTemplate.Store.Construct
import TagTemplate.Token.Record
import TagTemplate.Proofs.Lexer.DigitLimit
import TagTemplate.Proofs.Parser.Replay

set_option autoImplicit false

/-! # How tokenizing and parsing fail

A text is tokenized or has a lexical error, and it is parsed or has an error of its tokens or of its
syntax, unless an integer with too many digits comes first: that is the one failure that is not
reported as an error of the text (`tokenize_digitLimit_iff`, `parse_digitLimit_iff`). The
constructors of tokens, elements and nodes refuse nothing that the lexer and the parser hand them.
-/

namespace TagTemplate

/-! ## Constructors -/

/-- A token of a lexer is a token record. -/
theorem construct_ofToken (t : Token) :
    TokenRecord.construct (.tokenKind t.payload.kind) t.payload.value t.position.offset
      t.position.line t.position.column = .ok (.ofToken t) := by
  obtain ⟨payload, position⟩ := t
  cases payload <;> rfl

/-- A node without children, made by the checked constructors from what a node holds itself. -/
def Head.construct (s : Store) : Head → Except NodeRejection (Store × Nat)
  | .text content => s.newText (.text content)
  | .echo elements => s.newEcho (.tuple (elements.map .element))
  | .loop header =>
    s.newLoop (.element (.var header.var)) (.element header.start) (.element header.stop)
      (header.step.elim .none .element) (.list [])
  | .document => s.newDocument (.list [])

theorem mapM_echoElement (elements : List Element) :
    (elements.map Datum.element).mapM echoElement = .ok elements := by
  induction elements with
  | nil => rfl
  | cons e elements ih =>
      rw [List.map_cons, List.mapM_cons, ih]
      rfl

/-- What a node holds itself is in order for the constructor of the node. -/
theorem construct_head (s : Store) (head : Head) : head.construct s = .ok (s.alloc head []) := by
  cases head with
  | text content => rfl
  | echo elements =>
      have hitems : (Datum.tuple (elements.map .element)).items
          = .ok (elements.map Datum.element) := rfl
      rw [Head.construct, Store.newEcho, hitems]
      show (do let elements ← (elements.map Datum.element).mapM echoElement
               return s.alloc (.echo elements) []) = _
      rw [mapM_echoElement]
      rfl
  | loop header =>
      obtain ⟨var, start, stop, step⟩ := header
      cases step <;> rfl
  | document => rfl

/-! ## The limit of digits -/

/-- A text reads as a list of tokens up to an integer literal with too many digits. -/
def LeadsToLongInteger (t : Text) (ts : List Token) (count : Nat) : Prop :=
  ∃ l, (Lexer.ofText t).Reads ts l ∧ l.LongInteger count

/-- Parsing fails at the limit of digits exactly if it comes to a long integer: the builder goes on
with all the tokens in front of it. -/
theorem parse_digitLimit_iff {options : Options} {t : Text} {count : Nat} :
    parse options t = .error (.digitLimit count) ↔
      ∃ ts s, LeadsToLongInteger t ts count ∧
        BuildState.start.replay options.strict ts = .ok (.next s) := by
  have hready := Lexer.ready_ofText t
  constructor
  · intro h
    obtain ⟨ts, l, tail, hreads, hends, -, hconcludes⟩ := exists_reads_parse options t
    rw [h] at hconcludes
    obtain ⟨⟨s, hreplay⟩, hfailure⟩ := BuildState.Concludes.digitLimit_iff.mp hconcludes
    cases hends with
    | finished hnext hend => simp at hfailure
    | failed hnext =>
        cases hfailure
        rw [List.append_nil] at hreplay
        have hlong := (hreads.ready hready).next_digitLimit_iff.mp ⟨_, hnext⟩
        exact ⟨ts, s, ⟨l, hreads, hlong⟩, hreplay⟩
  · rintro ⟨ts, s, ⟨l, hreads, hlong⟩, hreplay⟩
    obtain ⟨l', hnext⟩ := (hreads.ready hready).next_digitLimit_iff.mpr hlong
    have hconcludes : BuildState.Concludes (BuildState.start.replay options.strict (ts ++ []))
        (some (.digitLimit count)) (parse options t) :=
      BuildState.concludes_run hreads (.failed hnext) hready rfl
    rw [List.append_nil, hreplay] at hconcludes
    exact hconcludes.unique (.lexFailed s (.digitLimit count))

/-- The text of an echo tag around an integer literal. -/
def longEcho (count : Nat) : Text :=
  tagStartText ++ '=' :: (List.replicate count '1' ++ tagEndText)

theorem longEcho_leads {count : Nat} (h : maxIntegerDigits < count) :
    ∃ ts s, LeadsToLongInteger (longEcho count) ts count ∧
      ∀ strict, BuildState.start.replay strict ts = .ok (.next s) := by
  have hliteral : StartsInteger (List.replicate count '1' ++ tagEndText) count := by
    refine ⟨false, List.replicate count '1', tagEndText, rfl, ?_, List.length_replicate, ?_⟩
    · intro c hc
      rw [List.eq_of_mem_replicate hc]
      rfl
    · intro c hc
      obtain rfl : '$' = c := by simpa [tagEndText] using hc
      decide
  obtain ⟨rest, hrest⟩ : ∃ rest, List.replicate count '1' ++ tagEndText = '1' :: rest := by
    cases count with
    | zero => omega
    | succ count => exact ⟨_, rfl⟩
  refine ⟨_, _, ⟨_, .token rfl rfl (.token rfl rfl (.done _)), rfl, ?_, h⟩, fun strict => rfl⟩
  show StartsInteger ((List.replicate count '1' ++ tagEndText).dropWhile isBlank) count
  rw [hrest] at hliteral ⊢
  exact hliteral

/-- Every number of digits beyond the limit makes tokenizing and parsing fail on some text. -/
theorem longEcho_fails (options : Options) {count : Nat} (h : maxIntegerDigits < count) :
    tokenize (longEcho count) = .error (.digitLimit count) ∧
      parse options (longEcho count) = .error (.digitLimit count) := by
  obtain ⟨ts, s, hleads, hreplay⟩ := longEcho_leads h
  exact ⟨tokenize_digitLimit_iff.mpr ⟨ts, hleads⟩,
    parse_digitLimit_iff.mpr ⟨ts, s, hleads, hreplay options.strict⟩⟩

/-- The parser never hands an element constructor what that refuses. -/
theorem parse_ne_rejected (options : Options) (t : Text) (rejection : Rejection) :
    parse options t ≠ .error (.rejected rejection) := by
  intro h
  obtain ⟨ts, l, tail, -, -, -, hconcludes⟩ := exists_reads_parse options t
  rw [h] at hconcludes
  exact BuildState.Concludes.not_rejected hconcludes

/-- **What is reported of a text.** Tokenizing gives tokens or a lexical error unless it comes to an
integer with too many digits, and parsing a document, a lexical error or an error of the syntax
unless it does. Constructors of tokens, elements and nodes refuse nothing. -/
theorem reported_iff (options : Options) (t : Text) :
    (((∃ tokens, tokenize t = .ok tokens) ∨ ∃ e, tokenize t = .error (.error e)) ↔
      ¬ ∃ ts count, LeadsToLongInteger t ts count) ∧
    (((∃ document, parse options t = .ok document) ∨
        (∃ e, parse options t = .error (.lexical e)) ∨
        ∃ e, parse options t = .error (.malformed e)) ↔
      ¬ ∃ ts count s, LeadsToLongInteger t ts count ∧
        BuildState.start.replay options.strict ts = .ok (.next s)) ∧
    (∀ rejection, parse options t ≠ .error (.rejected rejection)) ∧
    (∀ token : Token, TokenRecord.construct (.tokenKind token.payload.kind) token.payload.value
      token.position.offset token.position.line token.position.column = .ok (.ofToken token)) ∧
    ∀ (s : Store) (head : Head), head.construct s = .ok (s.alloc head []) := by
  have htokenize : (∃ ts count, LeadsToLongInteger t ts count) ↔
      ∃ count, tokenize t = .error (.digitLimit count) := by
    constructor
    · rintro ⟨ts, count, hleads⟩
      exact ⟨count, tokenize_digitLimit_iff.mpr ⟨ts, hleads⟩⟩
    · rintro ⟨count, h⟩
      obtain ⟨ts, hleads⟩ := tokenize_digitLimit_iff.mp h
      exact ⟨ts, count, hleads⟩
  have hparse : (∃ ts count s, LeadsToLongInteger t ts count ∧
      BuildState.start.replay options.strict ts = .ok (.next s)) ↔
      ∃ count, parse options t = .error (.digitLimit count) := by
    constructor
    · rintro ⟨ts, count, s, hleads⟩
      exact ⟨count, parse_digitLimit_iff.mpr ⟨ts, s, hleads⟩⟩
    · rintro ⟨count, h⟩
      obtain ⟨ts, s, hleads⟩ := parse_digitLimit_iff.mp h
      exact ⟨ts, count, s, hleads⟩
  refine ⟨?_, ?_, parse_ne_rejected options t, construct_ofToken, construct_head⟩
  · rw [htokenize]
    cases tokenize t with
    | ok tokens => simp
    | error failure => cases failure <;> simp
  · rw [hparse]
    have hrejected := parse_ne_rejected options t
    cases hresult : parse options t with
    | ok document => simp
    | error failure =>
        cases failure with
        | rejected rejection => exact absurd hresult (hrejected rejection)
        | _ => simp

end TagTemplate
