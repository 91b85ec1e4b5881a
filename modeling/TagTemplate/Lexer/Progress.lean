import TagTemplate.Lexer.Basic

set_option autoImplicit false

/-! # Progress of the lexer

A scan loses nothing: the whitespace it skipped, the part it passed and the rest make up the text it
was given. And a token other than the end of the input takes at least one character, so the text
still to read gets shorter with every token. -/

namespace TagTemplate

/-! ## Nothing is lost -/

theorem textRun_split (t : Text) : (textRun t).passed ++ (textRun t).rest = t := by
  fun_induction textRun t <;> simp_all [Run.done, Run.failed, Run.cons]

theorem stringRun_split (t : Text) : (stringRun t).passed ++ (stringRun t).rest = t := by
  fun_induction stringRun t <;> simp_all [Run.failed, Run.cons]

theorem splitSign_split (t : Text) : signText (splitSign t).1 ++ (splitSign t).2 = t := by
  fun_cases splitSign t <;> simp [signText]

theorem splitSign_cons {c : Char} (h : c ≠ '-') (rest : Text) :
    splitSign (c :: rest) = (false, c :: rest) := by
  rw [splitSign]
  rintro _ heq
  exact h (List.cons.inj heq).1

theorem readNumber_split (t : Text) : (readNumber t).passed ++ (readNumber t).rest = t := by
  unfold readNumber
  dsimp only
  split
  · rfl
  · split
    · rw [List.append_assoc, List.takeWhile_append_dropWhile, splitSign_split]
    · rfl

theorem readText_split (t : Text) : (readText t).passed ++ (readText t).rest = t := by
  unfold readText
  split
  · rfl
  · rfl
  · exact textRun_split t

theorem readFunction_split (t : Text) :
    (readFunction t).passed ++ (readFunction t).rest = '@' :: t := by
  unfold readFunction
  split
  · split
    · simp [List.takeWhile_append_dropWhile]
    · rfl
  · rfl

theorem readString_split (t : Text) :
    (readString t).passed ++ (readString t).rest = '\x22' :: t := by
  simp [readString, Run.toReading, stringRun_split]

theorem readTag_split (t : Text) : (readTag t).passed ++ (readTag t).rest = t := by
  unfold readTag
  split
  · rfl
  · rfl
  · rfl
  · next c rest _ _ =>
    split
    · simp [List.takeWhile_append_dropWhile]
    · split
      · exact readNumber_split _
      · split
        · next h => subst h; exact readFunction_split rest
        · split
          · next h => subst h; exact readString_split rest
          · split <;> rfl

/-- A scan loses nothing. -/
theorem scan_split (mode : Mode) (t : Text) :
    (scan mode t).blank ++ (scan mode t).passed ++ (scan mode t).rest = t := by
  cases mode with
  | text => simpa [scan] using readText_split t
  | tag =>
    show t.takeWhile isBlank ++ (readTag (t.dropWhile isBlank)).passed ++
      (readTag (t.dropWhile isBlank)).rest = t
    rw [List.append_assoc, readTag_split, List.takeWhile_append_dropWhile]

/-! ## Every token takes a character -/

theorem textRun_passed_ne_nil {t : Text} (hne : t ≠ []) (ht : ∀ rest, t ≠ '\x7b' :: '$' :: rest)
    (hf : (textRun t).fault = none) : (textRun t).passed ≠ [] := by
  revert hf
  fun_cases textRun t <;> simp_all [Run.failed, Run.cons]

theorem readText_passed_ne_nil {t : Text} {p : Payload} (h : (readText t).result = .ok p)
    (hp : p ≠ .endOfInput) : (readText t).passed ≠ [] := by
  revert h
  unfold readText
  split
  · intro h
    simp_all
  · simp [tagStartText]
  · next hnil htag =>
    intro h
    refine textRun_passed_ne_nil hnil (fun rest => htag rest) ?_
    revert h
    simp only [Run.toReading]
    split <;> simp_all

theorem readNumber_passed_ne_nil {t : Text} {p : Payload} (ht : startsNumber t = true)
    (h : (readNumber t).result = .ok p) : (readNumber t).passed ≠ [] := by
  revert h
  unfold readNumber
  dsimp only
  split
  · simp [Reading.stuck]
  · split
    · intro _
      cases t with
      | nil => simp [startsNumber] at ht
      | cons c rest =>
        by_cases hminus : c = '-'
        · subst hminus
          simp [splitSign, signText]
        · have hc : c.isDigit = true := by simpa [startsNumber, hminus] using ht
          rw [splitSign_cons hminus]
          simp [signText, isNumberPart, hc]
    · simp [Reading.stuck]

theorem readTag_passed_ne_nil {t : Text} {p : Payload} (h : (readTag t).result = .ok p)
    (hp : p ≠ .endOfInput) : (readTag t).passed ≠ [] := by
  revert h
  unfold readTag
  split
  · intro h
    simp_all
  · simp [tagEndText]
  · simp
  · next c rest _ _ =>
    split
    · simp
    · split
      · next hs => exact readNumber_passed_ne_nil hs
      · split
        · unfold readFunction
          split
          · split <;> simp [Reading.stuck]
          · simp [Reading.stuck]
        · split
          · simp [readString, Run.toReading]
          · split <;> simp [Reading.stuck]

/-- The scan of a token other than the end of the input passes a character. -/
theorem scan_passed_ne_nil {mode : Mode} {t : Text} {p : Payload}
    (h : (scan mode t).result = .ok p) (hp : p ≠ .endOfInput) : (scan mode t).passed ≠ [] := by
  cases mode with
  | text => exact readText_passed_ne_nil h hp
  | tag => exact readTag_passed_ne_nil h hp

/-- A token other than the end of the input leaves less text to read. -/
theorem Lexer.next_rest_lt {l l' : Lexer} {t : Token} (h : l.next = (.ok t, l'))
    (ht : t.isEnd = false) : l'.rest.length < l.rest.length := by
  unfold next at h
  split at h
  · simp at h
  · split at h
    · simp at h
    · unfold afterScan at h
      dsimp only at h
      split at h
      · next p hp =>
        obtain ⟨ht', rfl⟩ := Prod.mk.inj h
        have hne : p ≠ .endOfInput := by
          intro hpe
          injection ht' with ht'
          subst ht' hpe
          simp [Token.isEnd] at ht
        have hlen := congrArg List.length (scan_split l.mode l.rest)
        have hpos := List.length_pos_iff.2 (scan_passed_ne_nil hp hne)
        simp only [List.length_append] at hlen
        dsimp only
        omega
      · simp at h
      · simp at h

end TagTemplate
