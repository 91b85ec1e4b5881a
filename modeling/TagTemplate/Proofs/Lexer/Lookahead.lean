import TagTemplate.Proofs.Lexer.Lexeme
import TagTemplate.Proofs.Lexer.Order

set_option autoImplicit false

/-! # Scans look one character ahead

A scan looks no further than the first character that its token cannot go on with; plain text, which
a tag opening ends, is the one token that takes two characters to end. So the rest behind a token
can be exchanged for any other text that cannot continue the token either (`Mode.Follows`), and the
whitespace in front of a token of a tag for any other whitespace, and the token is read as before.
The kinds of tokens are gone through once (`readTag_exchange`), and what later files say about texts
that are put together, cut off or laid out anew rests on `scan_exchange`.
-/

namespace TagTemplate

/-! ## What can follow -/

/-- A text can stand behind a token in place of the rest. Plain text ends in front of a tag or the
end of the input, so behind it the text opens a tag if the rest does. In a tag the text begins as
the rest does, or with a character that continues no name and no number. -/
def Mode.Follows : Mode → Text → Text → Prop
  | .text, rest, s => StartsTag rest → StartsTag s
  | .tag, rest, s => ∀ c ∈ s.head?,
      c ∈ rest.head? ∨ isIdentifierPart c = false ∧ isNumberPart c = false

/-- A class of characters that the rest does not begin with, and whose members continue a name or a
number, is one that no following text begins with. -/
theorem Mode.Follows.head {rest s : Text} (h : Mode.tag.Follows rest s) {p : Char → Bool}
    (hrest : ∀ c ∈ rest.head?, p c = false)
    (hp : ∀ c, isIdentifierPart c = false → isNumberPart c = false → p c = false) :
    ∀ c ∈ s.head?, p c = false := by
  intro c hc
  rcases h c hc with hmem | ⟨hidentifier, hnumber⟩
  · exact hrest c hmem
  · exact hp c hidentifier hnumber

/-! ## Runs -/

/-- A character that begins neither an escape sequence nor a tag stands for itself. -/
theorem textRun_cons {c : Char} {rest : Text} (hescape : c ≠ '\\')
    (htag : c = '\x7b' → rest.head? ≠ some '$') :
    textRun (c :: rest) = .cons [c] c (textRun rest) := by
  rw [textRun]
  · rintro rest' rfl rfl
    exact htag rfl rfl
  · rintro _ _ rfl _
    exact hescape rfl
  · rintro rfl _
    exact hescape rfl

theorem StartsTag.head_ne {s : Text} (h : StartsTag s) : s.head? ≠ some '$' := by
  cases h <;> simp

/-- A run of plain text ends in front of every tag. -/
theorem textRun_exchange {t s : Text} (hfault : (textRun t).fault = none) (hs : StartsTag s) :
    textRun ((textRun t).passed ++ s) = { textRun t with rest := s } := by
  fun_induction textRun t with
  | case1 => cases hs <;> rfl
  | case2 rest => cases hs <;> rfl
  | case3 c rest d hd ih =>
      have hlater := ih hfault
      simp only [Run.cons, List.cons_append, List.nil_append] at hlater ⊢
      rw [textRun, hd]
      dsimp only
      rw [hlater]
      rfl
  | case4 => simp [Run.failed] at hfault
  | case5 => simp [Run.failed] at hfault
  | case6 c rest htag hescape hlast ih =>
      have hlater := ih hfault
      simp only [Run.cons, List.cons_append, List.nil_append] at hlater ⊢
      rw [textRun_cons (ne_backslash hescape hlast), hlater]
      · rfl
      · -- what was passed begins as before, and behind it a tag is opened
        rintro rfl hhead
        have hsplit := textRun_split rest
        cases hpassed : (textRun rest).passed with
        | nil => exact hs.head_ne (by rwa [hpassed] at hhead)
        | cons d passed =>
            rw [hpassed] at hhead hsplit
            obtain rfl : d = '$' := by simpa using hhead
            exact htag _ rfl hsplit.symm

/-- The run of a string ends at its closing quote. -/
theorem stringRun_exchange {t : Text} (hfault : (stringRun t).fault = none) (s : Text) :
    stringRun ((stringRun t).passed ++ s) = { stringRun t with rest := s } := by
  fun_induction stringRun t with
  | case1 => simp [Run.failed] at hfault
  | case2 rest => rfl
  | case3 c rest d hd ih =>
      have hlater := ih hfault
      simp only [Run.cons, List.cons_append, List.nil_append] at hlater ⊢
      rw [stringRun, hd]
      dsimp only
      rw [hlater]
      rfl
  | case4 => simp [Run.failed] at hfault
  | case5 => simp [Run.failed] at hfault
  | case6 c rest hclosing hescape hlast ih =>
      have hlater := ih hfault
      have hne := ne_backslash hescape hlast
      simp only [Run.cons, List.cons_append, List.nil_append] at hlater ⊢
      rw [stringRun, hlater]
      · rfl
      · exact hclosing
      · exact fun _ _ hc _ => hne hc
      · exact fun hc _ => hne hc

/-! ## One token -/

/-- Where a number starts there is a digit behind the sign. -/
theorem exists_digit_of_startsNumber {t : Text} (h : startsNumber t = true) :
    ∃ negative d more, d.isDigit = true ∧ splitSign t = (negative, d :: more) := by
  unfold startsNumber at h
  split at h
  · next d more => exact ⟨true, d, more, h, rfl⟩
  · next d more _ =>
    exact ⟨false, d, more, h, splitSign_cons (digit_ne h (by decide)) more⟩
  · simp at h

/-- A number ends at the first character that cannot continue it. -/
theorem readNumber_exchange {t s : Text} {p : Payload} (hstart : startsNumber t = true)
    (h : (readNumber t).result = .ok p) (hs : Mode.tag.Follows (readNumber t).rest s) :
    readTag ((readNumber t).passed ++ s) = ⟨(readNumber t).passed, s, .ok p⟩ := by
  obtain ⟨negative, d, more, hd, hsplit⟩ := exists_digit_of_startsNumber hstart
  have hpart : isNumberPart d = true := isNumberPart_of_isDigit hd
  unfold readNumber at h hs ⊢
  rw [hsplit] at h hs ⊢
  dsimp only at h hs ⊢
  split at h
  · simp [Reading.stuck] at h
  · next hclosed =>
    split at h
    · next payload hpayload =>
      cases h
      simp only [hclosed, hpayload] at hs ⊢
      rw [List.takeWhile_cons_of_pos hpart] at hpayload ⊢
      have hidentifier : ∀ c ∈ s.head?, isIdentifierPart c = false := by
        refine hs.head (fun c hc => ?_) fun c hc _ => hc
        have hnone := Option.filter_eq_none_iff.mp hclosed c hc
        simpa using hnone
      have hnumber : ∀ c ∈ s.head?, isNumberPart c = false :=
        hs.head head_dropWhile fun c _ hc => hc
      have hparts : ∀ c ∈ d :: more.takeWhile isNumberPart, isNumberPart c = true := by
        intro c hc
        rcases List.mem_cons.mp hc with rfl | hc
        · exact hpart
        · exact List.mem_takeWhile_imp hc
      have hminus : ∀ c ∈ (d :: more.takeWhile isNumberPart ++ s).head?, c ≠ '-' := by
        intro c hc
        obtain rfl : d = c := by simpa using hc
        exact digit_ne hd (by decide)
      rw [List.append_assoc, List.cons_append, readTag_of_isDigit hd, ← List.cons_append,
        readNumber_of_parts hparts (fun c hc => ⟨hidentifier c hc, hnumber c hc⟩) hminus, hpayload]
    · simp [Reading.stuck] at h

/-- **A token of a tag is read in front of every text that can follow it**, also if nothing
follows. -/
theorem readTag_exchange {t s : Text} {p : Payload} (h : (readTag t).result = .ok p)
    (hp : p ≠ .endOfInput) (hs : p = .tagEnd ∨ Mode.tag.Follows (readTag t).rest s) :
    readTag ((readTag t).passed ++ s) = ⟨(readTag t).passed, s, .ok p⟩ := by
  cases readTag_cases h with
  | endOfInput => exact absurd rfl hp
  | tagEnd rest => rfl
  | equals rest => rfl
  | name rest hstart =>
      rw [readTag_of_isIdentifierStart hstart] at hs ⊢
      have hfollows := hs.resolve_left (by simp)
      obtain ⟨htake, hdrop⟩ := takeWhile_append_stop
        (fun c hc => List.mem_takeWhile_imp hc) (hfollows.head head_dropWhile fun c hc _ => hc)
      rw [List.cons_append, readTag_of_isIdentifierStart hstart, htake, hdrop]
  | number hstart hread =>
      rw [readTag_of_startsNumber hstart] at hs ⊢
      refine readNumber_exchange hstart hread (hs.resolve_left ?_)
      obtain ⟨e, rfl⟩ := exists_element_of_readNumber hread
      cases e <;> simp [Element.token]
  | function tail hstart =>
      rw [readTag_function_of_isIdentifierStart hstart] at hs ⊢
      have hfollows := hs.resolve_left (by simp)
      obtain ⟨htake, hdrop⟩ := takeWhile_append_stop
        (fun c hc => List.mem_takeWhile_imp hc) (hfollows.head head_dropWhile fun c hc _ => hc)
      rw [List.cons_append, List.cons_append, readTag_function_of_isIdentifierStart hstart, htake,
        hdrop]
  | @string rest hfault =>
      have hread : readTag ('\x22' :: rest)
          = ⟨'\x22' :: (stringRun rest).passed, (stringRun rest).rest,
            .ok (.string (stringRun rest).value)⟩ := by
        rw [readTag_quote, readString, Run.toReading, hfault]
      rw [hread, List.cons_append, readTag_quote, readString, stringRun_exchange hfault,
        Run.toReading, hfault]
  | @operator op rest hnumber =>
      rw [readTag_symbol op hnumber] at hs ⊢
      have hfollows := hs.resolve_left (by simp)
      refine readTag_symbol op ?_
      -- only a minus sign looks ahead, for a digit
      cases op with
      | minus =>
          have hdigit : ∀ c ∈ s.head?, c.isDigit = false := by
            refine hfollows.head (fun c hc => ?_) fun c _ hc => ?_
            · cases rest with
              | nil => simp at hc
              | cons d rest =>
                  obtain rfl : d = c := by simpa using hc
                  exact hnumber
            · rw [isNumberPart, Bool.or_eq_false_iff] at hc
              exact hc.1
          cases s with
          | nil => rfl
          | cons c s => exact hdigit c (by simp)
      | _ => rfl

/-- Plain text is read in front of every tag. -/
theorem readText_exchange {t s : Text} {p : Payload} (h : (readText t).result = .ok p)
    (hp : p ≠ .endOfInput) (hs : p = .tagStart ∨ StartsTag s) :
    readText ((readText t).passed ++ s) = ⟨(readText t).passed, s, .ok p⟩ := by
  cases readText_cases h with
  | endOfInput => exact absurd rfl hp
  | tagStart rest => rfl
  | text hfault hpassed hvalue hread =>
      have hrun := textRun_exchange hfault (hs.resolve_left (by simp))
      have hne : (textRun ((textRun t).passed ++ s)).passed ≠ [] := by
        rw [hrun]
        exact hpassed
      rw [hread, readText_of_textRun hne, hrun, Run.toReading, hfault]

/-! ## One scan -/

/-- Whitespace that can stand in front of a token: any in a tag, and none in text mode. -/
def Mode.Skips : Mode → Text → Prop
  | .text, blanks => blanks = []
  | .tag, blanks => ∀ c ∈ blanks, isBlank c = true

theorem Mode.skips_nil (mode : Mode) : mode.Skips [] := by
  cases mode with
  | text => rfl
  | tag => simp [Skips]

theorem Mode.Skips.append {mode : Mode} {blanks blanks' : Text} (h : mode.Skips blanks)
    (h' : mode.Skips blanks') : mode.Skips (blanks ++ blanks') := by
  cases mode with
  | text =>
      obtain rfl : blanks = [] := h
      exact h'
  | tag =>
      intro c hc
      exact (List.mem_append.mp hc).elim (h c) (h' c)

/-- The whitespace that a scan has skipped can stand in front of a token. -/
theorem scan_skips (mode : Mode) (t : Text) : mode.Skips (scan mode t).blank := by
  cases mode with
  | text => rfl
  | tag => exact fun c hc => List.mem_takeWhile_imp hc

/-- In front of the end of the input whitespace is skipped as well. -/
theorem Mode.Skips.scan {mode : Mode} {blanks : Text} (h : mode.Skips blanks) :
    (scan mode blanks).result = .ok .endOfInput := by
  cases mode with
  | text =>
      obtain rfl : blanks = [] := h
      rfl
  | tag =>
      have hscan : TagTemplate.scan .tag (blanks ++ []) = ⟨readTag [], blanks⟩ :=
        scan_tag_of_readTag h rfl
      rw [List.append_nil] at hscan
      rw [hscan]
      rfl

/-- Whitespace alone can stand behind every token. -/
theorem Mode.Skips.follows {mode : Mode} {blanks : Text} (h : mode.Skips blanks) (rest : Text) :
    mode.Follows rest blanks := by
  cases mode with
  | text =>
      obtain rfl : blanks = [] := h
      exact fun _ => .nil
  | tag => exact fun c hc => .inr (isBlank_ends (h c (List.mem_of_mem_head? hc)))

/-- **What stands around a token can be exchanged**: the whitespace in front of it, and the rest
behind it for a text that can follow; behind a delimiter every text can. -/
theorem scan_exchange {mode : Mode} {t s blanks : Text} {p : Payload}
    (h : (scan mode t).result = .ok p) (hp : p ≠ .endOfInput) (hblanks : mode.Skips blanks)
    (hs : p.isDelimiter = true ∨ mode.Follows (scan mode t).rest s) :
    scan mode (blanks ++ ((scan mode t).passed ++ s))
      = ⟨⟨(scan mode t).passed, s, .ok p⟩, blanks⟩ := by
  have hown : p = mode.delimiter ∨ mode.Follows (scan mode t).rest s := by
    refine hs.imp_left fun hdelimiter => ?_
    exact (scan_makes h).delimiter.resolve_right (by simp [hdelimiter])
  cases mode with
  | text =>
      have hread : (readText t).result = .ok p := h
      have hstarts : p = .tagStart ∨ StartsTag s := by
        cases readText_cases hread with
        | endOfInput => exact absurd rfl hp
        | tagStart rest => exact .inl rfl
        | text _ _ _ _ =>
            have hfollows := hown.resolve_left (by simp [Mode.delimiter])
            exact .inr (hfollows (readText_startsTag hread))
      obtain rfl : blanks = [] := hblanks
      rw [List.nil_append]
      show (⟨readText _, []⟩ : Scan) = _
      rw [scan, readText_exchange hread hp hstarts]
  | tag =>
      have hread := readTag_exchange h hp hown
      rw [scan_tag_of_readTag hblanks (by rw [scan, hread])]
      rw [scan, hread]

end TagTemplate
