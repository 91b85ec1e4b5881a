import TagTemplate.Proofs.Lexer.Literal
import TagTemplate.Proofs.Lexer.Run

set_option autoImplicit false

/-! # The order of tokens

Which token can follow which is decided by the modes. Each token is one that the mode behind the
token before it makes (`Moded`), so the delimiters of tags take turns (`Moded.takeTurns`) and a tag
holds no text (`Moded.text_free`). Besides, a run of plain text is not empty and ends in front of a
tag or at the end of the input, so two text tokens never follow one another (`Scans.parted`).
-/

namespace TagTemplate

/-! ## Payloads in the order of the modes -/

/-- The payloads that a mode makes. -/
def Mode.Makes : Mode → Payload → Prop
  | .text, p => TextPayload p
  | .tag, p => TagPayload p

theorem scan_makes {mode : Mode} {t : Text} {p : Payload} (h : (scan mode t).result = .ok p) :
    mode.Makes p := by
  cases mode with
  | text => exact readText_payload h
  | tag => exact readTag_payload h

/-- Each payload is made by its mode: the first one by the given mode, and every other by the mode
that the one before it switches to. -/
def Moded : Mode → List Payload → Prop
  | _, [] => True
  | mode, p :: ps => mode.Makes p ∧ Moded (modeAfter mode p) ps

namespace Lexer

theorem Reads.moded {l l' : Lexer} {ts : List Token} {ps : List Payload} (hreads : Reads l ts l')
    (h : l.Ready) (hps : Moded l'.mode ps) : Moded l.mode (ts.map Token.payload ++ ps) := by
  induction hreads with
  | done l => exact hps
  | token hnext ht _ ih =>
      obtain ⟨hresult, -, hmode, -, -⟩ := h.scan_of_next hnext
      have hlater := ih ((h.of_next hnext ht).setMode _) hps
      refine ⟨scan_makes hresult, ?_⟩
      rw [← hmode]
      exact hlater

/-- **The tokens of the loop are in the order of the modes**, also where a failure ends them. -/
theorem Ready.drain_moded {l : Lexer} (h : l.Ready) :
    Moded l.mode (l.drain.tokens.map Token.payload) := by
  obtain ⟨ts, l', run, hreads, hends, hdrain⟩ := l.exists_reads_ends
  rw [hdrain, List.map_append]
  refine hreads.moded h ?_
  cases hends with
  | finished hnext hend =>
      obtain ⟨hresult, -⟩ := (hreads.ready h).scan_of_next hnext
      exact ⟨scan_makes hresult, trivial⟩
  | failed hnext => exact trivial

/-- No token of the loop stands behind the end of the input. -/
theorem drain_pairwise (l : Lexer) : l.drain.tokens.Pairwise fun t _ => t.isEnd = false := by
  obtain ⟨ts, l', run, hreads, hends, hdrain⟩ := l.exists_reads_ends
  have hts := hreads.isEnd_eq_false
  rw [hdrain, List.pairwise_append]
  refine ⟨List.pairwise_of_forall_mem_list fun t ht _ _ => hts t ht, ?_, fun t ht _ _ => hts t ht⟩
  cases hends with
  | finished hnext hend => exact List.pairwise_singleton _ _
  | failed hnext => exact List.Pairwise.nil

end Lexer

/-! ## Delimiters of tags -/

def Payload.isDelimiter : Payload → Bool
  | .tagStart => true
  | .tagEnd => true
  | _ => false

/-- The delimiter that a mode makes, which switches to the other mode. -/
def Mode.delimiter : Mode → Payload
  | .text => .tagStart
  | .tag => .tagEnd

/-- The delimiter that the other mode makes. -/
def Mode.otherDelimiter : Mode → Payload
  | .text => .tagEnd
  | .tag => .tagStart

/-- Two payloads take turns in a list, the first of them in front. -/
def TakeTurns (p q : Payload) : List Payload → Prop
  | [] => True
  | r :: rs => r = p ∧ TakeTurns q p rs

/-- A mode makes its own delimiter and no other. -/
theorem Mode.Makes.delimiter {mode : Mode} {p : Payload} (h : mode.Makes p) :
    p = mode.delimiter ∨ p.isDelimiter = false := by
  cases mode with
  | text => cases h <;> simp [Mode.delimiter, Payload.isDelimiter]
  | tag =>
      cases h with
      | element e => cases e <;> exact Or.inr rfl
      | _ => simp [Mode.delimiter, Payload.isDelimiter]

/-- Only a delimiter switches the mode. -/
theorem modeAfter_of_not_delimiter {mode : Mode} {p : Payload} (h : p.isDelimiter = false) :
    modeAfter mode p = mode := by
  cases p <;> first | rfl | simp [Payload.isDelimiter] at h

/-- **The delimiters of tags take turns.** -/
theorem Moded.takeTurns {mode : Mode} {ps : List Payload} (h : Moded mode ps) :
    TakeTurns mode.delimiter mode.otherDelimiter (ps.filter Payload.isDelimiter) := by
  induction ps generalizing mode with
  | nil => exact trivial
  | cons p ps ih =>
      obtain ⟨hp, hps⟩ := h
      rcases hp.delimiter with rfl | hnot
      · -- behind the delimiter of a mode the two have changed their parts
        cases mode with
        | text => exact ⟨rfl, ih hps⟩
        | tag => exact ⟨rfl, ih hps⟩
      · rw [List.filter_cons_of_neg (by simp [hnot])]
        rw [modeAfter_of_not_delimiter hnot] at hps
        exact ih hps

/-! ## No text in a tag -/

def Payload.isText : Payload → Bool
  | .text _ => true
  | _ => false

/-- Tag mode makes no text. -/
theorem TagPayload.isText {p : Payload} (h : TagPayload p) : p.isText = false := by
  cases h with
  | element e => cases e <;> rfl
  | _ => rfl

/-- Behind a tag opening the payloads are in the order of the modes, from tag mode on. -/
theorem Moded.of_append {mode : Mode} {before ps : List Payload}
    (h : Moded mode (before ++ .tagStart :: ps)) : Moded .tag ps := by
  induction before generalizing mode with
  | nil => exact h.2
  | cons p before ih => exact ih h.2

/-- **A tag holds no text**, from tag mode up to the end of the tag. -/
theorem Moded.text_free {inside rest : List Payload} (h : Moded .tag (inside ++ rest))
    (hend : Payload.tagEnd ∉ inside) : ∀ p ∈ inside, p.isText = false := by
  induction inside with
  | nil => simp
  | cons p inside ih =>
      obtain ⟨hp, hps⟩ := h
      have hnot : p.isDelimiter = false := by
        rcases Mode.Makes.delimiter hp with rfl | hnot
        · simp [Mode.delimiter] at hend
        · exact hnot
      rw [modeAfter_of_not_delimiter hnot] at hps
      intro q hq
      rcases List.mem_cons.mp hq with rfl | hq
      · exact hp.isText
      · exact ih hps (fun hmem => hend (List.mem_cons_of_mem _ hmem)) q hq

/-! ## Plain text ends in front of a tag -/

theorem textRun_startsTag {t : Text} (h : (textRun t).fault = none) :
    StartsTag (textRun t).rest := by
  fun_induction textRun t with
  | case1 => exact .nil
  | case2 rest => exact .tagStart rest
  | case3 c rest d hd ih => exact ih h
  | case4 c rest hd => simp [Run.failed] at h
  | case5 => simp [Run.failed] at h
  | case6 c rest _ _ _ ih => exact ih h

/-- Behind a text token there is a tag or the end. -/
theorem readText_startsTag {t content : Text} (h : (readText t).result = .ok (.text content)) :
    StartsTag (readText t).rest := by
  cases readText_cases h with
  | text hfault hpassed hvalue hread =>
      rw [hread]
      exact textRun_startsTag hfault

/-! ## Texts are parted -/

/-- No text is empty, and no text follows directly on another. -/
structure PartedTexts (ps : List Payload) : Prop where
  nonempty : ∀ p ∈ ps, p ≠ .text []
  chain : ps.IsChain fun p q => p.isText = true → q.isText = false

theorem PartedTexts.append {as bs : List Payload} (h : PartedTexts (as ++ bs)) :
    PartedTexts as ∧ PartedTexts bs := by
  refine ⟨⟨fun p hp => ?_, h.chain.left_of_append⟩, ⟨fun p hp => ?_, h.chain.right_of_append⟩⟩
  · exact h.nonempty p (List.mem_append_left _ hp)
  · exact h.nonempty p (List.mem_append_right _ hp)

/-- Where a tag or the end follows, the first token is no text. -/
theorem Scans.head_not_text {t : Text} {ps : List Payload} (h : Scans .text t ps)
    (ht : StartsTag t) : ∀ p ∈ ps.head?, p.isText = false := by
  have hresult : ∀ p, (scan .text t).result = .ok p → p.isText = false := by
    intro p hp
    cases ht with
    | nil =>
        obtain rfl : Payload.endOfInput = p := by simpa [scan, readText] using hp
        rfl
    | tagStart rest =>
        obtain rfl : Payload.tagStart = p := by simpa [scan, readText] using hp
        rfl
  intro p hp
  cases h with
  | finished hend =>
      obtain rfl : Payload.endOfInput = p := by simpa using hp
      rfl
  | token htoken _ _ =>
      obtain rfl := Option.some.inj hp
      exact hresult _ htoken

/-- **Text tokens are not empty, and none follows directly on another.** -/
theorem Scans.parted {mode : Mode} {t : Text} {ps : List Payload} (h : Scans mode t ps) :
    PartedTexts ps := by
  induction h with
  | finished _ => exact ⟨by simp, .singleton _⟩
  | @token mode t p ps hresult _ hrest ih =>
      have hp : p ≠ .text [] ∧ (p.isText = true → ∀ q ∈ ps.head?, q.isText = false) := by
        -- tag mode makes no text, and text mode stops behind one only in front of a tag
        cases mode with
        | text =>
            have hread : (readText t).result = .ok p := hresult
            cases readText_payload hread with
            | text content hne =>
                refine ⟨by simp [hne], fun _ => ?_⟩
                exact hrest.head_not_text (readText_startsTag hread)
            | _ => exact ⟨by simp, by simp [Payload.isText]⟩
        | tag =>
            have hread : (readTag (t.dropWhile isBlank)).result = .ok p := hresult
            have htext := (readTag_payload hread).isText
            refine ⟨?_, by simp [htext]⟩
            rintro rfl
            simp [Payload.isText] at htext
      refine ⟨fun q hq => ?_, ?_⟩
      · rcases List.mem_cons.mp hq with rfl | hq
        · exact hp.1
        · exact ih.nonempty q hq
      · rw [List.isChain_cons]
        exact ⟨fun q hq htext => hp.2 htext q hq, ih.chain⟩

end TagTemplate
