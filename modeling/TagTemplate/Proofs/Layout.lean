import TagTemplate.Proofs.Concatenation
import TagTemplate.Proofs.Lexer.Cut

set_option autoImplicit false

/-! # Layout

The layout of a template is the whitespace in its tags and the case of the letters in the names of
tags. It is changed by edits at the tokens of the text: whitespace is inserted in front of a token
that is read in tag mode, and the name of a tag is written in other letters (`ChangesLayout`). Each
token is scanned as before, because whitespace in front of it is skipped and what stands behind it
begins as before or with whitespace (`Mode.Follows`), so the edits leave the tokens of the text as
they are, up to the letters of the names (`Lexer.Reads.keeps`). The main result is `parse_relaid`: a
text that parses does so in every layout, to the same document.
-/

namespace TagTemplate

/-! ## Edits -/

/-- An edit of a text: from an offset on, a number of characters is replaced by others. -/
structure Edit where
  offset : Nat
  removed : Nat
  inserted : Text

/-- A text, which begins at an offset, with edits made one behind the other. -/
def Text.edit : Nat → Text → List Edit → Text
  | _, t, [] => t
  | start, t, e :: edits =>
    t.take (e.offset - start) ++ e.inserted ++
      edit (e.offset + e.removed) (t.drop (e.offset + e.removed - start)) edits

/-- An edit replaces what it removes and nothing in front of it. -/
theorem Text.edit_cons (start : Nat) (front removed t inserted : Text) (edits : List Edit) :
    edit start (front ++ (removed ++ t)) (⟨start + front.length, removed.length, inserted⟩ :: edits)
      = front ++ inserted ++ edit (start + front.length + removed.length) t edits := by
  have htake : (front ++ (removed ++ t)).take (start + front.length - start) = front := by
    rw [Nat.add_sub_cancel_left, List.take_left]
  have hdrop : (front ++ (removed ++ t)).drop (start + front.length + removed.length - start)
      = t := by
    rw [Nat.add_assoc, Nat.add_sub_cancel_left, ← List.length_append, ← List.append_assoc,
      List.drop_left]
  rw [edit, htake, hdrop]

/-- Edits leave what stands in front of them as it is. -/
theorem Text.edit_append {start : Nat} {front t : Text} {edits : List Edit}
    (h : ∀ e ∈ edits.head?, start + front.length ≤ e.offset) :
    edit start (front ++ t) edits = front ++ edit (start + front.length) t edits := by
  cases edits with
  | nil => rfl
  | cons e edits =>
      have hoffset : start + front.length ≤ e.offset := h e (by simp)
      have htake : (front ++ t).take (e.offset - start)
          = front ++ t.take (e.offset - (start + front.length)) := by
        rw [List.take_append, List.take_of_length_le (by omega), Nat.sub_sub]
      have hdrop : (front ++ t).drop (e.offset + e.removed - start)
          = t.drop (e.offset + e.removed - (start + front.length)) := by
        rw [List.drop_append, List.drop_of_length_le (by omega), Nat.sub_sub, List.nil_append]
      rw [edit, edit, htake, hdrop]
      simp only [List.append_assoc]

/-! ## Changes of layout -/

/-- A text names a tag by letters: it is `FOR` or `END` in any case. -/
def NamesTag (name : Text) : Prop :=
  name.map Char.toUpper = TagName.loop.text ∨ name.map Char.toUpper = TagName.ending.text

/-- An edit at a token changes the layout. In text mode nothing is changed. In tag mode whitespace
is inserted in front of the token, and if it stands behind the opening of the tag and names the tag
by letters, the name is written in letters of another case. -/
inductive ChangesLayout : Mode → Bool → Token → Edit → Prop
  | text {opened : Bool} {t : Token} : ChangesLayout .text opened t ⟨t.position.offset, 0, []⟩
  | blanks {opened : Bool} {t : Token} {blanks : Text}
      (hblanks : ∀ c ∈ blanks, c ∈ [' ', '\t', '\r', '\n']) :
      ChangesLayout .tag opened t ⟨t.position.offset, 0, blanks⟩
  | name {t : Token} {blanks name written : Text}
      (hblanks : ∀ c ∈ blanks, c ∈ [' ', '\t', '\r', '\n']) (ht : t.payload = .identifier name)
      (hname : NamesTag name) (hwritten : written.map Char.toUpper = name.map Char.toUpper) :
      ChangesLayout .tag true t ⟨t.position.offset, name.length, blanks ++ written⟩

/-- Edits change the layout of a text, one at each of its tokens. -/
inductive ChangeLayout : Mode → Bool → List Token → List Edit → Prop
  | nil {mode : Mode} {opened : Bool} : ChangeLayout mode opened [] []
  | cons {mode : Mode} {opened : Bool} {t : Token} {ts : List Token} {e : Edit} {edits : List Edit}
      (he : ChangesLayout mode opened t e)
      (hedits : ChangeLayout (modeAfter mode t.payload) (t.payload == .tagStart) ts edits) :
      ChangeLayout mode opened (t :: ts) (e :: edits)

/-- A text is another one in a different layout. -/
def Relaid (t t' : Text) : Prop :=
  ∃ tokens edits, tokenize t = .ok tokens ∧ ChangeLayout .text false tokens edits ∧
    t' = t.edit 0 edits

/-! ## Names of tags in other letters -/

/-- A text that is in capitals a word of letters, which are also letters as small ones, is an
identifier. -/
theorem isIdentifier_of_capitals {name word : Text} (h : name.map Char.toUpper = word)
    (hne : word ≠ []) (hcapital : word.all isIdentifierStart = true)
    (hsmall : (word.map fun c => Char.ofNat (c.toNat + 32)).all isIdentifierStart = true) :
    isIdentifier name = true := by
  rw [List.all_eq_true] at hcapital hsmall
  have hletters : ∀ c ∈ name, isIdentifierStart c = true := by
    intro c hc
    have hmem : c.toUpper ∈ word := by
      rw [← h]
      exact List.mem_map_of_mem hc
    rcases eq_or_eq_of_toUpper (Eq.refl c.toUpper) with hsame | hsame
    · rw [hsame]
      exact hcapital _ hmem
    · rw [hsame]
      exact hsmall _ (List.mem_map_of_mem hmem)
  cases name with
  | nil => exact absurd h.symm hne
  | cons c rest =>
      rw [isIdentifier, hletters c (by simp), Bool.true_and, List.all_eq_true]
      intro d hd
      exact isIdentifierPart_of_start (hletters d (List.mem_cons_of_mem _ hd))

/-- A text that names a tag by letters is an identifier. -/
theorem NamesTag.isIdentifier {name : Text} (h : NamesTag name) : isIdentifier name = true := by
  rcases h with hloop | hending
  · exact isIdentifier_of_capitals hloop (by decide) (by decide) (by decide)
  · exact isIdentifier_of_capitals hending (by decide) (by decide) (by decide)

/-- A name that is read is passed as it is, and no letter stands behind it. -/
theorem head_of_readTag_identifier {t name : Text} (h : (readTag t).result = .ok (.identifier name))
    (hname : isIdentifier name = true) :
    (readTag t).passed = name ∧ ∀ c ∈ (readTag t).rest.head?, isIdentifierPart c = false := by
  have hlexeme := readTag_lexeme h
  have hsplit := readTag_split t
  have hpassed : (readTag t).passed = name := by
    generalize (readTag t).passed = source at hlexeme
    cases hlexeme <;> rfl
  refine ⟨hpassed, ?_⟩
  rw [hpassed] at hsplit
  cases name with
  | nil => simp [isIdentifier] at hname
  | cons c tail =>
      simp only [isIdentifier, Bool.and_eq_true] at hname
      rw [← hsplit, List.cons_append, readTag_of_isIdentifierStart hname.1]
      exact head_dropWhile

/-! ## One token -/

section

variable {l l' : Lexer} {t : Token} {edits : List Edit}

/-- The rest of a text, cut at the token that is read next. -/
theorem Lexer.Ready.rest_of_next (h : l.Ready) (hnext : l.next = (.ok t, l')) :
    l.rest = (scan l.mode l.rest).blank ++ ((scan l.mode l.rest).passed ++ l'.rest) := by
  obtain ⟨-, hrest, -⟩ := h.scan_of_next hnext
  rw [hrest, ← List.append_assoc]
  exact (scan_split l.mode l.rest).symm

theorem Lexer.Ready.offset_of_next (h : l.Ready) (hnext : l.next = (.ok t, l')) :
    t.position.offset = l.position.offset + (scan l.mode l.rest).blank.length ∧
      l'.position.offset = t.position.offset + (scan l.mode l.rest).passed.length := by
  obtain ⟨hstart, hstop⟩ := h.position_of_next hnext
  constructor
  · rw [hstart, Position.advance_offset]
  · rw [hstop, Position.advance_offset]

/-- Whitespace that is inserted at a token stands in front of it, behind the whitespace that is
there. -/
theorem edit_blanks (h : l.Ready) (hnext : l.next = (.ok t, l'))
    (hedits : ∀ e ∈ edits.head?, l'.position.offset ≤ e.offset) (blanks : Text) :
    Text.edit l.position.offset l.rest (⟨t.position.offset, 0, blanks⟩ :: edits)
      = (scan l.mode l.rest).blank ++ (blanks ++ ((scan l.mode l.rest).passed ++
        Text.edit l'.position.offset l'.rest edits)) := by
  obtain ⟨hstart, hstop⟩ := h.offset_of_next hnext
  have hrest := h.rest_of_next hnext
  generalize scan l.mode l.rest = s at *
  have hbehind : ∀ e ∈ edits.head?, t.position.offset + s.passed.length ≤ e.offset := by
    rw [← hstop]
    exact hedits
  calc Text.edit l.position.offset l.rest (⟨t.position.offset, 0, blanks⟩ :: edits)
      = s.blank ++ blanks ++ Text.edit t.position.offset (s.passed ++ l'.rest) edits := by
        rw [hrest, hstart]
        exact Text.edit_cons l.position.offset s.blank [] (s.passed ++ l'.rest) blanks edits
    _ = s.blank ++ (blanks ++ (s.passed ++ Text.edit l'.position.offset l'.rest edits)) := by
        rw [Text.edit_append hbehind, ← hstop, List.append_assoc]

/-- A name that is written in other letters stands in the place of the token. -/
theorem edit_name (h : l.Ready) (hnext : l.next = (.ok t, l')) {name : Text}
    (hname : (scan l.mode l.rest).passed = name) (inserted : Text) :
    Text.edit l.position.offset l.rest (⟨t.position.offset, name.length, inserted⟩ :: edits)
      = (scan l.mode l.rest).blank ++ (inserted ++
        Text.edit l'.position.offset l'.rest edits) := by
  obtain ⟨hstart, hstop⟩ := h.offset_of_next hnext
  have hrest := h.rest_of_next hnext
  generalize scan l.mode l.rest = s at *
  subst hname
  rw [hrest, hstart, Text.edit_cons, hstop, hstart, List.append_assoc]

/-! ## All tokens -/

/-- Edits at the tokens that are still to be read keep these: what they make of the rest has the
same tokens, up to the letters in the names of tags, and can follow what the rest followed. The
first edit is not in front of the rest. -/
structure Keeps (l : Lexer) (opened : Bool) (ps : List Payload) (edits : List Edit) : Prop where
  start : ∀ e ∈ edits.head?, l.position.offset ≤ e.offset
  scans : ∃ ps', Scans l.mode (Text.edit l.position.offset l.rest edits) ps' ∧
    capitalNames opened ps' = capitalNames opened ps
  follows : opened = false → l.mode.Follows l.rest (Text.edit l.position.offset l.rest edits)

/-- What a change of layout does at a token: it inserts whitespace that can stand there, or besides
writes the name of a tag in other letters. -/
theorem ChangesLayout.cases {mode : Mode} {opened : Bool} {e : Edit}
    (h : ChangesLayout mode opened t e) :
    (∃ blanks, mode.Skips blanks ∧ e = ⟨t.position.offset, 0, blanks⟩) ∨
      mode = .tag ∧ opened = true ∧ ∃ blanks name written, Mode.tag.Skips blanks ∧
        t.payload = .identifier name ∧ NamesTag name ∧
        written.map Char.toUpper = name.map Char.toUpper ∧
        e = ⟨t.position.offset, name.length, blanks ++ written⟩ := by
  have hskips : ∀ blanks : Text, (∀ c ∈ blanks, c ∈ [' ', '\t', '\r', '\n']) →
      Mode.tag.Skips blanks := by
    intro blanks hblanks c hc
    rw [isBlank_iff]
    simpa using hblanks c hc
  cases h with
  | text => exact .inl ⟨[], rfl, rfl⟩
  | blanks hblanks => exact .inl ⟨_, hskips _ hblanks, rfl⟩
  | name hblanks ht hname hwritten =>
      exact .inr ⟨rfl, rfl, _, _, _, hskips _ hblanks, ht, hname, hwritten, rfl⟩

/-- The edit at the next token is not in front of the lexer. -/
theorem ChangesLayout.le_offset {mode : Mode} {opened : Bool} {e : Edit}
    (he : ChangesLayout mode opened t e) (h : l.Ready) (hnext : l.next = (.ok t, l'))
    (edits : List Edit) : ∀ e' ∈ (e :: edits).head?, l.position.offset ≤ e'.offset := by
  intro e' he'
  obtain rfl : e = e' := by simpa using he'
  have hoffset : e.offset = t.position.offset := by cases he <;> rfl
  rw [hoffset, (h.offset_of_next hnext).1]
  exact Nat.le_add_right _ _

/-- **A change of layout at one token keeps it**, if those behind it are kept. -/
theorem Keeps.token {opened : Bool} {e : Edit} {ps : List Payload} (h : l.Ready)
    (hnext : l.next = (.ok t, l')) (ht : t.isEnd = false) (he : ChangesLayout l.mode opened t e)
    (hkeeps : Keeps (l'.behind t) (t.payload == .tagStart) ps edits) :
    Keeps l opened (t.payload :: ps) (e :: edits) := by
  obtain ⟨hresult, hrest, hmode, -, -⟩ := h.scan_of_next hnext
  have hnot := Token.isEnd_eq_false_iff.mp ht
  obtain ⟨ps', hscans, hps⟩ := hkeeps.scans
  have hstart := he.le_offset h hnext edits
  -- behind a token that is no delimiter, what the edits make of the rest can follow
  have hfollows : t.payload.isDelimiter = false →
      l.mode.Follows (scan l.mode l.rest).rest (Text.edit l'.position.offset l'.rest edits) := by
    intro hdelimiter
    have hopened : (t.payload == .tagStart) = false := by
      rw [beq_eq_false_iff_ne]
      intro hstart
      rw [hstart] at hdelimiter
      cases hdelimiter
    have hsame : (l'.behind t).mode = l.mode := by
      rw [← hmode]
      exact modeAfter_of_not_delimiter hdelimiter
    have hbehind := hkeeps.follows hopened
    rw [hsame] at hbehind
    rw [← hrest]
    exact hbehind
  rw [Lexer.behind, Lexer.setMode, hmode] at hscans
  rcases he.cases with ⟨blanks, hblanks, rfl⟩ |
    ⟨htag, rfl, blanks, name, written, hblanks, hpayload, hname, hwritten, rfl⟩
  · -- whitespace alone: the token is scanned with what is in front of it and behind it exchanged
    have hedit := edit_blanks h hnext hkeeps.start blanks
    have hskips := (scan_skips l.mode l.rest).append hblanks
    have hown : t.payload.isDelimiter = true ∨ l.mode.Follows (scan l.mode l.rest).rest
        (Text.edit l'.position.offset l'.rest edits) := by
      by_cases hdelimiter : t.payload.isDelimiter = true
      · exact .inl hdelimiter
      · exact .inr (hfollows (by simpa using hdelimiter))
    have hscan := scan_exchange hresult hnot hskips hown
    rw [List.append_assoc, ← hedit] at hscan
    refine ⟨hstart, ⟨t.payload :: ps', .token ?_ hnot ?_, ?_⟩, fun _ => ?_⟩
    · rw [hscan]
    · rw [hscan]
      exact hscans
    · rw [capitalNames, capitalNames, hps]
    · rw [hedit]
      exact scan_follows hresult hnot hblanks _
  · -- the name of a tag: another identifier is scanned, which ends in front of the same text
    rw [htag] at hresult hfollows hscans
    rw [hpayload] at hresult hfollows hscans hps
    obtain ⟨hpassed, hhead⟩ := head_of_readTag_identifier hresult hname.isIdentifier
    have hwritten' : NamesTag written := by
      rw [NamesTag, hwritten]
      exact hname
    have hread := readTag_of_isIdentifier hwritten'.isIdentifier
      ((hfollows rfl).head hhead fun c hc _ => hc)
    have hpassed' : (scan l.mode l.rest).passed = name := by
      rw [htag]
      exact hpassed
    have hedit : Text.edit l.position.offset l.rest
        (⟨t.position.offset, name.length, blanks ++ written⟩ :: edits)
        = (scan .tag l.rest).blank ++ blanks ++
          (written ++ Text.edit l'.position.offset l'.rest edits) := by
      rw [edit_name h hnext hpassed', htag]
      simp only [List.append_assoc]
    have hscan := scan_tag_of_readTag ((scan_skips .tag l.rest).append hblanks) (by rw [hread])
    rw [← hedit, hread] at hscan
    refine ⟨hstart, ⟨.identifier written :: ps', ?_, ?_⟩, by simp⟩
    · rw [htag]
      refine .token ?_ (by simp) ?_
      · rw [hscan]
      · rw [hscan]
        exact hscans
    · rw [hpayload, capitalNames, capitalNames, if_pos rfl, if_pos rfl, Payload.capitals,
        Payload.capitals, hwritten]
      exact congrArg _ hps

/-- A change of layout at the end of the input keeps it. -/
theorem keeps_end {opened : Bool} {e : Edit} (h : l.Ready) (hnext : l.next = (.ok t, l'))
    (ht : t.isEnd = true) (he : ChangesLayout l.mode opened t e) :
    Keeps l opened [.endOfInput] [e] := by
  have hp := Token.isEnd_iff.mp ht
  obtain ⟨hresult, -⟩ := h.scan_of_next hnext
  rw [hp] at hresult
  have hstart := he.le_offset h hnext []
  rcases he.cases with ⟨blanks, hblanks, rfl⟩ | ⟨-, -, _, _, _, -, hpayload, -⟩
  · have hnone : ∀ e' ∈ ([] : List Edit).head?, l'.position.offset ≤ e'.offset := by simp
    have hedit := edit_blanks h hnext hnone blanks
    rw [(scan_lexeme hresult).eq_nil, Text.edit, h.rest_of_end hnext ht, List.nil_append,
      List.append_nil] at hedit
    have hskips := (scan_skips l.mode l.rest).append hblanks
    rw [← hedit] at hskips
    exact ⟨hstart, ⟨[.endOfInput], .finished hskips.scan, rfl⟩, fun _ => hskips.follows l.rest⟩
  · rw [hp] at hpayload
    cases hpayload

/-- **Changes of layout at the tokens of a run keep these.** -/
theorem Lexer.Reads.keeps {ts : List Token} {last : Token} {l₁ l₂ : Lexer} {opened : Bool}
    (hreads : l.Reads ts l₁) (h : l.Ready) (hnext : l₁.next = (.ok last, l₂))
    (hlast : last.isEnd = true) (hedits : ChangeLayout l.mode opened (ts ++ [last]) edits) :
    Keeps l opened ((ts ++ [last]).map Token.payload) edits := by
  induction hreads generalizing opened edits with
  | done l =>
      cases hedits with
      | cons he hnone =>
          cases hnone
          rw [List.nil_append, List.map_singleton, Token.isEnd_iff.mp hlast]
          exact keeps_end h hnext hlast he
  | token hnext' ht _ ih =>
      cases hedits with
      | cons he hedits =>
          obtain ⟨-, -, hmode, -, -⟩ := h.scan_of_next hnext'
          rw [← hmode] at hedits
          exact .token h hnext' ht he (ih ((h.of_next hnext' ht).setMode _) hnext hedits)

end

/-! ## Parsing -/

/-- **Layout is irrelevant.** A text that parses does so in every other layout, to the same
document: the two are equal, hold the same payloads and are written in the same way. -/
theorem parse_relaid {options : Options} {t t' : Text} {document : List Node}
    (h : parse options t = .ok document) (hrelaid : Relaid t t') :
    ∃ document', parse options t' = .ok document' ∧ document' = document ∧
      (Tree.document document').same (.document document) = true ∧
      (Tree.document document').render = (Tree.document document).render := by
  obtain ⟨tokens, edits, htokens, hedits, rfl⟩ := hrelaid
  obtain ⟨tokens', htokens', hflat, hplain⟩ := flat_of_parse h
  obtain rfl : tokens = tokens' := Except.ok.inj (htokens.symm.trans htokens')
  obtain ⟨ts, last, l, l', hreads, hnext, hend, rfl⟩ := exists_reads_of_tokenize htokens
  obtain ⟨ps, hscans, hps⟩ := (hreads.keeps (Lexer.ready_ofText t) hnext hend hedits).scans
  refine ⟨document, ?_, rfl, Tree.same_refl _, rfl⟩
  exact parse_of_scans hscans (by rw [hps, hflat]) hplain

def gluedLoop : Text := "\x7b$FOR q--$\x7d\x7b$END$\x7d".toList

/-- The same with whitespace between all tokens and its names in other letters. -/
def looseLoop : Text := "\x7b$ \nfOr q -\t-\r$\x7d\x7b$end\n$\x7d".toList

/-- Both parse to a loop without children. -/
theorem parse_relaid_gluedLoop :
    ∃ header, parse .default gluedLoop = .ok [.loop header []] ∧ Relaid gluedLoop looseLoop ∧
      ∃ document', parse .default looseLoop = .ok document' ∧ document' = [.loop header []] ∧
        (Tree.document document').same (.document [.loop header []]) = true ∧
        (Tree.document document').render = (Tree.document [.loop header []]).render := by
  have htokens : tokenize gluedLoop = .ok
      [⟨.tagStart, ⟨0, 1, 1⟩⟩, ⟨.identifier "FOR".toList, ⟨2, 1, 3⟩⟩,
        ⟨.identifier ['q'], ⟨6, 1, 7⟩⟩, ⟨.operator '-', ⟨7, 1, 8⟩⟩, ⟨.operator '-', ⟨8, 1, 9⟩⟩,
        ⟨.tagEnd, ⟨9, 1, 10⟩⟩, ⟨.tagStart, ⟨11, 1, 12⟩⟩, ⟨.identifier "END".toList, ⟨13, 1, 14⟩⟩,
        ⟨.tagEnd, ⟨16, 1, 17⟩⟩, ⟨.endOfInput, ⟨18, 1, 19⟩⟩] := by cbv
  have hparse : parse .default gluedLoop
      = .ok [.loop ⟨⟨['q'], by decide⟩, .operator .minus, .operator .minus, none⟩ []] :=
    parse_of_flat htokens rfl (by simp [Options.default])
  have hrelaid : Relaid gluedLoop looseLoop := by
    refine ⟨_, [⟨0, 0, []⟩, ⟨2, "FOR".toList.length, " \n".toList ++ "fOr".toList⟩, ⟨6, 0, []⟩,
      ⟨7, 0, [' ']⟩, ⟨8, 0, ['\t']⟩, ⟨9, 0, ['\r']⟩, ⟨11, 0, []⟩,
      ⟨13, "END".toList.length, [] ++ "end".toList⟩, ⟨16, 0, ['\n']⟩, ⟨18, 0, []⟩], htokens, ?_,
      rfl⟩
    refine .cons .text (.cons (.name (by simp) rfl (.inl rfl) rfl) ?_)
    refine .cons (.blanks (by simp)) (.cons (.blanks (by simp)) (.cons (.blanks (by simp)) ?_))
    refine .cons (.blanks (by simp)) (.cons .text (.cons (.name (by simp) rfl (.inr rfl) rfl) ?_))
    exact .cons (.blanks (by simp)) (.cons .text .nil)
  exact ⟨_, hparse, hrelaid, parse_relaid hparse hrelaid⟩

end TagTemplate
