import TagTemplate.Proofs.Concatenation
import TagTemplate.Proofs.Lexer.Cut

set_option autoImplicit false

/-! # Loops around templates

A text parses to the same nodes wherever it stands: as the body of a loop, behind another text and
in front of one. The tag that opens the loop may be written in any way; what is asked of it is that
with an end tag behind it, it parses to a loop without children. The end tag is then the last of its
two tags (`eq_nil_of_endTag`), so its tokens are those of the opening tag, in front of any text
(`exists_scans_of_opening`). With this the tokens of the whole are those of its parts one behind the
other, and the main result is `parse_loop_around`. No condition is needed where the parts meet, as a
tag begins or ends at each joint.
-/

namespace TagTemplate

/-! ## Names in capitals, cut -/

theorem capitalNames_take (opened : Bool) (ps : List Payload) (n : Nat) :
    capitalNames opened (ps.take n) = (capitalNames opened ps).take n := by
  induction ps generalizing opened n with
  | nil => simp [capitalNames]
  | cons p ps ih =>
      cases n with
      | zero => rfl
      | succ n => rw [List.take_succ_cons, capitalNames, capitalNames, List.take_succ_cons, ih]

/-- Payloads with the names of tags in capitals are cut in text mode as the payloads are. -/
theorem exists_of_capitalNames_append {ps as bs : List Payload}
    (h : capitalNames false ps = as ++ bs) (hmode : as.foldl modeAfter .text = .text) :
    ∃ front back, ps = front ++ back ∧ capitalNames false front = as ∧
      capitalNames false back = bs := by
  have hfront : capitalNames false (ps.take as.length) = as := by
    rw [capitalNames_take, h, List.take_left]
  have hmode' : (ps.take as.length).foldl modeAfter .text = .text := by
    rw [← foldl_capitalNames false, hfront, hmode]
  refine ⟨ps.take as.length, ps.drop as.length, (List.take_append_drop _ _).symm, hfront, ?_⟩
  have hclosed : false = true → Mode.text = .tag := by simp
  have hwhole := capitalNames_append hmode' hclosed (ps.drop as.length)
  rw [List.take_append_drop, h, hfront] at hwhole
  exact (List.append_cancel_left hwhole).symm

/-- The payloads of an end tag, its name in any letters. -/
theorem exists_of_capitalNames_ending {ps : List Payload}
    (h : capitalNames false ps = tagPayloads .ending []) :
    ∃ name, ps = [.tagStart, .identifier name, .tagEnd] ∧
      name.map Char.toUpper = TagName.ending.text := by
  match ps with
  | [] => simp [capitalNames, tagPayloads, tagFront] at h
  | [a] => simp [capitalNames, tagPayloads, tagFront] at h
  | [a, b] => simp [capitalNames, tagPayloads, tagFront] at h
  | [a, b, c] =>
      obtain ⟨hstart, hbehind⟩ := List.cons.inj h
      obtain rfl : a = .tagStart := hstart
      obtain ⟨hname, hlast⟩ := List.cons.inj hbehind
      obtain ⟨name, rfl, hcapitals⟩ := capitals_eq_identifier_iff.mp hname
      obtain rfl : c = .tagEnd := (List.cons.inj hlast).1
      exact ⟨name, rfl, hcapitals⟩
  | a :: b :: c :: d :: rest => simp [capitalNames, tagPayloads, tagFront] at h

theorem length_of_ending {name : Text} (h : name.map Char.toUpper = TagName.ending.text) :
    name.length = 3 := by
  have hlength := congrArg List.length h
  rwa [List.length_map] at hlength

/-- Names in capitals or not, payloads end with the end of a tag or do not. -/
theorem getLast?_of_capitalNames {opened : Bool} {ps : List Payload}
    (h : (capitalNames opened ps).getLast? = some .tagEnd) : ps.getLast? = some .tagEnd := by
  have hends : ∀ p : Payload, (p.capitals == .tagEnd) = (p == .tagEnd) := by
    intro p
    cases p <;> rfl
  have hmap := congrArg List.getLast? (map_capitalNames (· == .tagEnd) hends opened ps)
  rw [List.getLast?_map, h, List.getLast?_map] at hmap
  obtain ⟨p, hp, hend⟩ := Option.map_eq_some_iff.mp hmap.symm
  rw [hp, eq_of_beq hend]

/-! ## The end tag behind an opening tag -/

/-- A text does not end in blanks if its last character is none. -/
theorem eq_nil_of_blank {front t blank : Text} {c : Char} (h : front ++ [c] = t ++ blank)
    (hc : isBlank c = false) (hblank : ∀ d ∈ blank, isBlank d = true) : blank = [] := by
  by_contra hne
  have hlast : (front ++ [c]).getLast? = blank.getLast? := by
    rw [h, List.getLast?_append_of_ne_nil _ hne]
  rw [List.getLast?_concat] at hlast
  have hmem : c ∈ blank := List.mem_of_getLast? hlast.symm
  rw [hblank c hmem] at hc
  cases hc

/-- A text that ends in the end tag, and is one itself in some spelling, is no more than it. -/
theorem eq_nil_of_endTag {front blank name blank' : Text}
    (h : front ++ endTagText = tagStartText ++ (blank ++ (name ++ (blank' ++ tagEndText))))
    (hname : name.map Char.toUpper = TagName.ending.text)
    (hblank : ∀ c ∈ blank, isBlank c = true) (hblank' : ∀ c ∈ blank', isBlank c = true) :
    front = [] := by
  have hlength := length_of_ending hname
  have hend : (front ++ tagStartText ++ ['E', 'N']) ++ ['D'] ++ tagEndText
      = (tagStartText ++ blank ++ name ++ blank') ++ tagEndText := by
    simpa [endTagText, tagStartText, tagEndText] using h
  have hbody := List.append_cancel_right hend
  obtain rfl : blank' = [] := eq_nil_of_blank hbody (by decide) hblank'
  have hnames : (front ++ tagStartText) ++ ['E', 'N', 'D']
      = (tagStartText ++ blank) ++ name := by
    simpa using hbody
  obtain ⟨hfront, -⟩ := List.append_inj' hnames (by rw [hlength]; rfl)
  have hdollar : (front ++ ['\x7b']) ++ ['$'] = tagStartText ++ blank := by
    simpa [tagStartText] using hfront
  obtain rfl : blank = [] := eq_nil_of_blank hdollar (by decide) hblank
  simpa using hfront

/-- The text in front of a token that is read from it: whitespace and a lexeme of the token. -/
theorem Scans.exists_lexeme {mode : Mode} {t : Text} {p : Payload} {ps : List Payload}
    (h : Scans mode t (p :: ps)) (hp : p ≠ .endOfInput) :
    ∃ blank source rest, t = blank ++ (source ++ rest) ∧ mode.Skips blank ∧ Lexeme p source ∧
      Scans (modeAfter mode p) rest ps := by
  cases h with
  | finished _ => exact absurd rfl hp
  | token hresult _ hrest =>
      have hsplit := scan_split mode t
      rw [List.append_assoc] at hsplit
      exact ⟨_, _, _, hsplit.symm, scan_skips mode t, scan_lexeme hresult, hrest⟩

/-- A text with the tokens of an end tag is one. -/
theorem exists_endTag_of_scans {t name : Text}
    (h : Scans .text t [.tagStart, .identifier name, .tagEnd, .endOfInput]) :
    ∃ blank blank', (∀ c ∈ blank, isBlank c = true) ∧ (∀ c ∈ blank', isBlank c = true) ∧
      t = tagStartText ++ (blank ++ (name ++ (blank' ++ tagEndText))) := by
  obtain ⟨none, opening, t₁, rfl, hnone, hopening, h₁⟩ := h.exists_lexeme (by simp)
  obtain ⟨blank, source, t₂, rfl, hblank, hsource, h₂⟩ := h₁.exists_lexeme (by simp)
  obtain ⟨blank', ending, t₃, rfl, hblank', hending, h₃⟩ := h₂.exists_lexeme (by simp)
  obtain rfl : none = [] := hnone
  obtain rfl : t₃ = [] := h₃.eq_nil_of_end
  cases hopening
  cases hending
  have hname : source = name := by cases hsource <;> rfl
  subst hname
  exact ⟨blank, blank', hblank, hblank', by simp⟩

/-! ## The opening tag alone -/

/-- **The tokens of an opening tag do not depend on what stands behind it.** -/
theorem exists_scans_of_opening {options : Options} {opening : Text} {header : LoopHeader}
    (h : parse options (opening ++ endTagText) = .ok [.loop header []]) :
    ∃ ps, capitalNames false ps = tagPayloads .loop header.expressions ∧
      ∀ s qs, Scans .text s qs → Scans .text (opening ++ s) (ps ++ qs) := by
  obtain ⟨all, hscans, -, hflat⟩ := exists_scans_of_parse h
  have hmode : (tagPayloads .loop header.expressions).foldl modeAfter .text = .text := by
    rw [tagPayloads, List.foldl_append]
    rfl
  obtain ⟨ps, rest, rfl, hps, hrest⟩ := exists_of_capitalNames_append
    (by simpa [Node.flats, Node.flat] using hflat) hmode
  obtain ⟨name, rfl, hname⟩ := exists_of_capitalNames_ending hrest
  rw [List.append_assoc] at hscans
  have hlast : ps.getLast? = some .tagEnd := by
    have hcapitals : (capitalNames false ps).getLast? = some .tagEnd := by
      rw [hps, tagPayloads, List.getLast?_concat]
    exact getLast?_of_capitalNames hcapitals
  obtain ⟨front, behind, hsplit, hbehind, hexchange⟩ := hscans.exists_cut hlast
  obtain ⟨blank, blank', hblank, hblank', rfl⟩ := exists_endTag_of_scans hbehind
  -- the last of the two tags is the end tag that was put behind
  have hopening : opening = front := by
    have hlength := length_of_ending hname
    rcases List.append_eq_append_iff.mp hsplit with ⟨more, rfl, hmore⟩ | ⟨more, rfl, hmore⟩
    · have hlengths := congrArg List.length hmore
      simp only [List.length_append, endTagText, tagStartText, tagEndText, List.length_cons,
        List.length_nil] at hlengths
      have hnil : more = [] := List.eq_nil_of_length_eq_zero (by omega)
      rw [hnil, List.append_nil]
    · rw [eq_nil_of_endTag hmore.symm hname hblank hblank', List.append_nil]
  subst hopening
  exact ⟨ps, hps, hexchange⟩

/-! ## Parts one behind the other -/

/-- A text whose first token opens a tag begins with that opening. -/
theorem Scans.startsTag {t : Text} {ps : List Payload} (h : Scans .text t (.tagStart :: ps)) :
    StartsTag t := by
  obtain ⟨blank, source, rest, rfl, hblank, hsource, -⟩ := h.exists_lexeme (by simp)
  obtain rfl : blank = [] := hblank
  cases hsource
  exact .tagStart rest

/-- In front of a tag a text has its own tokens. -/
theorem Scans.append_tag {t s : Text} {ps qs : List Payload}
    (h : Scans .text t (ps ++ [.endOfInput])) (hmode : ps.foldl modeAfter .text = .text)
    (hs : Scans .text s (.tagStart :: qs)) : Scans .text (t ++ s) (ps ++ .tagStart :: qs) := by
  have hjoin : ∀ p ∈ ps.getLast?, ∀ q ∈ (Payload.tagStart :: qs).head?, p.join? q = none := by
    intro p _ q hq
    obtain rfl := Option.some.inj hq
    cases p <;> rfl
  have happend := h.append hmode hs (.inr hs.startsTag.head_ne)
  rwa [Payload.concat, appendJoining_of_none hjoin] at happend

/-- **A loop around a text, behind one and in front of one.** If a tag opens a loop, the three texts
and the loop parse to the nodes of the first text, the loop with the nodes of the second as its
children, and the nodes of the third. -/
theorem parse_loop_around {options : Options} {t₁ opening t₂ t₃ : Text} {d₁ d₂ d₃ : List Node}
    {header : LoopHeader} (h₁ : parse options t₁ = .ok d₁) (h₂ : parse options t₂ = .ok d₂)
    (h₃ : parse options t₃ = .ok d₃)
    (hopening : parse options (opening ++ endTagText) = .ok [.loop header []]) :
    parse options (t₁ ++ opening ++ t₂ ++ endTagText ++ t₃)
      = .ok (d₁ ++ .loop header d₂ :: d₃) := by
  obtain ⟨ps₁, hps₁, hmode₁, hflat₁⟩ := exists_scans_of_parse h₁
  obtain ⟨ps₂, hps₂, hmode₂, hflat₂⟩ := exists_scans_of_parse h₂
  obtain ⟨ps₃, hps₃, hmode₃, hflat₃⟩ := exists_scans_of_parse h₃
  obtain ⟨ps, hps, hexchange⟩ := exists_scans_of_opening hopening
  -- the tokens of the parts one behind the other, from the last part on
  have hbehind := scans_endTag hps₃
  have hbody := hexchange _ _ (hps₂.append_tag hmode₂ hbehind)
  obtain ⟨inner, rfl⟩ : ∃ inner, ps = .tagStart :: inner := by
    cases ps with
    | nil => simp [capitalNames, tagPayloads, tagFront] at hps
    | cons p inner =>
        obtain rfl : p = .tagStart := (List.cons.inj hps).1
        exact ⟨inner, rfl⟩
  have hwhole := hps₁.append_tag hmode₁ hbody
  have hmode : (Payload.tagStart :: inner).foldl modeAfter .text = .text := by
    rw [← foldl_capitalNames false, hps, tagPayloads, List.foldl_append]
    rfl
  simp only [List.append_assoc]
  refine parse_of_scans hwhole ?_ fun hstrict => ?_
  · -- each part ends outside of tags, so the names of tags are told apart within it
    have hclosed : false = true → Mode.text = .tag := by simp
    have hloop : capitalNames false
        ((.tagStart :: inner) ++ (ps₂ ++ (tagPayloads .ending [] ++ (ps₃ ++ [.endOfInput]))))
        = Node.flats (.loop header d₂ :: d₃) ++ [.endOfInput] := by
      rw [capitalNames_append hmode hclosed, capitalNames_append hmode₂ hclosed,
        capitalNames_tagPayloads, capitalNames_append hmode₃ hclosed, hps, hflat₂, hflat₃]
      simp [Node.flats, Node.flat, capitalNames]
    rw [capitalNames_append hmode₁ hclosed, hflat₁, Node.flats_append, List.append_assoc, ← hloop]
    rfl
  · -- what strictness asks of a document it asks of every node
    obtain ⟨_, _, _, hplain₁⟩ := flat_of_parse h₁
    obtain ⟨_, _, _, hplain₂⟩ := flat_of_parse h₂
    obtain ⟨_, _, _, hplain₃⟩ := flat_of_parse h₃
    obtain ⟨_, _, _, hheader⟩ := flat_of_parse hopening
    rw [Node.arePlain_iff]
    intro n hn
    rcases List.mem_append.mp hn with hn | hn
    · exact Node.arePlain_iff.mp (hplain₁ hstrict) n hn
    rcases List.mem_cons.mp hn with rfl | hn
    · exact ⟨(hheader hstrict).1.1, hplain₂ hstrict⟩
    · exact Node.arePlain_iff.mp (hplain₃ hstrict) n hn

def rowHeader : LoopHeader := ⟨⟨['r'], by decide⟩, .string ['a'], .operator .minus, none⟩

def columnHeader : LoopHeader :=
  ⟨⟨['k'], by decide⟩, .var rowHeader.var, .var rowHeader.var, none⟩

/-- The body holds a loop itself, and begins and ends with what could be mistaken for a delimiter
together with the text in front of it or behind it. -/
theorem parse_loop_around_braces :
    parse .default "a\x7b".toList = .ok [.text "a\x7b".toList] ∧
      parse .default "$b\x7b$FOR k r r$\x7dc\x7b$END$\x7d\x7b".toList
        = .ok [.text "$b".toList, .loop columnHeader [.text ['c']], .text ['\x7b']] ∧
      parse .default ['$'] = .ok [.text ['$']] ∧
      parse .default ("\x7b$ for r\"a\"-$\x7d".toList ++ endTagText) = .ok [.loop rowHeader []] ∧
      parse .default ("a\x7b".toList ++ "\x7b$ for r\"a\"-$\x7d".toList
          ++ "$b\x7b$FOR k r r$\x7dc\x7b$END$\x7d\x7b".toList ++ endTagText ++ ['$'])
        = .ok [.text "a\x7b".toList, .loop rowHeader
          [.text "$b".toList, .loop columnHeader [.text ['c']], .text ['\x7b']], .text ['$']] := by
  have hdefault : ∀ document, Options.default.strict = true → Node.ArePlain document := by
    simp [Options.default]
  have hbody : Scans .text "$b\x7b$FOR k r r$\x7dc\x7b$END$\x7d\x7b".toList
      [.text "$b".toList, .tagStart, .identifier "FOR".toList, .identifier ['k'],
        .identifier ['r'], .identifier ['r'], .tagEnd, .text ['c'], .tagStart,
        .identifier "END".toList, .tagEnd, .text ['\x7b'], .endOfInput] :=
    .token rfl (by simp) (.token rfl (by simp) (.token rfl (by simp) (.token rfl (by simp)
      (.token rfl (by simp) (.token rfl (by simp) (.token rfl (by simp) (.token rfl (by simp)
        (.token rfl (by simp) (.token rfl (by simp) (.token rfl (by simp) (.token rfl (by simp)
          (.finished rfl))))))))))))
  have hloop : Scans .text ("\x7b$ for r\"a\"-$\x7d".toList ++ endTagText)
      [.tagStart, .identifier "for".toList, .identifier ['r'], .string ['a'], .operator '-',
        .tagEnd, .tagStart, .identifier "END".toList, .tagEnd, .endOfInput] :=
    .token rfl (by simp) (.token rfl (by simp) (.token rfl (by simp) (.token rfl (by simp)
      (.token rfl (by simp) (.token rfl (by simp) (.token rfl (by simp) (.token rfl (by simp)
        (.token rfl (by simp) (.finished rfl)))))))))
  have h₁ : parse .default "a\x7b".toList = .ok [.text "a\x7b".toList] :=
    parse_of_scans (.token rfl (by simp) (.finished rfl)) rfl (hdefault _)
  have h₂ : parse .default "$b\x7b$FOR k r r$\x7dc\x7b$END$\x7d\x7b".toList
      = .ok [.text "$b".toList, .loop columnHeader [.text ['c']], .text ['\x7b']] :=
    parse_of_scans hbody rfl (hdefault _)
  have h₃ : parse .default ['$'] = .ok [.text ['$']] :=
    parse_of_scans (.token rfl (by simp) (.finished rfl)) rfl (hdefault _)
  have hopening : parse .default ("\x7b$ for r\"a\"-$\x7d".toList ++ endTagText)
      = .ok [.loop rowHeader []] :=
    parse_of_scans hloop rfl (hdefault _)
  exact ⟨h₁, h₂, h₃, hopening, parse_loop_around h₁ h₂ h₃ hopening⟩

end TagTemplate
