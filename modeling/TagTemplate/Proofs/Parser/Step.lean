import TagTemplate.Parser.Builder
import TagTemplate.Proofs.Lexer.Payload

set_option autoImplicit false

/-! # What a step of the builder does

A step that goes on is one of eight moves (`BuildState.Moves`), and a step that finishes is taken
outside of tags at the end of the input, with no loop open; every other step fails with an error of
the syntax. The branches of the step are gone through once (`BuildState.takes_step`), and what later
files say about the builder rests on what follows from that (`BuildState.step_next_iff`,
`BuildState.step_finished_iff`, `BuildState.step_error`, `BuildState.position_of_step_error`).
-/

namespace TagTemplate

/-! ## From payloads to elements -/

theorem token_value (e : Element) : e.token.value = e.payload := by
  cases e <;> rfl

theorem token_elementKind? (e : Element) : e.token.elementKind? = some e.kind := by
  cases e <;> rfl

/-- The payload of an element makes that element again. -/
theorem construct_token (e : Element) : Element.construct e.kind e.token.value = .ok e := by
  rw [token_value]
  exact e.construct_kind_payload

/-- An element made of a payload has that payload. -/
theorem eq_token_of_construct {p : Payload} {kind : ElementKind} {e : Element}
    (hkind : p.elementKind? = some kind) (h : Element.construct kind p.value = .ok e) :
    p = e.token := by
  cases p with
  | identifier name =>
      cases hkind
      simp only [Element.construct, Payload.value, Element.identifierOf] at h
      split at h
      · cases h; rfl
      · cases h
  | integer value =>
      cases hkind
      simp only [Element.construct, Payload.value, Element.ofInteger] at h
      split at h
      · cases h; rfl
      · cases h
  | double value =>
      cases hkind
      simp only [Element.construct, Payload.value, Element.ofReal] at h
      cases h; rfl
  | string value =>
      cases hkind
      simp only [Element.construct, Payload.value, Element.ofText] at h
      cases h; rfl
  | function name =>
      cases hkind
      simp only [Element.construct, Payload.value, Element.identifierOf] at h
      split at h
      · cases h; rfl
      · cases h
  | operator symbol =>
      cases hkind
      simp only [Element.construct, Payload.value, Element.ofSymbol, Datum.unhashable?] at h
      split at h
      · next op hop =>
        cases h
        rw [Element.token, Operator.ofSymbol?_eq_some hop]
      · cases h
  | endOfInput => simp [Payload.elementKind?] at hkind
  | text value => simp [Payload.elementKind?] at hkind
  | tagStart => simp [Payload.elementKind?] at hkind
  | tagEnd => simp [Payload.elementKind?] at hkind

/-! ## Names of tags -/

def TagName.text : TagName → Text
  | echo => ['=']
  | loop => ['F', 'O', 'R']
  | ending => ['E', 'N', 'D']

def ArgumentTag.tagName : ArgumentTag → TagName
  | echo => .echo
  | loop => .loop

/-- Of the characters with a given capital one is the capital itself, and the only other one is the
small letter. -/
theorem eq_or_eq_of_toUpper {c d : Char} (h : c.toUpper = d) :
    c = d ∨ c = Char.ofNat (d.toNat + 32) := by
  unfold Char.toUpper at h
  split at h
  · next hsmall =>
    right
    have hlow : (97 : UInt32) ≤ c.val := hsmall.1
    have hhigh : c.val ≤ (122 : UInt32) := hsmall.2
    have hshift : 'A'.val - 'a'.val = 4294967264 := by decide
    have hval := Char.ext_iff.mp h
    dsimp only at hval
    rw [hshift] at hval
    have hnat := congrArg UInt32.toNat hval
    rw [UInt32.le_iff_toNat_le] at hlow hhigh
    rw [UInt32.toNat_add] at hnat
    simp only [UInt32.reduceToNat] at hlow hhigh hnat
    have hcode : c.toNat = d.toNat + 32 := by
      show c.val.toNat = d.val.toNat + 32
      omega
    rw [← hcode, Char.ofNat_toNat]
  · exact .inl h

theorem toUpper_eq_equals {c : Char} : c.toUpper = '=' ↔ c = '=' := by
  constructor
  · intro h
    rcases eq_or_eq_of_toUpper h with hc | hc
    · exact hc
    · -- the character that lies as far above the equals sign is no letter
      rw [hc] at h
      exact absurd h (by decide)
  · rintro rfl
    decide

/-- A name is that of a tag if it is so in capitals. -/
theorem TagName.ofText?_eq_some_iff {name : Text} {tag : TagName} :
    TagName.ofText? name = some tag ↔ name.map Char.toUpper = tag.text := by
  have hecho : name = ['='] ↔ name.map Char.toUpper = ['='] := by
    cases name with
    | nil => simp
    | cons c rest => simp [toUpper_eq_equals]
  unfold TagName.ofText?
  split
  · next h =>
    rw [hecho.mp h]
    cases tag <;> simp [text]
  · next h =>
    rw [hecho] at h
    split
    · next hloop =>
      rw [hloop]
      cases tag <;> simp [text]
    · next hloop =>
      split
      · next hending =>
        rw [hending]
        cases tag <;> simp [text]
      · next hending =>
        cases tag <;> simp [text, h, hloop, hending]

/-! ## Headers of loops -/

theorem loopHeaderOf_eq_ok_iff {strict : Bool} {first start stop : Element}
    {step : Option Element} {header : LoopHeader} :
    loopHeaderOf strict first start stop step = .ok header ↔
      (first = .var header.var ∧ start = header.start ∧ stop = header.stop ∧
        step = header.step) ∧ (strict = true → ∀ e ∈ header.bounds, e.isPlain = true) := by
  obtain ⟨var, start', stop', step'⟩ := header
  unfold loopHeaderOf
  split
  · next name =>
    dsimp only
    cases hfind : if strict = true then
        (LoopHeader.mk name start stop step).bounds.find? fun e => !e.isPlain else none with
    | some e =>
        simp only [reduceCtorEq, false_iff]
        rintro ⟨⟨hname, rfl, rfl, rfl⟩, hplain⟩
        split at hfind
        · next hstrict =>
          have hmem := List.mem_of_find?_eq_some hfind
          have hnot := List.find?_some hfind
          rw [hplain hstrict e hmem] at hnot
          simp at hnot
        · simp at hfind
    | none =>
        simp only [Except.ok.injEq, LoopHeader.mk.injEq, Element.var.injEq]
        constructor
        · rintro ⟨rfl, rfl, rfl, rfl⟩
          refine ⟨⟨rfl, rfl, rfl, rfl⟩, fun hstrict e he => ?_⟩
          rw [if_pos hstrict, List.find?_eq_none] at hfind
          simpa using hfind e he
        · rintro ⟨h, -⟩
          exact h
  · next hvar =>
    simp only [reduceCtorEq, false_iff]
    rintro ⟨⟨rfl, -⟩, -⟩
    exact hvar var rfl

/-- The elements of a loop tag make a header exactly if they are its expressions, and under strict
options its bounds are plain. -/
theorem loopHeader?_eq_ok_iff {strict : Bool} {elements : List Element} {header : LoopHeader} :
    loopHeader? strict elements = .ok header ↔
      elements = header.expressions ∧
        (strict = true → ∀ e ∈ header.bounds, e.isPlain = true) := by
  obtain ⟨var, start, stop, step⟩ := header
  unfold loopHeader?
  split
  · rw [loopHeaderOf_eq_ok_iff]
    cases step <;> simp [LoopHeader.expressions]
  · rw [loopHeaderOf_eq_ok_iff]
    cases step <;> simp [LoopHeader.expressions]
  · next elements hthree hfour =>
    simp only [reduceCtorEq, false_iff]
    rintro ⟨rfl, -⟩
    cases step with
    | none => exact hthree _ _ _ rfl
    | some e => exact hfour _ _ _ _ rfl

def Place.positions : Place → List Position
  | .outside => []
  | .tagOpened opening => [opening]
  | .arguments _ opening name _ => [opening, name]
  | .ending opening name => [opening, name]

namespace BuildState

/-! ## Moves -/

/-- The steps after which the builder goes on. -/
inductive Moves (strict : Bool) : BuildState → Token → BuildState → Prop
  | text {u : Unfinished} {t : Token} {content : Text} (hp : t.payload = .text content) :
      Moves strict ⟨.outside, u⟩ t ⟨.outside, u.add (.text content)⟩
  | opening {u : Unfinished} {t : Token} (hp : t.payload = .tagStart) :
      Moves strict ⟨.outside, u⟩ t ⟨.tagOpened t.position, u⟩
  | argumentsName {u : Unfinished} {t : Token} {opening : Position} {name : Text}
      (tag : ArgumentTag) (hp : t.payload = .identifier name)
      (hname : name.map Char.toUpper = tag.tagName.text) :
      Moves strict ⟨.tagOpened opening, u⟩ t ⟨.arguments tag opening t.position [], u⟩
  | endingName {u : Unfinished} {t : Token} {opening : Position} {name : Text}
      (hp : t.payload = .identifier name)
      (hname : name.map Char.toUpper = TagName.ending.text) :
      Moves strict ⟨.tagOpened opening, u⟩ t ⟨.ending opening t.position, u⟩
  | argument {u : Unfinished} {t : Token} {tag : ArgumentTag} {opening name : Position}
      {read : List Element} (e : Element) (hp : t.payload = e.token) :
      Moves strict ⟨.arguments tag opening name read, u⟩ t
        ⟨.arguments tag opening name (e :: read), u⟩
  | echo {u : Unfinished} {t : Token} {opening name : Position} {read : List Element}
      (hp : t.payload = .tagEnd) :
      Moves strict ⟨.arguments .echo opening name read, u⟩ t
        ⟨.outside, u.add (.echo read.reverse)⟩
  | loop {u : Unfinished} {t : Token} {opening name : Position} {read : List Element}
      {header : LoopHeader} (hp : t.payload = .tagEnd)
      (hheader : loopHeader? strict read.reverse = .ok header) :
      Moves strict ⟨.arguments .loop opening name read, u⟩ t ⟨.outside, u.openLoop header⟩
  | ending {u closed : Unfinished} {t : Token} {opening name : Position}
      (hp : t.payload = .tagEnd) (hclosed : u.closeLoop? = some closed) :
      Moves strict ⟨.ending opening name, u⟩ t ⟨.outside, closed⟩

variable {strict : Bool} {s s' : BuildState} {t : Token}

theorem Moves.step (h : Moves strict s t s') : s.step strict t = .ok (.next s') := by
  cases h with
  | text hp => simp [BuildState.step, stepOutside, hp]
  | opening hp => simp [BuildState.step, stepOutside, hp]
  | argumentsName tag hp hname =>
      rw [← TagName.ofText?_eq_some_iff] at hname
      cases tag <;> simp [BuildState.step, stepTagName, hp, hname, ArgumentTag.tagName]
  | endingName hp hname =>
      rw [← TagName.ofText?_eq_some_iff] at hname
      simp [BuildState.step, stepTagName, hp, hname]
  | argument e hp =>
      have hkind := token_elementKind? e
      have hconstruct := construct_token e
      have hequals := e.token_ne_equals
      simp only [BuildState.step, stepArgument, hp]
      split
      · next hend => cases e <;> simp [Element.token] at hend
      · next hend => cases e <;> simp [Element.token] at hend
      · rw [hkind]
        dsimp only
        rw [if_neg hequals, hconstruct]
  | echo hp => simp [BuildState.step, stepArgument, hp, closeArguments]
  | loop hp hheader => simp [BuildState.step, stepArgument, hp, closeArguments, hheader]
  | ending hp hclosed => simp [BuildState.step, stepEnding, hp, hclosed]

/-! ## All steps -/

/-- What a step comes to: a move, the finished document, an error of the syntax at the token or at a
position that the place keeps, or the refusal of an argument. -/
inductive Takes (strict : Bool) (s : BuildState) (t : Token) : Except ParseFailure Step → Prop
  | next {s' : BuildState} (h : Moves strict s t s') : Takes strict s t (.ok (.next s'))
  | finished (hplace : s.place = .outside) (hp : t.payload = .endOfInput)
      (hloops : s.unfinished.loops = []) :
      Takes strict s t (.ok (.finished s.unfinished.nodes.reverse))
  | malformed {e : SyntaxError} (hposition : e.position ∈ t.position :: s.place.positions) :
      Takes strict s t (.error (.malformed e))
  | rejected {kind : ElementKind} {rejection : Rejection} (hmode : s.place.mode = .tag)
      (hkind : t.payload.elementKind? = some kind) (hequals : t.payload ≠ .identifier ['='])
      (hconstruct : Element.construct kind t.payload.value = .error rejection) :
      Takes strict s t (.error (.rejected rejection))

theorem Takes.failAt {cause : SyntaxCause} {position : Position}
    (h : position ∈ t.position :: s.place.positions) :
    Takes strict s t (failAt cause position) :=
  .malformed h

/-- **What each step comes to**, place by place and branch by branch. -/
theorem takes_step (strict : Bool) (s : BuildState) (t : Token) :
    Takes strict s t (s.step strict t) := by
  obtain ⟨place, u⟩ := s
  cases place with
  | outside =>
      simp only [BuildState.step, stepOutside]
      split
      · next hp => exact .next (.text hp)
      · next hp => exact .next (.opening hp)
      · next hp =>
        split
        · next hloops => exact .finished rfl hp hloops
        · exact .failAt (by simp)
      · exact .failAt (by simp)
  | tagOpened opening =>
      simp only [BuildState.step, stepTagName]
      split
      · exact .failAt (by simp [Place.positions])
      · next hp =>
        split
        · next hname => exact .next (.argumentsName .echo hp (TagName.ofText?_eq_some_iff.mp hname))
        · next hname => exact .next (.argumentsName .loop hp (TagName.ofText?_eq_some_iff.mp hname))
        · next hname => exact .next (.endingName hp (TagName.ofText?_eq_some_iff.mp hname))
        · exact .failAt (by simp)
      · exact .failAt (by simp)
  | arguments tag opening name read =>
      simp only [BuildState.step, stepArgument]
      split
      · next hp =>
        cases tag with
        | echo => exact .next (.echo hp)
        | loop =>
            simp only [closeArguments]
            split
            · next hheader => exact .next (.loop hp hheader)
            · exact .failAt (by simp [Place.positions])
      · exact .failAt (by simp [Place.positions])
      · split
        · exact .failAt (by simp)
        · next hkind =>
          split
          · exact .failAt (by simp)
          · next hequals =>
            split
            · next e hconstruct => exact .next (.argument e (eq_token_of_construct hkind hconstruct))
            · next hconstruct => exact .rejected rfl hkind hequals hconstruct
  | ending opening name =>
      simp only [BuildState.step, stepEnding]
      split
      · exact .failAt (by simp [Place.positions])
      · next hp =>
        split
        · next hclosed => exact .next (.ending hp hclosed)
        · exact .failAt (by simp [Place.positions])
      · exact .failAt (by simp)

theorem Moves.of_step (h : s.step strict t = .ok (.next s')) : Moves strict s t s' := by
  have htakes := takes_step strict s t
  rw [h] at htakes
  cases htakes with
  | next hmoves => exact hmoves

/-- **The steps that go on are the moves.** -/
theorem step_next_iff : s.step strict t = .ok (.next s') ↔ Moves strict s t s' :=
  ⟨Moves.of_step, Moves.step⟩

/-- **The document is finished outside of tags, at the end of the input, with no loop open.** -/
theorem step_finished_iff {document : List Node} :
    s.step strict t = .ok (.finished document) ↔
      s.place = .outside ∧ t.payload = .endOfInput ∧ s.unfinished.loops = [] ∧
        document = s.unfinished.nodes.reverse := by
  constructor
  · intro h
    have htakes := takes_step strict s t
    rw [h] at htakes
    cases htakes with
    | finished hplace hp hloops => exact ⟨hplace, hp, hloops, rfl⟩
  · obtain ⟨place, u⟩ := s
    rintro ⟨rfl, hp, hloops, rfl⟩
    have hloops' : u.loops = [] := hloops
    simp [step, stepOutside, hp, hloops']

/-! ## Failures -/

/-- An argument of a tag is never refused by the constructor of its element. -/
theorem construct_of_tagPayload {p : Payload} (hp : TagPayload p) (hequals : p ≠ .identifier ['='])
    {kind : ElementKind} (hkind : p.elementKind? = some kind) :
    ∃ e, Element.construct kind p.value = .ok e := by
  cases hp with
  | endOfInput => simp [Payload.elementKind?] at hkind
  | tagEnd => simp [Payload.elementKind?] at hkind
  | equals => exact absurd rfl hequals
  | element e =>
      rw [token_elementKind?] at hkind
      cases hkind
      exact ⟨e, construct_token e⟩

/-- **A step fails with an error of the syntax**, if a token in a tag is one that tag mode makes. -/
theorem step_error (hp : s.place.mode = .tag → TagPayload t.payload) {failure : ParseFailure}
    (h : s.step strict t = .error failure) : ∃ e, failure = .malformed e := by
  have htakes := takes_step strict s t
  rw [h] at htakes
  cases htakes with
  | malformed hposition => exact ⟨_, rfl⟩
  | rejected hmode hkind hequals hconstruct =>
      obtain ⟨e, he⟩ := construct_of_tagPayload (hp hmode) hequals hkind
      rw [he] at hconstruct
      simp at hconstruct

/-- A step that fails reports a position that its place keeps, or that of its token. -/
theorem position_of_step_error {e : SyntaxError} (h : s.step strict t = .error (.malformed e)) :
    e.position ∈ t.position :: s.place.positions := by
  have htakes := takes_step strict s t
  rw [h] at htakes
  cases htakes with
  | malformed hposition => exact hposition

end BuildState

end TagTemplate
