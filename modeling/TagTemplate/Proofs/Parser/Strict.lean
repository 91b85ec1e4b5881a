import TagTemplate.Proofs.Lexer.Outcome
import TagTemplate.Proofs.Parser.FirstFault
import TagTemplate.Proofs.Parser.Grammar
import TagTemplate.Proofs.Parser.Position
import TagTemplate.Proofs.Parser.TagOrder

set_option autoImplicit false

/-! # Strict options only filter

Strict options add one check to the others: a loop tag with a function or an operator behind its
variable is refused, after all that is wrong with the tag in any case (`TagTokens.fault?_strict`).
So the two parses of a text report the same error, or the strict one reports the first tag that only
it refuses, and all tags up to that one are legal for the other (`firstFault?_strict`). What the
other parse reports then lies behind the opening of that tag, since the tokens of a text stand in
order. The main result is `strict_filters`.
-/

namespace TagTemplate

/-! ## Tags that only strict options refuse -/

/-- A tag has no function and no operator as a bound or a step, if it is a loop tag. -/
def TagTokens.IsPlain (tag : TagTokens) : Prop :=
  tag.name? = some .loop → ∀ e ∈ tag.elements.tail, e.isPlain = true

/-- An error says of a loop tag, at its name, that an argument is invalid: the first function or
operator behind the variable. -/
structure SyntaxError.Refuses (e : SyntaxError) (tag : TagTokens) : Prop where
  loop : tag.name? = some .loop
  cause : ∃ element, (tag.elements.tail.find? fun x => !x.isPlain) = some element ∧
    e.cause = .strictBound element
  name : ∃ name ∈ tag.inner.head?, e.position = name.position

theorem SyntaxError.Refuses.not_isPlain {e : SyntaxError} {tag : TagTokens} (h : e.Refuses tag) :
    ¬ tag.IsPlain := by
  obtain ⟨element, hfind, -⟩ := h.cause
  intro hplain
  have hmem := List.mem_of_find?_eq_some hfind
  have hnot := List.find?_some hfind
  rw [hplain h.loop element hmem] at hnot
  simp at hnot

/-- An argument that is refused is an invalid argument. -/
theorem SyntaxError.Refuses.kind {e : SyntaxError} {tag : TagTokens} (h : e.Refuses tag) :
    e.cause.kind = .invalidArgument := by
  obtain ⟨element, -, hcause⟩ := h.cause
  rw [hcause]
  rfl

/-- The expressions of a loop tag have the same fault under all options, or only strict options
refuse the first function or operator behind the variable. -/
theorem expressionsFault?_strict (elements : List Element) :
    expressionsFault? true elements = expressionsFault? false elements ∨
      expressionsFault? false elements = none ∧
        ∃ element, (elements.tail.find? fun x => !x.isPlain) = some element ∧
          expressionsFault? true elements = some (.strictBound element) := by
  cases elements with
  | nil => exact Or.inl rfl
  | cons first bounds =>
      cases first with
      | var name =>
          cases hfind : bounds.find? fun x => !x.isPlain with
          | none => exact Or.inl (by simp [expressionsFault?, hfind])
          | some element =>
              exact Or.inr ⟨rfl, element, hfind, by simp [expressionsFault?, hfind]⟩
      | _ => exact Or.inl rfl

/-- The arguments of a loop tag have the same fault under all options, or only strict options
refuse the first function or operator behind the variable, at the name. -/
theorem argumentsFault?_strict (opening name : Position) (arguments : List Token) :
    argumentsFault? true .loop opening name arguments
        = argumentsFault? false .loop opening name arguments ∨
      argumentsFault? false .loop opening name arguments = none ∧
        ∃ element, ((arguments.filterMap fun t => t.payload.element?).tail.find? fun x =>
            !x.isPlain) = some element ∧
          argumentsFault? true .loop opening name arguments
            = some ⟨.strictBound element, name⟩ := by
  unfold argumentsFault?
  cases arguments.find? Token.isStray with
  | some t => exact Or.inl rfl
  | none =>
      dsimp only
      by_cases hend : (arguments.any fun t => t.payload == .tagEnd) = true
      · rw [if_pos hend, if_pos hend]
        generalize (arguments.filterMap fun t => t.payload.element?) = elements
        unfold loopFault?
        by_cases harity : elements.length = 3 ∨ elements.length = 4
        · rw [if_pos harity, if_pos harity]
          rcases expressionsFault?_strict elements with heq | ⟨hnone, element, hfind, hsome⟩
          · exact Or.inl (by rw [heq])
          · exact Or.inr ⟨by rw [hnone]; rfl, element, hfind, by rw [hsome]; rfl⟩
        · exact Or.inl (by rw [if_neg harity, if_neg harity])
      · exact Or.inl (by rw [if_neg hend, if_neg hend])

/-- **A tag has the same fault under all options, or only strict options refuse it.** -/
theorem TagTokens.fault?_strict (tag : TagTokens) (depth : Int) :
    tag.fault? true depth = tag.fault? false depth ∨
      tag.fault? false depth = none ∧ ∃ e, tag.fault? true depth = some e ∧ e.Refuses tag := by
  obtain ⟨opening, inner⟩ := tag
  cases inner with
  | nil => exact Or.inl rfl
  | cons name arguments =>
      cases hp : name.payload with
      | identifier text =>
          cases htag : TagName.ofText? text with
          | none => exact Or.inl (by simp only [fault?, hp, htag])
          | some tagName =>
              cases tagName with
              | echo => exact Or.inl (by simp only [fault?, hp, htag]; rfl)
              | ending => exact Or.inl (by simp only [fault?, hp, htag])
              | loop =>
                  simp only [fault?, hp, htag]
                  rcases argumentsFault?_strict opening.position name.position arguments with
                    heq | ⟨hnone, element, hfind, hsome⟩
                  · exact Or.inl heq
                  · refine Or.inr ⟨hnone, _, hsome, ?_, ⟨element, hfind, rfl⟩, name, rfl, rfl⟩
                    simp [name?, hp, htag]
      | _ => exact Or.inl (by simp only [fault?, hp])

/-- Elements that strict options find legal in a loop tag are plain behind the first of them. -/
theorem plain_of_loopFault? {elements : List Element} (h : loopFault? true elements = none) :
    ∀ e ∈ elements.tail, e.isPlain = true := by
  unfold loopFault? at h
  split at h
  · cases elements with
    | nil => simp
    | cons first bounds =>
        cases first with
        | var name =>
            simp only [expressionsFault?, if_true, Option.map_eq_none_iff,
              List.find?_eq_none] at h
            exact fun e he => by simpa using h e he
        | _ => simp [expressionsFault?] at h
  · simp at h

/-- Arguments that strict options find legal in a loop tag are plain behind the first of them, if
they go up to the end of the tag. -/
theorem plain_of_argumentsFault? {opening name : Position} {arguments : List Token}
    (h : argumentsFault? true .loop opening name arguments = none)
    (hclosed : ∃ t ∈ arguments, t.endsTag = true) :
    ∀ e ∈ (arguments.filterMap fun t => t.payload.element?).tail, e.isPlain = true := by
  unfold argumentsFault? at h
  cases hstray : arguments.find? Token.isStray with
  | some t => simp [hstray] at h
  | none =>
      -- the token that ends the tag is not the end of the input, which would be stray
      obtain ⟨t, ht, hends⟩ := hclosed
      have hnot : t.isStray = false := by simpa using List.find?_eq_none.mp hstray t ht
      have htagEnd : t.payload = .tagEnd := by
        simp only [Token.isStray, Bool.or_eq_false_iff] at hnot
        simpa [Token.endsTag, hnot.2] using hends
      have hany : (arguments.any fun t => t.payload == .tagEnd) = true :=
        List.any_eq_true.mpr ⟨t, ht, by simp [htagEnd]⟩
      simp only [hstray, hany, if_true, Option.map_eq_none_iff] at h
      exact plain_of_loopFault? h

/-- A tag that strict options find legal is plain, if its tokens go up to its end. -/
theorem TagTokens.isPlain_of_fault? {tag : TagTokens} {depth : Int}
    (h : tag.fault? true depth = none) (hclosed : ∃ t ∈ tag.inner, t.endsTag = true) :
    tag.IsPlain := by
  obtain ⟨opening, inner⟩ := tag
  intro hloop
  cases inner with
  | nil => simp [name?] at hloop
  | cons name arguments =>
      cases hp : name.payload with
      | identifier text =>
          have htag : TagName.ofText? text = some .loop := by simpa [name?, hp] using hloop
          simp only [fault?, hp, htag] at h
          obtain ⟨t, ht, hends⟩ := hclosed
          have hmem : t ∈ arguments := by
            rcases List.mem_cons.mp ht with rfl | ht
            · simp [Token.endsTag, Token.isEnd, hp] at hends
            · exact ht
          exact plain_of_argumentsFault? h ⟨t, hmem, hends⟩
      | _ => simp [name?, hp] at hloop

/-! ## The first tag that is refused -/

/-- **Tags have the same first fault under all options, or strict options refuse a tag** that is
legal without them, as all tags in front of it are, under strict options too. -/
theorem firstFault?_strict (before tags : List TagTokens) :
    firstFault? true before tags = firstFault? false before tags ∨
      ∃ front tag behind e, tags = front ++ tag :: behind ∧
        firstFault? true before tags = some e ∧ e.Refuses tag ∧
        firstFault? true before front = none ∧
        firstFault? false before (front ++ [tag]) = none := by
  induction tags generalizing before with
  | nil => exact Or.inl rfl
  | cons tag tags ih =>
      rcases tag.fault?_strict (tagDepth before) with heq | ⟨hnone, e, hsome, hrefuses⟩
      · cases hfault : tag.fault? false (tagDepth before) with
        | some e =>
            rw [hfault] at heq
            exact Or.inl (by rw [firstFault?, firstFault?, heq, hfault]; rfl)
        | none =>
            rw [hfault] at heq
            rw [firstFault?, firstFault?, heq, hfault, Option.none_or, Option.none_or]
            rcases ih (before ++ [tag]) with
              hlater | ⟨front, tag', behind, e, rfl, he, hrefuses, hfront, hlegal⟩
            · exact Or.inl hlater
            · refine Or.inr ⟨tag :: front, tag', behind, e, rfl, he, hrefuses, ?_, ?_⟩
              · rw [firstFault?, heq, hfront]
                rfl
              · rw [List.cons_append, firstFault?, hfault, hlegal]
                rfl
      · refine Or.inr ⟨[], tag, tags, e, rfl, ?_, hrefuses, rfl, ?_⟩
        · rw [firstFault?, hsome]
          rfl
        · rw [List.nil_append, firstFault?, hnone]
          rfl

/-! ## Two parses of a text -/

/-- The place of a failure of a parse: that of its error, or where the lexer of the parse stands if
the failure has no position of its own. -/
def ParseFailure.place (failure : ParseFailure) (l : Lexer) : Position :=
  failure.position?.getD l.position

theorem ParseFailure.place_ofLex (failure : LexFailure) (l : Lexer) :
    (ofLex failure).place l = failure.place l := by
  cases failure <;> rfl

variable {options : Options} {t : Text}

/-- A parse that reports no error of the syntax ends as tokenizing does. -/
theorem parse_of_ne_malformed (h : ∀ e, parse options t ≠ .error (.malformed e)) :
    match (Lexer.ofText t).drain.failure with
    | none => ∃ document, parse options t = .ok document
    | some failure => parse options t = .error (.ofLex failure) := by
  have hconcludes := BuildState.concludes_parse options t
  generalize BuildState.start.replay options.strict _ = replayed at hconcludes
  generalize (Lexer.ofText t).drain.failure = rest at hconcludes ⊢
  generalize parse options t = result at hconcludes h ⊢
  cases hconcludes with
  | finished document => exact ⟨document, rfl⟩
  | malformed error rest => exact absurd rfl (h error)
  | lexFailed s failure => rfl

/-- Two parses with the same errors of the syntax fail with the same failure, and succeed both. -/
theorem parse_congr {options' : Options}
    (h : ∀ e, parse options t = .error (.malformed e) ↔ parse options' t = .error (.malformed e)) :
    (∀ failure, parse options t = .error failure → parse options' t = .error failure) ∧
      ((∃ document, parse options t = .ok document) →
        ∃ document, parse options' t = .ok document) := by
  by_cases hmalformed : ∃ e, parse options t = .error (.malformed e)
  · obtain ⟨e, he⟩ := hmalformed
    have he' := (h e).mp he
    constructor
    · intro failure hfailure
      rw [he] at hfailure
      cases hfailure
      exact he'
    · rintro ⟨document, hdocument⟩
      rw [he] at hdocument
      cases hdocument
  · have hne : ∀ e, parse options t ≠ .error (.malformed e) := fun e he => hmalformed ⟨e, he⟩
    have hends := parse_of_ne_malformed hne
    have hends' := parse_of_ne_malformed fun e he => hne e ((h e).mpr he)
    cases hrest : (Lexer.ofText t).drain.failure with
    | none =>
        rw [hrest] at hends hends'
        obtain ⟨document, hdocument⟩ := hends
        exact ⟨fun failure hfailure => by simp [hdocument] at hfailure, fun _ => hends'⟩
    | some failure =>
        rw [hrest] at hends hends'
        have hfails : parse options t = .error (.ofLex failure) := hends
        have hfails' : parse options' t = .error (.ofLex failure) := hends'
        rw [hfails, hfails']
        exact ⟨fun _ h => h, fun ⟨_, h⟩ => by simp at h⟩

/-- **The two parses of a text have the same errors of the syntax, or the strict one refuses a
tag.** -/
theorem parse_strict_cases (t : Text) :
    (∀ e, parse .default t = .error (.malformed e) ↔ parse ⟨true⟩ t = .error (.malformed e)) ∨
      ∃ front tag behind e, t.tags = front ++ tag :: behind ∧
        parse ⟨true⟩ t = .error (.malformed e) ∧ e.Refuses tag ∧
        firstFault? true [] front = none ∧ firstFault? false [] (front ++ [tag]) = none := by
  rcases firstFault?_strict [] t.tags with
    heq | ⟨front, tag, behind, e, htags, he, hrefuses, hfront, hlegal⟩
  · refine Or.inl fun e => ?_
    rw [parse_eq_malformed_iff_firstFault, parse_eq_malformed_iff_firstFault, heq]
    rfl
  · refine Or.inr ⟨front, tag, behind, e, htags, ?_, hrefuses, hfront, hlegal⟩
    rw [parse_eq_malformed_iff_firstFault, he]
    rfl

/-- An error of the syntax that is reported behind legal tags lies behind their openings. -/
theorem opening_le_of_malformed {front behind : List TagTokens} {tag : TagTokens} {e : SyntaxError}
    (htags : t.tags = front ++ tag :: behind)
    (hlegal : firstFault? options.strict [] (front ++ [tag]) = none)
    (he : parse options t = .error (.malformed e)) :
    tag.opening.position.offset ≤ e.position.offset := by
  have hpairwise := Lexer.drain_pairwise (Lexer.ofText t)
  have horder := Lexer.drain_inOrder (Lexer.ofText t)
  obtain ⟨before, after, hts, -, -, hbehind⟩ := tagsOf_eq_append_cons htags
  rw [parse_eq_malformed_iff_firstFault, htags, List.append_cons, firstFault?_append, hlegal,
    Option.none_or, Option.or_eq_some_iff, List.nil_append] at he
  rw [hts] at he hpairwise horder
  have hafter : ∀ token ∈ after, tag.opening.position.offset ≤ token.position.offset :=
    (List.pairwise_cons.mp (List.pairwise_append.mp horder).2.1).1
  rcases he with hfault | ⟨-, hopen⟩
  · -- the fault of a later tag is reported at a token of that tag
    obtain ⟨front', tag', behind', heq, -, hfault⟩ := firstFault?_eq_some_iff.mp hfault
    obtain ⟨token, htoken, hposition⟩ := TagTokens.position_of_fault? hfault
    have hmem : tag' ∈ tagsOf after := by rw [← hbehind, heq]; simp
    rw [hposition]
    exact hafter token (subset_of_mem_tagsOf hmem htoken)
  · -- open loops are reported at the end of the input, and nothing stands behind that
    obtain ⟨last, hlast, hp, -, innermost, -, rfl⟩ := (openFault?_eq_some_iff hpairwise).mp hopen
    have hend := Token.isEnd_iff.mpr hp
    rcases List.mem_append.mp hlast with hlast | hlast
    · have hnot := (List.pairwise_append.mp hpairwise).2.2 last hlast tag.opening (by simp)
      rw [hnot] at hend
      cases hend
    · rcases List.mem_cons.mp hlast with rfl | hlast
      · exact Nat.le_refl _
      · exact hafter last hlast

/-- **What a parse reports behind legal tags lies behind their openings**, whatever the failure. -/
theorem opening_le_place {front behind : List TagTokens} {tag : TagTokens}
    {failure : ParseFailure} (htags : t.tags = front ++ tag :: behind)
    (hlegal : firstFault? options.strict [] (front ++ [tag]) = none)
    (hfailure : parse options t = .error failure) :
    tag.opening.position.offset ≤ (failure.place (parseRun options t).lexer).offset := by
  by_cases hmalformed : ∃ e, parse options t = .error (.malformed e)
  · obtain ⟨e, he⟩ := hmalformed
    have hsame := he
    rw [hfailure] at hsame
    cases hsame
    exact opening_le_of_malformed htags hlegal he
  · -- the failure is that of the loop over the text, and all tokens of the loop lie behind it
    have hends := parse_of_ne_malformed fun e he => hmalformed ⟨e, he⟩
    cases hrest : (Lexer.ofText t).drain.failure with
    | none =>
        rw [hrest] at hends
        obtain ⟨document, hdocument⟩ := hends
        rw [hfailure] at hdocument
        cases hdocument
    | some lexFailure =>
        rw [hrest] at hends
        have hfails : parse options t = .error (.ofLex lexFailure) := hends
        have hlexer := (BuildState.parses_parseRun options t).drain_eq_of_lexFailure hfails
        rw [hfailure] at hfails
        cases hfails
        have hmem : tag.opening ∈ (Lexer.ofText t).drain.tokens := by
          have htag : tag ∈ tagsOf (Lexer.ofText t).drain.tokens := by
            have hcons : tag ∈ t.tags := by rw [htags]; simp
            exact hcons
          exact subset_of_mem_tagsOf htag (by simp)
        have hplace := (Lexer.ready_ofText t).drain_le_place hrest tag.opening hmem
        rw [ParseFailure.place_ofLex]
        rw [hlexer] at hplace
        exact hplace

/-- Tags that strict options find legal are plain, if the text is tokenized. -/
theorem isPlain_of_firstFault? {front behind : List TagTokens}
    (htags : t.tags = front ++ behind) (hend : (Lexer.ofText t).drain.failure = none)
    (hlegal : firstFault? true [] front = none) : ∀ tag ∈ front, tag.IsPlain := by
  intro tag htag
  obtain ⟨front', behind', rfl⟩ := List.append_of_mem htag
  have hfault := firstFault?_eq_none_iff.mp hlegal front' tag behind' rfl
  have hmem : tag ∈ tagsOf (Lexer.ofText t).drain.tokens := by
    have hcons : tag ∈ t.tags := by rw [htags]; simp
    exact hcons
  obtain ⟨ts, last, l, l', hreads, hnext, hlast, htokens⟩ :=
    exists_reads_of_tokenize (tokenize_eq_ok_of_drain hend)
  refine TagTokens.isPlain_of_fault? hfault
    (exists_endsTag_of_mem_tagsOf (Lexer.drain_pairwise _) ⟨last, ?_, hlast⟩ hmem)
  rw [htokens]
  simp

/-- **Strict options only filter.** A text parses to a document under strict options exactly if it
does so without them and no loop of the document has a function or an operator as a bound or a step.
If it parses without them only, the strict parse refuses, at its name, the first loop tag with such
an argument. If it does not parse without them, the strict parse fails in the same way, or it
refuses at its name a loop tag that is opened at or before the place of that failure. -/
theorem strict_filters (t : Text) :
    (∀ document, parse ⟨true⟩ t = .ok document ↔
      parse .default t = .ok document ∧ Node.ArePlain document) ∧
    (∀ document, parse .default t = .ok document →
      (∀ document', parse ⟨true⟩ t ≠ .ok document') →
      ∃ before tag behind e, t.tags = before ++ tag :: behind ∧
        (∀ other ∈ before, other.IsPlain) ∧ ¬ tag.IsPlain ∧
        parse ⟨true⟩ t = .error (.malformed e) ∧ e.Refuses tag ∧
        e.cause.kind = .invalidArgument) ∧
    ∀ failure, parse .default t = .error failure →
      parse ⟨true⟩ t = .error failure ∨
      ∃ tag ∈ t.tags, ∃ e, parse ⟨true⟩ t = .error (.malformed e) ∧ e.Refuses tag ∧
        e.cause.kind = .invalidArgument ∧
        tag.opening.position.offset
          ≤ (failure.place (parseRun .default t).lexer).offset := by
  refine ⟨fun document => ?_, fun document hdocument hstrict => ?_, fun failure hfailure => ?_⟩
  · constructor
    · intro h
      obtain ⟨tokens, htokens, hflat, hplain⟩ := flat_of_parse h
      exact ⟨parse_of_flat htokens hflat (fun hstrict => by cases hstrict), hplain rfl⟩
    · rintro ⟨h, hplain⟩
      obtain ⟨tokens, htokens, hflat, -⟩ := flat_of_parse h
      exact parse_of_flat htokens hflat fun _ => hplain
  · rcases parse_strict_cases t with
      hsame | ⟨front, tag, behind, e, htags, he, hrefuses, hfront, -⟩
    · obtain ⟨document', hdocument'⟩ := (parse_congr hsame).2 ⟨document, hdocument⟩
      exact absurd hdocument' (hstrict document')
    · have hdrain := (BuildState.parses_parseRun .default t).drain_eq_of_ok
        (Lexer.ready_ofText t) hdocument
      have hplain := isPlain_of_firstFault? htags (by rw [hdrain.1]) hfront
      exact ⟨front, tag, behind, e, htags, hplain, hrefuses.not_isPlain, he, hrefuses,
        hrefuses.kind⟩
  · rcases parse_strict_cases t with
      hsame | ⟨front, tag, behind, e, htags, he, hrefuses, -, hlegal⟩
    · exact Or.inl ((parse_congr hsame).1 failure hfailure)
    · have hmem : tag ∈ t.tags := by rw [htags]; simp
      exact Or.inr ⟨tag, hmem, e, he, hrefuses, hrefuses.kind,
        opening_le_place htags hlegal hfailure⟩

def loopToFunction : List Node :=
  [.loop ⟨⟨['n'], by decide⟩, .integer ⟨1, by decide⟩, .function ⟨['g'], by decide⟩, none⟩ []]

/-- A loop up to a function is read without strict options, and they refuse it. -/
theorem strict_filters_loopToFunction :
    parse .default "\x7b$FOR n 1 @g$\x7d\x7b$END$\x7d".toList = .ok loopToFunction ∧
      ∃ tag ∈ Text.tags "\x7b$FOR n 1 @g$\x7d\x7b$END$\x7d".toList, ∃ e,
        parse ⟨true⟩ "\x7b$FOR n 1 @g$\x7d\x7b$END$\x7d".toList = .error (.malformed e) ∧
          e.Refuses tag ∧ e.cause.kind = .invalidArgument := by
  have hscans : Scans .text "\x7b$FOR n 1 @g$\x7d\x7b$END$\x7d".toList
      (Node.flats loopToFunction ++ [.endOfInput]) :=
    .token rfl (by simp) (.token rfl (by simp) (.token rfl (by simp [Element.token])
      (.token rfl (by simp [Element.token]) (.token rfl (by simp [Element.token])
        (.token rfl (by simp) (.token rfl (by simp) (.token rfl (by simp)
          (.token rfl (by simp) (.finished rfl)))))))))
  have hparse : parse .default "\x7b$FOR n 1 @g$\x7d\x7b$END$\x7d".toList = .ok loopToFunction :=
    parse_of_scans hscans rfl (fun h => by simp [Options.default] at h)
  obtain ⟨hiff, hrefused, -⟩ := strict_filters "\x7b$FOR n 1 @g$\x7d\x7b$END$\x7d".toList
  have hstrict : ∀ document,
      parse ⟨true⟩ "\x7b$FOR n 1 @g$\x7d\x7b$END$\x7d".toList ≠ .ok document := by
    intro document hdocument
    obtain ⟨hdefault, hplain⟩ := (hiff document).mp hdocument
    rw [hparse] at hdefault
    cases hdefault
    simp [loopToFunction, Node.ArePlain, Node.IsPlain, LoopHeader.bounds, Element.isPlain] at hplain
  obtain ⟨before, tag, behind, e, htags, -, -, he, hrefuses, hkind⟩ :=
    hrefused loopToFunction hparse hstrict
  exact ⟨hparse, tag, by rw [htags]; simp, e, he, hrefuses, hkind⟩

end TagTemplate
