import TagTemplate.Proofs.Parser.Settle

set_option autoImplicit false

/-! # What is reported of a tag

A tag that is not legal at its place is reported by a diagnostic (`TagTokens.Reports`): which one it
is, with its wording, its kind and its place, follows from the tokens of the tag, its depth and the
strict option. There is one case for each thing that can be wrong, and each says what must not have
been wrong before it. The main result is `TagTokens.reports_iff_fault?`: these are exactly the
diagnostics of the faults of a tag.
-/

namespace TagTemplate

/-! ## Diagnostics -/

namespace Diagnostic

/-- Loops are open where the input ends: how many, and the variable of the innermost. -/
def openLoops (count : Nat) (innermost : Identifier) (p : Position) : Diagnostic :=
  .atPosition (toString count ++ " FOR tag(s) not closed with END (innermost: " ++
    String.ofList innermost.name ++ ")") .unbalancedFor p

/-- An end tag stands, with its name, where no loop is open. -/
def endWithoutLoop (p : Position) : Diagnostic :=
  .atPosition "END tag without a matching FOR" .unbalancedEnd p

end Diagnostic

namespace TagTokens

/-- The first token behind the opening names the given tag, and these tokens stand behind it. -/
def IsNamed (tag : TagTokens) (which : TagName) (name : Token) (arguments : List Token) : Prop :=
  tag.inner = name :: arguments ∧
    ∃ text, name.payload = .identifier text ∧ TagName.ofText? text = some which

/-- A loop tag comes to its end, without a stray token on the way. -/
structure IsClosedLoop (tag : TagTokens) (name : Token) : Prop where
  named : tag.IsNamed .loop name tag.inner.tail
  clean : ∀ t ∈ tag.inner.tail, t.isStray = false
  closed : ∃ t ∈ tag.inner.tail, t.payload = .tagEnd

/-- The diagnostic of a tag that is not legal at its depth. -/
inductive Reports (strict : Bool) (depth : Int) (tag : TagTokens) : Diagnostic → Prop
  | cutOff {t : Token} {arguments : List Token} (inner : tag.inner = t :: arguments)
    (ended : t.payload = .endOfInput) :
    Reports strict depth tag (.atPosition "Tag not closed" .unclosedTag tag.opening.position)
  | noName {t : Token} {arguments : List Token} (inner : tag.inner = t :: arguments)
    (continued : t.payload ≠ .endOfInput) (noIdentifier : ∀ text, t.payload ≠ .identifier text) :
    Reports strict depth tag
      (.atPosition ("Expected tag name, got " ++ t.payload.kind.name) .unknownTag t.position)
  | unknownName {t : Token} {arguments : List Token} {text : Text}
    (inner : tag.inner = t :: arguments) (identifier : t.payload = .identifier text)
    (unknown : TagName.ofText? text = none) :
    Reports strict depth tag
      (.atPosition ("Unknown tag name '" ++ String.ofList text ++ "'") .unknownTag t.position)
  | endCutOff {name t : Token} {more : List Token} (named : tag.IsNamed .ending name (t :: more))
    (ended : t.payload = .endOfInput) :
    Reports strict depth tag (.atPosition "END tag not closed" .unclosedTag tag.opening.position)
  | endArguments {name t : Token} {more : List Token} (named : tag.IsNamed .ending name (t :: more))
    (continued : t.payload ≠ .endOfInput) (notClosed : t.payload ≠ .tagEnd) :
    Reports strict depth tag (.atPosition "END tag takes no arguments" .endArguments t.position)
  | unbalancedEnd {name t : Token} {more : List Token}
    (named : tag.IsNamed .ending name (t :: more)) (closed : t.payload = .tagEnd)
    (outermost : depth = 0) :
    Reports strict depth tag (.endWithoutLoop name.position)
  | equalsArgument {which : ArgumentTag} {name t : Token} {front behind : List Token}
    (named : tag.IsNamed which.tagName name (front ++ t :: behind))
    (first : ∀ u ∈ front, u.isStray = false) (equals : t.payload = .identifier ['=']) :
    Reports strict depth tag
      (.atPosition ("'=' is not a valid argument in " ++ which.name ++ " tag") .invalidArgument
        t.position)
  | argumentsCutOff {which : ArgumentTag} {name t : Token} {front behind : List Token}
    (named : tag.IsNamed which.tagName name (front ++ t :: behind))
    (first : ∀ u ∈ front, u.isStray = false) (ended : t.payload = .endOfInput) :
    Reports strict depth tag
      (.atPosition (which.name ++ " tag not closed") .unclosedTag tag.opening.position)
  | arity {name : Token} (complete : tag.IsClosedLoop name)
    (count : ¬(tag.elements.length = 3 ∨ tag.elements.length = 4)) :
    Reports strict depth tag
      (.atPosition ("FOR tag takes 3 or 4 arguments, got " ++ toString tag.elements.length) .arity
        name.position)
  | loopVariable {name : Token} {element : Element} {bounds : List Element}
    (complete : tag.IsClosedLoop name)
    (count : tag.elements.length = 3 ∨ tag.elements.length = 4)
    (elements : tag.elements = element :: bounds) (noVariable : ∀ v, element ≠ .var v) :
    Reports strict depth tag
      (.atPosition ("FOR loop variable must be a variable, got '" ++
        String.ofList element.literal ++ "'") .invalidArgument name.position)
  | strictBound {name : Token} {v : Identifier} {element : Element} {front behind : List Element}
    (isStrict : strict = true) (complete : tag.IsClosedLoop name)
    (count : tag.elements.length = 3 ∨ tag.elements.length = 4)
    (elements : tag.elements = .var v :: (front ++ element :: behind))
    (first : ∀ e ∈ front, e.isPlain = true) (refused : element.isPlain = false) :
    Reports strict depth tag
      (.atPosition ("FOR bound or step cannot be '" ++ String.ofList element.literal ++ "'")
        .invalidArgument name.position)

end TagTokens

/-- No tag is reported at its place. -/
def AllLegal (strict : Bool) (tags : List TagTokens) : Prop :=
  ∀ before tag behind, tags = before ++ tag :: behind →
    ∀ d, ¬ tag.Reports strict (tagDepth before) d

/-! ## Faults of the arguments -/

theorem Token.isStray_iff {t : Token} :
    t.isStray = true ↔ t.payload = .identifier ['='] ∨ t.payload = .endOfInput := by
  rw [isStray, Bool.or_eq_true, beq_iff_eq, Token.isEnd_iff]

section Arguments

variable {strict : Bool}

/-- The fault of arguments is the first stray token, and without one that of the elements of a loop
tag. -/
theorem argumentsFault?_eq_some_iff {which : ArgumentTag} {opening name : Position}
    {arguments : List Token} {e : SyntaxError} :
    argumentsFault? strict which opening name arguments = some e ↔
      (∃ front t behind, arguments = front ++ t :: behind ∧ (∀ u ∈ front, u.isStray = false) ∧
        t.isStray = true ∧ e = strayError which opening t) ∨
      (which = .loop ∧ (∀ t ∈ arguments, t.isStray = false) ∧
        (∃ t ∈ arguments, t.payload = .tagEnd) ∧
        ∃ cause, loopFault? strict (arguments.filterMap fun t => t.payload.element?) = some cause ∧
          e = ⟨cause, name⟩) := by
  unfold argumentsFault?
  cases hstray : arguments.find? Token.isStray with
  | some t =>
      -- a stray token is reported whatever the elements are
      obtain ⟨ht, front, behind, harguments, hfront⟩ := List.find?_eq_some_iff_append.mp hstray
      have hfront' : ∀ u ∈ front, u.isStray = false := by simpa using hfront
      constructor
      · intro he
        exact .inl ⟨front, t, behind, harguments, hfront', ht, (Option.some_inj.mp he).symm⟩
      · rintro (⟨front', t', behind', harguments', hclean, ht', rfl⟩ | ⟨-, hclean, -⟩)
        · have hfirst : arguments.find? Token.isStray = some t' :=
            List.find?_eq_some_iff_append.mpr
              ⟨ht', front', behind', harguments', by simpa using hclean⟩
          rw [Option.some_inj.mp (hstray.symm.trans hfirst)]
        · have hnot := hclean t (by simp [harguments])
          rw [ht] at hnot
          cases hnot
  | none =>
      have hclean : ∀ t ∈ arguments, t.isStray = false := by
        simpa using List.find?_eq_none.mp hstray
      constructor
      · intro he
        cases which with
        | echo => cases he
        | loop =>
            dsimp only at he
            split at he
            · next hclosed =>
              obtain ⟨cause, hcause, rfl⟩ := Option.map_eq_some_iff.mp he
              exact .inr ⟨rfl, hclean, by simpa using hclosed, cause, hcause, rfl⟩
            · cases he
      · rintro (⟨front, t, behind, rfl, -, ht, -⟩ | ⟨rfl, -, hclosed, cause, hcause, rfl⟩)
        · have hnot := hclean t (by simp)
          rw [ht] at hnot
          cases hnot
        · dsimp only
          rw [if_pos (by simpa using hclosed), hcause]
          rfl

theorem expressionsFault?_of_not_var {first : Element} (h : ∀ v, first ≠ .var v)
    {bounds : List Element} :
    expressionsFault? strict (first :: bounds) = some (.loopVariable first) := by
  cases first with
  | var v => exact absurd rfl (h v)
  | _ => rfl

theorem expressionsFault?_eq_some_iff {elements : List Element} {cause : SyntaxCause} :
    expressionsFault? strict elements = some cause ↔
      (∃ element bounds, elements = element :: bounds ∧ (∀ v, element ≠ .var v) ∧
          cause = .loopVariable element) ∨
        strict = true ∧ ∃ v front element behind, elements = .var v :: (front ++ element :: behind) ∧
          (∀ e ∈ front, e.isPlain = true) ∧ element.isPlain = false ∧
          cause = .strictBound element := by
  constructor
  · intro h
    cases elements with
    | nil => cases h
    | cons first bounds =>
        by_cases hvar : ∃ v, first = .var v
        · obtain ⟨v, rfl⟩ := hvar
          rw [expressionsFault?] at h
          split at h
          · next hstrict =>
            obtain ⟨element, hfind, rfl⟩ := Option.map_eq_some_iff.mp h
            obtain ⟨hrefused, front, behind, rfl, hfront⟩ := List.find?_eq_some_iff_append.mp hfind
            exact .inr ⟨hstrict, v, front, element, behind, rfl, by simpa using hfront,
              by simpa using hrefused, rfl⟩
          · cases h
        · have hnot : ∀ v, first ≠ .var v := not_exists.mp hvar
          rw [expressionsFault?_of_not_var hnot] at h
          exact .inl ⟨first, bounds, rfl, hnot, (Option.some_inj.mp h).symm⟩
  · rintro (⟨element, bounds, rfl, hvar, rfl⟩ |
      ⟨rfl, v, front, element, behind, rfl, hfront, hrefused, rfl⟩)
    · exact expressionsFault?_of_not_var hvar
    · have hfind : (front ++ element :: behind).find? (fun e => !e.isPlain) = some element :=
        List.find?_eq_some_iff_append.mpr
          ⟨by simp [hrefused], front, behind, rfl, by simpa using hfront⟩
      rw [expressionsFault?, if_pos rfl, hfind]
      rfl

/-- What can be wrong with the elements of a loop tag, in the order in which it is checked. -/
theorem loopFault?_eq_some_iff {elements : List Element} {cause : SyntaxCause} :
    loopFault? strict elements = some cause ↔
      ¬(elements.length = 3 ∨ elements.length = 4) ∧ cause = .loopArity elements.length ∨
      (elements.length = 3 ∨ elements.length = 4) ∧
        ((∃ element bounds, elements = element :: bounds ∧ (∀ v, element ≠ .var v) ∧
            cause = .loopVariable element) ∨
          strict = true ∧ ∃ v front element behind, elements = .var v :: (front ++ element :: behind) ∧
            (∀ e ∈ front, e.isPlain = true) ∧ element.isPlain = false ∧
            cause = .strictBound element) := by
  unfold loopFault?
  by_cases hcount : elements.length = 3 ∨ elements.length = 4
  · rw [if_pos hcount, expressionsFault?_eq_some_iff]
    simp [hcount]
  · rw [if_neg hcount, Option.some_inj]
    constructor
    · intro heq
      exact .inl ⟨hcount, heq.symm⟩
    · rintro (⟨-, heq⟩ | ⟨hcount', -⟩)
      · exact heq.symm
      · exact absurd hcount' hcount

end Arguments

/-! ## Faults and diagnostics -/

namespace TagTokens

variable {strict : Bool} {depth : Int} {tag : TagTokens}

theorem IsNamed.fault?_eq_argumentsFault? {which : ArgumentTag} {name : Token}
    {arguments : List Token} (h : tag.IsNamed which.tagName name arguments) :
    tag.fault? strict depth =
      argumentsFault? strict which tag.opening.position name.position arguments := by
  obtain ⟨hinner, text, hname, htag⟩ := h
  obtain ⟨opening, inner⟩ := tag
  obtain rfl : inner = name :: arguments := hinner
  exact BuildState.fault?_arguments depth hname htag arguments

theorem IsNamed.fault?_eq_endFault? {name : Token} {arguments : List Token}
    (h : tag.IsNamed .ending name arguments) :
    tag.fault? strict depth = endFault? depth tag.opening.position name.position arguments := by
  obtain ⟨hinner, text, hname, htag⟩ := h
  simp only [fault?, hinner, hname, htag]

/-- The elements of a closed loop tag are checked as such. -/
theorem IsClosedLoop.fault?_of_loopFault? {name : Token} (h : tag.IsClosedLoop name)
    {cause : SyntaxCause} (hcause : loopFault? strict tag.elements = some cause) :
    tag.fault? strict depth = some ⟨cause, name.position⟩ := by
  have hnamed : tag.IsNamed ArgumentTag.loop.tagName name tag.inner.tail := h.named
  rw [hnamed.fault?_eq_argumentsFault?]
  exact argumentsFault?_eq_some_iff.mpr (.inr ⟨rfl, h.clean, h.closed, cause, hcause, rfl⟩)

/-- What is reported of a tag is a fault of it. -/
theorem Reports.exists_fault? {d : Diagnostic} (h : tag.Reports strict depth d) :
    ∃ e, tag.fault? strict depth = some e ∧ e.diagnostic = d := by
  cases h with
  | cutOff inner ended =>
      exact ⟨⟨.tagNotClosed, tag.opening.position⟩, by simp [fault?, inner, ended], rfl⟩
  | @noName t _ inner continued noIdentifier =>
      exact ⟨⟨.tagNameExpected t.payload.kind, t.position⟩, by simp only [fault?, inner], rfl⟩
  | @unknownName t _ text inner identifier unknown =>
      exact ⟨⟨.unknownTag text, t.position⟩, by simp [fault?, inner, identifier, unknown], rfl⟩
  | endCutOff named ended =>
      refine ⟨⟨.endNotClosed, tag.opening.position⟩, ?_, rfl⟩
      rw [named.fault?_eq_endFault?, endFault?, if_pos (Token.isEnd_iff.mpr ended)]
  | @endArguments _ t _ named continued notClosed =>
      refine ⟨⟨.endWithArguments, t.position⟩, ?_, rfl⟩
      rw [named.fault?_eq_endFault?, endFault?, if_neg (mt Token.isEnd_iff.mp continued),
        if_pos notClosed]
  | @unbalancedEnd name t _ named closed outermost =>
      refine ⟨⟨.endWithoutLoop, name.position⟩, ?_, rfl⟩
      have hcontinued : ¬ t.isEnd = true := mt Token.isEnd_iff.mp (by simp [closed])
      rw [named.fault?_eq_endFault?, endFault?, if_neg hcontinued, if_neg (not_not.mpr closed),
        if_pos outermost]
  | @equalsArgument which _ t front behind named first equals =>
      refine ⟨⟨.equalsArgument which, t.position⟩, ?_, rfl⟩
      rw [named.fault?_eq_argumentsFault?]
      refine argumentsFault?_eq_some_iff.mpr
        (.inl ⟨front, t, behind, rfl, first, Token.isStray_iff.mpr (.inl equals), ?_⟩)
      rw [strayError, if_neg (mt Token.isEnd_iff.mp (by simp [equals]))]
  | @argumentsCutOff which _ t front behind named first ended =>
      refine ⟨⟨.argumentsNotClosed which, tag.opening.position⟩, ?_, rfl⟩
      rw [named.fault?_eq_argumentsFault?]
      refine argumentsFault?_eq_some_iff.mpr
        (.inl ⟨front, t, behind, rfl, first, Token.isStray_iff.mpr (.inr ended), ?_⟩)
      rw [strayError, if_pos (Token.isEnd_iff.mpr ended)]
  | @arity name complete count =>
      exact ⟨_, complete.fault?_of_loopFault? (loopFault?_eq_some_iff.mpr (.inl ⟨count, rfl⟩)), rfl⟩
  | @loopVariable name element bounds complete count elements noVariable =>
      exact ⟨_, complete.fault?_of_loopFault? (loopFault?_eq_some_iff.mpr
        (.inr ⟨count, .inl ⟨element, bounds, elements, noVariable, rfl⟩⟩)), rfl⟩
  | @strictBound name v element front behind isStrict complete count elements first refused =>
      exact ⟨_, complete.fault?_of_loopFault? (loopFault?_eq_some_iff.mpr
        (.inr ⟨count, .inr ⟨isStrict, v, front, element, behind, elements, first, refused, rfl⟩⟩)),
        rfl⟩

/-- A fault of the elements of a closed loop tag is reported. -/
theorem IsClosedLoop.reports {name : Token} (h : tag.IsClosedLoop name) {cause : SyntaxCause}
    (hcause : loopFault? strict tag.elements = some cause) :
    tag.Reports strict depth (SyntaxError.mk cause name.position).diagnostic := by
  obtain ⟨hcount, rfl⟩ | ⟨hcount, ⟨element, bounds, helements, hvar, rfl⟩ |
    ⟨hstrict, v, front, element, behind, helements, hfirst, hrefused, rfl⟩⟩ :=
    loopFault?_eq_some_iff.mp hcause
  · exact .arity h hcount
  · exact .loopVariable h hcount helements hvar
  · exact .strictBound hstrict h hcount helements hfirst hrefused

/-- A fault of a tag with arguments is reported. -/
theorem IsNamed.reports_of_arguments (which : ArgumentTag) {name : Token} {arguments : List Token}
    (h : tag.IsNamed which.tagName name arguments) {e : SyntaxError}
    (he : tag.fault? strict depth = some e) : tag.Reports strict depth e.diagnostic := by
  rw [h.fault?_eq_argumentsFault?] at he
  obtain ⟨front, t, behind, rfl, hfront, hstray, rfl⟩ | ⟨rfl, hclean, hclosed, cause, hcause, rfl⟩ :=
    argumentsFault?_eq_some_iff.mp he
  · unfold strayError
    split
    · next hend => exact .argumentsCutOff h hfront (Token.isEnd_iff.mp hend)
    · next hend =>
      obtain hequals | hended := Token.isStray_iff.mp hstray
      · exact .equalsArgument h hfront hequals
      · exact absurd (Token.isEnd_iff.mpr hended) hend
  · have htail : tag.inner.tail = arguments := by rw [h.1, List.tail_cons]
    have hloop : tag.IsClosedLoop name :=
      ⟨by rw [htail]; exact h, by rwa [htail], by rwa [htail]⟩
    exact hloop.reports (by rwa [elements, htail])

/-- A fault of an end tag is reported. -/
theorem IsNamed.reports_of_ending {name : Token} {arguments : List Token}
    (h : tag.IsNamed .ending name arguments) {e : SyntaxError}
    (he : tag.fault? strict depth = some e) : tag.Reports strict depth e.diagnostic := by
  rw [h.fault?_eq_endFault?] at he
  cases arguments with
  | nil => cases he
  | cons t more =>
      rw [endFault?] at he
      split at he
      · next hend =>
        obtain rfl := Option.some_inj.mp he
        exact .endCutOff h (Token.isEnd_iff.mp hend)
      · next hend =>
        split at he
        · next hclosed =>
          obtain rfl := Option.some_inj.mp he
          exact .endArguments h (mt Token.isEnd_iff.mpr hend) hclosed
        · next hclosed =>
          split at he
          · next hdepth =>
            obtain rfl := Option.some_inj.mp he
            exact .unbalancedEnd h (not_not.mp hclosed) hdepth
          · cases he

/-- A fault of a tag is reported. -/
theorem reports_of_fault? {e : SyntaxError} (h : tag.fault? strict depth = some e) :
    tag.Reports strict depth e.diagnostic := by
  cases hinner : tag.inner with
  | nil => simp [fault?, hinner] at h
  | cons t arguments =>
      cases hp : t.payload with
      | endOfInput =>
          simp only [fault?, hinner, hp] at h
          obtain rfl := Option.some_inj.mp h
          exact .cutOff hinner hp
      | identifier text =>
          cases htag : TagName.ofText? text with
          | none =>
              simp only [fault?, hinner, hp, htag] at h
              obtain rfl := Option.some_inj.mp h
              exact .unknownName hinner hp htag
          | some which =>
              have hnamed : tag.IsNamed which t arguments := ⟨hinner, text, hp, htag⟩
              cases which with
              | echo => exact IsNamed.reports_of_arguments .echo hnamed h
              | loop => exact IsNamed.reports_of_arguments .loop hnamed h
              | ending => exact hnamed.reports_of_ending h
      | _ =>
          simp only [fault?, hinner, hp] at h
          obtain rfl := Option.some_inj.mp h
          rw [← hp]
          exact .noName hinner (by simp [hp]) (by simp [hp])

/-- **What is reported of a tag are the diagnostics of its faults.** -/
theorem reports_iff_fault? {d : Diagnostic} :
    tag.Reports strict depth d ↔ ∃ e, tag.fault? strict depth = some e ∧ e.diagnostic = d := by
  constructor
  · exact Reports.exists_fault?
  · rintro ⟨e, he, rfl⟩
    exact reports_of_fault? he

/-- Nothing is reported of a tag that has no fault. -/
theorem forall_not_reports_iff :
    (∀ d, ¬ tag.Reports strict depth d) ↔ tag.fault? strict depth = none := by
  constructor
  · intro h
    rw [Option.eq_none_iff_forall_ne_some]
    intro e he
    exact h e.diagnostic (reports_of_fault? he)
  · intro hnone d h
    obtain ⟨e, he, -⟩ := h.exists_fault?
    cases he.symm.trans hnone

/-- At most one thing is reported of a tag. -/
theorem Reports.unique {d d' : Diagnostic} (h : tag.Reports strict depth d)
    (h' : tag.Reports strict depth d') : d = d' := by
  obtain ⟨e, he, rfl⟩ := h.exists_fault?
  obtain ⟨e', he', rfl⟩ := h'.exists_fault?
  rw [Option.some_inj.mp (he.symm.trans he')]

end TagTokens

/-- Tags are all legal if none has a fault. -/
theorem allLegal_iff_fault? {strict : Bool} {tags : List TagTokens} :
    AllLegal strict tags ↔ ∀ before tag behind, tags = before ++ tag :: behind →
      tag.fault? strict (tagDepth before) = none := by
  unfold AllLegal
  simp only [TagTokens.forall_not_reports_iff]

end TagTemplate
