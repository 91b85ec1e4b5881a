import TagTemplate.Proofs.Lexer.Order
import TagTemplate.Proofs.Parser.Replay
import TagTemplate.Proofs.Parser.Tags

set_option autoImplicit false

/-! # What the builder makes of one tag

Behind the opening of a tag the builder comes to one of three ends (`BuildState.Settles`): it
reports the fault of the tag, the tokens stop inside the tag, or the tag is legal and the builder is
outside of tags again, with the loops open that the tags so far have left open
(`BuildState.Tracks`). This is shown for the arguments of a tag, which are elements up to the first
token that is none (`exists_elements`), then for end tags, and from these for every tag
(`BuildState.settles`).
-/

namespace TagTemplate

variable {strict : Bool}

/-! ## Arguments among the tokens -/

/-- Tokens are read as elements, each as one. -/
def ReadAs (arguments : List Token) (elements : List Element) : Prop :=
  arguments.map Token.payload = elements.map Element.token

section Arguments

variable {arguments : List Token} {elements : List Element}

/-- A token that is read as an element ends no tag, opens none and is not stray. -/
theorem ReadAs.of_mem (h : ReadAs arguments elements) :
    ∀ t ∈ arguments, t.endsTag = false ∧ t.payload ≠ .tagStart ∧ t.isStray = false := by
  intro t ht
  have hmem : t.payload ∈ elements.map Element.token := h ▸ List.mem_map_of_mem ht
  obtain ⟨e, -, he⟩ := List.mem_map.mp hmem
  have hequals := e.token_ne_equals
  unfold Token.endsTag Token.isStray Token.isEnd
  rw [← he]
  refine ⟨?_, ?_, ?_⟩
  · cases e <;> rfl
  · cases e <;> simp [Element.token]
  · rw [Bool.or_eq_false_iff, beq_eq_false_iff_ne]
    exact ⟨hequals, by cases e <;> rfl⟩

theorem ReadAs.areInside (h : ReadAs arguments elements) : AreInside arguments := by
  intro t ht
  obtain ⟨hends, hstart, -⟩ := h.of_mem t ht
  exact ⟨(Token.endsTag_eq_false_iff.mp hends).2, hstart⟩

theorem ReadAs.filterMap (h : ReadAs arguments elements) :
    (arguments.filterMap fun t => t.payload.element?) = elements := by
  have hmap : (arguments.filterMap fun t => t.payload.element?)
      = (arguments.map Token.payload).filterMap Payload.element? := by
    rw [List.filterMap_map]
    rfl
  unfold ReadAs at h
  rw [hmap, h, List.filterMap_map]
  have helement : Payload.element? ∘ Element.token = some := funext element?_token
  rw [helement, List.filterMap_some]

/-- Behind the name of a tag there are elements, and then the tokens stop, or one comes that is no
element. -/
theorem exists_elements {ts : List Token} (h : Moded .tag (ts.map Token.payload)) :
    ∃ arguments elements rest, ts = arguments ++ rest ∧ ReadAs arguments elements ∧
      Moded .tag (rest.map Token.payload) ∧
      ∀ t ∈ rest.head?, t.payload = .tagEnd ∨ t.isStray = true := by
  induction ts with
  | nil => exact ⟨[], [], [], rfl, rfl, trivial, by simp⟩
  | cons t ts ih =>
      by_cases hstop : t.payload = .tagEnd ∨ t.isStray = true
      · refine ⟨[], [], t :: ts, rfl, rfl, h, fun t' ht' => ?_⟩
        cases ht'
        exact hstop
      · obtain ⟨hp, hps⟩ := h
        generalize hpayload : t.payload = p at hp hps
        cases hp with
        | endOfInput => simp [Token.isStray, Token.isEnd, hpayload] at hstop
        | tagEnd => simp [hpayload] at hstop
        | equals => simp [Token.isStray, hpayload] at hstop
        | element e =>
            have hmode : modeAfter .tag e.token = .tag := by cases e <;> rfl
            rw [hmode] at hps
            obtain ⟨arguments, elements, rest, rfl, helements, hrest, hhead⟩ := ih hps
            have hcons : ReadAs (t :: arguments) (e :: elements) :=
              congrArg₂ List.cons hpayload helements
            exact ⟨t :: arguments, e :: elements, rest, rfl, hcons, hrest, hhead⟩

/-- The end of the tag adds no element. -/
theorem ReadAs.filterMap_concat (h : ReadAs arguments elements) {t : Token}
    (ht : t.payload = .tagEnd) :
    ((arguments ++ [t]).filterMap fun t => t.payload.element?) = elements := by
  have helement : t.payload.element? = none := by rw [ht]; rfl
  rw [List.filterMap_append, h.filterMap]
  simp [helement]

/-- No argument is stray, and none is the end of the tag. -/
theorem ReadAs.plain (h : ReadAs arguments elements) : arguments.find? Token.isStray = none ∧
    (arguments.any fun t => t.payload == .tagEnd) = false := by
  rw [List.find?_eq_none, List.any_eq_false]
  constructor
  · intro t ht
    simp [(h.of_mem t ht).2.2]
  · intro t ht
    have hends := Token.endsTag_eq_false_iff.mp (h.of_mem t ht).1
    simp [hends.1]

variable (strict) (tag : ArgumentTag) (opening name : Position)

/-- Where the tokens stop among the arguments, no fault has been seen. -/
theorem argumentsFault?_cut (h : ReadAs arguments elements) :
    argumentsFault? strict tag opening name arguments = none := by
  unfold argumentsFault?
  rw [h.plain.1, h.plain.2]
  cases tag <;> rfl

/-- At the end of the tag its elements decide. -/
theorem argumentsFault?_tagEnd (h : ReadAs arguments elements) {t : Token}
    (ht : t.payload = .tagEnd) :
    argumentsFault? strict tag opening name (arguments ++ [t]) =
      match tag with
      | .echo => none
      | .loop => (loopFault? strict elements).map fun cause => ⟨cause, name⟩ := by
  have hstray : t.isStray = false := by simp [Token.isStray, Token.isEnd, ht]
  unfold argumentsFault?
  rw [List.find?_append, h.plain.1, List.any_append, h.filterMap_concat ht]
  cases tag <;> simp [hstray, ht]

/-- The first stray token is a fault, whatever stands behind it. -/
theorem argumentsFault?_stray (h : ReadAs arguments elements) {t : Token} (ht : t.isStray = true)
    (more : List Token) :
    argumentsFault? strict tag opening name (arguments ++ t :: more) =
      some (strayError tag opening t) := by
  unfold argumentsFault?
  rw [List.find?_append, h.plain.1, Option.none_or, List.find?_cons_of_pos ht]

end Arguments

namespace BuildState

/-! ## One tag -/

/-- The builder takes up elements one after the other. -/
theorem replay_elements {tag : ArgumentTag} {opening name : Position} {read : List Element}
    {u : Unfinished} {arguments rest : List Token} {elements : List Element}
    (h : ReadAs arguments elements) :
    replay strict ⟨.arguments tag opening name read, u⟩ (arguments ++ rest) =
      replay strict ⟨.arguments tag opening name (elements.reverse ++ read), u⟩ rest := by
  induction arguments generalizing elements read with
  | nil =>
      cases elements with
      | nil => rfl
      | cons e elements => simp [ReadAs] at h
  | cons t arguments ih =>
      cases elements with
      | nil => simp [ReadAs] at h
      | cons e elements =>
          obtain ⟨hp, hlater⟩ := List.cons.inj h
          rw [List.cons_append, replay_of_next (Moves.argument e hp).step, ih hlater,
            List.reverse_cons, List.append_assoc]
          rfl

/-- A stray token among the arguments is reported. -/
theorem step_stray {tag : ArgumentTag} {opening name : Position} {read : List Element}
    {u : Unfinished} {t : Token} (ht : t.isStray = true) :
    step strict ⟨.arguments tag opening name read, u⟩ t =
      .error (.malformed (strayError tag opening t)) := by
  rw [Token.isStray, Bool.or_eq_true, beq_iff_eq] at ht
  rcases ht with hequals | hend
  · have hnot : t.isEnd = false := by simp [Token.isEnd, hequals]
    simp [step, stepArgument, hequals, Payload.elementKind?, strayError, hnot, failAt]
  · have hp := Token.isEnd_iff.mp hend
    simp [step, stepArgument, hp, strayError, hend, failAt]

/-- The end of a tag closes it with its elements. -/
theorem step_tagEnd {tag : ArgumentTag} {opening name : Position} {read : List Element}
    {u : Unfinished} {t : Token} (ht : t.payload = .tagEnd) :
    step strict ⟨.arguments tag opening name read, u⟩ t =
      closeArguments strict u tag name read.reverse := by
  simp [step, stepArgument, ht]

/-- The open loops of the builder are those that tags have left open. -/
structure Tracks (tags : List TagTokens) (u : Unfinished) : Prop where
  depth : tagDepth tags = u.loops.length
  opened : openVariables tags = u.loops.map fun l => l.header.var

section Tracks

variable {tags : List TagTokens} {tag : TagTokens} {u : Unfinished}

theorem Tracks.echo (h : Tracks tags u) (hname : tag.name? = some .echo) (n : Node) :
    Tracks (tags ++ [tag]) (u.add n) where
  depth := by
    rw [tagDepth_concat, hname, h.depth]
    simp [Unfinished.add]
  opened := by
    rw [openVariables_concat, TagTokens.variables, hname, h.opened]
    rfl

theorem Tracks.loop (h : Tracks tags u) (hname : tag.name? = some .loop) {header : LoopHeader}
    (helements : tag.elements = header.expressions) :
    Tracks (tags ++ [tag]) (u.openLoop header) where
  depth := by
    rw [tagDepth_concat, hname, h.depth]
    simp [Unfinished.openLoop]
  opened := by
    rw [openVariables_concat, TagTokens.variables, hname, helements, h.opened]
    rfl

theorem Tracks.ending (h : Tracks tags u) (hname : tag.name? = some .ending) {closed : Unfinished}
    (hclosed : u.closeLoop? = some closed) : Tracks (tags ++ [tag]) closed := by
  obtain ⟨nodes, loops⟩ := u
  cases loops with
  | nil => simp [Unfinished.closeLoop?] at hclosed
  | cons l loops =>
      cases hclosed
      constructor
      · rw [tagDepth_concat, hname, h.depth]
        simp
      · rw [openVariables_concat, TagTokens.variables, hname, h.opened]
        rfl

/-- The depth is 0 exactly if there is no loop to close. -/
theorem Tracks.depth_eq_zero_iff (h : Tracks tags u) : tagDepth tags = 0 ↔ u.closeLoop? = none := by
  rw [h.depth, Int.natCast_eq_zero, List.length_eq_zero_iff]
  unfold Unfinished.closeLoop?
  split
  · next hloops => simp [hloops]
  · next hloops => simp [hloops]

end Tracks

/-- What the builder makes of a tag, from the state behind its opening and the tokens that follow:
it reports the fault of the tag, the tokens stop inside the tag, or it goes on outside of tags
behind it. -/
inductive Settles (strict : Bool) (before : List TagTokens) (tag : TagTokens) (s : BuildState)
    (ts : List Token) : Prop
  | faulty {e : SyntaxError} (hfault : tag.fault? strict (tagDepth before) = some e)
      (hreplay : s.replay strict ts = .error (.malformed e))
  | cut {s' : BuildState} (hfault : tag.fault? strict (tagDepth before) = none)
      (hreplay : s.replay strict ts = .ok (.next s'))
      (hinner : AreInside ts) (hplace : s'.place.mode = .tag)
  | legal (inner : List Token) {rest : List Token} {u : Unfinished}
      (hfault : tag.fault? strict (tagDepth before) = none) (hts : ts = inner ++ rest)
      (hne : inner ≠ []) (hinner : AreInside inner)
      (hmoded : Moded .text (rest.map Token.payload)) (htracks : Tracks (before ++ [tag]) u)
      (hreplay : s.replay strict ts = replay strict ⟨.outside, u⟩ rest)

section Settles

variable {before : List TagTokens} {u : Unfinished} {opening name : Token} {text : Text}
  {ts : List Token}

theorem fault?_arguments {tag : ArgumentTag} (depth : Int) (hname : name.payload = .identifier text)
    (htag : TagName.ofText? text = some tag.tagName) (inner : List Token) :
    TagTokens.fault? strict depth ⟨opening, name :: inner⟩ =
      argumentsFault? strict tag opening.position name.position inner := by
  simp only [TagTokens.fault?, hname, htag]
  cases tag <;> rfl

/-- Behind the end of a tag the tokens are those of text mode. -/
theorem moded_of_tagEnd {t : Token} {rest : List Token} (ht : t.payload = .tagEnd)
    (h : Moded .tag ((t :: rest).map Token.payload)) : Moded .text (rest.map Token.payload) := by
  have hrest := h.2
  rw [ht] at hrest
  exact hrest

/-- A tag whose arguments are elements up to its end. -/
theorem settles_closed (tag : ArgumentTag) (htracks : Tracks before u)
    (hname : name.payload = .identifier text) (htag : TagName.ofText? text = some tag.tagName)
    {arguments rest : List Token} {elements : List Element} {t : Token}
    (helements : ReadAs arguments elements) (ht : t.payload = .tagEnd)
    (hrest : Moded .text (rest.map Token.payload)) :
    Settles strict before ⟨opening, name :: (arguments ++ [t])⟩
      ⟨.arguments tag opening.position name.position [], u⟩ (arguments ++ t :: rest) := by
  have hname' : (TagTokens.mk opening (name :: (arguments ++ [t]))).name? = some tag.tagName := by
    simp [TagTokens.name?, hname, htag]
  have hfault := argumentsFault?_tagEnd strict tag opening.position name.position helements ht
  rw [← fault?_arguments (tagDepth before) hname htag] at hfault
  have hclose : ∀ result, closeArguments strict u tag name.position elements = result →
      step strict ⟨.arguments tag opening.position name.position (elements.reverse ++ []), u⟩ t
        = result := by
    intro result hresult
    rw [step_tagEnd ht, List.append_nil, List.reverse_reverse, hresult]
  -- a tag without fault is passed as a whole, whatever its end does to the document
  have hlegal : ∀ u', Tracks (before ++ [⟨opening, name :: (arguments ++ [t])⟩]) u' →
      TagTokens.fault? strict (tagDepth before) ⟨opening, name :: (arguments ++ [t])⟩ = none →
      closeArguments strict u tag name.position elements = .ok (.next ⟨.outside, u'⟩) →
      Settles strict before ⟨opening, name :: (arguments ++ [t])⟩
        ⟨.arguments tag opening.position name.position [], u⟩ (arguments ++ t :: rest) := by
    intro u' htracks' hnone hresult
    have hinner : AreInside (arguments ++ [t]) :=
      helements.areInside.append (areInside_of_tagEnd ht)
    refine .legal (arguments ++ [t]) hnone (by simp) (by simp) hinner hrest htracks' ?_
    rw [replay_elements helements]
    exact replay_of_next (hclose _ hresult)
  cases tag with
  | echo => exact hlegal _ (htracks.echo hname' (.echo elements)) hfault rfl
  | loop =>
      have hexpressions :
          (TagTokens.mk opening (name :: (arguments ++ [t]))).elements = elements :=
        helements.filterMap_concat ht
      have hcause := loopFault?_eq strict elements
      cases hheader : loopHeader? strict elements with
      | error cause =>
          rw [hheader] at hcause
          rw [hcause] at hfault
          refine .faulty hfault ?_
          rw [replay_elements helements]
          apply replay_of_error
          apply hclose
          rw [closeArguments, hheader]
          rfl
      | ok header =>
          rw [hheader] at hcause
          rw [hcause] at hfault
          have hheads := (loopHeader?_eq_ok_iff.mp hheader).1
          refine hlegal _ (htracks.loop hname' (hexpressions.trans hheads)) hfault ?_
          rw [closeArguments, hheader]

/-- A tag with arguments, from behind its name on. -/
theorem settles_arguments (tag : ArgumentTag) (htracks : Tracks before u)
    (hname : name.payload = .identifier text) (htag : TagName.ofText? text = some tag.tagName)
    (hmoded : Moded .tag (ts.map Token.payload)) :
    Settles strict before ⟨opening, name :: innerTokens ts⟩
      ⟨.arguments tag opening.position name.position [], u⟩ ts := by
  obtain ⟨arguments, elements, rest, rfl, helements, hrest, hhead⟩ := exists_elements hmoded
  have hfault : ∀ inner, TagTokens.fault? strict (tagDepth before) ⟨opening, name :: inner⟩
      = argumentsFault? strict tag opening.position name.position inner :=
    fault?_arguments (tagDepth before) hname htag
  rw [innerTokens_append fun t ht => (helements.of_mem t ht).1]
  cases rest with
  | nil =>
      -- the tokens stop among the arguments
      refine .cut ?_ (replay_elements helements) ?_ rfl
      · rw [hfault, innerTokens, List.append_nil, argumentsFault?_cut _ _ _ _ helements]
      · rw [List.append_nil]
        exact helements.areInside
  | cons t rest =>
      rcases hhead t rfl with htagEnd | ht
      · rw [innerTokens_cons_of_end (by simp [Token.endsTag, htagEnd])]
        have hlater := moded_of_tagEnd htagEnd hrest
        exact settles_closed tag htracks hname htag helements htagEnd hlater
      · obtain ⟨more, hmore⟩ := exists_innerTokens_cons t rest
        refine .faulty (e := strayError tag opening.position t) ?_ ?_
        · rw [hfault, hmore, argumentsFault?_stray _ _ _ _ helements ht]
        · rw [replay_elements helements]
          exact replay_of_error (step_stray ht)

/-- An end tag, from behind its name on. -/
theorem settles_ending (htracks : Tracks before u) (hname : name.payload = .identifier text)
    (htag : TagName.ofText? text = some .ending) (hmoded : Moded .tag (ts.map Token.payload)) :
    Settles strict before ⟨opening, name :: innerTokens ts⟩
      ⟨.ending opening.position name.position, u⟩ ts := by
  have hfault : ∀ inner, TagTokens.fault? strict (tagDepth before) ⟨opening, name :: inner⟩
      = endFault? (tagDepth before) opening.position name.position inner := by
    intro inner
    simp only [TagTokens.fault?, hname, htag]
  cases ts with
  | nil => exact .cut (by rw [hfault]; rfl) rfl (by simp [AreInside]) rfl
  | cons t ts =>
      obtain ⟨more, hmore⟩ := exists_innerTokens_cons t ts
      by_cases hend : t.isEnd = true
      · have hp := Token.isEnd_iff.mp hend
        refine .faulty (e := ⟨.endNotClosed, opening.position⟩) ?_ (replay_of_error ?_)
        · rw [hfault, hmore, endFault?, if_pos hend]
        · simp [step, stepEnding, hp, failAt]
      · by_cases htagEnd : t.payload = .tagEnd
        · have hrest := moded_of_tagEnd htagEnd hmoded
          have hinner : innerTokens (t :: ts) = [t] :=
            innerTokens_cons_of_end (by simp [Token.endsTag, htagEnd])
          have hname' : (TagTokens.mk opening [name, t]).name? = some .ending := by
            simp [TagTokens.name?, hname, htag]
          rw [hinner]
          cases hclosed : u.closeLoop? with
          | none =>
              have hdepth := htracks.depth_eq_zero_iff.mpr hclosed
              refine .faulty (e := ⟨.endWithoutLoop, name.position⟩) ?_ (replay_of_error ?_)
              · rw [hfault, endFault?, if_neg hend, if_neg (by simp [htagEnd]), if_pos hdepth]
              · simp [step, stepEnding, htagEnd, hclosed, failAt]
          | some closed =>
              have hdepth : tagDepth before ≠ 0 := by
                rw [Ne, htracks.depth_eq_zero_iff, hclosed]
                simp
              refine .legal [t] ?_ rfl (by simp) (areInside_of_tagEnd htagEnd) hrest
                (htracks.ending hname' hclosed) (replay_of_next (Moves.ending htagEnd hclosed).step)
              rw [hfault, endFault?, if_neg hend, if_neg (by simp [htagEnd]), if_neg hdepth]
        · refine .faulty (e := ⟨.endWithArguments, t.position⟩) ?_ (replay_of_error ?_)
          · rw [hfault, hmore, endFault?, if_neg hend, if_pos htagEnd]
          · have hp := mt Token.isEnd_iff.mpr hend
            simp only [step, stepEnding]
            rfl

/-- A token in front of the rest of a tag belongs to the tag as well. -/
theorem Settles.of_next {tag : TagTokens} {s s' : BuildState} {t : Token} {ts : List Token}
    (h : Settles strict before tag s' ts) (hstep : s.step strict t = .ok (.next s'))
    (ht : AreInside [t]) : Settles strict before tag s (t :: ts) := by
  cases h with
  | faulty hfault hreplay => exact .faulty hfault (by rw [replay_of_next hstep, hreplay])
  | cut hfault hreplay hinner hplace =>
      exact .cut hfault (by rw [replay_of_next hstep, hreplay]) (ht.append hinner) hplace
  | @legal inner rest u' hfault hts hne hinner hmoded htracks hreplay =>
      refine .legal (t :: inner) hfault ?_ (by simp) (ht.append hinner) hmoded htracks ?_
      · rw [hts, List.cons_append]
      · rw [replay_of_next hstep, hreplay]

/-- **What the builder makes of a tag**, from behind its opening on. -/
theorem settles (opening : Token) (htracks : Tracks before u)
    (hmoded : Moded .tag (ts.map Token.payload)) :
    Settles strict before ⟨opening, innerTokens ts⟩ ⟨.tagOpened opening.position, u⟩ ts := by
  cases ts with
  | nil => exact .cut rfl rfl (by simp [AreInside]) rfl
  | cons name ts =>
      obtain ⟨more, hmore⟩ := exists_innerTokens_cons name ts
      -- all but an identifier is a fault that the step of this token reports
      have hother : ∀ cause position,
          TagTokens.fault? strict (tagDepth before) ⟨opening, name :: more⟩
            = some ⟨cause, position⟩ →
          stepTagName u opening.position name = failAt cause position →
          Settles strict before ⟨opening, innerTokens (name :: ts)⟩
            ⟨.tagOpened opening.position, u⟩ (name :: ts) := by
        intro cause position hfault hstep
        rw [hmore]
        exact .faulty hfault (replay_of_error hstep)
      cases hp : name.payload with
      | endOfInput =>
          exact hother .tagNotClosed opening.position (by simp [TagTokens.fault?, hp])
            (by simp [stepTagName, hp])
      | identifier text =>
          have hends : name.endsTag = false := by simp [Token.endsTag, Token.isEnd, hp]
          have hplain : AreInside [name] := by simp [AreInside, Token.isEnd, hp]
          have hlater : Moded .tag (ts.map Token.payload) := by
            have hrest := hmoded.2
            rw [hp] at hrest
            exact hrest
          cases htag : TagName.ofText? text with
          | none =>
              exact hother (.unknownTag text) name.position (by simp [TagTokens.fault?, hp, htag])
                (by simp [stepTagName, hp, htag])
          | some tag =>
              rw [innerTokens_cons hends]
              cases tag with
              | echo =>
                  refine (settles_arguments .echo htracks hp htag hlater).of_next ?_ hplain
                  simp [step, stepTagName, hp, htag]
              | loop =>
                  refine (settles_arguments .loop htracks hp htag hlater).of_next ?_ hplain
                  simp [step, stepTagName, hp, htag]
              | ending =>
                  refine (settles_ending htracks hp htag hlater).of_next ?_ hplain
                  simp [step, stepTagName, hp, htag]
      | _ =>
          exact hother (.tagNameExpected name.payload.kind) name.position
            (by simp [TagTokens.fault?, hp]) (by simp [stepTagName, hp])

end Settles

end BuildState

end TagTemplate
