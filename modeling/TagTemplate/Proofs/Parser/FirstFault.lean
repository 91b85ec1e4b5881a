import TagTemplate.Proofs.Parser.TagReport

set_option autoImplicit false

/-! # The first fault is reported

The builder comes to the tags of a text one after the other. It reports the fault of the first tag
that has one (`firstFault?`), and, if none has, the loops that are open at the end of the input
(`openFault?`). The proof is an induction over the tokens, whose step is what the builder makes of
one tag (`BuildState.settles`). The main result is `parse_reports_iff`, which says what is reported.
-/

namespace TagTemplate

variable {strict : Bool}

/-! ## The first fault of tags -/

/-- The fault of the first tag that has one, behind the tags before. -/
def firstFault? (strict : Bool) : List TagTokens → List TagTokens → Option SyntaxError
  | _, [] => none
  | before, tag :: tags =>
    (tag.fault? strict (tagDepth before)).or (firstFault? strict (before ++ [tag]) tags)

theorem firstFault?_append (before as bs : List TagTokens) :
    firstFault? strict before (as ++ bs) =
      (firstFault? strict before as).or (firstFault? strict (before ++ as) bs) := by
  induction as generalizing before with
  | nil => rw [List.nil_append, List.append_nil, firstFault?, Option.none_or]
  | cons tag as ih =>
      rw [List.cons_append, firstFault?, firstFault?, ih, Option.or_assoc, List.append_assoc]
      rfl

theorem firstFault?_eq_none_iff {before tags : List TagTokens} :
    firstFault? strict before tags = none ↔ ∀ front tag behind, tags = front ++ tag :: behind →
      tag.fault? strict (tagDepth (before ++ front)) = none := by
  induction tags generalizing before with
  | nil => simp [firstFault?]
  | cons tag tags ih =>
      rw [firstFault?, Option.or_eq_none_iff, ih]
      constructor
      · rintro ⟨htag, hlater⟩ front tag' behind heq
        cases front with
        | nil =>
            obtain ⟨rfl, rfl⟩ := List.cons.inj heq
            rw [List.append_nil]
            exact htag
        | cons first front =>
            obtain ⟨rfl, rfl⟩ := List.cons.inj heq
            have hfault := hlater front tag' behind rfl
            rwa [List.append_assoc] at hfault
      · intro h
        refine ⟨?_, fun front tag' behind heq => ?_⟩
        · have hfault := h [] tag tags rfl
          rwa [List.append_nil] at hfault
        · have hfault := h (tag :: front) tag' behind (by rw [heq]; rfl)
          rwa [List.append_assoc]

theorem firstFault?_eq_some_iff {before tags : List TagTokens} {e : SyntaxError} :
    firstFault? strict before tags = some e ↔ ∃ front tag behind, tags = front ++ tag :: behind ∧
      firstFault? strict before front = none ∧
      tag.fault? strict (tagDepth (before ++ front)) = some e := by
  induction tags generalizing before with
  | nil => simp [firstFault?]
  | cons tag tags ih =>
      rw [firstFault?, Option.or_eq_some_iff, ih]
      constructor
      · rintro (htag | ⟨htag, front, tag', behind, rfl, hfront, hfault⟩)
        · exact ⟨[], tag, tags, rfl, rfl, by rwa [List.append_nil]⟩
        · refine ⟨tag :: front, tag', behind, rfl, ?_, ?_⟩
          · rw [firstFault?, htag, hfront]
            rfl
          · rwa [List.append_assoc] at hfault
      · rintro ⟨front, tag', behind, heq, hfront, hfault⟩
        cases front with
        | nil =>
            obtain ⟨rfl, rfl⟩ := List.cons.inj heq
            rw [List.append_nil] at hfault
            exact Or.inl hfault
        | cons first front =>
            obtain ⟨rfl, rfl⟩ := List.cons.inj heq
            rw [firstFault?, Option.or_eq_none_iff] at hfront
            refine Or.inr ⟨hfront.1, front, tag', behind, rfl, hfront.2, ?_⟩
            rwa [List.append_assoc]

/-- Tags have no first fault if they are all legal. -/
theorem firstFault?_eq_none_iff_allLegal {tags : List TagTokens} :
    firstFault? strict [] tags = none ↔ AllLegal strict tags :=
  firstFault?_eq_none_iff.trans allLegal_iff_fault?.symm

/-! ## Open loops at the end -/

/-- The error of loops that are open at the end of the input. -/
def openFault? (tags : List TagTokens) (ts : List Token) : Option SyntaxError :=
  match ts.find? Token.isEnd with
  | none => none
  | some last =>
    if tagDepth tags = 0 then none
    else (openVariables tags).head?.map fun innermost =>
      ⟨.loopsNotClosed (tagDepth tags).toNat innermost, last.position⟩

theorem openFault?_cons {tags : List TagTokens} {t : Token} {ts : List Token}
    (h : t.isEnd = false) : openFault? tags (t :: ts) = openFault? tags ts := by
  rw [openFault?, openFault?, List.find?_cons_of_neg (by simp [h])]

theorem openFault?_append {tags : List TagTokens} {inner rest : List Token}
    (h : AreInside inner) : openFault? tags (inner ++ rest) = openFault? tags rest := by
  induction inner with
  | nil => rfl
  | cons t inner ih =>
      rw [List.cons_append, openFault?_cons (h t (by simp)).1]
      exact ih fun t' ht' => h t' (List.mem_cons_of_mem _ ht')

/-- Nothing stands behind the end of the input. -/
theorem eq_nil_of_isEnd {t : Token} {ts : List Token} (hend : t.isEnd = true)
    (h : (t :: ts).Pairwise fun t _ => t.isEnd = false) : ts = [] := by
  rw [List.eq_nil_iff_forall_not_mem]
  intro t' ht'
  rw [(List.pairwise_cons.mp h).1 t' ht'] at hend
  cases hend

theorem find?_isEnd_eq_some_iff {ts : List Token} {last : Token}
    (h : ts.Pairwise fun t _ => t.isEnd = false) :
    ts.find? Token.isEnd = some last ↔ last ∈ ts ∧ last.payload = .endOfInput := by
  induction ts with
  | nil => simp
  | cons t ts ih =>
      by_cases hend : t.isEnd = true
      · rw [List.find?_cons_of_pos hend, eq_nil_of_isEnd hend h, List.mem_singleton,
          Option.some_inj]
        constructor
        · rintro rfl
          exact ⟨rfl, Token.isEnd_iff.mp hend⟩
        · rintro ⟨rfl, -⟩
          rfl
      · have hpayload := mt Token.isEnd_iff.mpr hend
        rw [List.find?_cons_of_neg hend, ih (List.pairwise_cons.mp h).2, List.mem_cons]
        constructor
        · rintro ⟨hmem, hp⟩
          exact ⟨Or.inr hmem, hp⟩
        · rintro ⟨rfl | hmem, hp⟩
          · exact absurd hp hpayload
          · exact ⟨hmem, hp⟩

theorem openFault?_eq_some_iff {tags : List TagTokens} {ts : List Token} {e : SyntaxError}
    (h : ts.Pairwise fun t _ => t.isEnd = false) :
    openFault? tags ts = some e ↔ ∃ last ∈ ts, last.payload = .endOfInput ∧ tagDepth tags ≠ 0 ∧
      ∃ innermost ∈ (openVariables tags).head?,
        e = ⟨.loopsNotClosed (tagDepth tags).toNat innermost, last.position⟩ := by
  unfold openFault?
  constructor
  · intro hfault
    split at hfault
    · simp at hfault
    · next last hlast =>
      obtain ⟨hmem, hp⟩ := (find?_isEnd_eq_some_iff h).mp hlast
      split at hfault
      · simp at hfault
      · next hdepth =>
        obtain ⟨innermost, hinnermost, rfl⟩ := Option.map_eq_some_iff.mp hfault
        exact ⟨last, hmem, hp, hdepth, innermost, hinnermost, rfl⟩
  · rintro ⟨last, hmem, hp, hdepth, innermost, hinnermost, rfl⟩
    have hopened : (openVariables tags).head? = some innermost := hinnermost
    rw [(find?_isEnd_eq_some_iff h).mpr ⟨hmem, hp⟩]
    dsimp only
    rw [if_neg hdepth, hopened]
    rfl

/-! ## All tags -/

namespace BuildState

/-- The error of the syntax that a replay ends with. -/
def syntaxError? : Except ParseFailure Step → Option SyntaxError
  | .error (.malformed e) => some e
  | _ => none

theorem syntaxError?_eq_some_iff {replayed : Except ParseFailure Step} {e : SyntaxError} :
    syntaxError? replayed = some e ↔ replayed = .error (.malformed e) := by
  unfold syntaxError?
  split
  · simp
  · next hnot =>
    simp only [reduceCtorEq, false_iff]
    intro h
    exact hnot e h

/-- At the end of the input the builder reports the loops that are open. -/
theorem syntaxError?_replay_end {before : List TagTokens} {u : Unfinished}
    (htracks : Tracks before u) {t : Token} (hp : t.payload = .endOfInput) :
    syntaxError? (replay strict ⟨.outside, u⟩ [t]) = openFault? before [t] := by
  rw [openFault?, List.find?_cons_of_pos (Token.isEnd_iff.mpr hp), htracks.opened, htracks.depth]
  cases hloops : u.loops with
  | nil =>
      rw [replay_of_finished (step_finished_iff.mpr ⟨rfl, hp, hloops, rfl⟩)]
      rfl
  | cons l loops =>
      have hstep : step strict ⟨.outside, u⟩ t = .error (.malformed
          ⟨.loopsNotClosed u.loops.length l.header.var, t.position⟩) := by
        simp [step, stepOutside, hp, hloops, failAt]
      rw [replay_of_error hstep, hloops]
      rfl

/-- **The builder reports the first fault**, and the open loops if there is none. -/
theorem syntaxError?_replay {before : List TagTokens} {u : Unfinished} (htracks : Tracks before u)
    {ts : List Token} (hmoded : Moded .text (ts.map Token.payload))
    (hlast : ts.Pairwise fun t _ => t.isEnd = false) :
    syntaxError? (replay strict ⟨.outside, u⟩ ts) =
      (firstFault? strict before (tagsOf ts)).or (openFault? (before ++ tagsOf ts) ts) := by
  -- by induction on the number of tokens, since a legal tag is passed as a whole
  cases ts with
  | nil => rfl
  | cons t ts =>
      have hlater := (List.pairwise_cons.mp hlast).2
      obtain ⟨hp, hps⟩ := hmoded
      generalize hpayload : t.payload = p at hp hps
      cases hp with
      | endOfInput =>
          have htags : tagsOf [t] = [] := by simp [tagsOf, hpayload]
          rw [eq_nil_of_isEnd (Token.isEnd_iff.mpr hpayload) hlast, htags, List.append_nil,
            firstFault?, Option.none_or]
          exact syntaxError?_replay_end htracks hpayload
      | tagStart =>
          have htags : tagsOf (t :: ts) = ⟨t, innerTokens ts⟩ :: tagsOf ts := by
            rw [tagsOf, if_pos hpayload]
          have hopen : openFault? (before ++ tagsOf (t :: ts)) (t :: ts)
              = openFault? (before ++ [⟨t, innerTokens ts⟩] ++ tagsOf ts) ts := by
            rw [htags, List.append_assoc]
            exact openFault?_cons (by simp [Token.isEnd, hpayload])
          rw [replay_of_next (Moves.opening hpayload).step, hopen, htags, firstFault?]
          cases settles t htracks hps with
          | faulty hfault hreplay =>
              rw [hfault, hreplay]
              rfl
          | cut hfault hreplay hinner _ =>
              -- no further tag is opened and the input does not end, so neither side has an error
              have hnone : tagsOf ts = [] := by
                rw [← List.append_nil ts, tagsOf_append hinner]
                rfl
              have hclosed : ∀ tags, openFault? tags ts = none := by
                intro tags
                rw [← List.append_nil ts, openFault?_append hinner]
                rfl
              rw [hfault, hreplay, hnone, hclosed]
              rfl
          | @legal inner rest u' hfault hts hne hinner hmoded' htracks' hreplay =>
              have hrest := (List.pairwise_append.mp (hts ▸ hlater)).2.1
              have hlt : rest.length < ts.length := by
                have hpos := List.length_pos_iff.mpr hne
                rw [hts, List.length_append]
                omega
              have ih := syntaxError?_replay htracks' hmoded' hrest
              rw [hfault, hreplay, ih, hts, tagsOf_append hinner, openFault?_append hinner,
                Option.none_or]
      | text content =>
          have htags : tagsOf (t :: ts) = tagsOf ts := by simp [tagsOf, hpayload]
          have htracks' : Tracks before (u.add (.text content)) := ⟨htracks.depth, htracks.opened⟩
          have hopen : openFault? (before ++ tagsOf ts) (t :: ts)
              = openFault? (before ++ tagsOf ts) ts :=
            openFault?_cons (by simp [Token.isEnd, hpayload])
          have ih := syntaxError?_replay htracks' hps hlater
          rw [replay_of_next (Moves.text hpayload).step, ih, htags, hopen]
termination_by ts.length

end BuildState

/-- The error of the syntax that a parse ends with, from the tags and the tokens of the text. -/
theorem parse_eq_malformed_iff_firstFault {options : Options} {t : Text} {e : SyntaxError} :
    parse options t = .error (.malformed e) ↔
      (firstFault? options.strict [] t.tags).or
        (openFault? t.tags (Lexer.ofText t).drain.tokens) = some e := by
  have hready := Lexer.ready_ofText t
  have htracks : BuildState.Tracks [] .empty := ⟨rfl, rfl⟩
  have hreplay : BuildState.syntaxError?
      (BuildState.start.replay options.strict (Lexer.ofText t).drain.tokens) =
      (firstFault? options.strict [] t.tags).or (openFault? t.tags (Lexer.ofText t).drain.tokens) :=
    BuildState.syntaxError?_replay htracks hready.drain_moded (Lexer.drain_pairwise _)
  rw [BuildState.parse_eq_malformed_iff_replay, ← BuildState.syntaxError?_eq_some_iff, hreplay]

/-- A parse ends with an error of the syntax exactly if some tag is not legal at its place, and then
with the error of the first such tag, or if all tags are legal but loops are open at the end of the
input, and then with that error, which is reported there. -/
theorem parse_eq_malformed_iff (options : Options) (t : Text) (e : SyntaxError) :
    parse options t = .error (.malformed e) ↔
      (∃ before tag behind, t.tags = before ++ tag :: behind ∧ AllLegal options.strict before ∧
        tag.fault? options.strict (tagDepth before) = some e) ∨
      (AllLegal options.strict t.tags ∧ ∃ last ∈ (Lexer.ofText t).drain.tokens,
        last.payload = .endOfInput ∧ tagDepth t.tags ≠ 0 ∧
        ∃ innermost ∈ (openVariables t.tags).head?,
          e = ⟨.loopsNotClosed (tagDepth t.tags).toNat innermost, last.position⟩) := by
  rw [parse_eq_malformed_iff_firstFault, Option.or_eq_some_iff, firstFault?_eq_some_iff,
    firstFault?_eq_none_iff_allLegal, openFault?_eq_some_iff (Lexer.drain_pairwise _)]
  simp only [firstFault?_eq_none_iff_allLegal, List.nil_append]

/-- **Which error is reported.** A parse ends with a diagnostic of the syntax exactly if some tag is
not legal at its place, and then with that of the first such tag, or if all tags are legal but loops
are open at the end of the input, and then with one that counts them, names the variable of the
innermost, and stands there. -/
theorem parse_reports_iff (options : Options) (t : Text) (d : Diagnostic) :
    (∃ e, parse options t = .error (.malformed e) ∧ e.diagnostic = d) ↔
      (∃ before tag behind, t.tags = before ++ tag :: behind ∧ AllLegal options.strict before ∧
        tag.Reports options.strict (tagDepth before) d) ∨
      (AllLegal options.strict t.tags ∧ ∃ last ∈ (Lexer.ofText t).drain.tokens,
        last.payload = .endOfInput ∧ tagDepth t.tags ≠ 0 ∧
        ∃ innermost ∈ (openVariables t.tags).head?,
          d = .openLoops (tagDepth t.tags).toNat innermost last.position) := by
  simp only [parse_eq_malformed_iff, TagTokens.reports_iff_fault?]
  constructor
  · rintro ⟨e, ⟨before, tag, behind, htags, hlegal, hfault⟩ |
      ⟨hlegal, last, hlast, hend, hdepth, innermost, hinnermost, rfl⟩, rfl⟩
    · exact .inl ⟨before, tag, behind, htags, hlegal, e, hfault, rfl⟩
    · exact .inr ⟨hlegal, last, hlast, hend, hdepth, innermost, hinnermost, rfl⟩
  · rintro (⟨before, tag, behind, htags, hlegal, e, hfault, rfl⟩ |
      ⟨hlegal, last, hlast, hend, hdepth, innermost, hinnermost, rfl⟩)
    · exact ⟨e, .inl ⟨before, tag, behind, htags, hlegal, hfault⟩, rfl⟩
    · exact ⟨_, .inr ⟨hlegal, last, hlast, hend, hdepth, innermost, hinnermost, rfl⟩, rfl⟩

/-- The first tag is the one that is reported, and not the end tag behind it, which has an argument
and is not closed. -/
example : parse .default "\x7b$FOR i 1$\x7d\x7b$END x".toList =
    .error (.malformed ⟨.loopArity 2, ⟨2, 1, 3⟩⟩) := by cbv

end TagTemplate
