import TagTemplate.Proofs.Parser.Tags

set_option autoImplicit false

/-! # Tags in the order of the text

The tags among tokens are found from the front to the back, so a tag divides the tokens at its
opening: the tags in front of it are opened before, and its own tokens and the tags behind it come
from what follows (`tagsOf_eq_append_cons`). Every error of a tag is reported at one of its tokens
(`TagTokens.position_of_fault?`), hence behind the openings of all tags in front of it.
-/

namespace TagTemplate

variable {ts : List Token}

/-! ## The tokens of a tag -/

theorem innerTokens_subset (ts : List Token) : innerTokens ts ⊆ ts := by
  induction ts with
  | nil => exact List.Subset.refl _
  | cons t ts ih =>
      unfold innerTokens
      split
      · simp
      · exact List.cons_subset_cons t ih

/-- A tag that is closed is closed by the first token that ends a tag. -/
theorem exists_first_endsTag (h : ∃ t ∈ ts, t.endsTag = true) :
    ∃ front t rest, ts = front ++ t :: rest ∧ t.endsTag = true ∧
      ∀ rest', innerTokens (front ++ t :: rest') = front ++ [t] := by
  obtain ⟨t, ht⟩ := Option.isSome_iff_exists.mp (List.find?_isSome.mpr h)
  obtain ⟨hends, front, rest, rfl, hfront⟩ := List.find?_eq_some_iff_append.mp ht
  refine ⟨front, t, rest, rfl, hends, fun rest' => ?_⟩
  rw [innerTokens_append fun t' ht' => by simpa using hfront t' ht', innerTokens_cons_of_end hends]

theorem exists_endsTag_innerTokens (h : ∃ t ∈ ts, t.endsTag = true) :
    ∃ t ∈ innerTokens ts, t.endsTag = true := by
  obtain ⟨front, t, rest, rfl, hends, hinner⟩ := exists_first_endsTag h
  exact ⟨t, by simp [hinner], hends⟩

/-- The tokens of a tag that is closed are the same in front of more tokens. -/
theorem innerTokens_append_of_mem (h : ∃ t ∈ ts, t.endsTag = true) (rest : List Token) :
    innerTokens (ts ++ rest) = innerTokens ts := by
  obtain ⟨front, t, more, rfl, -, hinner⟩ := exists_first_endsTag h
  rw [List.append_assoc, List.cons_append, hinner, hinner]

/-- A tag among others divides the tokens at its opening: its own tokens and the tags behind it come
from what follows. -/
theorem tagsOf_eq_append_cons {front behind : List TagTokens} {tag : TagTokens}
    (h : tagsOf ts = front ++ tag :: behind) :
    ∃ before after, ts = before ++ tag.opening :: after ∧ tag.opening.payload = .tagStart ∧
      tag.inner = innerTokens after ∧ behind = tagsOf after := by
  induction ts generalizing front with
  | nil => simp [tagsOf] at h
  | cons t ts ih =>
      -- a token that opens no tag, or opens one in front, stays in front of the opening
      have hlater : ∀ front', tagsOf ts = front' ++ tag :: behind →
          ∃ before after, t :: ts = before ++ tag.opening :: after ∧
            tag.opening.payload = .tagStart ∧ tag.inner = innerTokens after ∧
            behind = tagsOf after := by
        intro front' h'
        obtain ⟨before, after, rfl, hstart, hinner, hbehind⟩ := ih h'
        exact ⟨t :: before, after, rfl, hstart, hinner, hbehind⟩
      rw [tagsOf] at h
      split at h
      · next hstart =>
        cases front with
        | nil =>
            obtain ⟨rfl, rfl⟩ := List.cons.inj h
            exact ⟨[], ts, rfl, hstart, rfl, rfl⟩
        | cons first front => exact hlater front (List.cons.inj h).2
      · exact hlater front h

/-- The tokens of a tag are tokens of the text. -/
theorem subset_of_mem_tagsOf {tag : TagTokens} (h : tag ∈ tagsOf ts) :
    tag.opening :: tag.inner ⊆ ts := by
  obtain ⟨front, behind, heq⟩ := List.append_of_mem h
  obtain ⟨before, after, rfl, -, hinner, -⟩ := tagsOf_eq_append_cons heq
  intro t ht
  rw [hinner] at ht
  exact List.mem_append_right _ (List.cons_subset_cons _ (innerTokens_subset after) ht)

/-- A tag of a text that comes to the end of the input has a token that ends it. -/
theorem exists_endsTag_of_mem_tagsOf (hlast : ts.Pairwise fun t _ => t.isEnd = false)
    (hend : ∃ t ∈ ts, t.isEnd = true) {tag : TagTokens} (h : tag ∈ tagsOf ts) :
    ∃ t ∈ tag.inner, t.endsTag = true := by
  obtain ⟨front, behind, heq⟩ := List.append_of_mem h
  obtain ⟨before, after, rfl, hstart, hinner, -⟩ := tagsOf_eq_append_cons heq
  obtain ⟨t, ht, hend⟩ := hend
  rw [hinner]
  refine exists_endsTag_innerTokens ⟨t, ?_, by simp [Token.endsTag, hend]⟩
  -- nothing stands behind the end of the input, so it is not in front of the opening
  rcases List.mem_append.mp ht with ht | ht
  · have hnot := (List.pairwise_append.mp hlast).2.2 t ht tag.opening (by simp)
    rw [hnot] at hend
    cases hend
  · rcases List.mem_cons.mp ht with rfl | ht
    · simp [Token.isEnd, hstart] at hend
    · exact ht

/-! ## The tags of tokens one behind the other -/

/-- Tokens that lead from tag mode to text mode end a tag. -/
theorem exists_tagEnd_of_mode (h : (ts.map Token.payload).foldl modeAfter .tag = .text) :
    ∃ t ∈ ts, t.payload = .tagEnd := by
  induction ts with
  | nil => cases h
  | cons t ts ih =>
      by_cases hend : t.payload = .tagEnd
      · exact ⟨t, by simp, hend⟩
      · have hmode : modeAfter .tag t.payload = .tag := by
          cases hp : t.payload <;> first | rfl | exact absurd hp hend
        rw [List.map_cons, List.foldl_cons, hmode] at h
        obtain ⟨t', ht', hend'⟩ := ih h
        exact ⟨t', List.mem_cons_of_mem _ ht', hend'⟩

/-- Tokens that end outside of tags have their own tags, whatever stands behind them. -/
theorem tagsOf_append_of_mode {mode : Mode}
    (h : (ts.map Token.payload).foldl modeAfter mode = .text) (rest : List Token) :
    tagsOf (ts ++ rest) = tagsOf ts ++ tagsOf rest := by
  induction ts generalizing mode with
  | nil => rfl
  | cons t ts ih =>
      rw [List.map_cons, List.foldl_cons] at h
      by_cases hstart : t.payload = .tagStart
      · have hclosed : ∃ t' ∈ ts, t'.endsTag = true := by
          rw [hstart] at h
          obtain ⟨t', ht', hend⟩ := exists_tagEnd_of_mode h
          exact ⟨t', ht', by simp [Token.endsTag, hend]⟩
        rw [List.cons_append, tagsOf, tagsOf, if_pos hstart, if_pos hstart, ih h,
          innerTokens_append_of_mem hclosed, List.cons_append]
      · rw [List.cons_append, tagsOf, tagsOf, if_neg hstart, if_neg hstart, ih h]

/-! ## Where faults are reported -/

section Position

variable {opening name : Token} {arguments : List Token} {e : SyntaxError}

theorem position_of_argumentsFault? {strict : Bool} {tag : ArgumentTag}
    (h : argumentsFault? strict tag opening.position name.position arguments = some e) :
    ∃ t ∈ opening :: name :: arguments, e.position = t.position := by
  unfold argumentsFault? at h
  split at h
  · next t ht =>
    obtain rfl := Option.some.inj h
    unfold strayError
    split
    · exact ⟨opening, by simp, rfl⟩
    · exact ⟨t, by simp [List.mem_of_find?_eq_some ht], rfl⟩
  · split at h
    · simp at h
    · split at h
      · obtain ⟨cause, -, rfl⟩ := Option.map_eq_some_iff.mp h
        exact ⟨name, by simp, rfl⟩
      · simp at h

theorem position_of_endFault? {depth : Int}
    (h : endFault? depth opening.position name.position arguments = some e) :
    ∃ t ∈ opening :: name :: arguments, e.position = t.position := by
  unfold endFault? at h
  split at h
  · simp at h
  · next t more =>
    split at h
    · obtain rfl := Option.some.inj h
      exact ⟨opening, by simp, rfl⟩
    · split at h
      · obtain rfl := Option.some.inj h
        exact ⟨t, by simp, rfl⟩
      · split at h
        · obtain rfl := Option.some.inj h
          exact ⟨name, by simp, rfl⟩
        · simp at h

/-- **The fault of a tag is reported at one of its tokens.** -/
theorem TagTokens.position_of_fault? {strict : Bool} {depth : Int} {tag : TagTokens}
    (h : tag.fault? strict depth = some e) :
    ∃ t ∈ tag.opening :: tag.inner, e.position = t.position := by
  obtain ⟨opening, inner⟩ := tag
  cases inner with
  | nil => simp [fault?] at h
  | cons name arguments =>
      unfold fault? at h
      dsimp only at h
      split at h
      · obtain rfl := Option.some.inj h
        exact ⟨opening, by simp, rfl⟩
      · split at h
        · exact position_of_argumentsFault? h
        · exact position_of_argumentsFault? h
        · exact position_of_endFault? h
        · obtain rfl := Option.some.inj h
          exact ⟨name, by simp, rfl⟩
      · obtain rfl := Option.some.inj h
        exact ⟨name, by simp, rfl⟩

end Position

end TagTemplate
