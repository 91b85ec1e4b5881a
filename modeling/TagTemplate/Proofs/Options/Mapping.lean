import TagTemplate.Options.Yaml
import TagTemplate.Proofs.Options.Order

set_option autoImplicit false

/-! # Options of a mapping

A mapping whose keys are texts, numbers, truth values and nothing gives options, or is refused for
its unknown keys, which are listed in order, or for its value. This fails in two ways. Unknown keys
of several kinds cannot be put in order, and the error that comes of it names the kinds of two of
them, which depend on how the keys were sorted. And what has an integer with too many digits inside
cannot be shown. The main result is `optionMapping_outcome`.
-/

namespace TagTemplate

/-! ## What is promised and what is seen -/

/-- What a refusal of a mapping shows: its unknown keys, or its value if it has no such keys. -/
def shownData (m : Mapping) : List Datum :=
  if m.unknownKeys.isEmpty then m.entries.map (·.2) else m.unknownKeys

/-- What is promised of the options of a mapping: options, which are the default ones for an empty
mapping, if the one option has a truth value; an error about the value that lists the unknown keys if
there are some, each once, where those of each kind stand in their order; and an error about the
value that shows what is no truth value otherwise. -/
inductive PromisedOptions (m : Mapping) : Except Refusal Options → Prop
  | absent (empty : m.entries = []) : PromisedOptions m (.ok .default)
  | given {value : Bool} (single : m.entries = [(.text Options.strictName, .boolean value)]) :
    PromisedOptions m (.ok ⟨value⟩)
  | unknown {keys : List Datum} (ne_nil : keys ≠ []) (listed : keys.Perm m.unknownKeys)
    (ordered : keys.Pairwise fun a b => a.keyKind? = b.keyKind? → KeyBefore a b) :
    PromisedOptions m (.error ⟨.valueError, "Unknown parser options: " ++
      String.ofList (Text.join [',', ' '] (keys.map Datum.plain))⟩)
  | wrongType {value : Datum} (single : m.entries = [(.text Options.strictName, value)])
    (notBoolean : ∀ b, value ≠ .boolean b) :
    PromisedOptions m (.error ⟨.valueError,
      "Parser option 'strict_for_arguments' must be a boolean, got " ++
        String.ofList value.display⟩)

/-- A type error about two unknown keys of different kinds. -/
def ComparisonFails (m : Mapping) (r : Except Refusal Options) : Prop :=
  ∃ a ∈ m.unknownKeys, ∃ b ∈ m.unknownKeys, a.keyKind? ≠ b.keyKind? ∧
    r = .error ⟨.typeError,
      "'<' not supported between instances of '" ++ a.typeName ++ "' and '" ++ b.typeName ++ "'"⟩

/-- What the caller may see if options are read from a mapping, or from a YAML text with that
mapping as its document, whatever loads the text and however keys are sorted. -/
inductive OptionsOutcome (m : Mapping) : Except Refusal Options → Prop
  | mapping (sorting : Sorting) :
    OptionsOutcome m ((Options.ofMapping sorting m).mapError OptionsFailure.refusal)
  | yaml (sorting : Sorting) {load : YamlLoader} {t : Text} (loaded : load t = .ok (.mapping m)) :
    OptionsOutcome m ((Options.ofYaml sorting load t).mapError YamlOptionsFailure.refusal)

/-- A YAML text is seen as its mapping is. -/
theorem OptionsOutcome.exists_sorting {m : Mapping} {r : Except Refusal Options}
    (h : OptionsOutcome m r) :
    ∃ sorting, r = (Options.ofMapping sorting m).mapError OptionsFailure.refusal := by
  cases h with
  | mapping sorting => exact ⟨sorting, rfl⟩
  | @yaml sorting load t loaded =>
    refine ⟨sorting, ?_⟩
    simp only [Options.ofYaml, loaded]
    cases Options.ofMapping sorting m <;> rfl

/-! ## The outcomes -/

/-- Only a text is the name of the option. -/
theorem isStrictKey_iff {key : Datum} :
    isStrictKey key = true ↔ key = .text Options.strictName := by
  cases key <;> simp [isStrictKey, Datum.sameValue, Datum.ratio?, Datum.infinity?]

theorem comparedParts_of_keyValue? {a b : Datum} {v : KeyValue} (ha : a.keyValue? = some v) :
    comparedParts a b = (a, b) := by
  obtain ⟨t, rfl, -⟩ | ⟨n, -, rfl | ⟨x, rfl, -⟩⟩ | ⟨rfl, -⟩ := Datum.keyValue?_eq_some ha <;>
    simp [comparedParts]

section Outcomes

variable {m m' : Mapping} {sorting sorting' : Sorting} {r r' : Except Refusal Options}

theorem unknownKeys_eq_nil_iff :
    m.unknownKeys = [] ↔ ∀ e ∈ m.entries, e.1 = .text Options.strictName := by
  simp [Mapping.unknownKeys, Mapping.keys, isStrictKey_iff]

theorem optionKeys_unknownKeys (h : ∀ e ∈ m.entries, ∃ v, e.1.keyValue? = some v) :
    OptionKeys m.unknownKeys :=
  OptionKeys.sublist ⟨List.forall_mem_map.mpr h, m.distinct⟩ List.filter_sublist

theorem unknownKeys_perm (h : m.entries.Perm m'.entries) : m.unknownKeys.Perm m'.unknownKeys :=
  (h.map _).filter _

/-- A mapping without unknown keys has at most one entry. -/
theorem nil_or_single_of_unknownKeys (hknown : m.unknownKeys = []) :
    m.entries = [] ∨ ∃ value, m.entries = [(.text Options.strictName, value)] := by
  have hstrict := unknownKeys_eq_nil_iff.mp hknown
  have hdistinct := m.distinct
  generalize m.entries = entries at hstrict hdistinct
  cases entries with
  | nil => exact .inl rfl
  | cons e rest =>
    obtain ⟨key, value⟩ := e
    obtain rfl : key = .text Options.strictName := hstrict _ List.mem_cons_self
    cases rest with
    | nil => exact .inr ⟨value, rfl⟩
    | cons e' rest =>
      have hkey : e'.1 = .text Options.strictName := hstrict e' (by simp)
      have hdiffer := (List.pairwise_cons.mp hdistinct).1 e'.1 (by simp)
      rw [hkey] at hdiffer
      exact absurd (isStrictKey_iff.mpr rfl) (Bool.eq_false_iff.mp hdiffer)

theorem shownData_of_unknownKeys (h : m.unknownKeys ≠ []) : shownData m = m.unknownKeys :=
  if_neg (by rwa [List.isEmpty_iff])

theorem shownData_of_known (h : m.unknownKeys = []) : shownData m = m.entries.map (·.2) :=
  if_pos (List.isEmpty_iff.mpr h)

theorem ofMapping_of_unordered (hsort : sortKeys? m.unknownKeys = none) :
    Options.ofMapping sorting m = .error (.ofPair (sorting.stop m.unknownKeys)) := by
  rw [Options.ofMapping, hsort]

theorem ofMapping_of_unknownKeys {sorted : List Datum}
    (hsort : sortKeys? m.unknownKeys = some sorted) (hunknown : m.unknownKeys ≠ []) :
    Options.ofMapping sorting m =
      .error (if sorted.any Datum.hasLongInteger then .longInteger else .unknownKeys sorted) := by
  cases sorted with
  | nil => exact absurd (perm_of_sortKeys? hsort).symm.eq_nil hunknown
  | cons key rest => rw [Options.ofMapping, hsort]

theorem ofMapping_of_nil (h : m.entries = []) : Options.ofMapping sorting m = .ok .default := by
  simp [Options.ofMapping, Mapping.unknownKeys, Mapping.keys, h, sortKeys?]

theorem ofMapping_of_truthValue {b : Bool}
    (h : m.entries = [(.text Options.strictName, .boolean b)]) :
    Options.ofMapping sorting m = .ok ⟨b⟩ := by
  have hknown : m.unknownKeys = [] := unknownKeys_eq_nil_iff.mpr (by simp [h])
  simp [Options.ofMapping, hknown, sortKeys?, h]

theorem ofMapping_of_wrongType {value : Datum}
    (h : m.entries = [(.text Options.strictName, value)]) (hvalue : ∀ b, value ≠ .boolean b) :
    Options.ofMapping sorting m =
      .error (if value.hasLongInteger then .longInteger
        else .notBoolean Options.strictName value) := by
  have hknown : m.unknownKeys = [] := unknownKeys_eq_nil_iff.mpr (by simp [h])
  cases value with
  | boolean b => exact absurd rfl (hvalue b)
  | _ => simp [Options.ofMapping, hknown, sortKeys?, h]

/-- Keys of several kinds cannot be sorted, and the error names two of them. -/
theorem comparisonFails_of_not_oneKind (hkeys : ∀ e ∈ m.entries, ∃ v, e.1.keyValue? = some v)
    (hmixed : ¬ OneKind m.unknownKeys) :
    ComparisonFails m ((Options.ofMapping sorting m).mapError OptionsFailure.refusal) := by
  have hunknown := optionKeys_unknownKeys hkeys
  have hsort := hunknown.sortKeys?_eq_none hmixed
  have hpair := sorting.unordered m.unknownKeys hsort
  have hkinds := hunknown.keyKind?_ne_of_unordered hpair
  obtain ⟨others, hperm⟩ := hpair.listed
  have hleft := hperm.mem_iff.mpr (.head _)
  have hright := hperm.mem_iff.mpr (.tail _ (.head _))
  obtain ⟨v, hv⟩ := hunknown.isKey _ hleft
  refine ⟨_, hleft, _, hright, hkinds, ?_⟩
  rw [ofMapping_of_unordered hsort, OptionsFailure.ofPair, comparedParts_of_keyValue? hv]
  rfl

/-- There are three outcomes: unknown keys without an order, an integer with too many digits among
what would be shown, and what is promised. -/
theorem ofMapping_cases (hkeys : ∀ e ∈ m.entries, ∃ v, e.1.keyValue? = some v)
    (hr : r = (Options.ofMapping sorting m).mapError OptionsFailure.refusal) :
    (¬ OneKind m.unknownKeys ∧ ComparisonFails m r) ∨
      (OneKind m.unknownKeys ∧ (∃ d ∈ shownData m, d.hasLongInteger = true) ∧
        r = .error ⟨.valueError, longIntegerMessage⟩) ∨
      (OneKind m.unknownKeys ∧ (∀ d ∈ shownData m, d.hasLongInteger = false) ∧
        PromisedOptions m r) := by
  subst hr
  by_cases hone : OneKind m.unknownKeys
  · refine .inr ?_
    by_cases hknown : m.unknownKeys = []
    · -- there is nothing to refuse but the value of the one option
      rw [shownData_of_known hknown]
      obtain hnil | ⟨value, hsingle⟩ := nil_or_single_of_unknownKeys hknown
      · rw [ofMapping_of_nil hnil]
        exact .inr ⟨hone, by simp [hnil], .absent hnil⟩
      · by_cases hvalue : ∃ b, value = .boolean b
        · obtain ⟨b, rfl⟩ := hvalue
          rw [ofMapping_of_truthValue hsingle]
          exact .inr ⟨hone, by simp [hsingle, Datum.hasLongInteger], .given hsingle⟩
        · have hvalue' : ∀ b, value ≠ .boolean b := not_exists.mp hvalue
          rw [ofMapping_of_wrongType hsingle hvalue']
          by_cases hlong : value.hasLongInteger = true
          · rw [if_pos hlong]
            exact .inl ⟨hone, by simp [hsingle, hlong], rfl⟩
          · rw [if_neg hlong]
            exact .inr ⟨hone, by simpa [hsingle] using hlong, .wrongType hsingle hvalue'⟩
    · -- the unknown keys are refused, whatever the values are
      obtain ⟨sorted, hsort, hpairwise⟩ := (optionKeys_unknownKeys hkeys).exists_sortKeys? hone
      have hperm := perm_of_sortKeys? hsort
      have hne : sorted ≠ [] := fun hnil => hknown (hnil ▸ hperm).symm.eq_nil
      rw [ofMapping_of_unknownKeys hsort hknown, shownData_of_unknownKeys hknown]
      by_cases hlong : sorted.any Datum.hasLongInteger = true
      · obtain ⟨d, hd, hdlong⟩ := List.any_eq_true.mp hlong
        exact .inl ⟨hone, ⟨d, hperm.mem_iff.mp hd, hdlong⟩, by rw [if_pos hlong]; rfl⟩
      · rw [if_neg hlong]
        refine .inr ⟨hone, fun d hd => ?_, .unknown hne hperm (hpairwise.imp ?_)⟩
        · rw [Bool.eq_false_iff]
          intro hdlong
          exact hlong (List.any_eq_true.mpr ⟨d, hperm.mem_iff.mpr hd, hdlong⟩)
        · intro a b hab _
          exact hab
  · exact .inl ⟨hone, comparisonFails_of_not_oneKind hkeys hone⟩

/-- How the message about too many digits begins. The limit is generalized, as its digits need not
be computed. -/
theorem exists_longIntegerMessage : ∃ s, longIntegerMessage = "Exceeds the limit (" ++ s := by
  unfold longIntegerMessage digitLimitWording
  generalize toString maxIntegerDigits = digits
  simp only [String.append_assoc]
  exact ⟨_, rfl⟩

/-- A promised message is another one than that about too many digits: they begin differently. -/
theorem PromisedOptions.ne_longInteger (h : PromisedOptions m r) :
    r ≠ .error ⟨.valueError, longIntegerMessage⟩ := by
  obtain ⟨s, hlong⟩ := exists_longIntegerMessage
  rw [hlong]
  intro heq
  cases h with
  | absent empty => cases heq
  | given single => cases heq
  | unknown ne_nil listed ordered =>
    simp only [Except.error.injEq, Refusal.mk.injEq, true_and] at heq
    have hchars := congrArg String.toList heq
    simp at hchars
  | wrongType single notBoolean =>
    simp only [Except.error.injEq, Refusal.mk.injEq, true_and] at heq
    have hchars := congrArg String.toList heq
    simp at hchars

theorem ComparisonFails.not_promised (h : ComparisonFails m r) : ¬ PromisedOptions m r := by
  obtain ⟨a, -, b, -, -, rfl⟩ := h
  rintro ⟨⟩

theorem ComparisonFails.ne_longInteger (h : ComparisonFails m r) :
    r ≠ .error ⟨.valueError, longIntegerMessage⟩ := by
  obtain ⟨a, -, b, -, -, rfl⟩ := h
  intro heq
  cases congrArg Refusal.errorClass (Except.error.inj heq)

/-- A mapping gives options exactly if its only key, if any, is the option with a truth value. -/
theorem exists_eq_ok_iff (hr : r = (Options.ofMapping sorting m).mapError OptionsFailure.refusal)
    (hkeys : ∀ e ∈ m.entries, ∃ v, e.1.keyValue? = some v) :
    (∃ o, r = .ok o) ↔ ∀ e ∈ m.entries, e.1 = .text Options.strictName ∧ ∃ b, e.2 = .boolean b := by
  constructor
  · rintro ⟨o, rfl⟩
    obtain ⟨-, a, -, b, -, -, herror⟩ | ⟨-, -, herror⟩ | ⟨-, -, hpromised⟩ :=
      ofMapping_cases hkeys hr
    · cases herror
    · cases herror
    · cases hpromised with
      | absent empty => simp [empty]
      | given single => simp [single]
  · intro hentries
    have hknown : m.unknownKeys = [] := unknownKeys_eq_nil_iff.mpr fun e he => (hentries e he).1
    obtain hnil | ⟨value, hsingle⟩ := nil_or_single_of_unknownKeys hknown
    · exact ⟨.default, by rw [hr, ofMapping_of_nil hnil]; rfl⟩
    · obtain ⟨-, b, hb⟩ := hentries _ (hsingle ▸ List.mem_singleton_self _)
      obtain rfl : value = .boolean b := hb
      exact ⟨⟨b⟩, by rw [hr, ofMapping_of_truthValue hsingle]; rfl⟩

/-- Entries in another order, sorted in another way, give the same if the unknown keys are of one
kind. -/
theorem ofMapping_perm (hkeys : ∀ e ∈ m.entries, ∃ v, e.1.keyValue? = some v)
    (hone : OneKind m.unknownKeys) (hperm : m.entries.Perm m'.entries) :
    Options.ofMapping sorting' m' = Options.ofMapping sorting m := by
  have hunknown : m.unknownKeys.Perm m'.unknownKeys := unknownKeys_perm hperm
  obtain ⟨sorted, hsort, -⟩ := (optionKeys_unknownKeys hkeys).exists_sortKeys? hone
  have hsort' := ((optionKeys_unknownKeys hkeys).sortKeys?_perm hunknown).trans hsort
  by_cases hknown : m.unknownKeys = []
  · have hentries : m'.entries = m.entries := by
      obtain hnil | ⟨value, hsingle⟩ := nil_or_single_of_unknownKeys hknown
      · rw [hnil] at hperm ⊢
        exact hperm.nil_eq.symm
      · rw [hsingle] at hperm ⊢
        exact List.perm_singleton.mp hperm.symm
    obtain rfl : sorted = [] := (hknown ▸ perm_of_sortKeys? hsort).eq_nil
    simp only [Options.ofMapping, hsort, hsort', hentries]
  · have hknown' : m'.unknownKeys ≠ [] := fun hnil => hknown (hnil ▸ hunknown).eq_nil
    rw [ofMapping_of_unknownKeys hsort hknown, ofMapping_of_unknownKeys hsort' hknown']

theorem keyValue?_of_perm (hkeys : ∀ e ∈ m.entries, ∃ v, e.1.keyValue? = some v)
    (hperm : m.entries.Perm m'.entries) : ∀ e ∈ m'.entries, ∃ v, e.1.keyValue? = some v :=
  fun e he => hkeys e (hperm.mem_iff.mpr he)

end Outcomes

/-- **The options of a mapping.** Take any mapping whose keys are texts, numbers, truth values and
nothing, and what is seen if options are read from it, or from a YAML text with it as its document.
That is what is promised, exactly if the unknown keys are of one kind and no integer with too many
digits is to be shown. Unknown keys of several kinds are answered with a type error about two of
them, and such an integer with the error about its digits. Options are given exactly if every key is
the name of the option and has a truth value. If the unknown keys are of one kind, nothing depends on
the order of the entries, and if they are not, there is a type error for each order. -/
theorem optionMapping_outcome {m : Mapping} (hkeys : ∀ e ∈ m.entries, ∃ v, e.1.keyValue? = some v)
    {r : Except Refusal Options} (hr : OptionsOutcome m r) :
    (PromisedOptions m r ↔
        OneKind m.unknownKeys ∧ ∀ d ∈ shownData m, d.hasLongInteger = false) ∧
      (ComparisonFails m r ↔ ¬ OneKind m.unknownKeys) ∧
      (r = .error ⟨.valueError, longIntegerMessage⟩ ↔
        OneKind m.unknownKeys ∧ ∃ d ∈ shownData m, d.hasLongInteger = true) ∧
      ((∃ o, r = .ok o) ↔
        ∀ e ∈ m.entries, e.1 = .text Options.strictName ∧ ∃ b, e.2 = .boolean b) ∧
      ∀ m' : Mapping, m.entries.Perm m'.entries → ∀ r', OptionsOutcome m' r' →
        (OneKind m.unknownKeys → r' = r) ∧ (¬ OneKind m.unknownKeys → ComparisonFails m r') := by
  obtain ⟨sorting, heq⟩ := hr.exists_sorting
  have hcases := ofMapping_cases hkeys heq
  -- the three outcomes exclude each other, and so do the conditions under which they come about
  refine ⟨?_, ?_, ?_, exists_eq_ok_iff heq hkeys, ?_⟩
  · obtain ⟨hmixed, hfails⟩ | ⟨-, ⟨d, hd, hlong⟩, hseen⟩ | ⟨hone, hshort, hpromised⟩ := hcases
    · exact iff_of_false hfails.not_promised fun hc => hmixed hc.1
    · exact iff_of_false (fun hpromised => hpromised.ne_longInteger hseen) fun hc =>
        Bool.eq_false_iff.mp (hc.2 d hd) hlong
    · exact iff_of_true hpromised ⟨hone, hshort⟩
  · obtain ⟨hmixed, hfails⟩ | ⟨hone, -, hseen⟩ | ⟨hone, -, hpromised⟩ := hcases
    · exact iff_of_true hfails hmixed
    · exact iff_of_false (fun hfails => hfails.ne_longInteger hseen) fun hmixed => hmixed hone
    · exact iff_of_false (fun hfails => hfails.not_promised hpromised) fun hmixed => hmixed hone
  · obtain ⟨hmixed, hfails⟩ | ⟨hone, hlong, hseen⟩ | ⟨-, hshort, hpromised⟩ := hcases
    · exact iff_of_false hfails.ne_longInteger fun hc => hmixed hc.1
    · exact iff_of_true hseen ⟨hone, hlong⟩
    · refine iff_of_false hpromised.ne_longInteger ?_
      rintro ⟨-, d, hd, hlong⟩
      exact Bool.eq_false_iff.mp (hshort d hd) hlong
  · intro m' hperm r' hr'
    obtain ⟨sorting', heq'⟩ := hr'.exists_sorting
    constructor
    · intro hone
      rw [heq, heq', ofMapping_perm hkeys hone hperm]
    · intro hmixed
      have hunknown := unknownKeys_perm hperm
      have hmixed' : ¬ OneKind m'.unknownKeys := fun hone => hmixed (hone.subset hunknown.subset)
      have hfails : ComparisonFails m' r' :=
        heq' ▸ comparisonFails_of_not_oneKind (keyValue?_of_perm hkeys hperm) hmixed'
      obtain ⟨a, ha, b, hb, hkinds, hseen⟩ := hfails
      exact ⟨a, hunknown.mem_iff.mpr ha, b, hunknown.mem_iff.mpr hb, hkinds, hseen⟩

/-- The unknown keys of a mapping are the number one and a text. A sort stops at their comparison,
and the error names their kinds in either order. With a text in place of the number they are listed
in order. -/
theorem optionMapping_outcome_mixedKeys :
    let mixed : Mapping := .ofEntries [(.integer 1, .boolean true), (.text ['a'], .boolean true)]
    let texts : Mapping := .ofEntries [(.text ['b'], .boolean true), (.text ['a'], .boolean true)]
    let written : Text := "1: true\na: true\n".toList
    let load : YamlLoader := fun t =>
      if t = written then .ok (.mapping mixed) else .error (.malformed "unknown text")
    let yamlFirst := (Options.ofYaml .atFirst load written).mapError YamlOptionsFailure.refusal
    let mixedLast := (Options.ofMapping .atLast mixed).mapError OptionsFailure.refusal
    let textsFirst := (Options.ofMapping .atFirst texts).mapError OptionsFailure.refusal
    yamlFirst = .error ⟨.typeError, "'<' not supported between instances of 'int' and 'str'"⟩ ∧
      mixedLast = .error ⟨.typeError, "'<' not supported between instances of 'str' and 'int'"⟩ ∧
      ¬ PromisedOptions mixed yamlFirst ∧ ComparisonFails mixed mixedLast ∧
      PromisedOptions texts textsFirst ∧
      textsFirst = .error ⟨.valueError, "Unknown parser options: a, b"⟩ := by
  intro mixed texts written load yamlFirst mixedLast textsFirst
  have hmixedKeys : ∀ e ∈ mixed.entries, ∃ v, e.1.keyValue? = some v := by
    show ∀ e ∈ [(Datum.integer 1, Datum.boolean true), (.text ['a'], .boolean true)], _
    simp [Datum.keyValue?]
  have htextKeys : ∀ e ∈ texts.entries, ∃ v, e.1.keyValue? = some v := by
    show ∀ e ∈ [(Datum.text ['b'], Datum.boolean true), (.text ['a'], .boolean true)], _
    simp [Datum.keyValue?]
  have hmixed : ¬ OneKind mixed.unknownKeys := fun hone =>
    absurd (hone (.integer 1) List.mem_cons_self (.text ['a']) (.tail _ List.mem_cons_self))
      (by decide)
  have hunknown : texts.unknownKeys = [.text ['b'], .text ['a']] := rfl
  have hone : OneKind texts.unknownKeys := by
    rw [hunknown]
    exact oneKind_cons_iff.mpr (by simp [Datum.keyKind?, Datum.keyValue?, KeyValue.kind])
  have hshort : ∀ d ∈ shownData texts, d.hasLongInteger = false := by
    rw [shownData_of_unknownKeys (by simp [hunknown]), hunknown]
    simp [Datum.hasLongInteger]
  have hload : load written = .ok (.mapping mixed) := if_pos rfl
  obtain ⟨hpromised, -⟩ := optionMapping_outcome hmixedKeys (.yaml .atFirst hload)
  obtain ⟨-, hfails, -⟩ := optionMapping_outcome hmixedKeys (.mapping .atLast)
  obtain ⟨htexts, -⟩ := optionMapping_outcome htextKeys (.mapping .atFirst)
  exact ⟨rfl, rfl, fun h => hmixed (hpromised.mp h).1, hfails.mpr hmixed,
    htexts.mpr ⟨hone, hshort⟩, rfl⟩

end TagTemplate
