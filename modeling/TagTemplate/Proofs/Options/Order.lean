import Mathlib.Data.Int.Notation
import TagTemplate.Options.Keys

set_option autoImplicit false

/-! # The order of keys of options

A key of options is a text, a whole number or a truth value, or nothing at all. Texts are ordered by
code points and numbers by value, where a truth value counts as zero or one, and keys of different
kinds have no order. So different keys of one kind come out sorted, and in the same way however they
are listed, and keys of several kinds do not come out at all.

The main results are `OptionKeys.exists_sortKeys?`, `OptionKeys.sortKeys?_eq_none` and
`OptionKeys.sortKeys?_perm`.
-/

namespace TagTemplate

/-! ## What keys stand for -/

/-- The kinds of keys: those of one kind have an order. -/
inductive KeyKind
  | text
  | number
  | nothing
deriving DecidableEq

/-- What a key stands for. -/
inductive KeyValue
  | text (value : Text)
  | number (value : ℤ)
  | nothing
deriving DecidableEq

namespace KeyValue

def kind : KeyValue → KeyKind
  | text _ => .text
  | number _ => .number
  | nothing => .nothing

/-- The comparison of what keys of one kind stand for, where nothing is not compared. -/
def compare? : KeyValue → KeyValue → Option Ordering
  | text s, text t => some (compareText s t)
  | number m, number n => some (compare m n)
  | _, _ => none

/-- The order of keys of one kind. -/
inductive Before : KeyValue → KeyValue → Prop
  | text {s t : Text} (less : List.Lex (· < ·) s t) : Before (text s) (text t)
  | number {m n : ℤ} (less : m < n) : Before (number m) (number n)

theorem Before.trans {u v w : KeyValue} (huv : u.Before v) (hvw : v.Before w) : u.Before w := by
  cases huv with
  | text hst =>
    cases hvw with
    | text htr => exact .text (List.lex_trans Char.lt_trans hst htr)
  | number hmn =>
    cases hvw with
    | number hnk => exact .number (by omega)

theorem Before.asymm {v w : KeyValue} (hvw : v.Before w) : ¬ w.Before v := by
  intro hwv
  cases hvw with
  | text hst =>
    cases hwv with
    | text hts => exact List.lex_asymm Char.lt_asymm hst hts
  | number hmn =>
    cases hwv with
    | number hnm => omega

end KeyValue

/-- What a key of options stands for, nothing for data that are no such keys. -/
def Datum.keyValue? : Datum → Option KeyValue
  | text value => some (.text value)
  | boolean value => some (.number (if value then 1 else 0))
  | integer value => some (.number value)
  | none => some .nothing
  | _ => Option.none

def Datum.keyKind? (key : Datum) : Option KeyKind := key.keyValue?.map KeyValue.kind

def KeyBefore (a b : Datum) : Prop :=
  ∃ v w, a.keyValue? = some v ∧ b.keyValue? = some w ∧ v.Before w

theorem KeyBefore.trans {a b c : Datum} (hab : KeyBefore a b) (hbc : KeyBefore b c) :
    KeyBefore a c := by
  obtain ⟨u, v, ha, hb, huv⟩ := hab
  obtain ⟨v', w, hb', hc, hvw⟩ := hbc
  obtain rfl : v = v' := Option.some_inj.mp (hb.symm.trans hb')
  exact ⟨u, w, ha, hc, huv.trans hvw⟩

theorem KeyBefore.asymm {a b : Datum} (hab : KeyBefore a b) : ¬ KeyBefore b a := by
  rintro ⟨w', v', hb', ha', hwv⟩
  obtain ⟨v, w, ha, hb, hvw⟩ := hab
  obtain rfl : v = v' := Option.some_inj.mp (ha.symm.trans ha')
  obtain rfl : w = w' := Option.some_inj.mp (hb.symm.trans hb')
  exact hvw.asymm hwv

/-! ## Comparing two keys -/

/-- The forms of keys. -/
theorem Datum.keyValue?_eq_some {key : Datum} {v : KeyValue} (h : key.keyValue? = some v) :
    (∃ t, key = .text t ∧ v = .text t) ∨
      (∃ n, v = .number n ∧
        (key = .integer n ∨ ∃ b, key = .boolean b ∧ n = if b then 1 else 0)) ∨
      (key = .none ∧ v = .nothing) := by
  cases key with
  | text t => exact .inl ⟨t, rfl, (Option.some_inj.mp h).symm⟩
  | boolean b => exact .inr (.inl ⟨_, (Option.some_inj.mp h).symm, .inr ⟨b, rfl, rfl⟩⟩)
  | integer n => exact .inr (.inl ⟨n, (Option.some_inj.mp h).symm, .inl rfl⟩)
  | none => exact .inr (.inr ⟨rfl, (Option.some_inj.mp h).symm⟩)
  | _ => cases h

/-- One of two texts is less, or they are equal, and the comparison says so. -/
theorem compareText_cases (s t : Text) :
    (compareText s t = .lt ∧ List.Lex (· < ·) s t) ∨ (compareText s t = .eq ∧ s = t) ∨
      (compareText s t = .gt ∧ List.Lex (· < ·) t s) := by
  fun_induction compareText s t with
  | case1 => exact .inr (.inl ⟨rfl, rfl⟩)
  | case2 b bs => exact .inl ⟨rfl, .nil⟩
  | case3 a as => exact .inr (.inr ⟨rfl, .nil⟩)
  | case4 a as b bs hlt => exact .inl ⟨rfl, .rel hlt⟩
  | case5 a as b bs hlt hgt => exact .inr (.inr ⟨rfl, .rel hgt⟩)
  | case6 a as b bs hlt hgt ih =>
    obtain rfl : a = b := Char.le_antisymm (Char.not_lt.mp hgt) (Char.not_lt.mp hlt)
    obtain ⟨heq, hlex⟩ | ⟨heq, rfl⟩ | ⟨heq, hlex⟩ := ih
    · exact .inl ⟨heq, .cons hlex⟩
    · exact .inr (.inl ⟨heq, rfl⟩)
    · exact .inr (.inr ⟨heq, .cons hlex⟩)

section Pairs

variable {a b : Datum} {v w : KeyValue}

/-- Two keys are the same exactly if they stand for the same. -/
theorem sameValue_iff_of_keyValue? (ha : a.keyValue? = some v) (hb : b.keyValue? = some w) :
    a.sameValue b = true ↔ v = w := by
  obtain ⟨s, rfl, rfl⟩ | ⟨m, rfl, rfl | ⟨x, rfl, rfl⟩⟩ | ⟨rfl, rfl⟩ :=
    Datum.keyValue?_eq_some ha <;>
  obtain ⟨t, rfl, rfl⟩ | ⟨n, rfl, rfl | ⟨y, rfl, rfl⟩⟩ | ⟨rfl, rfl⟩ :=
    Datum.keyValue?_eq_some hb <;>
  simp [Datum.sameValue, Datum.ratio?, Datum.infinity?, Datum.sameRatio]

/-- The order of two keys is that of what they stand for. -/
theorem compareKeys?_of_keyValue? (ha : a.keyValue? = some v) (hb : b.keyValue? = some w) :
    compareKeys? a b = v.compare? w := by
  obtain ⟨s, rfl, rfl⟩ | ⟨m, rfl, rfl | ⟨x, rfl, rfl⟩⟩ | ⟨rfl, rfl⟩ :=
    Datum.keyValue?_eq_some ha <;>
  obtain ⟨t, rfl, rfl⟩ | ⟨n, rfl, rfl | ⟨y, rfl, rfl⟩⟩ | ⟨rfl, rfl⟩ :=
    Datum.keyValue?_eq_some hb <;>
  simp [compareKeys?, compareNumbers?, Datum.ratio?, KeyValue.compare?]

/-- Keys of different kinds have no order. -/
theorem compareKeys?_of_keyKind?_ne (ha : a.keyValue? = some v) (hb : b.keyValue? = some w)
    (h : a.keyKind? ≠ b.keyKind?) : compareKeys? a b = none := by
  rw [Datum.keyKind?, Datum.keyKind?, ha, hb] at h
  rw [compareKeys?_of_keyValue? ha hb]
  cases v <;> cases w <;> first | rfl | exact absurd rfl h

/-- Of two different keys of one kind one comes before the other, and the comparison says so. -/
theorem compareKeys?_cases (ha : a.keyValue? = some v) (hb : b.keyValue? = some w)
    (hkind : a.keyKind? = b.keyKind?) (hdiffer : a.sameValue b = false) :
    (compareKeys? a b = some .lt ∧ KeyBefore a b) ∨
      (compareKeys? a b = some .gt ∧ KeyBefore b a) := by
  have hne : v ≠ w := fun h =>
    Bool.eq_false_iff.mp hdiffer ((sameValue_iff_of_keyValue? ha hb).mpr h)
  rw [Datum.keyKind?, Datum.keyKind?, ha, hb] at hkind
  rw [compareKeys?_of_keyValue? ha hb]
  cases v with
  | text s =>
    cases w with
    | text t =>
      obtain ⟨hlt, hlex⟩ | ⟨-, rfl⟩ | ⟨hgt, hlex⟩ := compareText_cases s t
      · exact .inl ⟨congrArg some hlt, _, _, ha, hb, .text hlex⟩
      · exact absurd rfl hne
      · exact .inr ⟨congrArg some hgt, _, _, hb, ha, .text hlex⟩
    | _ => cases hkind
  | number m =>
    cases w with
    | number n =>
      have hmn : m ≠ n := fun h => hne (congrArg KeyValue.number h)
      by_cases hlt : m < n
      · exact .inl ⟨congrArg some (Int.compare_eq_lt.mpr hlt), _, _, ha, hb, .number hlt⟩
      · have hgt : n < m := by omega
        exact .inr ⟨congrArg some (Int.compare_eq_gt.mpr hgt), _, _, hb, ha, .number hgt⟩
    | _ => cases hkind
  | nothing =>
    cases w with
    | nothing => exact absurd rfl hne
    | _ => cases hkind

end Pairs

/-! ## Sorting keys -/

/-- Keys of options as a mapping has them: each is such a key, and no two are the same. -/
structure OptionKeys (keys : List Datum) : Prop where
  isKey : ∀ key ∈ keys, ∃ v, key.keyValue? = some v
  distinct : keys.Pairwise fun a b => a.sameValue b = false

def OneKind (keys : List Datum) : Prop :=
  ∀ a ∈ keys, ∀ b ∈ keys, a.keyKind? = b.keyKind?

theorem OneKind.subset {keys keys' : List Datum} (h : OneKind keys) (hsub : keys' ⊆ keys) :
    OneKind keys' := by
  intro a ha b hb
  exact h a (hsub ha) b (hsub hb)

theorem oneKind_cons_iff {key : Datum} {rest : List Datum} :
    OneKind (key :: rest) ↔ ∀ other ∈ rest, other.keyKind? = key.keyKind? := by
  constructor
  · intro h other hother
    exact h other (List.mem_cons_of_mem key hother) key List.mem_cons_self
  · intro h
    have hall : ∀ a ∈ key :: rest, a.keyKind? = key.keyKind? := List.forall_mem_cons.mpr ⟨rfl, h⟩
    intro a ha b hb
    rw [hall a ha, hall b hb]

namespace OptionKeys

variable {keys keys' : List Datum}

theorem sublist (h : OptionKeys keys) (hsub : keys'.Sublist keys) : OptionKeys keys' :=
  ⟨fun key hkey => h.isKey key (hsub.subset hkey), h.distinct.sublist hsub⟩

/-- Keys are different if they stand for different things. -/
theorem pairwise_sameValue_iff (hisKey : ∀ key ∈ keys, ∃ v, key.keyValue? = some v) :
    (keys.Pairwise fun a b => a.sameValue b = false) ↔
      keys.Pairwise fun a b => a.keyValue? ≠ b.keyValue? := by
  refine List.Pairwise.iff_of_mem fun {a b} ha hb => ?_
  obtain ⟨v, hv⟩ := hisKey a ha
  obtain ⟨w, hw⟩ := hisKey b hb
  rw [hv, hw, Bool.eq_false_iff, Ne, sameValue_iff_of_keyValue? hv hw, Ne, Option.some_inj]

/-- It does not matter in which order keys are listed. -/
theorem perm (h : OptionKeys keys) (hperm : keys.Perm keys') : OptionKeys keys' := by
  have hisKey : ∀ key ∈ keys', ∃ v, key.keyValue? = some v := fun key hkey =>
    h.isKey key (hperm.mem_iff.mpr hkey)
  refine ⟨hisKey, (pairwise_sameValue_iff hisKey).mpr ?_⟩
  exact (hperm.pairwise_iff Ne.symm).mp ((pairwise_sameValue_iff h.isKey).mp h.distinct)

/-- One more key of the same kind, which differs from sorted ones, finds its place among them. -/
theorem exists_insertKey? {key : Datum} {sorted : List Datum} (h : OptionKeys (key :: sorted))
    (hone : OneKind (key :: sorted)) (hsorted : sorted.Pairwise KeyBefore) :
    ∃ result, insertKey? key sorted = some result ∧ result.Pairwise KeyBefore := by
  induction sorted with
  | nil => exact ⟨[key], rfl, List.pairwise_singleton _ _⟩
  | cons other rest ih =>
    obtain ⟨hother, hrest⟩ := List.pairwise_cons.mp hsorted
    have hmem : other ∈ key :: other :: rest := List.mem_cons_of_mem key List.mem_cons_self
    obtain ⟨v, hv⟩ := h.isKey key List.mem_cons_self
    obtain ⟨w, hw⟩ := h.isKey other hmem
    obtain ⟨hlt, hbefore⟩ | ⟨hgt, hbefore⟩ := compareKeys?_cases hv hw
      (hone key List.mem_cons_self other hmem)
      ((List.pairwise_cons.mp h.distinct).1 other List.mem_cons_self)
    · -- the key comes before the first of the sorted ones, and so before all of them
      refine ⟨key :: other :: rest, by simp only [insertKey?, hlt], ?_⟩
      refine List.pairwise_cons.mpr ⟨fun later hlater => ?_, hsorted⟩
      obtain rfl | hlater := List.mem_cons.mp hlater
      · exact hbefore
      · exact hbefore.trans (hother later hlater)
    · -- the first of the sorted ones stays in front, of the key as well
      have hsub : (key :: rest).Sublist (key :: other :: rest) :=
        (List.sublist_cons_self other rest).cons_cons key
      obtain ⟨result, hresult, hpairwise⟩ := ih (h.sublist hsub) (hone.subset hsub.subset) hrest
      refine ⟨other :: result, by simp only [insertKey?, hgt, hresult, Option.map_some], ?_⟩
      refine List.pairwise_cons.mpr ⟨fun later hlater => ?_, hpairwise⟩
      obtain rfl | hlater := List.mem_cons.mp ((perm_of_insertKey? hresult).mem_iff.mp hlater)
      · exact hbefore
      · exact hother later hlater

/-- **Keys of one kind come out sorted.** -/
theorem exists_sortKeys? (h : OptionKeys keys) (hone : OneKind keys) :
    ∃ sorted, sortKeys? keys = some sorted ∧ sorted.Pairwise KeyBefore := by
  induction keys with
  | nil => exact ⟨[], rfl, .nil⟩
  | cons key rest ih =>
    have hsub : rest.Sublist (key :: rest) := List.sublist_cons_self key rest
    obtain ⟨sorted, hsort, hpairwise⟩ := ih (h.sublist hsub) (hone.subset hsub.subset)
    have hperm : (key :: rest).Perm (key :: sorted) := (perm_of_sortKeys? hsort).symm.cons key
    obtain ⟨result, hresult, hpairwise'⟩ :=
      (h.perm hperm).exists_insertKey? (hone.subset hperm.symm.subset) hpairwise
    exact ⟨result, by rw [sortKeys?, hsort]; exact hresult, hpairwise'⟩

/-- **Keys of several kinds do not come out.** The first key that meets keys of another kind has no
place among them. -/
theorem sortKeys?_eq_none (h : OptionKeys keys) (hmixed : ¬ OneKind keys) :
    sortKeys? keys = none := by
  induction keys with
  | nil => exact absurd (fun a ha => absurd ha List.not_mem_nil) hmixed
  | cons key rest ih =>
    have hrest := h.sublist (List.sublist_cons_self key rest)
    by_cases hone : OneKind rest
    · obtain ⟨sorted, hsort, -⟩ := hrest.exists_sortKeys? hone
      have hperm := perm_of_sortKeys? hsort
      rw [sortKeys?, hsort]
      show insertKey? key sorted = none
      -- the rest has come out, so the key is of another kind than the key that it meets first
      cases sorted with
      | nil =>
        obtain rfl := hperm.nil_eq
        have hsingle : OneKind [key] :=
          oneKind_cons_iff.mpr fun other hother => absurd hother List.not_mem_nil
        exact absurd hsingle hmixed
      | cons other sorted =>
        have hother : other ∈ rest := hperm.subset List.mem_cons_self
        have hkind : key.keyKind? ≠ other.keyKind? := fun heq =>
          hmixed (oneKind_cons_iff.mpr fun a ha => (hone a ha other hother).trans heq.symm)
        obtain ⟨v, hv⟩ := h.isKey key List.mem_cons_self
        obtain ⟨w, hw⟩ := hrest.isKey other hother
        simp only [insertKey?, compareKeys?_of_keyKind?_ne hv hw hkind]
    · rw [sortKeys?, ih hrest hone]
      rfl

/-- Two keys without an order are of different kinds: nothing is there only once. -/
theorem keyKind?_ne_of_unordered (h : OptionKeys keys) {p : Datum × Datum}
    (hp : Unordered keys p) : p.1.keyKind? ≠ p.2.keyKind? := by
  obtain ⟨others, hperm⟩ := hp.listed
  have h' := h.perm hperm
  obtain ⟨v, hv⟩ := h'.isKey p.1 (.head _)
  obtain ⟨w, hw⟩ := h'.isKey p.2 (.tail _ (.head _))
  have hdiffer : p.1.sameValue p.2 = false := (List.pairwise_cons.mp h'.distinct).1 p.2 (.head _)
  intro hkind
  obtain ⟨hsome, -⟩ | ⟨hsome, -⟩ := compareKeys?_cases hv hw hkind hdiffer
  · cases hp.uncompared.symm.trans hsome
  · cases hp.uncompared.symm.trans hsome

/-- **The order in which keys are listed does not matter.** There is only one way in which they are
sorted, as two keys cannot come before each other. -/
theorem sortKeys?_perm (h : OptionKeys keys) (hperm : keys.Perm keys') :
    sortKeys? keys' = sortKeys? keys := by
  by_cases hone : OneKind keys
  · obtain ⟨sorted, hsort, hpairwise⟩ := h.exists_sortKeys? hone
    obtain ⟨sorted', hsort', hpairwise'⟩ :=
      (h.perm hperm).exists_sortKeys? (hone.subset hperm.symm.subset)
    have hsorted : sorted'.Perm sorted :=
      (perm_of_sortKeys? hsort').trans (hperm.symm.trans (perm_of_sortKeys? hsort).symm)
    rw [hsort, hsort', hsorted.eq_of_pairwise (fun a b _ _ hab hba => absurd hba hab.asymm)
      hpairwise' hpairwise]
  · have hmixed : ¬ OneKind keys' := fun h' => hone (h'.subset hperm.subset)
    rw [h.sortKeys?_eq_none hone, (h.perm hperm).sortKeys?_eq_none hmixed]

end OptionKeys

end TagTemplate
