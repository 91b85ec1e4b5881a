import TagTemplate.Datum.Equality

set_option autoImplicit false

/-! # The order of keys

Texts are ordered by code points, bytes by their values, numbers by value, and tuples item by item;
keys of different kinds have no order, and sorting them fails. The keys to sort come from a set,
which lists them in no order that could be known: where several comparisons would fail, `Sorting`
says at which one of them a sort stops. -/

namespace TagTemplate

/-! ## Comparing two keys -/

def compareBytes : List UInt8 → List UInt8 → Ordering
  | [], [] => .eq
  | [], _ :: _ => .lt
  | _ :: _, [] => .gt
  | a :: as, b :: bs => if a < b then .lt else if b < a then .gt else compareBytes as bs

def compareText : Text → Text → Ordering
  | [], [] => .eq
  | [], _ :: _ => .lt
  | _ :: _, [] => .gt
  | a :: as, b :: bs => if a < b then .lt else if b < a then .gt else compareText as bs

/-- The order of two numbers, infinities included. A float that is no number is never less than one,
nor is one less than it. -/
def compareNumbers? (a b : Datum) : Option Ordering :=
  match a, b with
  | .float .notNumber, .float _ => some .gt
  | .float _, .float .notNumber => some .gt
  | .float .notNumber, b => b.ratio?.map fun _ => .gt
  | a, .float .notNumber => a.ratio?.map fun _ => .gt
  | .float (.infinite m), .float (.infinite n) =>
    some (if m == n then .eq else if m then .lt else .gt)
  | .float (.infinite m), b => b.ratio?.map fun _ => if m then .lt else .gt
  | a, .float (.infinite n) => a.ratio?.map fun _ => if n then .gt else .lt
  | a, b =>
    match a.ratio?, b.ratio? with
    | some x, some y => some (compare (x.1 * (y.2 : Int)) (y.1 * (x.2 : Int)))
    | _, _ => none

/-- The order of two keys, nothing if they have none. -/
def compareKeys? : Datum → Datum → Option Ordering
  | .text a, .text b => some (compareText a b)
  | .bytes a, .bytes b => some (compareBytes a b)
  | .tuple as, .tuple bs => compareItems? as bs
  | a, b => compareNumbers? a b
where
  /-- The order of two tuples: that of the first items that differ. -/
  compareItems? : List Datum → List Datum → Option Ordering
    | [], [] => some .eq
    | [], _ :: _ => some .lt
    | _ :: _, [] => some .gt
    | a :: as, b :: bs => if a.sameValue b then compareItems? as bs else compareKeys? a b

/-- What of two keys without an order is compared in the end: of tuples the first items that
differ. -/
def comparedParts : Datum → Datum → Datum × Datum
  | .tuple as, .tuple bs => comparedItems as bs
  | a, b => (a, b)
where
  /-- The same for the items of two tuples. -/
  comparedItems : List Datum → List Datum → Datum × Datum
    | a :: as, b :: bs => if a.sameValue b then comparedItems as bs else comparedParts a b
    | as, bs => (.tuple as, .tuple bs)

/-! ## Sorting -/

/-- A key in its place in an ordered list, nothing if it has no order with one it is compared to. -/
def insertKey? (key : Datum) : List Datum → Option (List Datum)
  | [] => some [key]
  | other :: rest =>
    match compareKeys? key other with
    | none => none
    | some .lt => some (key :: other :: rest)
    | some _ => (insertKey? key rest).map (other :: ·)

/-- The keys in order, nothing if two of them have none. -/
def sortKeys? : List Datum → Option (List Datum)
  | [] => some []
  | key :: rest => (sortKeys? rest).bind (insertKey? key)

theorem perm_of_insertKey? {key : Datum} {keys result : List Datum}
    (h : insertKey? key keys = some result) : result.Perm (key :: keys) := by
  induction keys generalizing result with
  | nil => exact Option.some_inj.mp h ▸ .refl _
  | cons other rest ih =>
    rw [insertKey?] at h
    split at h
    · cases h
    · exact Option.some_inj.mp h ▸ .refl _
    · obtain ⟨placed, hplaced, rfl⟩ := Option.map_eq_some_iff.mp h
      exact ((ih hplaced).cons other).trans (.swap key other rest)

/-- If keys come out, they come out all. -/
theorem perm_of_sortKeys? {keys sorted : List Datum} (h : sortKeys? keys = some sorted) :
    sorted.Perm keys := by
  induction keys generalizing sorted with
  | nil => exact Option.some_inj.mp h ▸ .refl _
  | cons key rest ih =>
    obtain ⟨placed, hplaced, hinsert⟩ := Option.bind_eq_some_iff.mp h
    exact (perm_of_insertKey? hinsert).trans ((ih hplaced).cons key)

/-! ## Sorts that fail -/

/-- Two of the keys, which have no order. -/
structure Unordered (keys : List Datum) (p : Datum × Datum) : Prop where
  listed : ∃ others, keys.Perm (p.1 :: p.2 :: others)
  uncompared : compareKeys? p.1 p.2 = none

/-- All pairs of two of the keys that have no order. -/
def unorderedPairs : List Datum → List (Datum × Datum)
  | [] => []
  | key :: rest =>
    (rest.flatMap fun other => [(key, other), (other, key)]).filter
      (fun p => (compareKeys? p.1 p.2).isNone) ++ unorderedPairs rest

theorem unordered_of_mem {keys : List Datum} {p : Datum × Datum} (h : p ∈ unorderedPairs keys) :
    Unordered keys p := by
  induction keys with
  | nil => exact absurd h List.not_mem_nil
  | cons key rest ih =>
    -- the pair is of the first key and another one, or it is of two others
    obtain h | h := List.mem_append.mp h
    · obtain ⟨hmem, hnone⟩ := List.mem_filter.mp h
      obtain ⟨other, hother, hp⟩ := List.mem_flatMap.mp hmem
      obtain ⟨before, behind, rfl⟩ := List.append_of_mem hother
      have hperm : (key :: (before ++ other :: behind)).Perm (key :: other :: (before ++ behind)) :=
        List.perm_middle.cons key
      refine ⟨⟨before ++ behind, ?_⟩, Option.isNone_iff_eq_none.mp hnone⟩
      obtain rfl | rfl : p = (key, other) ∨ p = (other, key) := by simpa using hp
      · exact hperm
      · exact hperm.trans (.swap other key _)
    · obtain ⟨⟨others, hperm⟩, hnone⟩ := ih h
      have hmiddle : ([p.1, p.2] ++ key :: others).Perm (key :: ([p.1, p.2] ++ others)) :=
        List.perm_middle
      exact ⟨⟨key :: others, (hperm.cons key).trans hmiddle.symm⟩, hnone⟩

theorem exists_unordered_of_insertKey? {key : Datum} {keys : List Datum}
    (h : insertKey? key keys = none) : ∃ other ∈ keys, compareKeys? key other = none := by
  induction keys with
  | nil => cases h
  | cons other rest ih =>
    rw [insertKey?] at h
    split at h
    · next hnone => exact ⟨other, List.mem_cons_self, hnone⟩
    · cases h
    · obtain ⟨later, hlater, hnone⟩ := ih (Option.map_eq_none_iff.mp h)
      exact ⟨later, List.mem_cons_of_mem other hlater, hnone⟩

/-- If keys do not come out, two of them have no order. -/
theorem unorderedPairs_ne_nil {keys : List Datum} (h : sortKeys? keys = none) :
    unorderedPairs keys ≠ [] := by
  induction keys with
  | nil => cases h
  | cons key rest ih =>
    rw [sortKeys?] at h
    cases hrest : sortKeys? rest with
    | none => exact List.append_ne_nil_of_right_ne_nil _ (ih hrest)
    | some sorted =>
      -- the others have come out, so it is the first key that has no order with one of them
      rw [hrest] at h
      obtain ⟨other, hother, hnone⟩ := exists_unordered_of_insertKey? h
      have hmem : other ∈ rest := (perm_of_sortKeys? hrest).mem_iff.mp hother
      have hpair : (key, other) ∈ rest.flatMap fun other => [(key, other), (other, key)] :=
        List.mem_flatMap.mpr ⟨other, hmem, List.mem_cons_self⟩
      refine List.append_ne_nil_of_left_ne_nil (List.ne_nil_of_mem (a := (key, other)) ?_) _
      exact List.mem_filter.mpr ⟨hpair, Option.isNone_iff_eq_none.mpr hnone⟩

/-- At which comparison a sort stops that fails: at one of two of the keys that have no order.
Nothing more is known of it. -/
structure Sorting where
  stop : List Datum → Datum × Datum
  unordered : ∀ keys, sortKeys? keys = none → Unordered keys (stop keys)

namespace Sorting

/-- The sort that stops at the first pair without an order. -/
def atFirst : Sorting where
  stop keys := (unorderedPairs keys).headD (.none, .none)
  unordered keys h := by
    obtain ⟨p, rest, hpairs⟩ := List.exists_cons_of_ne_nil (unorderedPairs_ne_nil h)
    exact unordered_of_mem (by simp [hpairs])

/-- The sort that stops at the last pair without an order. -/
def atLast : Sorting where
  stop keys := (unorderedPairs keys).getLastD (.none, .none)
  unordered keys h := by
    rw [List.getLastD_eq_getLast?, List.getLast?_eq_some_getLast (unorderedPairs_ne_nil h)]
    exact unordered_of_mem (List.getLast_mem (unorderedPairs_ne_nil h))

end Sorting

end TagTemplate
