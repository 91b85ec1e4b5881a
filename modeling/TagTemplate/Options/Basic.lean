import TagTemplate.Datum.Display
import TagTemplate.Diagnostic
import TagTemplate.Number.DigitLimit
import TagTemplate.Options.Keys

set_option autoImplicit false

/-! # Options

The grammar has one option, which is off unless it is given. Options are read from a mapping with
checked keys and values: keys that name no option are refused first, all of them and in order, and
then values that are no truth values. Keys of several kinds cannot be put in order, which is an error
of another class. What is refused is shown, which fails for integers with too many digits. -/

namespace TagTemplate

/-- Options of the grammar: strict ones admit no function and no operator as a bound or a step of a
loop. -/
structure Options where
  strict : Bool
deriving DecidableEq, Repr

namespace Options

def default : Options := ⟨false⟩

def strictName : Text := "strict_for_arguments".toList

def display (o : Options) : Text :=
  displayFields "ParserOptions" [("strict_for_arguments", displayBool o.strict)]

end Options

/-! ## Mappings -/

section Entries

variable {V : Type}

/-- The entries with a value for a key: in the place of the key if it is there, and at the end
otherwise. -/
def putEntry (key : Datum) (value : V) : List (Datum × V) → List (Datum × V)
  | [] => [(key, value)]
  | e :: rest => if e.1.sameValue key then (e.1, value) :: rest else e :: putEntry key value rest

def DistinctKeys (entries : List (Datum × V)) : Prop :=
  (entries.map (·.1)).Pairwise fun a b => a.sameValue b = false

/-- Putting an entry leaves the keys as they are, or there is one more that none of them is the
same as. -/
theorem keys_putEntry (key : Datum) (value : V) (entries : List (Datum × V)) :
    (putEntry key value entries).map (·.1) = entries.map (·.1) ∨
      (putEntry key value entries).map (·.1) = entries.map (·.1) ++ [key] ∧
        ∀ e ∈ entries, e.1.sameValue key = false := by
  induction entries with
  | nil => exact .inr ⟨rfl, fun e he => absurd he List.not_mem_nil⟩
  | cons e rest ih =>
    rw [putEntry]
    split
    · exact .inl rfl
    · next hdiffer =>
      obtain heq | ⟨heq, hnew⟩ := ih
      · exact .inl (congrArg (e.1 :: ·) heq)
      · refine .inr ⟨congrArg (e.1 :: ·) heq, ?_⟩
        exact List.forall_mem_cons.mpr ⟨Bool.eq_false_iff.mpr hdiffer, hnew⟩

theorem DistinctKeys.putEntry {entries : List (Datum × V)} (h : DistinctKeys entries)
    (key : Datum) (value : V) : DistinctKeys (putEntry key value entries) := by
  unfold DistinctKeys
  obtain heq | ⟨heq, hnew⟩ := keys_putEntry key value entries
  · rw [heq]
    exact h
  · rw [heq]
    refine List.pairwise_append.mpr ⟨h, List.pairwise_singleton _ _, fun a ha b hb => ?_⟩
    obtain ⟨e, he, rfl⟩ := List.mem_map.mp ha
    rw [List.mem_singleton.mp hb]
    exact hnew e he

end Entries

/-- A mapping: its entries in the order in which it lists them, of which no two have the same key. -/
structure Mapping where
  entries : List (Datum × Datum)
  distinct : DistinctKeys entries

namespace Mapping

def empty : Mapping := ⟨[], .nil⟩

def put (m : Mapping) (key value : Datum) : Mapping :=
  ⟨putEntry key value m.entries, m.distinct.putEntry key value⟩

/-- The mapping that results if entries are put one by one. -/
def ofEntries (entries : List (Datum × Datum)) : Mapping :=
  entries.foldl (fun m e => m.put e.1 e.2) empty

def keys (m : Mapping) : List Datum := m.entries.map (·.1)

end Mapping

/-! ## Reading options -/

/-- Why a mapping is refused as options. Where keys have no order, the kinds of the two data are
named that could not be compared. -/
inductive OptionsFailure
  | unknownKeys (keys : List Datum)
  | keysWithoutOrder (left right : String)
  | notBoolean (name : Text) (value : Datum)
  | longInteger

namespace OptionsFailure

/-- The refusal of a comparison of two keys. -/
def ofPair (p : Datum × Datum) : OptionsFailure :=
  let parts := comparedParts p.1 p.2
  keysWithoutOrder parts.1.typeName parts.2.typeName

def message : OptionsFailure → String
  | unknownKeys keys =>
    "Unknown parser options: " ++ String.ofList (Text.join itemSeparator (keys.map Datum.plain))
  | keysWithoutOrder left right =>
    "'<' not supported between instances of '" ++ left ++ "' and '" ++ right ++ "'"
  | notBoolean name value =>
    "Parser option '" ++ String.ofList name ++ "' must be a boolean, got " ++
      String.ofList value.display
  | longInteger => longIntegerMessage

def errorClass : OptionsFailure → ErrorClass
  | keysWithoutOrder _ _ => .typeError
  | _ => .valueError

def refusal (f : OptionsFailure) : Refusal := ⟨f.errorClass, f.message⟩

end OptionsFailure

def isStrictKey (key : Datum) : Bool := key.sameValue (.text Options.strictName)

def Mapping.unknownKeys (m : Mapping) : List Datum := m.keys.filter fun key => !isStrictKey key

/-- The options that a mapping gives, if its unknown keys are sorted in the given way. -/
def Options.ofMapping (sorting : Sorting) (m : Mapping) : Except OptionsFailure Options :=
  match sortKeys? m.unknownKeys with
  | none => .error (.ofPair (sorting.stop m.unknownKeys))
  | some [] =>
    match m.entries.getLast? with
    | none => .ok default
    | some (_, .boolean value) => .ok ⟨value⟩
    | some (_, value) =>
      .error (if value.hasLongInteger then .longInteger else .notBoolean strictName value)
  | some keys =>
    .error (if keys.any Datum.hasLongInteger then .longInteger else .unknownKeys keys)

end TagTemplate
