import TagTemplate.Runs.Yaml.Node
import TagTemplate.Datum.Equality

set_option autoImplicit false

/-! # Building values

The nodes of a document become values. A scalar becomes one at once. A collection is made empty, so
that an alias inside it finds it, and is filled later: the outermost one first, and the others in the
order in which they were made. The keys of a mapping are needed as they are read, so there the
collections are filled at once; an alias to one that is just being filled then finds nothing.

A node has one value, however many aliases lead to it. Values that can change have a number and are
kept apart in a list of collections. -/

namespace TagTemplate.Runs.Yaml

/-! ## Values -/

/-- A value: a datum by itself, or the number of a collection. -/
inductive Item
  | plain (value : Datum)
  | collection (id : Nat)

instance : Inhabited Item := ⟨.plain .none⟩

/-- A collection. The keys of a mapping and the members of a set are data by themselves. -/
inductive Collection
  | list (items : List Item)
  | pairs (items : List (Item × Item))
  | set (members : List Datum)
  | mapping (entries : List (Datum × Item))
  | orderedMapping (entries : List (Datum × Item))

instance : Inhabited Collection := ⟨.list []⟩

/-- The datum of a value, with a bound on how deep collections are nested and the numbers of the
collections around it. A collection inside itself is only marked. -/
def datumWithin (collections : Array Collection) : Nat → List Nat → Item → Datum
  | _, _, .plain value => value
  | 0, _, .collection _ => .none
  | depth + 1, around, .collection id =>
    let inner := datumWithin collections depth (id :: around)
    match collections[id]? with
    | none => .none
    | some (.set members) => .set members
    | some (.list items) =>
      if around.contains id then .enclosing .list else .list (items.map inner)
    | some (.pairs items) =>
      if around.contains id then .enclosing .list
      else .list (items.map fun (a, b) => .tuple [inner a, inner b])
    | some (.mapping entries) =>
      if around.contains id then .enclosing .mapping
      else .mapping (entries.map fun (k, v) => (k, inner v))
    | some (.orderedMapping entries) =>
      if around.contains id then .enclosing .orderedMapping
      else .orderedMapping (entries.map fun (k, v) => (k, inner v))

def datumOf (collections : Array Collection) (item : Item) : Datum :=
  datumWithin collections (collections.size + 1) [] item

/-! ## The state of building -/

/-- The nodes, which lose their merge keys on the way, the values of nodes, the nodes that are just
being built, the collections, those still to be filled with their nodes, and whether collections are
filled at once. -/
structure Builder where
  nodes : Array Node
  built : List (Nat × Item)
  building : List Nat
  collections : Array Collection
  pending : List (Nat × Nat)
  eager : Bool

abbrev Build := StateT Builder (Except Failure)

namespace Build

def fail {α : Type} : Build α := throw .malformed

def node (id : Nat) : Build Node := do return (← get).nodes[id]?.getD default

def changeNode (id : Nat) (change : Node → Node) : Build Unit :=
  modify fun s => { s with nodes := s.nodes.modify id change }

def datum (item : Item) : Build Datum := do return datumOf (← get).collections item

def alloc (c : Collection) : Build Nat := do
  let s ← get
  set { s with collections := s.collections.push c }
  return s.collections.size

def put (id : Nat) (c : Collection) : Build Unit :=
  modify fun s => { s with collections := s.collections.set! id c }

def lift {α : Type} (result : Except Failure α) : Build α := fun s =>
  result.map fun a => (a, s)

end Build

open Build

/-! ## Scalars -/

/-- The text of a scalar, or of what a value key of a mapping stands for. -/
def scalarText : Nat → Nat → Build Text
  | 0, _ => fail
  | steps + 1, id => do
    match (← node id).content with
    | .scalar t => return t
    | .sequence _ => fail
    | .mapping entries _ =>
      let nodes := (← get).nodes
      match entries.find? fun e => (nodes[e.1]?.getD default).type == .value with
      | some (_, value) => scalarText steps value
      | none => fail

/-! ## Merge keys -/

def entriesOf (id : Nat) : Build (List (Nat × Nat)) := do
  match (← node id).content with
  | .mapping entries _ => return entries
  | _ => fail

/-- A value key is an ordinary text. -/
def settleValueKeys : List (Nat × Nat) → Build Unit
  | [] => return ()
  | (key, _) :: rest => do
    changeNode key fun n => if n.type == .value then { n with type := .text } else n
    settleValueKeys rest

/-- The entries of a mapping up to its first merge key, what that stands for, and the entries behind
it. -/
def splitMerge? (nodes : Array Node) :
    List (Nat × Nat) → Option (List (Nat × Nat) × Nat × List (Nat × Nat))
  | [] => none
  | (key, value) :: rest =>
    if (nodes[key]?.getD default).type == .merge then some ([], value, rest)
    else (splitMerge? nodes rest).map fun (front, merged, rest) =>
      ((key, value) :: front, merged, rest)

mutual
/-- The merge keys of a mapping are replaced by the entries that they take over, which stand in front
of the others. Only one merge key takes over any. -/
def flatten : Nat → Nat → List (Nat × Nat) → Build Unit
  | 0, _, _ => fail
  | steps + 1, id, taken => do
    let entries ← entriesOf id
    settleValueKeys entries
    match splitMerge? (← get).nodes entries with
    | none =>
      if !taken.isEmpty then
        changeNode id fun n => { n with content := .mapping (taken ++ entries) (some taken) }
    | some (front, merged, rest) =>
      if !taken.isEmpty then fail
      changeNode id fun n => match n.content with
        | .mapping _ earlier => { n with content := .mapping (front ++ rest) earlier }
        | _ => n
      let taken ← match (← node merged).content with
        | .mapping _ _ => takeOver steps [merged]
        | .sequence items => takeOver steps items
        | .scalar _ => fail
      flatten steps id taken
/-- The entries of several mappings, those of the last one first, so that the earlier ones prevail. -/
def takeOver : Nat → List Nat → Build (List (Nat × Nat))
  | 0, _ => fail
  | _, [] => return []
  | steps + 1, id :: rest => do
    flatten steps id []
    let entries ← entriesOf id
    return (← takeOver steps rest) ++ entries
end

/-! ## Keys -/

/-- The datum that looks a key up: a list becomes a tuple, and no other collection can be a key. -/
def keyOf : Item → Build Datum
  | .plain value => return value
  | .collection id => do
    match (← get).collections[id]? with
    | some (.list items) =>
      return .tuple (items.map (datumOf (← get).collections))
    | some (.pairs items) =>
      let collections := (← get).collections
      return .tuple (items.map fun (a, b) =>
        .tuple [datumOf collections a, datumOf collections b])
    | _ => fail

/-- A key has to be one that can be looked up. -/
def checkKey (key : Datum) : Build Unit :=
  match key.unhashable? with
  | some reason => throw (.unhashable reason)
  | none => return ()

/-- A second value for a key is refused, with a message that shows the key and both values. -/
def refuseRepeated {α : Type} (key : Datum) (value earlier : Item) : Build α := do
  if key.hasLongInteger || (← datum value).hasLongInteger || (← datum earlier).hasLongInteger then
    throw .longInteger
  else fail

/-- The entries of a mapping after the given ones, from the values of its nodes. If they are checked,
no key may occur twice. -/
def buildEntries (build : Nat → Bool → Build Item) (checked : Bool) :
    List (Nat × Nat) → List (Datum × Item) → Build (List (Datum × Item))
  | [], entries => return entries
  | (key, value) :: rest, entries => do
    let key ← keyOf (← build key true)
    let value ← build value false
    checkKey key
    if checked then
      match entries.find? fun e => e.1.sameValue key with
      | some (_, earlier) => refuseRepeated key value earlier
      | none => pure ()
    buildEntries build checked rest (putEntry key value entries)

/-- All entries of a mapping; those that merge keys have taken over are not checked. -/
def buildMapping (build : Nat → Bool → Build Item) (id : Nat) : Build (List (Datum × Item)) := do
  match (← node id).content with
  | .mapping _ _ =>
    flatten (2 * (← get).nodes.size + 2) id []
    match (← node id).content with
    | .mapping entries (some taken) =>
      let merged ← buildEntries build false taken []
      let own ← buildEntries build false entries []
      return own.foldl (fun entries e => putEntry e.1 e.2 entries) merged
    | .mapping entries none => buildEntries build true entries []
    | _ => fail
  | _ => fail

/-- The one entry of a mapping that is an item of an ordered mapping or a list of pairs. -/
def singleEntry (id : Nat) : Build (Nat × Nat) := do
  match (← node id).content with
  | .mapping [entry] _ => return entry
  | _ => fail

def buildPairs (build : Nat → Bool → Build Item) : List Nat → Build (List (Item × Item))
  | [] => return []
  | id :: rest => do
    let (key, value) ← singleEntry id
    let key ← build key false
    let value ← build value false
    return (key, value) :: (← buildPairs build rest)

/-- The entries of an ordered mapping after the given ones. Its keys are taken as they are. -/
def buildOrdered (build : Nat → Bool → Build Item) :
    List Nat → List (Datum × Item) → Build (List (Datum × Item))
  | [], entries => return entries
  | id :: rest, entries => do
    let (key, value) ← singleEntry id
    let key ← datum (← build key false)
    checkKey key
    if entries.any fun e => e.1.sameValue key then throw .repeatedKey
    let value ← build value false
    buildOrdered build rest (putEntry key value entries)

/-! ## Nodes -/

def itemsOf (id : Nat) : Build (List Nat) := do
  match (← node id).content with
  | .sequence items => return items
  | _ => fail

def fillWith (build : Nat → Bool → Build Item) (id target : Nat) : Build Unit := do
  match (← get).collections[target]? with
  | some (.list _) =>
    let items ← (← itemsOf id).mapM fun child => build child false
    put target (.list items)
  | some (.pairs _) => put target (.pairs (← buildPairs build (← itemsOf id)))
  | some (.orderedMapping _) =>
    put target (.orderedMapping (← buildOrdered build (← itemsOf id) []))
  | some (.set _) => put target (.set ((← buildMapping build id).map (·.1)))
  | some (.mapping _) => put target (.mapping (← buildMapping build id))
  | none => fail

def emptyCollection? : NodeType → Option Collection
  | .list => some (.list [])
  | .pairs => some (.pairs [])
  | .set => some (.set [])
  | .mapping => some (.mapping [])
  | .orderedMapping => some (.orderedMapping [])
  | _ => none

def scalarValue (type : NodeType) (t : Text) : Except Failure Datum :=
  match type with
  | .null => .ok .none
  | .boolean => (booleanOf t).map .boolean
  | .integer => (integerOf t).map .integer
  | .float => (floatOf t).map .float
  | .binary => (bytesOf t).map .bytes
  | .text => .ok (.text t)
  | _ => .error .malformed

def buildFresh (build : Nat → Bool → Build Item) (id : Nat) : Build Item := do
  let type := (← node id).type
  match emptyCollection? type with
  | some c =>
    let target ← alloc c
    if (← get).eager then fillWith build id target
    else modify fun s => { s with pending := s.pending ++ [(id, target)] }
    return .collection target
  | none =>
    if type == .merge || type == .value || type == .unknown then fail
    else
      let t ← scalarText ((← get).nodes.size + 1) id
      return .plain (← lift (scalarValue type t))

/-- The value of a node, with the collections in it filled at once if that is asked for. -/
def buildNode : Nat → Nat → Bool → Build Item
  | 0, _, _ => fail
  | steps + 1, id, eager => do
    let s ← get
    match s.built.lookup id with
    | some item => return item
    | none =>
      if s.building.contains id then return .plain .none
      else
        set { s with building := id :: s.building, eager := s.eager || eager }
        let item ← buildFresh (buildNode steps) id
        modify fun s' => { s' with
          built := (id, item) :: s'.built
          building := s.building
          eager := s.eager }
        return item

/-- The collections that are still to be filled are filled one after the other. -/
def fillPending (depth : Nat) : Nat → Build Unit
  | 0 => fail
  | steps + 1 => do
    let s ← get
    match s.pending with
    | [] => return ()
    | (id, target) :: rest =>
      set { s with pending := rest }
      fillWith (buildNode depth) id target
      fillPending depth steps

/-- The value of a document with the given outermost node, and all collections. -/
def buildDocument (root : Nat) (nodes : Array Node) : Except Failure (Item × Array Collection) := do
  let depth := nodes.size + 1
  let build : Build Item := do
    let item ← buildNode depth root false
    fillPending depth depth
    return item
  let (item, s) ← build.run ⟨nodes, [], [], #[], [], false⟩
  return (item, s.collections)

end TagTemplate.Runs.Yaml
