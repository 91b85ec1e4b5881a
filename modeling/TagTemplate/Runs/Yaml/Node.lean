import TagTemplate.Runs.Yaml.Token
import TagTemplate.Runs.Yaml.Type

set_option autoImplicit false

/-! # YAML nodes

The tokens of a YAML text form one document, a graph of scalars, sequences and mappings. An anchor
names a node, and an alias stands for the node that was last given its name; a collection has its
name as soon as it begins, so it can contain itself. So nodes are numbered, and a collection lists
the numbers of its parts. What is left out, a key or a value, is an empty plain scalar.

The functions below follow the grammar of the tokens. They take a bound on their steps, which the
number of tokens gives. -/

namespace TagTemplate.Runs.Yaml

/-- What a node holds. A mapping may also hold the entries that it has taken over. -/
inductive Content
  | scalar (value : Text)
  | sequence (items : List Nat)
  | mapping (entries : List (Nat × Nat)) (merged : Option (List (Nat × Nat)))

structure Node where
  type : NodeType
  content : Content

instance : Inhabited Node := ⟨⟨.null, .scalar []⟩⟩

/-- The tokens still to be read with the failure behind them, what the handles of tags stand for, the
anchored nodes, the latest first, and all nodes. -/
structure Composer where
  stream : TokenStream
  handles : List (Text × Text)
  anchors : List (Text × Nat)
  nodes : Array Node

/-- A step of the composition, which fails on tokens out of place and where the tokens end. -/
abbrev Compose := StateT Composer (Except Failure)

namespace Compose

/-! ## Tokens -/

def fail {α : Type} : Compose α := throw .malformed

def peek : Compose Token := do
  let stream := (← get).stream
  match stream.tokens, stream.failure with
  | token :: _, _ => return token
  | [], some failure => throw failure
  | [], none => return .streamEnd

def skip : Compose Unit :=
  modify fun s => { s with stream := { s.stream with tokens := s.stream.tokens.tail } }

/-- The next token is done with if it is the given one, which the answer tells. -/
def accept (token : Token) : Compose Bool := do
  if (← peek) = token then
    skip
    return true
  else return false

def expect (token : Token) : Compose Unit := do
  if !(← accept token) then fail

/-! ## Anchors and tags -/

def anchor? : Compose (Option Text) := do
  match ← peek with
  | .anchor name =>
    skip
    return some name
  | _ => return none

def tag? : Compose (Option Tag) := do
  match ← peek with
  | .tag tag =>
    skip
    return some tag
  | _ => return none

/-- The full name of a tag, whose handle has to be known. -/
def fullName (tag : Tag) : Compose Text := do
  match tag.handle with
  | none => return decodeName tag.name
  | some handle =>
    match (← get).handles.lookup handle with
    | some meaning => return meaning ++ decodeName tag.name
    | none => fail

/-- The anchor and the full name of the tag of a node, which stand in either order. -/
def properties : Compose (Option Text × Option Text) := do
  let (anchor, tag) ← do
    match ← anchor? with
    | some name => pure (some name, ← tag?)
    | none =>
      match ← tag? with
      | some tag => pure (← anchor?, some tag)
      | none => pure (none, none)
  match tag with
  | some tag => return (anchor, some (← fullName tag))
  | none => return (anchor, none)

def resolve (name : Text) : Compose Nat := do
  match (← get).anchors.lookup name with
  | some id => return id
  | none => fail

/-! ## Nodes -/

def add (anchor : Option Text) (n : Node) : Compose Nat := do
  let s ← get
  let id := s.nodes.size
  let anchors := match anchor with
    | some name => (name, id) :: s.anchors
    | none => s.anchors
  set { s with nodes := s.nodes.push n, anchors := anchors }
  return id

/-- The contents of a node that has been added empty. -/
def fill (id : Nat) (content : Content) : Compose Nat := do
  modify fun s => { s with nodes := s.nodes.modify id fun n => { n with content := content } }
  return id

def addEmpty : Compose Nat := add none ⟨.null, .scalar []⟩

def addSequence (anchor tag : Option Text) (items : Compose (List Nat)) : Compose Nat := do
  let id ← add anchor ⟨collectionType tag .list, .sequence []⟩
  fill id (.sequence (← items))

def addMapping (anchor tag : Option Text) (entries : Compose (List (Nat × Nat))) :
    Compose Nat := do
  let id ← add anchor ⟨collectionType tag .mapping, .mapping [] none⟩
  fill id (.mapping (← entries) none)

end Compose

/-! ## The grammar -/

/-- A key or a value in a block mapping may be left out before these tokens. -/
def endsBlockPart (token : Token) : Bool := [.key, .value, .blockEnd].contains token

open Compose in
mutual
/-- A node. Block collections stand only where blocks may, and a sequence without indentation of
its own only inside a block mapping. -/
def composeNode (block indentless : Bool) : Nat → Compose Nat
  | 0 => fail
  | steps + 1 => do
    match ← peek with
    | .alias name =>
      skip
      resolve name
    | _ =>
      let (anchor, tag) ← properties
      let token ← peek
      match token with
      | .scalar value plain =>
        skip
        add anchor ⟨scalarType tag plain value, .scalar value⟩
      | .flowSequenceStart =>
        skip
        addSequence anchor tag (composeFlowItems true steps)
      | .flowMappingStart =>
        skip
        addMapping anchor tag (composeFlowEntries true steps)
      | _ =>
        if token = .blockEntry && indentless then
          addSequence anchor tag (composeIndentless steps)
        else if token = .blockSequenceStart && block then
          skip
          addSequence anchor tag (composeBlockItems steps)
        else if token = .blockMappingStart && block then
          skip
          addMapping anchor tag (composeBlockEntries steps)
        else if anchor.isSome || tag.isSome then
          add anchor ⟨scalarType tag true [], .scalar []⟩
        else fail

def composeBlockItems : Nat → Compose (List Nat)
  | 0 => fail
  | steps + 1 => do
    if ← accept .blockEntry then
      let token ← peek
      let item ←
        if token = .blockEntry || token = .blockEnd then addEmpty else composeNode true false steps
      return item :: (← composeBlockItems steps)
    else
      expect .blockEnd
      return []

/-- The entries of a sequence without indentation of its own. -/
def composeIndentless : Nat → Compose (List Nat)
  | 0 => fail
  | steps + 1 => do
    if ← accept .blockEntry then
      let token ← peek
      let item ←
        if token = .blockEntry || endsBlockPart token then addEmpty
        else composeNode true false steps
      return item :: (← composeIndentless steps)
    else return []

def composeBlockEntries : Nat → Compose (List (Nat × Nat))
  | 0 => fail
  | steps + 1 => do
    if ← accept .key then
      let key ← if endsBlockPart (← peek) then addEmpty else composeNode true true steps
      let value ← composeBlockValue steps
      return (key, value) :: (← composeBlockEntries steps)
    else if (← peek) = .value then
      let key ← addEmpty
      let value ← composeBlockValue steps
      return (key, value) :: (← composeBlockEntries steps)
    else
      expect .blockEnd
      return []

def composeBlockValue : Nat → Compose Nat
  | 0 => fail
  | steps + 1 => do
    if ← accept .value then
      if endsBlockPart (← peek) then addEmpty else composeNode true true steps
    else addEmpty

/-- The key of a flow collection behind its key token, where the given token may end the
collection. -/
def composeFlowKey (ending : Token) : Nat → Compose Nat
  | 0 => fail
  | steps + 1 => do
    if [.value, .flowEntry, ending].contains (← peek) then addEmpty
    else composeNode false false steps

/-- The value behind a key of a flow collection, where the given token may end the collection. -/
def composeFlowValue (ending : Token) : Nat → Compose Nat
  | 0 => fail
  | steps + 1 => do
    if ← accept .value then
      if [.flowEntry, ending].contains (← peek) then addEmpty else composeNode false false steps
    else addEmpty

/-- The one entry of a mapping that is an item of a flow sequence. -/
def composeFlowPair : Nat → Compose (List (Nat × Nat))
  | 0 => fail
  | steps + 1 => do
    let key ← composeFlowKey .flowSequenceEnd steps
    let value ← composeFlowValue .flowSequenceEnd steps
    return [(key, value)]

def composeFlowItems (first : Bool) : Nat → Compose (List Nat)
  | 0 => fail
  | steps + 1 => do
    if ← accept .flowSequenceEnd then return []
    else
      if !first then expect .flowEntry
      if ← accept .flowSequenceEnd then return []
      else if ← accept .key then
        let item ← addMapping none none (composeFlowPair steps)
        return item :: (← composeFlowItems false steps)
      else
        let item ← composeNode false false steps
        return item :: (← composeFlowItems false steps)

/-- The entries of a flow mapping up to its end; an entry without a key token has no value. -/
def composeFlowEntries (first : Bool) : Nat → Compose (List (Nat × Nat))
  | 0 => fail
  | steps + 1 => do
    if ← accept .flowMappingEnd then return []
    else
      if !first then expect .flowEntry
      if ← accept .flowMappingEnd then return []
      else if ← accept .key then
        let key ← composeFlowKey .flowMappingEnd steps
        let value ← composeFlowValue .flowMappingEnd steps
        return (key, value) :: (← composeFlowEntries false steps)
      else if (← peek) = .value then
        let key ← addEmpty
        let value ← composeFlowValue .flowMappingEnd steps
        return (key, value) :: (← composeFlowEntries false steps)
      else
        let key ← composeNode false false steps
        let value ← addEmpty
        return (key, value) :: (← composeFlowEntries false steps)
end

/-! ## Documents -/

/-- What the handles of tags stand for without a directive. -/
def defaultHandles : List (Text × Text) :=
  [(['!'], ['!']), (['!', '!'], "tag:yaml.org,2002:".toList)]

open Compose in
/-- The directives in front of a document, given whether the version has been told and which handles
have been given a meaning. Nothing is told twice, and the version is one of the first series. -/
def composeDirectives : Nat → Bool → List (Text × Text) → Compose Unit
  | 0, _, _ => fail
  | steps + 1, versioned, handles => do
    match ← peek with
    | .directive directive =>
      skip
      match directive with
      | .version major _ =>
        if versioned || major != 1 then fail
        composeDirectives steps true handles
      | .handle handle meaning =>
        if (handles.lookup handle).isSome then fail
        composeDirectives steps versioned ((handle, meaning) :: handles)
      | .reserved => composeDirectives steps versioned handles
    | _ => modify fun s => { s with handles := handles ++ defaultHandles }

open Compose in
/-- The content of a document that a mark has opened. -/
def composeMarked (steps : Nat) : Compose Nat := do
  match ← peek with
  | .directive _ | .documentStart | .documentEnd | .streamEnd => addEmpty
  | _ => composeNode true false steps

open Compose in
/-- The one document of a text, nothing of an empty text. -/
def composeDocument (steps : Nat) : Compose (Option Nat) := do
  let marked ← match ← peek with
    | .streamEnd => return none
    | .directive _ | .documentStart => pure true
    | _ => pure false
  let root ←
    if marked then
      composeDirectives steps false []
      expect .documentStart
      composeMarked steps
    else composeNode true false steps
  let _ ← accept .documentEnd
  expect .streamEnd
  return some root

/-- The nodes of a document and the number of the outermost one, if there is a document. -/
def documentOf (stream : TokenStream) : Except Failure (Option Nat × Array Node) := do
  let (root, composer) ←
    (composeDocument (4 * stream.tokens.length + 8)).run ⟨stream, defaultHandles, [], #[]⟩
  return (root, composer.nodes)

end TagTemplate.Runs.Yaml
