import TagTemplate.Runs.Yaml.Build

set_option autoImplicit false

/-! # Values of YAML texts

A YAML text is read in three stages: its tokens, the nodes of its one document, and their values. Of
the outermost value only the entries of a mapping are looked at further. -/

namespace TagTemplate.Runs.Yaml

def entryData (collections : Array Collection) (entries : List (Datum × Item)) : Mapping :=
  .ofEntries (entries.map fun (key, value) => (key, datumOf collections value))

def outermost (collections : Array Collection) : Item → YamlValue
  | .plain .none => .nothing
  | .plain _ => .other
  | .collection id =>
    match collections[id]? with
    | some (.mapping entries) => .mapping (entryData collections entries)
    | some (.orderedMapping entries) => .mapping (entryData collections entries)
    | _ => .other

/-- The value of a YAML text; a text without a document says nothing. -/
def valueOf (t : Text) : Except Failure YamlValue := do
  match ← documentOf (tokensOf t) with
  | (none, _) => return .nothing
  | (some root, nodes) =>
    let (item, collections) ← buildDocument root nodes
    return outermost collections item

/-- The loader that runs use. -/
def load : YamlLoader := fun t => (valueOf t).mapError Failure.ofLoader

end TagTemplate.Runs.Yaml
