import TagTemplate.Options.Basic

set_option autoImplicit false

/-! # Options from YAML

Options are also read from a YAML text, whose one document is the mapping. A text without a
document, or with the document that says nothing, gives the default options. The texts themselves are
loaded by a library from outside, of which only is known what it may answer. -/

namespace TagTemplate

/-- The value of a YAML text, as far as it is looked at. -/
inductive YamlValue
  | nothing
  | mapping (m : Mapping)
  | other

/-- How the loading of a YAML text fails: with an error of its own, which says what is wrong with the
text, or with any other one. -/
inductive YamlFailure
  | malformed (wording : String)
  | passed (refusal : Refusal)

/-- A loader of YAML texts. -/
abbrev YamlLoader := Text → Except YamlFailure YamlValue

inductive YamlOptionsFailure
  | malformed (wording : String)
  | passed (refusal : Refusal)
  | notMapping
  | refused (failure : OptionsFailure)

namespace YamlOptionsFailure

/-- The refusal as it is seen: only the loader's own errors are worded anew. -/
def refusal : YamlOptionsFailure → Refusal
  | malformed wording => ⟨.valueError, "Invalid parser options YAML: " ++ wording⟩
  | passed refusal => refusal
  | notMapping => ⟨.valueError, "Parser options YAML must be a mapping"⟩
  | refused failure => failure.refusal

end YamlOptionsFailure

/-- The options that a YAML text gives, if the given loader loads it. -/
def Options.ofYaml (sorting : Sorting) (load : YamlLoader) (t : Text) :
    Except YamlOptionsFailure Options :=
  match load t with
  | .error (.malformed wording) => .error (.malformed wording)
  | .error (.passed refusal) => .error (.passed refusal)
  | .ok .nothing => .ok default
  | .ok (.mapping m) => (ofMapping sorting m).mapError .refused
  | .ok .other => .error .notMapping

end TagTemplate
