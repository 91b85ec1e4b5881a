import TagTemplate.Options.Yaml
import TagTemplate.Number.IntegerText

set_option autoImplicit false

/-! # Why a YAML text has no value

The modules of this folder are a reader of YAML texts for runs of the library, which needs some loader
for its options. The theory of options is about any loader, and no module outside of this folder
depends on this one.

Most failures are malformed text, and nothing more is said about them. The others are words and
numbers that are written as their type demands but stand for nothing, and keys that no mapping can
hold. -/

namespace TagTemplate.Runs.Yaml

/-- Why a YAML text has no value. -/
inductive Failure
  | malformed
  | codePoint (code : Nat)
  | truthWord (word : Text)
  | integer (fault : IntegerFault)
  | float (written : Text)
  | missingNumber
  | longInteger
  | unhashable (reason : Unhashable)
  | repeatedKey

/-- The greatest number that an escape can name at all. -/
def maxEscapeCode : Nat := 0x7fffffff

def floatRefusal (written : Text) : Refusal :=
  ⟨.valueError, "could not convert string to float: " ++ String.ofList (Text.quoted written)⟩

/-- The failure as the caller of a loader sees it. -/
def Failure.ofLoader : Failure → YamlFailure
  | malformed => .malformed ""
  | codePoint code =>
    .passed <| if code ≤ maxEscapeCode then ⟨.valueError, "chr() arg not in range(0x110000)"⟩
      else ⟨.other "OverflowError", "Python int too large to convert to C int"⟩
  | truthWord word => .passed ⟨.other "KeyError", String.ofList (Text.quoted word)⟩
  | integer fault => .passed ⟨.valueError, fault.message⟩
  | float written => .passed (floatRefusal written)
  | missingNumber => .passed ⟨.indexError, "string index out of range"⟩
  | longInteger => .passed ⟨.valueError, longIntegerMessage⟩
  | unhashable reason => .passed ⟨.typeError, reason.message⟩
  | repeatedKey => .passed ⟨.other "AssertionError", ""⟩

end TagTemplate.Runs.Yaml
