import TagTemplate.Lexer.Tokenize
import TagTemplate.Proofs.Parser.Step

set_option autoImplicit false

/-! # The tags of a text and what is wrong with them

The tokens of a text are divided into tags (`tagsOf`): the tokens between the opening of a tag and
its end are the tokens of that tag. What can be wrong with a tag is said here without the builder,
by its own tokens, the depth at which it stands and the strict option (`TagTokens.fault?`): the
error that is to be reported if the tag is not legal at its place, with the token at which it is
reported. The depth of a tag counts the loop tags before it less the end tags before it.
-/

namespace TagTemplate

/-! ## Dividing tokens into tags -/

/-- A tag as it stands among tokens: the token that opens it, and the tokens behind that. -/
structure TagTokens where
  opening : Token
  inner : List Token

/-- Whether a token is the last one of the tag it stands in: the end of the tag or of the input. -/
def Token.endsTag (t : Token) : Bool := t.payload == .tagEnd || t.isEnd

theorem Token.endsTag_eq_false_iff {t : Token} :
    t.endsTag = false ↔ t.payload ≠ .tagEnd ∧ t.isEnd = false := by
  rw [endsTag, Bool.or_eq_false_iff, beq_eq_false_iff_ne]

/-- The tokens up to the first that ends a tag, that one included; all of them if there is none. -/
def innerTokens : List Token → List Token
  | [] => []
  | t :: ts => if t.endsTag then [t] else t :: innerTokens ts

/-- The tags among tokens, in the order in which they are opened. -/
def tagsOf : List Token → List TagTokens
  | [] => []
  | t :: ts => if t.payload = .tagStart then ⟨t, innerTokens ts⟩ :: tagsOf ts else tagsOf ts

/-- The tags of a text, as far as tokens can be read from it. -/
def Text.tags (t : Text) : List TagTokens := tagsOf (Lexer.ofText t).drain.tokens

variable {t : Token} {ts rest : List Token}

theorem innerTokens_cons_of_end (h : t.endsTag = true) : innerTokens (t :: ts) = [t] := by
  rw [innerTokens, if_pos h]

theorem innerTokens_cons (h : t.endsTag = false) : innerTokens (t :: ts) = t :: innerTokens ts := by
  rw [innerTokens, if_neg (by simp [h])]

/-- The tokens of a tag begin with the one behind the opening. -/
theorem exists_innerTokens_cons (t : Token) (ts : List Token) :
    ∃ more, innerTokens (t :: ts) = t :: more := by
  cases h : t.endsTag with
  | true => exact ⟨[], innerTokens_cons_of_end h⟩
  | false => exact ⟨innerTokens ts, innerTokens_cons h⟩

theorem innerTokens_append (h : ∀ t ∈ ts, t.endsTag = false) :
    innerTokens (ts ++ rest) = ts ++ innerTokens rest := by
  induction ts with
  | nil => rfl
  | cons t ts ih =>
      have hts := ih fun t' ht' => h t' (List.mem_cons_of_mem _ ht')
      rw [List.cons_append, innerTokens_cons (h t (by simp)), hts, List.cons_append]

/-- Tokens stand inside a tag: none is the end of the input, and none opens a tag. -/
def AreInside (ts : List Token) : Prop := ∀ t ∈ ts, t.isEnd = false ∧ t.payload ≠ .tagStart

theorem areInside_of_tagEnd (h : t.payload = .tagEnd) : AreInside [t] := by
  simp [AreInside, Token.isEnd, h]

theorem AreInside.append (hts : AreInside ts) (hrest : AreInside rest) :
    AreInside (ts ++ rest) := by
  intro t ht
  rcases List.mem_append.mp ht with ht | ht
  · exact hts t ht
  · exact hrest t ht

/-- No tag is opened inside a tag. -/
theorem tagsOf_append (h : AreInside ts) : tagsOf (ts ++ rest) = tagsOf rest := by
  induction ts with
  | nil => rfl
  | cons t ts ih =>
      have hts := ih fun t' ht' => h t' (List.mem_cons_of_mem _ ht')
      rw [List.cons_append, tagsOf, if_neg (h t (by simp)).2, hts]

/-! ## The parts of a tag -/

/-- The element that a token makes as an argument of a tag. -/
def Payload.element? (p : Payload) : Option Element :=
  p.elementKind?.bind fun kind => (Element.construct kind p.value).toOption

theorem element?_token (e : Element) : e.token.element? = some e := by
  rw [Payload.element?, token_elementKind?, Option.bind_some, construct_token]
  rfl

namespace TagTokens

/-- Which tag it is, by the first token behind the opening. -/
def name? (tag : TagTokens) : Option TagName :=
  match tag.inner.head?.map Token.payload with
  | some (.identifier text) => TagName.ofText? text
  | _ => none

def elements (tag : TagTokens) : List Element :=
  tag.inner.tail.filterMap fun t => t.payload.element?

end TagTokens

/-! ## Depth -/

/-- The depth behind tags: the number of loop tags less the number of end tags. -/
def tagDepth (tags : List TagTokens) : Int :=
  (tags.countP fun tag => tag.name? == some .loop) -
    (tags.countP fun tag => tag.name? == some .ending)

/-- The variables of the loops that are open behind a tag, the innermost first, from those that are
open before it. -/
def TagTokens.variables (opened : List Identifier) (tag : TagTokens) : List Identifier :=
  match tag.name?, tag.elements.head? with
  | some .loop, some (.var name) => name :: opened
  | some .ending, _ => opened.tail
  | _, _ => opened

/-- The variables of the loops that are open behind tags, the innermost first. -/
def openVariables (tags : List TagTokens) : List Identifier :=
  tags.foldl TagTokens.variables []

theorem openVariables_concat (tags : List TagTokens) (tag : TagTokens) :
    openVariables (tags ++ [tag]) = tag.variables (openVariables tags) := by
  rw [openVariables, List.foldl_append]
  rfl

theorem tagDepth_concat (tags : List TagTokens) (tag : TagTokens) :
    tagDepth (tags ++ [tag]) = tagDepth tags + (if tag.name? = some .loop then 1 else 0)
      - if tag.name? = some .ending then 1 else 0 := by
  unfold tagDepth
  rw [List.countP_append, List.countP_append, List.countP_singleton, List.countP_singleton]
  simp only [beq_iff_eq]
  by_cases hloop : tag.name? = some .loop
  · have hending : tag.name? ≠ some .ending := by simp [hloop]
    rw [if_pos hloop, if_pos hloop, if_neg hending, if_neg hending]
    omega
  · rw [if_neg hloop, if_neg hloop]
    split <;> omega

/-! ## Faults of a tag -/

/-- What is wrong with the expressions of a loop tag: the first of them, or in strict mode a
function or an operator behind it. -/
def expressionsFault? (strict : Bool) : List Element → Option SyntaxCause
  | [] => none
  | .var _ :: bounds =>
    if strict then (bounds.find? fun e => !e.isPlain).map .strictBound else none
  | first :: _ => some (.loopVariable first)

/-- What is wrong with the elements of a loop tag: their number, or else the expressions that they
are. -/
def loopFault? (strict : Bool) (elements : List Element) : Option SyntaxCause :=
  if elements.length = 3 ∨ elements.length = 4 then expressionsFault? strict elements
  else some (.loopArity elements.length)

/-- The fault of expressions is the reason for which they make no header. -/
theorem expressionsFault?_eq (strict : Bool) (first start stop : Element) (step : Option Element) :
    expressionsFault? strict (first :: start :: stop :: step.toList) =
      match loopHeaderOf strict first start stop step with
      | .ok _ => none
      | .error cause => some cause := by
  cases first with
  | var name =>
      simp only [expressionsFault?, loopHeaderOf, LoopHeader.bounds, List.cons_append,
        List.nil_append]
      cases strict with
      | false => rfl
      | true =>
          simp only [if_true]
          cases (start :: stop :: step.toList).find? fun e => !e.isPlain <;> rfl
  | _ => rfl

/-- The fault of the elements of a loop tag is the reason for which they make no header. -/
theorem loopFault?_eq (strict : Bool) (elements : List Element) :
    loopFault? strict elements =
      match loopHeader? strict elements with
      | .ok _ => none
      | .error cause => some cause := by
  match elements with
  | [] => rfl
  | [_] => rfl
  | [_, _] => rfl
  | [first, start, stop] => exact expressionsFault?_eq strict first start stop none
  | [first, start, stop, step] => exact expressionsFault?_eq strict first start stop (some step)
  | _ :: _ :: _ :: _ :: _ :: rest =>
      rw [loopFault?, if_neg (by simp)]
      rfl

/-- Whether a token can be neither an argument nor the end of a tag: the name `=` and the end of the
input. -/
def Token.isStray (t : Token) : Bool := t.payload == .identifier ['='] || t.isEnd

/-- The error of a stray token: the end of the input is reported at the opening of the tag, and the
name `=` where it stands. -/
def strayError (tag : ArgumentTag) (opening : Position) (t : Token) : SyntaxError :=
  if t.isEnd then ⟨.argumentsNotClosed tag, opening⟩ else ⟨.equalsArgument tag, t.position⟩

/-- What is wrong behind the name of a tag with arguments: the first stray token; and in a loop tag
that comes to its end without one, its elements, reported at the name. -/
def argumentsFault? (strict : Bool) (tag : ArgumentTag) (opening name : Position)
    (arguments : List Token) : Option SyntaxError :=
  match arguments.find? Token.isStray with
  | some t => some (strayError tag opening t)
  | none =>
    match tag with
    | .echo => none
    | .loop =>
      if arguments.any fun t => t.payload == .tagEnd then
        (loopFault? strict (arguments.filterMap fun t => t.payload.element?)).map
          fun cause => ⟨cause, name⟩
      else none

/-- What is wrong behind the name of an end tag: the end of the input, reported at the opening, any
other token but the end of the tag, reported there, or that no loop is open, reported at the
name. -/
def endFault? (depth : Int) (opening name : Position) (arguments : List Token) :
    Option SyntaxError :=
  match arguments with
  | [] => none
  | t :: _ =>
    if t.isEnd then some ⟨.endNotClosed, opening⟩
    else if t.payload ≠ .tagEnd then some ⟨.endWithArguments, t.position⟩
    else if depth = 0 then some ⟨.endWithoutLoop, name⟩
    else none

/-- The error of a tag that is not legal at its depth. A tag whose tokens stop before any of this is
seen, because no further token can be read, has none. -/
def TagTokens.fault? (strict : Bool) (depth : Int) (tag : TagTokens) : Option SyntaxError :=
  match tag.inner with
  | [] => none
  | name :: arguments =>
    match name.payload with
    | .endOfInput => some ⟨.tagNotClosed, tag.opening.position⟩
    | .identifier text =>
      match TagName.ofText? text with
      | some .echo =>
        argumentsFault? strict .echo tag.opening.position name.position arguments
      | some .loop =>
        argumentsFault? strict .loop tag.opening.position name.position arguments
      | some .ending => endFault? depth tag.opening.position name.position arguments
      | none => some ⟨.unknownTag text, name.position⟩
    | payload => some ⟨.tagNameExpected payload.kind, name.position⟩

end TagTemplate
