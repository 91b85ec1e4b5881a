import TagTemplate.Parser.Failure

set_option autoImplicit false

/-! # Building a document from tokens

A document is built by one step for every token. Between two tokens the builder is at a place of the
text: outside of tags, behind a tag opening, among the arguments of a tag, or behind the name of an
end tag. Besides, it holds the loops that are open, the innermost first, and the nodes read so far
in each of them, the latest first.

The place decides the mode in which the next token is read: text mode outside of tags and tag mode
inside. -/

namespace TagTemplate

/-! ## Open loops -/

/-- An open loop: its header, and the nodes before it in the container it stands in, the latest
first. -/
structure OpenLoop where
  header : LoopHeader
  before : List Node

/-- The unfinished document: the nodes of the innermost open container, the latest first, and the
open loops, the innermost first. -/
structure Unfinished where
  nodes : List Node
  loops : List OpenLoop

namespace Unfinished

def empty : Unfinished := ⟨[], []⟩

def add (u : Unfinished) (n : Node) : Unfinished := { u with nodes := n :: u.nodes }

def openLoop (u : Unfinished) (header : LoopHeader) : Unfinished :=
  ⟨[], ⟨header, u.nodes⟩ :: u.loops⟩

/-- The innermost loop is closed and becomes a node; nothing if no loop is open. -/
def closeLoop? (u : Unfinished) : Option Unfinished :=
  match u.loops with
  | [] => none
  | ⟨header, before⟩ :: loops => some ⟨.loop header u.nodes.reverse :: before, loops⟩

end Unfinished

/-! ## Places -/

/-- Where the builder is between two tokens. Positions are those of the tag's opening and of its
name; arguments are those read so far, the latest first. -/
inductive Place
  | outside
  | tagOpened (opening : Position)
  | arguments (tag : ArgumentTag) (opening name : Position) (read : List Element)
  | ending (opening name : Position)

/-- The mode in which the token behind a place is read. -/
def Place.mode : Place → Mode
  | outside => .text
  | _ => .tag

structure BuildState where
  place : Place
  unfinished : Unfinished

namespace BuildState

def start : BuildState := ⟨.outside, .empty⟩

end BuildState

/-- What a step gives: a further state, or the finished document, as the list of its nodes. -/
inductive Step
  | next (state : BuildState)
  | finished (document : List Node)

/-! ## Tags -/

inductive TagName
  | echo
  | loop
  | ending
deriving DecidableEq, Repr

/-- The tag of a name; the letters of the names of loop and end tags may be of either case. -/
def TagName.ofText? (name : Text) : Option TagName :=
  if name = ['='] then some echo
  else if name.map Char.toUpper = ['F', 'O', 'R'] then some loop
  else if name.map Char.toUpper = ['E', 'N', 'D'] then some ending
  else none

/-- The kind of element that an argument token makes, if it can be an argument. -/
def Payload.elementKind? : Payload → Option ElementKind
  | identifier _ => some .var
  | integer _ => some .integer
  | double _ => some .double
  | string _ => some .string
  | function _ => some .function
  | operator _ => some .operator
  | _ => none

def loopHeaderOf (strict : Bool) (first start stop : Element) (step : Option Element) :
    Except SyntaxCause LoopHeader :=
  match first with
  | .var name =>
    let header : LoopHeader := ⟨name, start, stop, step⟩
    match if strict then header.bounds.find? fun e => !e.isPlain else none with
    | some e => .error (.strictBound e)
    | none => .ok header
  | e => .error (.loopVariable e)

/-- The header of a loop with the given arguments: three or four, the first a variable, and under
strict options no function or operator behind it. -/
def loopHeader? (strict : Bool) : List Element → Except SyntaxCause LoopHeader
  | [first, start, stop] => loopHeaderOf strict first start stop none
  | [first, start, stop, step] => loopHeaderOf strict first start stop (some step)
  | elements => .error (.loopArity elements.length)

/-! ## Steps -/

def failAt (cause : SyntaxCause) (position : Position) : Except ParseFailure Step :=
  .error (.malformed ⟨cause, position⟩)

def stepOutside (u : Unfinished) (t : Token) : Except ParseFailure Step :=
  match t.payload with
  | .text value => .ok (.next ⟨.outside, u.add (.text value)⟩)
  | .tagStart => .ok (.next ⟨.tagOpened t.position, u⟩)
  | .endOfInput =>
    match u.loops with
    | [] => .ok (.finished u.nodes.reverse)
    | l :: _ => failAt (.loopsNotClosed u.loops.length l.header.var) t.position
  | payload => failAt (.unexpectedOutside payload.kind) t.position

def stepTagName (u : Unfinished) (opening : Position) (t : Token) : Except ParseFailure Step :=
  match t.payload with
  | .endOfInput => failAt .tagNotClosed opening
  | .identifier name =>
    match TagName.ofText? name with
    | some .echo => .ok (.next ⟨.arguments .echo opening t.position [], u⟩)
    | some .loop => .ok (.next ⟨.arguments .loop opening t.position [], u⟩)
    | some .ending => .ok (.next ⟨.ending opening t.position, u⟩)
    | none => failAt (.unknownTag name) t.position
  | payload => failAt (.tagNameExpected payload.kind) t.position

def closeArguments (strict : Bool) (u : Unfinished) (tag : ArgumentTag) (name : Position)
    (elements : List Element) : Except ParseFailure Step :=
  match tag with
  | .echo => .ok (.next ⟨.outside, u.add (.echo elements)⟩)
  | .loop =>
    match loopHeader? strict elements with
    | .ok header => .ok (.next ⟨.outside, u.openLoop header⟩)
    | .error cause => failAt cause name

def stepArgument (strict : Bool) (u : Unfinished) (tag : ArgumentTag) (opening name : Position)
    (read : List Element) (t : Token) : Except ParseFailure Step :=
  match t.payload with
  | .tagEnd => closeArguments strict u tag name read.reverse
  | .endOfInput => failAt (.argumentsNotClosed tag) opening
  | payload =>
    match payload.elementKind? with
    | none => failAt (.unexpectedArgument tag payload.kind) t.position
    | some kind =>
      if payload = .identifier ['='] then failAt (.equalsArgument tag) t.position
      else
        match Element.construct kind payload.value with
        | .ok e => .ok (.next ⟨.arguments tag opening name (e :: read), u⟩)
        | .error rejection => .error (.rejected rejection)

/-- A token behind the name of an end tag. -/
def stepEnding (u : Unfinished) (opening name : Position) (t : Token) :
    Except ParseFailure Step :=
  match t.payload with
  | .endOfInput => failAt .endNotClosed opening
  | .tagEnd =>
    match u.closeLoop? with
    | some closed => .ok (.next ⟨.outside, closed⟩)
    | none => failAt .endWithoutLoop name
  | _ => failAt .endWithArguments t.position

def BuildState.step (strict : Bool) (s : BuildState) (t : Token) : Except ParseFailure Step :=
  match s.place with
  | .outside => stepOutside s.unfinished t
  | .tagOpened opening => stepTagName s.unfinished opening t
  | .arguments tag opening name read => stepArgument strict s.unfinished tag opening name read t
  | .ending opening name => stepEnding s.unfinished opening name t

/-- Behind the end of the input there is no further state. -/
theorem BuildState.step_next_not_end {strict : Bool} {s s' : BuildState} {t : Token}
    (h : s.step strict t = .ok (.next s')) : t.isEnd = false := by
  rw [Token.isEnd, beq_eq_false_iff_ne]
  intro ht
  unfold step at h
  split at h
  · simp only [stepOutside, ht] at h
    split at h <;> simp [failAt] at h
  · simp [stepTagName, ht, failAt] at h
  · simp [stepArgument, ht, failAt] at h
  · simp [stepEnding, ht, failAt] at h

end TagTemplate
