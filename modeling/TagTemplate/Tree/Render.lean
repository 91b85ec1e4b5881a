import TagTemplate.Tree.Basic

set_option autoImplicit false

/-! # Rendering

A tree is rendered as the text of a template. Nesting is bounded by nothing, so the rendering works
through a stack of pending items: nodes still to be written, and the end tags of loops whose bodies
are being written. -/

namespace TagTemplate

def endTagText : Text := ['\x7b', '$', 'E', 'N', 'D', '$', '\x7d']

/-- A character of plain text: backslash and opening brace are written behind a backslash. -/
def textChar (c : Char) : Text := if c = '\\' ∨ c = '\x7b' then ['\\', c] else [c]

def textSource (content : Text) : Text := content.flatMap textChar

/-- An echo tag: its opening, its elements and its closing, separated by single spaces. -/
def echoSource (elements : List Element) : Text :=
  Text.unwords (['\x7b', '$', '='] :: elements.map Element.literal ++ [['$', '\x7d']])

/-- The opening tag of a loop: tag and name, its expressions and the closing, separated by single
spaces. -/
def LoopHeader.openingTag (h : LoopHeader) : Text :=
  Text.unwords
    (['\x7b', '$', ' ', 'F', 'O', 'R'] :: h.expressions.map Element.literal ++ [['$', '\x7d']])

/-! ## The size of a node

Every node counts once, and a loop once more for its end tag. -/

mutual
/-- How many items the rendering of a node takes from the stack. -/
def Node.weight : Node → Nat
  | .text _ => 1
  | .echo _ => 1
  | .loop _ children => 2 + Node.weights children
def Node.weights : List Node → Nat
  | [] => 0
  | n :: rest => n.weight + Node.weights rest
end

/-! ## The stack -/

/-- An item that is still to be written: a node, or the end tag of a loop. -/
inductive Pending
  | node (n : Node)
  | endTag

def pendingWeight : List Pending → Nat
  | [] => 0
  | .node n :: rest => n.weight + pendingWeight rest
  | .endTag :: rest => 1 + pendingWeight rest

/-- The items of the body of a loop: its children and then its end tag. -/
def pendingBody (children : List Node) (rest : List Pending) : List Pending :=
  children.map .node ++ .endTag :: rest

theorem pendingWeight_body (children : List Node) (rest : List Pending) :
    pendingWeight (pendingBody children rest) =
      Node.weights children + 1 + pendingWeight rest := by
  unfold pendingBody
  induction children with
  | nil => simp [pendingWeight, Node.weights]
  | cons n children ih =>
    simp only [List.map_cons, List.cons_append, pendingWeight, Node.weights, ih]
    omega

/-- The text of the pending items, the one in front first. -/
def renderPending : List Pending → Text
  | [] => []
  | .endTag :: rest => endTagText ++ renderPending rest
  | .node (.text content) :: rest => textSource content ++ renderPending rest
  | .node (.echo elements) :: rest => echoSource elements ++ renderPending rest
  | .node (.loop header children) :: rest =>
    header.openingTag ++ renderPending (pendingBody children rest)
termination_by items => pendingWeight items
decreasing_by
  all_goals simp only [pendingWeight, pendingWeight_body, Node.weight]
  all_goals omega

def Tree.render : Tree → Text
  | .document children => renderPending (children.map .node)
  | .node n => renderPending [.node n]

end TagTemplate
