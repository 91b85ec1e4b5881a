import TagTemplate.Tree.Walk
import TagTemplate.Datum.Display

set_option autoImplicit false

/-! # Outlines and displays of trees

The outline of a tree has one line for each node: its class and what it holds, indented by two
spaces for each level. Long texts are cut after fifty code points. The display shows the whole tree
on one line, with the fields of every node. -/

namespace TagTemplate

/-- A text as an outline shows it: at most fifty code points, and three dots if there are more. -/
def textPreview (content : Text) : Text :=
  Text.quoted (if 50 < content.length then content.take 50 ++ ['.', '.', '.'] else content)

/-- What the outline says of a node. -/
def Head.outline (head : Head) : Text :=
  head.className.toList ++ match head with
    | .text content => '(' :: textPreview content ++ [')']
    | .echo elements => '(' :: elementsText elements ++ [')']
    | .loop header => '(' :: elementsText header.expressions ++ [')']
    | .document => []

def Tree.outlineLines (t : Tree) (indent : Int) : List Text :=
  t.walkWithDepth.map fun (current, depth) =>
    List.replicate (2 * (indent + (depth : Int)).toNat) ' ' ++ current.head.outline

/-- The outline of a tree; a negative indentation takes spaces away as long as there are any. -/
def Tree.outline (t : Tree) (indent : Int) : Text := Text.join ['\n'] (t.outlineLines indent)

mutual
def Node.display : Node → Text
  | .text content => (Head.text content).display []
  | .echo elements => (Head.echo elements).display []
  | .loop header children => (Head.loop header).display (Node.displays children)
def Node.displays : List Node → List Text
  | [] => []
  | n :: rest => n.display :: Node.displays rest
end

def Tree.display : Tree → Text
  | .document children => Head.document.display (Node.displays children)
  | .node n => n.display

end TagTemplate
