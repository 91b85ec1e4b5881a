import Mathlib.Data.List.Forall2
import TagTemplate.Proofs.Lexer.Literal
import TagTemplate.Proofs.Text.Lines
import TagTemplate.Proofs.Tree.Walk
import TagTemplate.Tree.Outline

set_option autoImplicit false

/-! # The lines of an outline

The outline of a tree begins a line for each node of its walk, with two spaces for each level and the
name of the class (`ShowsVisit`). Plain text is quoted there, which keeps it on the line; elements
stand in it as they are written, and the literal of a string has the line feeds of the string, each
of which ends a line (`Head.count_outline`). So every node has a block of lines of its own
(`Tree.splitOn_outline`), and the number of lines is that of the nodes and of the line feeds in
strings (`Tree.length_splitOn_outline`). There is one line for each node exactly if no string of an
echo tag or a loop has a line feed (`Tree.forall₂_showsVisit_iff`).
-/

namespace TagTemplate

/-! ## Line feeds in literals -/

def Element.string? : Element → Option Text
  | string value => some value
  | _ => none

def stringsOf (elements : List Element) : List Text := elements.filterMap Element.string?

/-- The strings that a node shows among its elements. -/
def Head.strings : Head → List Text
  | .echo elements => stringsOf elements
  | .loop header => stringsOf header.expressions
  | _ => []

/-- Digits are no line feeds. -/
theorem lineFeed_not_mem_of_digits {t : Text} (h : ∀ c ∈ t, c.isDigit = true) : '\n' ∉ t :=
  fun hmem => absurd (h _ hmem) (by decide)

theorem lineFeed_not_mem_spaces (count : ℕ) : '\n' ∉ List.replicate count ' ' :=
  fun hmem => absurd (List.eq_of_mem_replicate hmem) (by decide)

theorem lineFeed_not_mem_name (name : Identifier) : '\n' ∉ name.name := by
  obtain ⟨t, hvalid⟩ := name
  cases t with
  | nil => simp
  | cons c tail =>
      simp only [isIdentifier, Bool.and_eq_true, List.all_eq_true] at hvalid
      intro hmem
      rcases List.mem_cons.mp hmem with rfl | hmem
      · exact absurd hvalid.1 (by decide)
      · exact absurd (hvalid.2 _ hmem) (by decide)

theorem lineFeed_not_mem_signText (negative : Bool) : '\n' ∉ signText negative := by
  cases negative <;> decide

theorem lineFeed_not_mem_decimalText (n : ℤ) : '\n' ∉ decimalText n := by
  have hdigits : '\n' ∉ Nat.toDigits 10 n.natAbs :=
    Text.lineFeed_not_mem_toDigits (by decide) n.natAbs
  rw [decimalText_eq, List.mem_append, not_or]
  exact ⟨lineFeed_not_mem_signText _, hdigits⟩

theorem Double.lineFeed_not_mem_literal (x : Double) : '\n' ∉ x.literal := by
  obtain ⟨whole, fraction, hliteral, hnumeral, -⟩ := x.exists_literal_numeral
  have hsign : x.signText = TagTemplate.signText x.negative := rfl
  rw [hliteral, hsign]
  simp [lineFeed_not_mem_signText, lineFeed_not_mem_of_digits hnumeral.whole_digits,
    lineFeed_not_mem_of_digits hnumeral.fraction_digits]

/-- A string is written with the line feeds that it has. -/
theorem count_stringLiteral (value : Text) :
    (Element.stringLiteral value).count '\n' = value.count '\n' := by
  have hchars : (value.flatMap Element.stringChar).count '\n' = value.count '\n' := by
    induction value with
    | nil => rfl
    | cons c value ih =>
        rw [List.flatMap_cons, List.count_append, ih, List.count_cons, Nat.add_comm]
        congr 1
        unfold Element.stringChar
        split
        · next hescape => rcases hescape with rfl | rfl <;> rfl
        · exact List.count_singleton
  rw [Element.stringLiteral, List.count_append, List.count_cons, hchars]
  rfl

/-- The literal of an element has the line feeds of the element if that is a string, and no others. -/
theorem Element.count_literal (e : Element) :
    e.literal.count '\n' = (stringsOf [e]).flatten.count '\n' := by
  cases e with
  | string value =>
      have hstrings : stringsOf [.string value] = [value] := rfl
      rw [hstrings, literal, count_stringLiteral, List.flatten_singleton]
  | integer constant => exact List.count_eq_zero.mpr (lineFeed_not_mem_decimalText _)
  | double value => exact List.count_eq_zero.mpr value.lineFeed_not_mem_literal
  | function name =>
      refine List.count_eq_zero.mpr fun hmem => ?_
      rcases List.mem_cons.mp hmem with hat | hmem
      · exact absurd hat (by decide)
      · exact lineFeed_not_mem_name name hmem
  | operator op => cases op <;> rfl
  | var name => exact List.count_eq_zero.mpr (lineFeed_not_mem_name name)

theorem count_elementsText (elements : List Element) :
    (elementsText elements).count '\n' = (stringsOf elements).flatten.count '\n' := by
  have hpieces : (elements.map Element.literal).flatten.count '\n'
      = (stringsOf elements).flatten.count '\n' := by
    induction elements with
    | nil => rfl
    | cons e elements ih =>
        have hstrings : stringsOf (e :: elements) = stringsOf [e] ++ stringsOf elements :=
          List.filterMap_append (l := [e])
        rw [hstrings, List.flatten_append, List.count_append, ← e.count_literal, ← ih,
          List.map_cons, List.flatten_cons, List.count_append]
  rw [elementsText, Text.unwords, Text.count_join (by decide), hpieces]

theorem Head.lineFeed_not_mem_className (head : Head) : '\n' ∉ head.className.toList := by
  have hnames : ∀ name ∈ ["TextNode", "EchoNode", "ForLoopNode", "DocumentNode"],
      '\n' ∉ name.toList := by decide
  cases head <;> exact hnames _ (by simp [className])

/-- **What the outline says of a node** has the line feeds of its strings, and no others. -/
theorem Head.count_outline (head : Head) :
    head.outline.count '\n' = head.strings.flatten.count '\n' := by
  have hname : head.className.toList.count '\n' = 0 :=
    List.count_eq_zero.mpr head.lineFeed_not_mem_className
  have hbracket : ∀ t : Text, ('(' :: t ++ [')']).count '\n' = t.count '\n' := by
    intro t
    simp
  unfold outline
  rw [List.count_append, hname, Nat.zero_add]
  cases head with
  | text content => exact (hbracket _).trans (List.count_eq_zero.mpr (Text.lineFeed_not_mem_quoted _))
  | echo elements => exact (hbracket _).trans (count_elementsText elements)
  | loop header => exact (hbracket _).trans (count_elementsText header.expressions)
  | document => rfl

/-! ## Lines and visits -/

/-- A line shows the visit of a node: it begins with two spaces for each level, counted from the
given indentation on, and the name of the class of the node. -/
def ShowsVisit (indent : ℕ) (v : Tree × ℕ) (line : Text) : Prop :=
  ∃ rest, line = List.replicate (2 * (indent + v.2)) ' ' ++ (v.1.head.className.toList ++ rest)

/-- A block of lines shows the visit of a node: its first line does, and it has a further line for
each line feed in a string of the node. -/
def BlockShowsVisit (indent : ℕ) (v : Tree × ℕ) (block : List Text) : Prop :=
  ∃ line more, block = line :: more ∧ ShowsVisit indent v line ∧
    more.length = v.1.head.strings.flatten.count '\n'

/-- What stands in an outline for the visit of a node. -/
def outlineEntry (indent : ℕ) (v : Tree × ℕ) : Text :=
  List.replicate (2 * (indent + v.2)) ' ' ++ v.1.head.outline

theorem count_outlineEntry (indent : ℕ) (v : Tree × ℕ) :
    (outlineEntry indent v).count '\n' = v.1.head.strings.flatten.count '\n' := by
  have hspaces : (List.replicate (2 * (indent + v.2)) ' ').count '\n' = 0 :=
    List.count_eq_zero.mpr (lineFeed_not_mem_spaces _)
  rw [outlineEntry, List.count_append, hspaces, v.1.head.count_outline, Nat.zero_add]

/-- **The lines for one visit** are a block that shows it. -/
theorem blockShowsVisit_outlineEntry (indent : ℕ) (v : Tree × ℕ) :
    BlockShowsVisit indent v ((outlineEntry indent v).splitOn '\n') := by
  have hfront : '\n' ∉ List.replicate (2 * (indent + v.2)) ' ' ++ v.1.head.className.toList := by
    rw [List.mem_append, not_or]
    exact ⟨lineFeed_not_mem_spaces _, v.1.head.lineFeed_not_mem_className⟩
  have hlength := Text.length_splitOn '\n' (outlineEntry indent v)
  obtain ⟨rest, hrest⟩ : ∃ rest, v.1.head.outline = v.1.head.className.toList ++ rest := ⟨_, rfl⟩
  obtain ⟨first, more, hparts⟩ := Text.splitOn_append_front hfront rest
  rw [List.append_assoc, ← hrest] at hparts
  rw [count_outlineEntry, outlineEntry, hparts, List.length_cons] at hlength
  rw [outlineEntry, hparts]
  exact ⟨_, more, rfl, ⟨first, by rw [List.append_assoc]⟩, by omega⟩

namespace Tree

variable (t : Tree) (indent : ℕ)

theorem outlineLines_eq : t.outlineLines indent = (t.visits 0).map (outlineEntry indent) := by
  rw [outlineLines, walkWithDepth_eq]
  refine List.map_congr_left fun v _ => ?_
  have hlevel : ((indent : ℤ) + (v.2 : ℤ)).toNat = indent + v.2 := by omega
  show List.replicate (2 * ((indent : ℤ) + (v.2 : ℤ)).toNat) ' ' ++ v.1.head.outline = _
  rw [hlevel]
  rfl

/-- **The lines of an outline** are blocks, one for each visit, in order. -/
theorem splitOn_outline :
    (t.outline indent).splitOn '\n'
      = (t.visits 0).flatMap fun v => (outlineEntry indent v).splitOn '\n' := by
  have hne : t.outlineLines indent ≠ [] := by
    rw [outlineLines_eq, visits_eq]
    simp
  rw [outline, Text.splitOn_join _ hne, outlineLines_eq, List.flatMap_map]

/-- The number of the lines of an outline: one for each node, and one for each line feed in a
string. -/
theorem length_splitOn_outline :
    ((t.outline indent).splitOn '\n').length
      = t.count + ((t.visits 0).flatMap fun v => v.1.head.strings).flatten.count '\n' := by
  have hvisits : ∀ vs : List (Tree × ℕ),
      (vs.flatMap fun v => (outlineEntry indent v).splitOn '\n').length
        = vs.length + (vs.flatMap fun v => v.1.head.strings).flatten.count '\n' := by
    intro vs
    induction vs with
    | nil => rfl
    | cons v vs ih =>
        rw [List.flatMap_cons, List.length_append, ih, Text.length_splitOn, count_outlineEntry,
          List.flatMap_cons, List.flatten_append, List.count_append, List.length_cons]
        omega
  rw [splitOn_outline, hvisits, count, walk, walkWithDepth_eq, List.length_map]

/-- Where no string has a line feed, the lines are one for each visit. -/
theorem forall₂_showsVisit_flatMap (vs : List (Tree × ℕ))
    (h : ∀ v ∈ vs, ∀ value ∈ v.1.head.strings, '\n' ∉ value) :
    List.Forall₂ (ShowsVisit indent) vs
      (vs.flatMap fun v => (outlineEntry indent v).splitOn '\n') := by
  induction vs with
  | nil => exact .nil
  | cons v vs ih =>
      obtain ⟨line, more, hblock, hline, hmore⟩ := blockShowsVisit_outlineEntry indent v
      have hzero : v.1.head.strings.flatten.count '\n' = 0 := by
        rw [List.count_eq_zero, List.mem_flatten]
        rintro ⟨value, hvalue, hmem⟩
        exact h v (by simp) value hvalue hmem
      obtain rfl : more = [] := List.eq_nil_of_length_eq_zero (hmore.trans hzero)
      rw [List.flatMap_cons, hblock, List.singleton_append]
      exact .cons hline (ih fun w hw => h w (by simp [hw]))

/-- **There is one line for each node**, which shows it, exactly if no string of the tree has a line
feed. -/
theorem forall₂_showsVisit_iff :
    List.Forall₂ (ShowsVisit indent) (t.visits 0) ((t.outline indent).splitOn '\n') ↔
      ∀ v ∈ t.visits 0, ∀ value ∈ v.1.head.strings, '\n' ∉ value := by
  constructor
  · intro hshows v hv value hvalue hmem
    -- as many lines as visits leave no line for a line feed
    have hlength := hshows.length_eq
    have hcount : t.count = (t.visits 0).length := by
      rw [count, walk, walkWithDepth_eq, List.length_map]
    have hpos : 0 < ((t.visits 0).flatMap fun v => v.1.head.strings).flatten.count '\n' := by
      rw [List.count_pos_iff, List.mem_flatten]
      exact ⟨value, List.mem_flatMap.mpr ⟨v, hv, hvalue⟩, hmem⟩
    rw [length_splitOn_outline] at hlength
    omega
  · intro h
    rw [splitOn_outline]
    exact forall₂_showsVisit_flatMap indent _ h

/-- The lines of an outline in blocks. -/
theorem forall₂_blockShowsVisit :
    ∃ blocks, (t.outline indent).splitOn '\n' = blocks.flatten ∧
      List.Forall₂ (BlockShowsVisit indent) (t.visits 0) blocks := by
  refine ⟨(t.visits 0).map fun v => (outlineEntry indent v).splitOn '\n', ?_, ?_⟩
  · rw [splitOn_outline, List.flatMap_def]
  · rw [List.forall₂_map_right_iff, List.forall₂_same]
    exact fun v _ => blockShowsVisit_outlineEntry indent v

end Tree

end TagTemplate
