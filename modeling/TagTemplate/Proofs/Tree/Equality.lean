import Mathlib.Data.List.Forall2
import TagTemplate.Proofs.Number.Distance
import TagTemplate.Proofs.Tree.Recursion
import TagTemplate.Proofs.Tree.Walk

set_option autoImplicit false

/-! # What equal trees have in common

Elements agree if they are of one class and hold the same, where doubles are compared by their
values (`Element.Agrees`). What nodes hold themselves agrees if the classes, the texts, the elements
and the expressions do (`Head.Agrees`). Both are what the comparison computes, and one level of a
comparison of trees is the agreement of the roots and the comparison of the children place by place
(`Tree.same_iff`). It follows by induction on trees that equality is symmetric and transitive, and
that the walks of equal trees go side by side (`Tree.forall₂_walk`).
-/

namespace TagTemplate

/-! ## Lists place by place -/

theorem forall₂_symm_of_mem {α : Type} {R : α → α → Prop} {as bs : List α}
    (h : List.Forall₂ R as bs) (hsymm : ∀ a ∈ as, ∀ b, R a b → R b a) : List.Forall₂ R bs as := by
  have hflip : List.Forall₂ (flip R) as bs :=
    ((List.forall₂_and_left _ _).mpr ⟨hsymm, h⟩).imp fun _ b hab => hab.1 b hab.2
  exact hflip.flip

theorem forall₂_trans_of_mem {α : Type} {R : α → α → Prop} {as bs cs : List α}
    (h : List.Forall₂ R as bs) (h' : List.Forall₂ R bs cs)
    (htrans : ∀ a ∈ as, ∀ b c, R a b → R b c → R a c) : List.Forall₂ R as cs := by
  induction h generalizing cs with
  | nil => exact h'
  | @cons a b as bs hab _ ih =>
      cases h' with
      | cons hbc h' =>
          exact .cons (htrans a (by simp) b _ hab hbc)
            (ih h' fun a' ha' => htrans a' (by simp [ha']))

/-! ## Elements -/

/-- Elements of one class that hold the same, doubles the same value. -/
inductive Element.Agrees : Element → Element → Prop
  | integer (constant : IntegerConstant) : Agrees (.integer constant) (.integer constant)
  | double {x y : Double} (h : x.value = y.value) : Agrees (.double x) (.double y)
  | string (value : Text) : Agrees (.string value) (.string value)
  | function (name : Identifier) : Agrees (.function name) (.function name)
  | operator (op : Operator) : Agrees (.operator op) (.operator op)
  | var (name : Identifier) : Agrees (.var name) (.var name)

namespace Element

theorem sameValue_iff (a b : Element) : a.sameValue b = true ↔ a.Agrees b := by
  constructor
  · intro h
    by_cases hdouble : ∃ x y, a = .double x ∧ b = .double y
    · obtain ⟨x, y, rfl, rfl⟩ := hdouble
      exact .double (Double.sameValue_iff.mp h)
    · -- other elements are compared as they are
      have hsame : a = b := by
        cases a <;> cases b <;> simp_all [sameValue]
      subst hsame
      cases a with
      | double x => exact absurd ⟨x, x, rfl, rfl⟩ hdouble
      | integer constant => exact .integer constant
      | string value => exact .string value
      | function name => exact .function name
      | operator op => exact .operator op
      | var name => exact .var name
  · intro h
    cases h with
    | double h => exact Double.sameValue_iff.mpr h
    | _ => exact sameValue_refl _

theorem agrees_var_iff (x y : Identifier) : (var x).Agrees (.var y) ↔ x = y := by
  constructor
  · intro h
    cases h
    rfl
  · rintro rfl
    exact .var x

theorem Agrees.symm {a b : Element} (h : a.Agrees b) : b.Agrees a := by
  cases h with
  | double h => exact .double h.symm
  | _ => constructor

theorem Agrees.trans {a b c : Element} (h : a.Agrees b) (h' : b.Agrees c) : a.Agrees c := by
  cases h with
  | double h =>
      cases h' with
      | double h' => exact .double (h.trans h')
  | _ => exact h'

end Element

theorem sameElements_iff (as bs : List Element) :
    sameElements as bs = true ↔ List.Forall₂ Element.Agrees as bs := by
  induction as generalizing bs with
  | nil => cases bs <;> simp [sameElements]
  | cons a as ih =>
      cases bs with
      | nil => simp [sameElements]
      | cons b bs =>
          rw [sameElements, Bool.and_eq_true, ih, Element.sameValue_iff, List.forall₂_cons]

/-! ## Heads -/

/-- Headers of loops with the same variable, starts and stops that agree, and steps that agree or
are both missing. -/
structure LoopHeader.Agrees (a b : LoopHeader) : Prop where
  var : a.var = b.var
  start : a.start.Agrees b.start
  stop : a.stop.Agrees b.stop
  step : Option.Rel Element.Agrees a.step b.step

/-- Heads of one class that hold the same: the same text, elements that agree place by place, or
headers that agree. -/
inductive Head.Agrees : Head → Head → Prop
  | text (content : Text) : Agrees (.text content) (.text content)
  | echo {as bs : List Element} (h : List.Forall₂ Element.Agrees as bs) :
      Agrees (.echo as) (.echo bs)
  | loop {a b : LoopHeader} (h : a.Agrees b) : Agrees (.loop a) (.loop b)
  | document : Agrees .document .document

/-- Headers agree if their expressions do, place by place. -/
theorem LoopHeader.agrees_iff (a b : LoopHeader) :
    a.Agrees b ↔ List.Forall₂ Element.Agrees a.expressions b.expressions := by
  have hstep : List.Forall₂ Element.Agrees a.step.toList b.step.toList ↔
      Option.Rel Element.Agrees a.step b.step := by
    cases a.step <;> cases b.step <;> simp
  have hparts : List.Forall₂ Element.Agrees a.expressions b.expressions ↔
      a.var = b.var ∧ a.start.Agrees b.start ∧ a.stop.Agrees b.stop ∧
        List.Forall₂ Element.Agrees a.step.toList b.step.toList := by
    show List.Forall₂ _ (.var a.var :: a.start :: a.stop :: a.step.toList)
      (.var b.var :: b.start :: b.stop :: b.step.toList) ↔ _
    rw [List.forall₂_cons, List.forall₂_cons, List.forall₂_cons, Element.agrees_var_iff]
  rw [hparts, hstep]
  constructor
  · rintro ⟨hvar, hstart, hstop, hstep⟩
    exact ⟨hvar, hstart, hstop, hstep⟩
  · rintro ⟨hvar, hstart, hstop, hstep⟩
    exact ⟨hvar, hstart, hstop, hstep⟩

namespace Head

theorem sameValue_iff (a b : Head) : a.sameValue b = true ↔ a.Agrees b := by
  constructor
  · intro h
    cases a with
    | text content =>
        cases b with
        | text content' => exact eq_of_beq h ▸ .text content
        | _ => simp [sameValue] at h
    | echo elements =>
        cases b with
        | echo elements' => exact .echo ((sameElements_iff _ _).mp h)
        | _ => simp [sameValue] at h
    | loop header =>
        cases b with
        | loop header' =>
            exact .loop ((LoopHeader.agrees_iff _ _).mpr ((sameElements_iff _ _).mp h))
        | _ => simp [sameValue] at h
    | document =>
        cases b with
        | document => exact .document
        | _ => simp [sameValue] at h
  · intro h
    cases h with
    | text content => exact sameValue_refl _
    | echo h => exact (sameElements_iff _ _).mpr h
    | loop h => exact (sameElements_iff _ _).mpr ((LoopHeader.agrees_iff _ _).mp h)
    | document => rfl

/-- Heads that agree are of one class. -/
theorem Agrees.className_eq {a b : Head} (h : a.Agrees b) : a.className = b.className := by
  cases h <;> rfl

theorem Agrees.symm {a b : Head} (h : a.Agrees b) : b.Agrees a := by
  cases h with
  | text content => exact .text content
  | echo h => exact .echo (forall₂_symm_of_mem h fun _ _ _ he => he.symm)
  | loop h =>
      rw [LoopHeader.agrees_iff] at h
      exact .loop ((LoopHeader.agrees_iff _ _).mpr (forall₂_symm_of_mem h fun _ _ _ he => he.symm))
  | document => exact .document

theorem Agrees.trans {a b c : Head} (h : a.Agrees b) (h' : b.Agrees c) : a.Agrees c := by
  cases h with
  | text content => exact h'
  | echo h =>
      cases h' with
      | echo h' => exact .echo (forall₂_trans_of_mem h h' fun _ _ _ _ he he' => he.trans he')
  | loop h =>
      cases h' with
      | loop h' =>
          rw [LoopHeader.agrees_iff] at h h'
          exact .loop ((LoopHeader.agrees_iff _ _).mpr
            (forall₂_trans_of_mem h h' fun _ _ _ _ he he' => he.trans he'))
  | document => exact h'

end Head

/-! ## Trees -/

namespace Tree

variable {t u v : Tree}

/-- **Trees are equal** if their roots agree and their children are as many and equal place by
place. -/
theorem same_iff : t.same u = true ↔ t.head.Agrees u.head ∧
    List.Forall₂ (fun n m => (node n).same (node m) = true) t.children u.children := by
  have hpairs : ((pairChildren t u).all fun pair => pair.1.sameBelow pair.2) = true ↔
      ∀ {n m}, (n, m) ∈ t.children.zip u.children → (node n).same (node m) = true := by
    rw [pairChildren, List.all_map, List.all_eq_true]
    constructor
    · intro h n m hnm
      rw [same_eq]
      exact h (n, m) hnm
    · rintro h ⟨n, m⟩ hnm
      show (node n).sameBelow (node m) = true
      rw [← same_eq]
      exact h hnm
  rw [same_eq, sameBelow_eq, Bool.and_eq_true, Bool.and_eq_true, Head.sameValue_iff, beq_iff_eq,
    hpairs, List.forall₂_iff_zip, and_assoc]

theorem same_symm (h : t.same u = true) : u.same t = true := by
  induction t using Tree.induction generalizing u with
  | step t ih =>
      obtain ⟨hhead, hchildren⟩ := same_iff.mp h
      exact same_iff.mpr ⟨hhead.symm, forall₂_symm_of_mem hchildren fun n hn m hnm => ih n hn hnm⟩

theorem same_comm (t u : Tree) : u.same t = t.same u :=
  Bool.eq_iff_iff.mpr ⟨same_symm, same_symm⟩

theorem same_trans (h : t.same u = true) (h' : u.same v = true) : t.same v = true := by
  induction t using Tree.induction generalizing u v with
  | step t ih =>
      obtain ⟨hhead, hchildren⟩ := same_iff.mp h
      obtain ⟨hhead', hchildren'⟩ := same_iff.mp h'
      exact same_iff.mpr ⟨hhead.trans hhead', forall₂_trans_of_mem hchildren hchildren'
        fun n hn m k hnm hmk => ih n hn hnm hmk⟩

/-- **The walks of equal trees** go side by side through trees that are equal. -/
theorem forall₂_walk (h : t.same u = true) :
    List.Forall₂ (fun v w => v.same w = true) t.walk u.walk := by
  induction t using Tree.induction generalizing u with
  | step t ih =>
      obtain ⟨-, hchildren⟩ := same_iff.mp h
      have hwalks : List.Forall₂ (fun n m =>
          List.Forall₂ (fun v w : Tree => v.same w = true) (node n).walk (node m).walk)
          t.children u.children :=
        ((List.forall₂_and_left _ _).mpr ⟨fun n hn => @ih n hn, hchildren⟩).imp
          fun n m hnm => hnm.1 hnm.2
      rw [walk_eq t, walk_eq u]
      exact .cons h (List.rel_flatMap hwalks fun _ _ hwalk => hwalk)

theorem count_eq_of_same (h : t.same u = true) : t.count = u.count := (forall₂_walk h).length_eq

/-- The heads of equal trees agree in the order of the walk. -/
theorem forall₂_head_of_same (h : t.same u = true) :
    List.Forall₂ (fun v w => v.head.Agrees w.head) t.walk u.walk :=
  (forall₂_walk h).imp fun _ _ hsame => (same_iff.mp hsame).1

end Tree

end TagTemplate
