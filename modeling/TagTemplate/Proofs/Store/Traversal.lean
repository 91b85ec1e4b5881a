import Mathlib.Logic.Function.Basic
import TagTemplate.Proofs.Store.Action
import TagTemplate.Proofs.Store.Unfolding

set_option autoImplicit false

/-! # Walking while the tree grows

A program advances its walkers and changes the store in any order (`Session`, `Move`). What a walker
gives depends on the stores in which it is advanced, the moments, and on nothing else
(`Session.answers_eq`). So a walk is described by a tree of occurrences: the occurrence of a node
contributes the children that the node has at the moment at which the walker is advanced past it
(`Walker.exists_occurrence`; `Walker.Passes.step` is one step, `Walker.exists_passes` a run). Between
two moments the children of a node grow by those that are appended to it (`Session.children_run`).
The main result is `walk_growing`.
-/

namespace TagTemplate

/-! ## Occurrences -/

/-- The occurrence of a node in a traversal, and below it the occurrences of the children that it
contributes. -/
inductive Occurrence
  | node (id : ℕ) (below : List Occurrence)

namespace Occurrence

def root : Occurrence → ℕ
  | node id _ => id

mutual
/-- The nodes that occur and the children that they contribute, every occurrence before those below
it. -/
def readings : Occurrence → List (ℕ × List ℕ)
  | .node id below => (id, below.map root) :: readingsAll below
def readingsAll : List Occurrence → List (ℕ × List ℕ)
  | [] => []
  | T :: rest => T.readings ++ readingsAll rest
end

def preorder (T : Occurrence) : List ℕ := T.readings.map (·.1)

theorem readingsAll_append (Ts Us : List Occurrence) :
    readingsAll (Ts ++ Us) = readingsAll Ts ++ readingsAll Us := by
  induction Ts with
  | nil => rfl
  | cons T Ts ih => rw [List.cons_append, readingsAll, readingsAll, ih, List.append_assoc]

/-- Occurrences that contribute nothing. -/
theorem readingsAll_unread (ids : List ℕ) :
    readingsAll (ids.map fun id => .node id []) = ids.map fun id => (id, []) := by
  induction ids with
  | nil => rfl
  | cons id ids ih =>
      rw [List.map_cons, readingsAll, ih]
      rfl

end Occurrence

/-! ## One walker -/

namespace Walker

/-- The node that a walker stands on and the nodes behind it, whose children have not been read. -/
def unread (w : Walker) : List ℕ := w.current.toList ++ w.pending

/-- What a walker gives when it is advanced once in each of several stores. -/
def answers : Walker → List Store → List (Option ℕ)
  | _, [] => []
  | w, s :: ss => (w.advance s).1 :: (w.advance s).2.answers ss

/-- The walker after it has been advanced once in each of several stores. -/
def after (w : Walker) (ss : List Store) : Walker := ss.foldl (fun w s => (w.advance s).2) w

theorem advance_of_nil {w : Walker} {s : Store} (h : w.upcoming s = []) :
    w.advance s = (none, ⟨none, []⟩) := by
  rw [advance, h]

theorem advance_of_cons {w : Walker} {s : Store} {id : ℕ} {rest : List ℕ}
    (h : w.upcoming s = id :: rest) : w.advance s = (some id, ⟨some id, rest⟩) := by
  rw [advance, h]

/-- A walker that has come to its end stays there. -/
theorem answers_of_end (ss : List Store) :
    (⟨none, []⟩ : Walker).answers ss = List.replicate ss.length none ∧
      (⟨none, []⟩ : Walker).after ss = ⟨none, []⟩ := by
  induction ss with
  | nil => exact ⟨rfl, rfl⟩
  | cons s ss ih =>
      obtain ⟨hanswers, hafter⟩ := ih
      have hend : (⟨none, []⟩ : Walker).advance s = (none, ⟨none, []⟩) := advance_of_nil rfl
      refine ⟨?_, ?_⟩
      · rw [answers, hend, hanswers]
        rfl
      · rw [after, List.foldl_cons, hend]
        exact hafter

/-- A walker that stands on a node, with others pending, is advanced once in each of several stores:
it visits some nodes and then ends a number of times. The forest of the occurrences of that node and
the pending ones has the visited nodes in preorder, and an occurrence contributes the children that
its node has in the store in which the walker is advanced past it. -/
structure Passes (id : ℕ) (pending : List ℕ) (ss : List Store) (Ts : List Occurrence)
    (visited : List ℕ) (ended : ℕ) : Prop where
  answers : (⟨some id, pending⟩ : Walker).answers ss
    = visited.map some ++ List.replicate ended none
  roots : Ts.map Occurrence.root = id :: pending
  preorder : (Occurrence.readingsAll Ts).map (·.1)
    = id :: visited ++ ((⟨some id, pending⟩ : Walker).after ss).pending
  readings : Occurrence.readingsAll Ts
    = List.zipWith (fun y s => (y, s.children y)) (id :: visited) ss ++
      ((⟨some id, pending⟩ : Walker).after ss).unread.map (fun y => (y, []))
  ended : ended ≠ 0 → ((⟨some id, pending⟩ : Walker).after ss).unread = []

section Passes

variable {id y : ℕ} {pending rest visited : List ℕ} {s : Store} {ss : List Store}
  {below behind : List Occurrence} {ended : ℕ}

/-- A walker that is not advanced has read nothing. -/
theorem passes_nil (id : ℕ) (pending : List ℕ) :
    Passes id pending [] ((id :: pending).map fun y => .node y []) [] 0 := by
  refine ⟨rfl, ?_, ?_, ?_, fun h => absurd rfl h⟩
  · rw [List.map_map]
    exact List.map_id _
  · rw [Occurrence.readingsAll_unread, List.map_map]
    exact List.map_id _
  · rw [Occurrence.readingsAll_unread]
    rfl

/-- A walk ends behind a node without children if nothing is pending. -/
theorem passes_end (h : s.children id = []) (ss : List Store) :
    Passes id [] (s :: ss) [.node id []] [] (ss.length + 1) := by
  have hupcoming : (⟨some id, []⟩ : Walker).upcoming s = [] := by
    show s.children id ++ [] = []
    rw [h, List.append_nil]
  have hadvance := advance_of_nil hupcoming
  obtain ⟨hanswers, hafter⟩ := answers_of_end ss
  have hlast : (⟨some id, []⟩ : Walker).after (s :: ss) = ⟨none, []⟩ := by
    rw [after, List.foldl_cons, hadvance]
    exact hafter
  refine ⟨?_, rfl, ?_, ?_, fun _ => ?_⟩
  · rw [answers, hadvance, hanswers]
    rfl
  · rw [hlast]
    rfl
  · rw [hlast, List.zipWith_cons_cons, h]
    rfl
  · rw [hlast]
    rfl

/-- **One step of a walk**: the occurrences of the children of a node come to stand below it. -/
theorem Passes.step (h : Passes y rest ss (below ++ behind) visited ended)
    (hnext : s.children id ++ pending = y :: rest)
    (hbelow : below.map Occurrence.root = s.children id)
    (hbehind : behind.map Occurrence.root = pending) :
    Passes id pending (s :: ss) (.node id below :: behind) (y :: visited) ended := by
  obtain ⟨hanswers, -, hpreorder, hreadings, hended⟩ := h
  have hadvance : (⟨some id, pending⟩ : Walker).advance s = (some y, ⟨some y, rest⟩) :=
    advance_of_cons hnext
  have hlast : (⟨some id, pending⟩ : Walker).after (s :: ss)
      = (⟨some y, rest⟩ : Walker).after ss := by
    rw [after, List.foldl_cons, hadvance]
    rfl
  rw [Occurrence.readingsAll_append] at hpreorder hreadings
  refine ⟨?_, ?_, ?_, ?_, ?_⟩
  · rw [Walker.answers, hadvance, hanswers]
    rfl
  · rw [List.map_cons, hbehind]
    rfl
  · rw [hlast, Occurrence.readingsAll, Occurrence.readings, List.cons_append, List.map_cons,
      hpreorder]
    rfl
  · rw [hlast, Occurrence.readingsAll, Occurrence.readings, List.cons_append, hreadings, hbelow,
      List.zipWith_cons_cons]
    rfl
  · rw [hlast]
    exact hended

/-- **A run of a walk**: however often a walker is advanced, there is a forest that it passes. -/
theorem exists_passes (id : ℕ) (pending : List ℕ) (ss : List Store) :
    ∃ Ts visited ended, Passes id pending ss Ts visited ended := by
  induction ss generalizing id pending with
  | nil => exact ⟨_, _, _, passes_nil id pending⟩
  | cons s ss ih =>
      cases hnext : s.children id ++ pending with
      | nil =>
          obtain ⟨hchildren, rfl⟩ := List.append_eq_nil_iff.mp hnext
          exact ⟨_, _, _, passes_end hchildren ss⟩
      | cons y rest =>
          obtain ⟨Ts, visited, ended, h⟩ := ih y rest
          -- the forest behind the node parts into what is below it and what comes after that
          have hroots := h.roots
          rw [← hnext] at hroots
          obtain ⟨below, behind, rfl, hbelow, hbehind⟩ := List.map_eq_append_iff.mp hroots
          exact ⟨_, _, _, h.step hnext hbelow hbehind⟩

end Passes

/-- **The traversal of a walker.** A walker that starts in front of a node visits the nodes of a tree
of occurrences in preorder. -/
theorem exists_occurrence (root : ℕ) (ss : List Store) :
    ∃ (T : Occurrence) (visited : List ℕ) (ended : ℕ),
      (start root).answers ss = visited.map some ++ List.replicate ended none ∧
      T.root = root ∧
      T.preorder = visited ++ ((start root).after ss).pending ∧
      T.readings = List.zipWith (fun y s => (y, s.children y)) visited ss.tail ++
        ((start root).after ss).unread.map (fun y => (y, [])) ∧
      (ended ≠ 0 → ((start root).after ss).unread = []) := by
  cases ss with
  | nil => exact ⟨.node root [], [], 0, rfl, rfl, rfl, rfl, fun h => absurd rfl h⟩
  | cons s ss =>
      -- the first step leads to the root, and a forest with one root is a tree
      obtain ⟨Ts, visited, ended, hanswers, hroots, hpreorder, hreadings, hended⟩ :=
        exists_passes root [] ss
      obtain ⟨T, rfl, hroot⟩ := List.map_eq_singleton_iff.mp hroots
      rw [Occurrence.readingsAll, Occurrence.readingsAll, List.append_nil] at hpreorder hreadings
      refine ⟨T, root :: visited, ended, ?_, hroot, hpreorder, hreadings, hended⟩
      show some root :: (⟨some root, []⟩ : Walker).answers ss = _
      rw [hanswers]
      rfl

end Walker

/-! ## Sessions -/

/-- What a program does while it walks: something to the store, or a step of one of its walkers. -/
inductive Move
  | act (a : Action)
  | advance (i : ℕ)

/-- A store and the walkers over it. -/
structure Session where
  store : Store
  walkers : ℕ → Walker

/-- A move can make a difference to a walker: it is not the step of another one. -/
def Move.concerns (i : ℕ) : Move → Bool
  | act _ => true
  | advance j => j == i

/-- The children that an action appends to a node: that of a call for this node that succeeds. -/
def Action.appended (s : Store) (y : ℕ) : Action → List ℕ
  | addChild n child =>
    match s.addChild n child, childId child with
    | .ok _, .ok c => if n = y then [c] else []
    | _, _ => []
  | _ => []

namespace Session

def move (x : Session) : Move → Session
  | .act a => { x with store := (x.store.perform a).2 }
  | .advance i =>
    { x with walkers := Function.update x.walkers i ((x.walkers i).advance x.store).2 }

def run (x : Session) (moves : List Move) : Session := moves.foldl move x

/-- The stores in which a walker is advanced, one after the other. -/
def moments (i : ℕ) : Session → List Move → List Store
  | _, [] => []
  | x, .act a :: moves => moments i (x.move (.act a)) moves
  | x, .advance j :: moves =>
    if j = i then x.store :: moments i (x.move (.advance j)) moves
    else moments i (x.move (.advance j)) moves

/-- What a walker gives at each of its steps: a node, or nothing at its end. -/
def answers (i : ℕ) : Session → List Move → List (Option ℕ)
  | _, [] => []
  | x, .act a :: moves => answers i (x.move (.act a)) moves
  | x, .advance j :: moves =>
    if j = i then ((x.walkers i).advance x.store).1 :: answers i (x.move (.advance j)) moves
    else answers i (x.move (.advance j)) moves

/-- The children that are appended to a node, one after the other. -/
def appended (y : ℕ) : Session → List Move → List ℕ
  | _, [] => []
  | x, .act a :: moves => a.appended x.store y ++ appended y (x.move (.act a)) moves
  | x, .advance j :: moves => appended y (x.move (.advance j)) moves

/-- A program hands in only nodes that it holds. -/
def Held : Session → List Move → Prop
  | _, [] => True
  | x, .act a :: moves => a.Held x.store ∧ Held (x.move (.act a)) moves
  | x, .advance j :: moves => Held (x.move (.advance j)) moves

variable {x : Session} {i : ℕ}

theorem run_append (x : Session) (moves moves' : List Move) :
    x.run (moves ++ moves') = (x.run moves).run moves' :=
  List.foldl_append

/-! ### The walkers of a session -/

/-- The step of another walker. -/
theorem move_of_ne {j : ℕ} (h : j ≠ i) (x : Session) :
    (x.move (.advance j)).walkers i = x.walkers i :=
  Function.update_of_ne (Ne.symm h) _ _

/-- The step of the walker itself. -/
theorem move_self (x : Session) (i : ℕ) :
    (x.move (.advance i)).walkers i = ((x.walkers i).advance x.store).2 :=
  Function.update_self _ _ _

/-- **What a walker gives depends on its moments alone**, and so does where it stands. -/
theorem answers_eq (x : Session) (i : ℕ) (moves : List Move) :
    x.answers i moves = (x.walkers i).answers (x.moments i moves) ∧
      (x.run moves).walkers i = (x.walkers i).after (x.moments i moves) := by
  induction moves generalizing x with
  | nil => exact ⟨rfl, rfl⟩
  | cons m moves ih =>
      cases m with
      | act a => exact ih (x.move (.act a))
      | advance j =>
          obtain ⟨hanswers, hafter⟩ := ih (x.move (.advance j))
          by_cases hj : j = i
          · subst hj
            rw [move_self] at hanswers hafter
            rw [answers, moments, if_pos rfl, if_pos rfl, hanswers]
            exact ⟨rfl, hafter⟩
          · rw [move_of_ne hj] at hanswers hafter
            rw [answers, moments, if_neg hj, if_neg hj]
            exact ⟨hanswers, hafter⟩

/-- The moments of a walker are those of a session without the steps of the other walkers. -/
theorem moments_filter (x : Session) (i : ℕ) (moves : List Move) (walkers : ℕ → Walker) :
    x.moments i moves
      = (⟨x.store, walkers⟩ : Session).moments i (moves.filter (Move.concerns i)) := by
  induction moves generalizing x walkers with
  | nil => rfl
  | cons m moves ih =>
      cases m with
      | act a => exact ih (x.move (.act a)) walkers
      | advance j =>
          by_cases hj : j = i
          · have hconcerns : (Move.advance j).concerns i = true := beq_iff_eq.mpr hj
            rw [List.filter_cons_of_pos hconcerns, moments, moments, if_pos hj, if_pos hj]
            exact congrArg _ (ih (x.move (.advance j)) _)
          · have hconcerns : ¬ (Move.advance j).concerns i = true := by
              intro h
              exact hj (eq_of_beq h)
            rw [List.filter_cons_of_neg hconcerns, moments, if_neg hj]
            exact ih (x.move (.advance j)) walkers

/-- **Other walkers make no difference**: what a walker gives is the same in all sessions that begin
with the same store and the same walker and whose moves differ in steps of other walkers only. -/
theorem answers_congr {y : Session} {moves moves' : List Move} (hstore : y.store = x.store)
    (hwalker : y.walkers i = x.walkers i)
    (hmoves : moves'.filter (Move.concerns i) = moves.filter (Move.concerns i)) :
    y.answers i moves' = x.answers i moves := by
  rw [(y.answers_eq i moves').1, (x.answers_eq i moves).1, hwalker,
    moments_filter y i moves' x.walkers, moments_filter x i moves x.walkers, hstore, hmoves]

/-- The moments do not depend on where the walkers stand. -/
theorem moments_store (x : Session) (i : ℕ) (moves : List Move) (walkers : ℕ → Walker) :
    (⟨x.store, walkers⟩ : Session).moments i moves = x.moments i moves := by
  rw [moments_filter x i moves x.walkers, moments_filter ⟨x.store, walkers⟩ i moves x.walkers]

/-- **The moment of a step** is the store that the moves before it lead to. -/
theorem moments_append (x : Session) (i : ℕ) (before after : List Move) :
    x.moments i (before ++ .advance i :: after)
      = x.moments i before ++ (x.run before).store :: (x.run before).moments i after := by
  induction before generalizing x with
  | nil =>
      have hstep : x.moments i (.advance i :: after)
          = x.store :: (x.move (.advance i)).moments i after := if_pos rfl
      rw [List.nil_append, hstep]
      exact congrArg _ (moments_store x i after _)
  | cons m before ih =>
      cases m with
      | act a => exact ih (x.move (.act a))
      | advance j =>
          have hrest := ih (x.move (.advance j))
          rw [List.cons_append, moments, moments, hrest]
          by_cases hj : j = i
          · rw [if_pos hj, if_pos hj]
            rfl
          · rw [if_neg hj, if_neg hj]
            rfl

end Session

/-! ## The growth of the children -/

namespace Store

variable {s : Store} {y : ℕ}

/-- An action that fails appends nothing. -/
theorem appended_of_error {a : Action} {failure : ActionFailure} (h : s.attempt a = .error failure) :
    a.appended s y = [] := by
  cases a with
  | addChild n child =>
      cases hadd : s.addChild n child with
      | error rejection => rw [Action.appended, hadd]
      | ok s' =>
          rw [attempt, hadd] at h
          simp at h
  | _ => rfl

/-- **One action and the children of a node**: those that there were, and then those that the action
appends. -/
theorem children_perform (hs : s.WellFormed) (a : Action) (hy : y < s.cells.size) :
    y < (s.perform a).2.cells.size ∧
      (s.perform a).2.children y = s.children y ++ a.appended s y := by
  -- whatever keeps the cells and appends nothing is as claimed
  have hkept : ∀ {s' : Store}, s.Extends s' → a.appended s y = [] →
      y < s'.cells.size ∧ s'.children y = s.children y ++ a.appended s y := by
    intro s' hextends hnone
    rw [hnone, List.append_nil]
    exact ⟨Nat.lt_of_lt_of_le hy hextends.size_le, children_congr (hextends y hy)⟩
  cases hattempt : s.attempt a with
  | error failure =>
      rw [perform, hattempt]
      exact hkept (fun _ _ => rfl) (appended_of_error hattempt)
  | ok made =>
      obtain ⟨s', made⟩ := made
      rw [perform, hattempt]
      cases performs_of_attempt hattempt with
      | construct hnew => exact hkept (extends_alloc _ _ _) (by cases hnew <;> rfl)
      | parse hbody hparse => exact hkept (hs.made_addDocument _).1.kept rfl
      | @addChild n c child hcontainer hchild =>
          have happended : (Action.addChild n child).appended s y = if n = y then [c] else [] := by
            rw [Action.appended, addChild_of_childId hcontainer hchild, hchild]
          show y < (s.append n c).cells.size ∧ (s.append n c).children y = _
          refine ⟨by rwa [size_append], ?_⟩
          by_cases hn : n = y
          · subst hn
            rw [happended, if_pos rfl, children_append_self hy]
          · rw [happended, if_neg hn, List.append_nil, children_append_of_ne s (Ne.symm hn)]

/-- What could be reached can still be reached after an action. -/
theorem reaches_perform (hs : s.WellFormed) (a : Action) {root k : ℕ} (h : s.Reaches root k) :
    (s.perform a).2.Reaches root k := by
  refine Relation.ReflTransGen.mono (fun id c hc => ?_) root k h
  show c ∈ (s.perform a).2.children id
  rw [(children_perform hs a (lt_of_mem_children hc)).2]
  exact List.mem_append_left _ hc

end Store

namespace Session

variable {x : Session} {i root y : ℕ}

theorem held_append {before after : List Move} (h : x.Held (before ++ after)) :
    x.Held before ∧ (x.run before).Held after := by
  induction before generalizing x with
  | nil => exact ⟨trivial, h⟩
  | cons m before ih =>
      cases m with
      | act a =>
          obtain ⟨hbefore, hafter⟩ := ih h.2
          exact ⟨⟨h.1, hbefore⟩, hafter⟩
      | advance j => exact ih (x := x.move (.advance j)) h

/-- **What every move keeps holds after all of them**, where the store is one that a program can come
to, and stays so. -/
theorem run_invariant {P : Session → Prop}
    (hact : ∀ x a, x.store.Reachable → a.Held x.store → P x → P (x.move (.act a)))
    (hadvance : ∀ x j, x.store.Reachable → P x → P (x.move (.advance j)))
    (hs : x.store.Reachable) {moves : List Move} (h : x.Held moves) (hP : P x) :
    (x.run moves).store.Reachable ∧ P (x.run moves) := by
  induction moves generalizing x with
  | nil => exact ⟨hs, hP⟩
  | cons m moves ih =>
      cases m with
      | act a => exact ih (hs.perform h.1) h.2 (hact x a hs h.1 hP)
      | advance j => exact ih (x := x.move (.advance j)) hs h (hadvance x j hs hP)

/-- The stores of a session can be reached by a program. -/
theorem reachable_run (hs : x.store.Reachable) {moves : List Move} (h : x.Held moves) :
    (x.run moves).store.Reachable :=
  (run_invariant (P := fun _ => True) (fun _ _ _ _ _ => trivial) (fun _ _ _ _ => trivial) hs h
    trivial).1

/-- **The children of a node at the end of several moves**: those at their beginning, and then those
that the moves append. -/
theorem children_run (hs : x.store.Reachable) {moves : List Move} (h : x.Held moves)
    (hy : y < x.store.cells.size) :
    (x.run moves).store.children y = x.store.children y ++ x.appended y moves := by
  induction moves generalizing x with
  | nil => exact (List.append_nil _).symm
  | cons m moves ih =>
      cases m with
      | act a =>
          obtain ⟨hlt, hchildren⟩ := Store.children_perform hs.wellFormed a hy
          have hrest : (x.run (.act a :: moves)).store.children y
              = (x.store.perform a).2.children y ++ (x.move (.act a)).appended y moves :=
            ih (hs.perform h.1) h.2 hlt
          rw [hrest, hchildren, appended, List.append_assoc]
      | advance j => exact ih (x := x.move (.advance j)) hs h hy

end Session

/-! ## The nodes in front of a walker -/

namespace Walker

variable {s : Store} {w : Walker} {root : ℕ}

/-- The nodes whose children a walker has still to read are nodes of the store that can be reached
from a root. -/
def IsBelow (w : Walker) (s : Store) (root : ℕ) : Prop :=
  ∀ k ∈ w.unread, k < s.cells.size ∧ s.Reaches root k

/-- After a step the nodes are unread that were upcoming before it. -/
theorem unread_advance (w : Walker) (s : Store) : (w.advance s).2.unread = w.upcoming s := by
  cases h : w.upcoming s with
  | nil =>
      rw [advance_of_nil h]
      rfl
  | cons id rest =>
      rw [advance_of_cons h]
      rfl

theorem IsBelow.upcoming (h : w.IsBelow s root) (hs : s.WellFormed) :
    ∀ k ∈ w.upcoming s, k < s.cells.size ∧ s.Reaches root k := by
  obtain ⟨current, pending⟩ := w
  cases current with
  | none => exact h
  | some id =>
      intro k hk
      rcases List.mem_append.mp hk with hk | hk
      · obtain ⟨-, hreach⟩ := h id (by simp [unread])
        exact ⟨(hs.child id k hk).1, hreach.tail hk⟩
      · exact h k (by simp [unread, hk])

/-- A step stays below the root. -/
theorem IsBelow.advance (h : w.IsBelow s root) (hs : s.WellFormed) :
    (w.advance s).2.IsBelow s root := by
  intro k hk
  rw [unread_advance] at hk
  exact h.upcoming hs k hk

/-- An action leaves a walker below its root. -/
theorem IsBelow.perform (h : w.IsBelow s root) (hs : s.WellFormed) (a : Action) :
    w.IsBelow (s.perform a).2 root := by
  intro k hk
  obtain ⟨hlt, hreach⟩ := h k hk
  exact ⟨(Store.children_perform hs a hlt).1, Store.reaches_perform hs a hreach⟩

end Walker

/-- A walker stays below its root during a session. -/
theorem Session.isBelow_run {x : Session} {i root : ℕ} (hs : x.store.Reachable)
    {moves : List Move} (h : x.Held moves) (hbelow : (x.walkers i).IsBelow x.store root) :
    ((x.run moves).walkers i).IsBelow (x.run moves).store root := by
  refine (run_invariant (P := fun x => (x.walkers i).IsBelow x.store root) ?_ ?_ hs h hbelow).2
  · intro x a hs _ hbelow
    exact hbelow.perform hs.wellFormed a
  · intro x j hs hbelow
    by_cases hj : j = i
    · subst hj
      rw [move_self]
      exact hbelow.advance hs.wellFormed
    · rw [move_of_ne hj]
      exact hbelow

/-- **Walking while the tree grows.** Take any session over a store that a program can come to, any
moves of it, that is, actions on the store and steps of its walkers in any order, and a walker that
starts in front of a node `root` of the store.

What the walker gives are the nodes that it visits, and nothing at all once it has ended. There is a
tree of occurrences with `root` at the top whose preorder is the visited nodes and behind them those
that are pending. In preorder, every visited occurrence contributes the children that its node has in
the store at the next step of the walker, at which it is advanced past that occurrence; the
occurrences that it has not been advanced past have contributed nothing yet. A walker that has ended
has none of these.

The store of a step is the one that the moves before it lead to, and over any stretch of moves the
children of a node stay as they are, with the children behind them that are appended in the
stretch. So a child that is appended before a moment is among those that are contributed then, and
one that is appended later is not.

A session that begins with the same store and the same walker, and whose moves differ in steps of
other walkers only, gives the same. If in the end no cycle lies below `root` and the store stays as
it is, then the walker goes on to give the preorders of the nodes that are upcoming, and ends. -/
theorem walk_growing {x : Session} (hs : x.store.Reachable) {moves : List Move}
    (hheld : x.Held moves) {i root : ℕ} (hroot : root < x.store.cells.size)
    (hstart : x.walkers i = .start root) :
    (∃ (T : Occurrence) (visited : List ℕ) (ended : ℕ),
      x.answers i moves = visited.map some ++ List.replicate ended none ∧
      T.root = root ∧
      T.preorder = visited ++ ((x.run moves).walkers i).pending ∧
      T.readings =
        List.zipWith (fun y s => (y, s.children y)) visited (x.moments i moves).tail ++
          ((x.run moves).walkers i).unread.map (fun y => (y, [])) ∧
      (ended ≠ 0 → ((x.run moves).walkers i).unread = [])) ∧
    (∀ before after, moves = before ++ .advance i :: after →
      x.moments i moves
        = x.moments i before ++ (x.run before).store :: (x.run before).moments i after) ∧
    (∀ before middle after, moves = before ++ (middle ++ after) →
      ∀ y < (x.run before).store.cells.size,
        (x.run (before ++ middle)).store.children y
          = (x.run before).store.children y ++ (x.run before).appended y middle) ∧
    (∀ (x' : Session) (moves' : List Move), x'.store = x.store → x'.walkers i = x.walkers i →
      moves'.filter (Move.concerns i) = moves.filter (Move.concerns i) →
      x'.answers i moves' = x.answers i moves) ∧
    ((x.run moves).store.AcyclicFrom root →
      Walker.Gives (x.run moves).store ((x.run moves).walkers i)
        ((((x.run moves).walkers i).upcoming (x.run moves).store).flatMap
          (x.run moves).store.preorder)) := by
  refine ⟨?_, ?_, ?_, fun x' moves' hstore hwalker hmoves =>
    Session.answers_congr hstore hwalker hmoves, fun hacyclic => ?_⟩
  · obtain ⟨hanswers, hafter⟩ := x.answers_eq i moves
    rw [hanswers, hafter, hstart]
    exact Walker.exists_occurrence root (x.moments i moves)
  · rintro before after rfl
    exact x.moments_append i before after
  · rintro before middle after rfl y hy
    obtain ⟨hbefore, hrest⟩ := Session.held_append hheld
    rw [Session.run_append]
    exact Session.children_run (Session.reachable_run hs hbefore) (Session.held_append hrest).1 hy
  · have hwellFormed := (Session.reachable_run hs hheld).wellFormed
    have hfirst : (x.walkers i).IsBelow x.store root := by
      rw [hstart]
      intro k hk
      obtain rfl : k = root := List.mem_singleton.mp hk
      exact ⟨hroot, .refl⟩
    have hbelow := Session.isBelow_run hs hheld hfirst
    refine Store.gives_upcoming hwellFormed _ fun k hk => ?_
    obtain ⟨hlt, hreach⟩ := hbelow.upcoming hwellFormed k hk
    exact ⟨hlt, hacyclic.of_reaches hreach⟩

/-- A text is added to a document after the walker has come to it and before it is advanced past it,
and is visited. The text that is added behind that moment is not, nor is the one that is added
after the walker has ended. -/
theorem walk_growing_threeTexts :
    ∃ (x : Session) (moves : List Move) (T : Occurrence),
      x.store.Reachable ∧ x.Held moves ∧ x.walkers 0 = .start 2 ∧
      x.store.children 2 = [1] ∧ (x.run moves).store.children 2 = [1, 0, 0, 0] ∧
      x.answers 0 moves = [some 2, some 1, some 0, some 0, none, none] ∧
      T.root = 2 ∧ T.readings = [(2, [1, 0]), (1, [0]), (0, []), (0, [])] := by
  let e : Datum := .element (.var default)
  let header : LoopHeader := ⟨default, .var default, .var default, none⟩
  let content : Head := .text ['a']
  let s : Store := ⟨#[⟨content, []⟩, ⟨.loop header, []⟩, ⟨.document, [1]⟩]⟩
  let x : Session := ⟨s, fun _ => .start 2⟩
  let add (id : ℕ) : Move := .act (.addChild id (.node 0 content))
  let moves : List Move := [.advance 0, add 2, .advance 0, add 1, add 2, .advance 1, .advance 0,
    .advance 0, .advance 0, add 2, .advance 0]
  have htext : Store.Reachable ⟨#[⟨content, []⟩]⟩ :=
    .perform .empty (a := .text (.text ['a'])) (by simp [Action.Held, Action.children?])
  have hloop : (Action.loop e e e .none (.list [])).Held ⟨#[⟨content, []⟩]⟩ :=
    fun children hchildren => Option.some_inj.mp hchildren ▸ Store.holds_list [] (by decide)
  have hdocument : (Action.document (.list [.node 1 (.loop header)])).Held
      ⟨#[⟨content, []⟩, ⟨.loop header, []⟩]⟩ :=
    fun children hchildren => Option.some_inj.mp hchildren ▸ Store.holds_list [1] (by decide)
  have hreachable : s.Reachable := .perform (.perform htext hloop) hdocument
  have hheld : x.Held moves :=
    ⟨⟨by decide, Store.holds_datum (by decide)⟩, ⟨by decide, Store.holds_datum (by decide)⟩,
      ⟨by decide, Store.holds_datum (by decide)⟩, ⟨by decide, Store.holds_datum (by decide)⟩,
      trivial⟩
  obtain ⟨⟨T, visited, ended, hanswers, hroot, -, hreadings, -⟩, -⟩ :=
    walk_growing (x := x) hreachable hheld (by decide : 2 < 3) (rfl : x.walkers 0 = .start 2)
  have hgiven : x.answers 0 moves = [some 2, some 1, some 0, some 0, none, none] := by
    decide +kernel
  have hchildren : (x.run moves).store.children 2 = [1, 0, 0, 0] := by decide +kernel
  have hvisited : visited = [2, 1, 0, 0] := by
    have hnodes := congrArg (List.filterMap id) (hanswers.symm.trans hgiven)
    simpa [List.filterMap_append, List.filterMap_map, List.filterMap_replicate] using hnodes
  subst hvisited
  have hcontributed : T.readings = [(2, [1, 0]), (1, [0]), (0, []), (0, [])] :=
    hreadings.trans (by decide +kernel)
  exact ⟨x, moves, T, hreachable, hheld, rfl, rfl, hchildren, hgiven, hroot, hcontributed⟩

end TagTemplate
