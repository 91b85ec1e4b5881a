import TagTemplate.Parser.Parse
import TagTemplate.Proofs.Store.Cells
import TagTemplate.Store.Construct

set_option autoImplicit false

/-! # Building nodes in a store

A program constructs nodes, parses documents and adds children to containers, in any order and as
often as it wants (`Store.perform`). Of the nodes it can hand in those that it holds, which are
nodes of the store (`Action.Held`), so the stores that it can come to are the reachable ones
(`Store.Reachable`). What an action that succeeds does to the store is listed once
(`Store.performs_of_attempt`). It follows that one action keeps a store well formed
(`Store.WellFormed.perform`), and so does any number of them (`Store.Reachable.wellFormed`).
-/

namespace TagTemplate

/-! ## Actions -/

/-- What a program does to a store of nodes. -/
inductive Action
  | text (content : Datum)
  | echo (elements : Datum)
  | loop (var start stop step children : Datum)
  | document (children : Datum)
  | parse (options : Options) (body : Datum)
  | addChild (id : Nat) (child : Datum)

inductive ActionFailure
  | node (rejection : NodeRejection)
  | body (rejection : InputRejection)
  | parse (failure : ParseFailure)

/-- The data that a datum lists; none if it cannot be gone through. -/
def Datum.listed (d : Datum) : List Datum :=
  match d.items with
  | .ok items => items
  | .error _ => []

namespace Store

/-- What an action makes of a store, and the number of the new node if it makes one. -/
def attempt (s : Store) : Action → Except ActionFailure (Store × Option Nat)
  | .text content => constructed (s.newText content)
  | .echo elements => constructed (s.newEcho elements)
  | .loop var start stop step children => constructed (s.newLoop var start stop step children)
  | .document children => constructed (s.newDocument children)
  | .parse options body =>
    match documentBody body with
    | .error rejection => .error (.body rejection)
    | .ok t =>
      match TagTemplate.parse options t with
      | .error failure => .error (.parse failure)
      | .ok nodes => constructed (.ok (s.addDocument nodes))
  | .addChild id child =>
    match s.addChild id child with
    | .error rejection => .error (.node rejection)
    | .ok s' => .ok (s', none)
where
  /-- What a constructor made. -/
  constructed : Except NodeRejection (Store × Nat) → Except ActionFailure (Store × Option Nat)
    | .error rejection => .error (.node rejection)
    | .ok (s', id) => .ok (s', some id)

def perform (s : Store) (a : Action) : Except ActionFailure (Option Nat) × Store :=
  match s.attempt a with
  | .ok (s', id) => (.ok id, s')
  | .error failure => (.error failure, s)

/-- A program holds a datum: every node that it is or lists is a node of the store. -/
def Holds (s : Store) (d : Datum) : Prop :=
  ∀ id head, .node id head ∈ d :: d.listed → id < s.cells.size ∧ head = s.head id

end Store

/-- What an action hands in as the children of a new container. -/
def Action.children? : Action → Option Datum
  | loop _ _ _ _ children => some children
  | document children => some children
  | _ => none

/-- The nodes that an action hands in are nodes of the store. -/
def Action.Held (s : Store) : Action → Prop
  | addChild id child => id < s.cells.size ∧ s.Holds child
  | a => ∀ children ∈ a.children?, s.Holds children

namespace Store

/-- The stores that a program can come to. -/
inductive Reachable : Store → Prop
  | empty : Reachable empty
  | perform {s : Store} {a : Action} (h : Reachable s) (hheld : a.Held s) :
      Reachable (s.perform a).2

variable {s s' : Store} {id k : Nat}

/-! ## What actions do -/

/-- A computation in steps succeeds if its first step does and what follows does. -/
theorem bind_eq_ok {ε α β : Type} {x : Except ε α} {f : α → Except ε β} {b : β}
    (h : x >>= f = .ok b) : ∃ a, x = .ok a ∧ f a = .ok b := by
  cases x with
  | error e => simp [bind, Except.bind] at h
  | ok a => exact ⟨a, rfl, h⟩

/-- What can be a child is a node other than a document. -/
theorem exists_of_childId {d : Datum} (h : childId d = .ok k) :
    ∃ head, d = .node k head ∧ head ≠ .document := by
  unfold childId at h
  split at h
  · simp at h
  · next id head hne =>
    cases h
    exact ⟨head, rfl, fun hdocument => hne (by rw [hdocument])⟩
  · simp at h

/-- A child that is held is a node of the store. -/
theorem Holds.child {d : Datum} (hd : s.Holds d) {item : Datum} (hitem : item ∈ d :: d.listed)
    (h : childId item = .ok k) : item = s.datum k ∧ s.IsInner k := by
  obtain ⟨head, rfl, hne⟩ := exists_of_childId h
  obtain ⟨hlt, rfl⟩ := hd k head hitem
  exact ⟨rfl, hlt, hne⟩

/-- **The children of a new container** are the nodes that were listed for it, in order. -/
theorem Holds.children {d : Datum} (hd : s.Holds d) {ids : List Nat} (h : childIds d = .ok ids) :
    d.listed = ids.map s.datum ∧ ∀ k ∈ ids, s.IsInner k := by
  have hlist : ∀ (items : List Datum) (ids : List Nat), (∀ item ∈ items, item ∈ d.listed) →
      items.mapM childId = .ok ids → items = ids.map s.datum ∧ ∀ k ∈ ids, s.IsInner k := by
    intro items
    induction items with
    | nil =>
        intro ids _ hids
        cases hids
        exact ⟨rfl, by simp⟩
    | cons item items ih =>
        intro ids hitems hids
        rw [List.mapM_cons] at hids
        obtain ⟨k, hitem, hids⟩ := bind_eq_ok hids
        obtain ⟨rest, hrest, hids⟩ := bind_eq_ok hids
        cases hids
        obtain ⟨hdatum, hinner⟩ := hd.child (List.mem_cons_of_mem _ (hitems item (by simp))) hitem
        obtain ⟨hdata, hinners⟩ := ih rest (fun item' h' => hitems item' (by simp [h'])) hrest
        refine ⟨by rw [hdatum, hdata, List.map_cons], fun k' hk' => ?_⟩
        rcases List.mem_cons.mp hk' with rfl | hk'
        · exact hinner
        · exact hinners k' hk'
  obtain ⟨items, hitems, h⟩ := bind_eq_ok h
  have hlisted : d.listed = items := by rw [Datum.listed, hitems]
  rw [hlisted] at hlist ⊢
  exact hlist items ids (fun item h => h) h

/-- A node of the store is held. -/
theorem holds_datum {s : Store} {id : Nat} (h : id < s.cells.size) : s.Holds (s.datum id) := by
  intro k head hnode
  cases List.mem_singleton.mp hnode
  exact ⟨h, rfl⟩

/-- A list of nodes of the store is held. -/
theorem holds_list {s : Store} (ids : List Nat) (h : ∀ k ∈ ids, k < s.cells.size) :
    s.Holds (.list (ids.map s.datum)) := by
  intro id head hnode
  rcases List.mem_cons.mp hnode with hlist | hitem
  · simp at hlist
  · obtain ⟨k, hk, hdatum⟩ := List.mem_map.mp hitem
    cases hdatum
    exact ⟨h id hk, rfl⟩

/-- What a constructor puts into the new cell: what the node holds itself, and its children. -/
inductive Constructs : Action → Head → List Nat → Prop
  | text (content : Text) : Constructs (.text (.text content)) (.text content) []
  | echo {d : Datum} {items : List Datum} {elements : List Element} (hitems : d.items = .ok items)
      (h : items.mapM echoElement = .ok elements) : Constructs (.echo d) (.echo elements) []
  | loop {var start stop step children : Datum} {header : LoopHeader} {ids : List Nat}
      (hvar : loopVariable var = .ok header.var)
      (hstart : loopBound .start start = .ok header.start)
      (hstop : loopBound .stop stop = .ok header.stop) (hstep : loopStep step = .ok header.step)
      (hids : childIds children = .ok ids) :
      Constructs (.loop var start stop step children) (.loop header) ids
  | document {children : Datum} {ids : List Nat} (hids : childIds children = .ok ids) :
      Constructs (.document children) .document ids

/-- What an action does where it succeeds: the store behind it, and the number of the node that it
makes. -/
inductive Performs (s : Store) : Action → Store → Option Nat → Prop
  | construct {a : Action} {head : Head} {ids : List Nat} (h : Constructs a head ids) :
      Performs s a (s.alloc head ids).1 (some s.cells.size)
  | parse {options : Options} {body : Datum} {t : Text} {nodes : List Node}
      (hbody : documentBody body = .ok t) (h : TagTemplate.parse options t = .ok nodes) :
      Performs s (.parse options body) (s.addDocument nodes).1 (some (s.addDocument nodes).2)
  | addChild {n c : Nat} {child : Datum} (hcontainer : (s.head n).isContainer = true)
      (h : childId child = .ok c) : Performs s (.addChild n child) (s.append n c) none

theorem addChild_eq_ok {n : Nat} {child : Datum} (h : s.addChild n child = .ok s') :
    (s.head n).isContainer = true ∧ ∃ c, childId child = .ok c ∧ s' = s.append n c := by
  obtain ⟨_, hcontainer, h⟩ := bind_eq_ok h
  obtain ⟨c, hchild, h⟩ := bind_eq_ok h
  cases h
  refine ⟨?_, c, hchild, rfl⟩
  unfold requireContainer at hcontainer
  split at hcontainer
  · assumption
  · simp at hcontainer

/-- A child is added if it goes to a container and can be a child. -/
theorem addChild_of_childId {n c : Nat} {child : Datum}
    (hcontainer : (s.head n).isContainer = true) (h : childId child = .ok c) :
    s.addChild n child = .ok (s.append n c) := by
  rw [addChild, requireContainer, if_pos hcontainer, h]
  rfl

theorem attempt_constructed {x : Except NodeRejection (Store × Nat)} {made : Option Nat}
    (h : attempt.constructed x = .ok (s', made)) : ∃ id, x = .ok (s', id) ∧ made = some id := by
  unfold attempt.constructed at h
  split at h
  · simp at h
  · cases h
    exact ⟨_, rfl, rfl⟩

/-- **An action that succeeds** makes one new node, or the nodes of a document, or adds a child. -/
theorem performs_of_attempt {a : Action} {made : Option Nat} (h : s.attempt a = .ok (s', made)) :
    Performs s a s' made := by
  cases a with
  | text content =>
      obtain ⟨id, hnew, rfl⟩ := attempt_constructed h
      unfold newText at hnew
      split at hnew
      · cases hnew
        exact .construct (.text _)
      · simp at hnew
  | echo elements =>
      obtain ⟨id, hnew, rfl⟩ := attempt_constructed h
      obtain ⟨items, hitems, hnew⟩ := bind_eq_ok hnew
      obtain ⟨es, hes, hnew⟩ := bind_eq_ok hnew
      cases hnew
      exact .construct (.echo hitems hes)
  | loop var start stop step children =>
      obtain ⟨id, hnew, rfl⟩ := attempt_constructed h
      obtain ⟨name, hvar, hnew⟩ := bind_eq_ok hnew
      obtain ⟨first, hstart, hnew⟩ := bind_eq_ok hnew
      obtain ⟨last, hstop, hnew⟩ := bind_eq_ok hnew
      obtain ⟨stride, hstep, hnew⟩ := bind_eq_ok hnew
      obtain ⟨ids, hids, hnew⟩ := bind_eq_ok hnew
      cases hnew
      exact .construct (.loop hvar hstart hstop hstep hids)
  | document children =>
      obtain ⟨id, hnew, rfl⟩ := attempt_constructed h
      obtain ⟨ids, hids, hnew⟩ := bind_eq_ok hnew
      cases hnew
      exact .construct (.document hids)
  | parse options body =>
      simp only [attempt] at h
      split at h
      · simp at h
      · next t hbody =>
        split at h
        · simp at h
        · next nodes hparse =>
          obtain ⟨id, hnew, rfl⟩ := attempt_constructed h
          cases hnew
          exact .parse hbody hparse
  | addChild n child =>
      simp only [attempt] at h
      split at h
      · simp at h
      · next hadd =>
        cases h
        obtain ⟨hcontainer, c, hchild, rfl⟩ := addChild_eq_ok hadd
        exact .addChild hcontainer hchild

/-! ## The invariant -/

/-- A node without operations on children is constructed without children. -/
theorem Constructs.leaf {a : Action} {head : Head} {ids : List Nat} (h : Constructs a head ids)
    (hleaf : head.isContainer = false) : ids = [] := by
  cases h with
  | text content => rfl
  | echo hitems h => rfl
  | loop hvar hstart hstop hstep hids => simp [Head.isContainer] at hleaf
  | document hids => simp [Head.isContainer] at hleaf

/-- The children of a new container are those that the action lists. -/
theorem Constructs.listed {a : Action} {head : Head} {ids : List Nat} (h : Constructs a head ids)
    (hheld : a.Held s) :
    (∀ k ∈ ids, s.IsInner k) ∧ ∀ children ∈ a.children?, children.listed = ids.map s.datum := by
  cases h with
  | text content => exact ⟨by simp, by simp [Action.children?]⟩
  | echo hitems h => exact ⟨by simp, by simp [Action.children?]⟩
  | loop hvar hstart hstop hstep hids =>
      obtain ⟨hlisted, hinner⟩ := (hheld _ rfl).children hids
      exact ⟨hinner, fun d hd => Option.some_inj.mp hd ▸ hlisted⟩
  | document hids =>
      obtain ⟨hlisted, hinner⟩ := (hheld _ rfl).children hids
      exact ⟨hinner, fun d hd => Option.some_inj.mp hd ▸ hlisted⟩

/-- A successful action keeps a store well formed. -/
theorem Performs.wellFormed {a : Action} {made : Option Nat} (hperforms : Performs s a s' made)
    (h : s.WellFormed) (hheld : a.Held s) : s'.WellFormed := by
  cases hperforms with
  | construct hnew => exact h.alloc hnew.leaf (hnew.listed hheld).1
  | parse hbody hparse => exact (h.made_addDocument _).1.wellFormed
  | addChild hcontainer hchild =>
      exact h.append hcontainer (hheld.2.child (List.mem_cons_self ..) hchild).2

/-- **An action that makes a node** makes it beside the others, which stay as they are, and a new
container has the nodes that were listed for it. -/
theorem Performs.made {a : Action} (hperforms : Performs s a s' (some id)) (h : s.WellFormed)
    (hheld : a.Held s) :
    s.cells.size ≤ id ∧ s.Extends s' ∧
      ∀ children ∈ a.children?, children.listed = (s'.children id).map s.datum := by
  generalize hmade : some id = made at hperforms
  cases hperforms with
  | @construct _ head ids hnew =>
      obtain rfl := Option.some_inj.mp hmade
      obtain ⟨-, -, hchildren⟩ := cell?_eq_some_iff.mp (cell?_alloc_self s head ids)
      refine ⟨Nat.le_refl _, extends_alloc s head ids, ?_⟩
      rw [hchildren]
      exact (hnew.listed hheld).2
  | parse hbody hparse =>
      obtain rfl := Option.some_inj.mp hmade
      obtain ⟨hmade', hle⟩ := h.made_addDocument _
      exact ⟨hle, hmade'.kept, by simp [Action.children?]⟩
  | addChild hcontainer hchild => simp at hmade

/-- A failed action leaves the store as it is. -/
theorem perform_error {a : Action} {failure : ActionFailure}
    (h : s.perform a = (.error failure, s')) : s' = s := by
  unfold perform at h
  split at h
  · simp at h
  · cases h
    rfl

theorem attempt_of_perform {a : Action} {made : Option Nat}
    (h : s.perform a = (.ok made, s')) : s.attempt a = .ok (s', made) := by
  unfold perform at h
  split at h
  · next hattempt =>
    cases h
    exact hattempt
  · simp at h

/-- **One action keeps a store well formed.** -/
theorem WellFormed.perform (h : s.WellFormed) {a : Action} (hheld : a.Held s) :
    (s.perform a).2.WellFormed := by
  cases hperform : s.perform a with
  | mk result s' =>
      cases result with
      | error failure =>
          obtain rfl := perform_error hperform
          exact h
      | ok made => exact (performs_of_attempt (attempt_of_perform hperform)).wellFormed h hheld

/-- **All reachable stores are well formed.** -/
theorem Reachable.wellFormed (h : s.Reachable) : s.WellFormed := by
  induction h with
  | empty => exact wellFormed_empty
  | perform _ hheld ih => exact ih.perform hheld

end Store

end TagTemplate
