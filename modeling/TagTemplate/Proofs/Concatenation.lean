import TagTemplate.Proofs.Lexer.Joint
import TagTemplate.Proofs.RoundTrip

set_option autoImplicit false

/-! # Templates one behind the other

Two texts that parse are put together. A text that parses ends outside of tags, so its tokens lead
back to text mode (`exists_scans_of_parse`), and the tokens of the whole are those of the two texts,
joined where two texts meet. Documents are put together in the same way (`flats_concat`). The main
result is `parse_append`: unless a tag opening arises between them, two texts that parse do so one
behind the other, to their documents one behind the other.
-/

namespace TagTemplate

/-! ## Names of tags in capitals -/

theorem modeAfter_capitals (mode : Mode) (p : Payload) :
    modeAfter mode p.capitals = modeAfter mode p := by
  cases p <;> rfl

theorem foldl_capitalNames (opened : Bool) (mode : Mode) (ps : List Payload) :
    (capitalNames opened ps).foldl modeAfter mode = ps.foldl modeAfter mode := by
  induction ps generalizing opened mode with
  | nil => rfl
  | cons p ps ih =>
      rw [capitalNames, List.foldl_cons, List.foldl_cons, ih]
      cases opened
      · rfl
      · rw [if_pos rfl, modeAfter_capitals]

/-- What capitals do not change in a payload, names of tags in capitals do not change in a list. -/
theorem map_capitalNames {α : Type} (f : Payload → α) (hf : ∀ p, f p.capitals = f p)
    (opened : Bool) (ps : List Payload) : (capitalNames opened ps).map f = ps.map f := by
  induction ps generalizing opened with
  | nil => rfl
  | cons p ps ih =>
      rw [capitalNames, List.map_cons, List.map_cons, ih]
      cases opened
      · rfl
      · rw [if_pos rfl, hf]

theorem isText_capitalNames (opened : Bool) (ps : List Payload) :
    (capitalNames opened ps).map Payload.isText = ps.map Payload.isText :=
  map_capitalNames Payload.isText isText_capitals opened ps

/-- Behind payloads that end in text mode, names are no names of tags. -/
theorem capitalNames_append {opened : Bool} {mode : Mode} {ps : List Payload}
    (hmode : ps.foldl modeAfter mode = .text) (hopened : opened = true → mode = .tag)
    (qs : List Payload) :
    capitalNames opened (ps ++ qs) = capitalNames opened ps ++ capitalNames false qs := by
  induction ps generalizing opened mode with
  | nil =>
      obtain rfl : mode = .text := hmode
      obtain rfl : opened = false := by
        cases opened
        · rfl
        · simpa using hopened rfl
      rfl
  | cons p ps ih =>
      have hnext : (p == .tagStart) = true → modeAfter mode p = .tag := by
        intro hp
        rw [eq_of_beq hp]
        rfl
      rw [List.cons_append, capitalNames, ih hmode hnext, capitalNames, List.cons_append]

theorem exists_of_join?_eq_some {p q r : Payload} (h : p.join? q = some r) :
    ∃ a b, p = .text a ∧ q = .text b ∧ r = .text (a ++ b) := by
  cases p <;> cases q <;> simp_all [Payload.join?]

/-- Whether two lists of payloads meet in texts depends on which of them are texts. -/
theorem forall_join?_eq_none_iff {ps qs : List Payload} :
    (∀ p ∈ ps.getLast?, ∀ q ∈ qs.head?, p.join? q = none) ↔
      ∀ a ∈ (ps.map Payload.isText).getLast?, ∀ b ∈ (qs.map Payload.isText).head?,
        a = true → b = false := by
  have hjoin : ∀ p q : Payload, p.join? q = none ↔ (p.isText = true → q.isText = false) := by
    intro p q
    cases p <;> cases q <;> simp [Payload.join?, Payload.isText]
  simp [List.getLast?_map, List.head?_map, hjoin]

/-- Putting payloads one behind the other leaves the names of tags where they are. -/
theorem capitalNames_concat {ps : List Payload} (hmode : ps.foldl modeAfter .text = .text)
    (qs : List Payload) :
    capitalNames false (Payload.concat ps qs)
      = Payload.concat (capitalNames false ps) (capitalNames false qs) := by
  unfold Payload.concat
  rcases appendJoining_cases Payload.join? ps qs with ⟨front, p, q, back, r, rfl, rfl, hr⟩ | hnone
  · obtain ⟨a, b, rfl, rfl, rfl⟩ := exists_of_join?_eq_some hr
    have hfront : front.foldl modeAfter .text = .text := by
      rw [List.foldl_append] at hmode
      exact hmode
    rw [appendJoining_of_some front hr, capitalNames_append hfront (by simp),
      capitalNames_append hfront (by simp)]
    exact (appendJoining_of_some _ hr _).symm
  · have hnames := hnone
    rw [forall_join?_eq_none_iff, ← isText_capitalNames false ps, ← isText_capitalNames false qs,
      ← forall_join?_eq_none_iff] at hnames
    rw [appendJoining_of_none hnone, appendJoining_of_none hnames,
      capitalNames_append hmode (by simp)]

/-! ## Trees -/

def Node.join? : Node → Node → Option Node
  | .text a, .text b => some (.text (a ++ b))
  | _, _ => none

/-- The nodes of one document behind those of another: a text at the end of the first and a text at
the front of the second become one, and all other nodes stay as they are. -/
def Node.concat (as bs : List Node) : List Node := appendJoining Node.join? as bs

/-- The payloads of nodes lead from text mode to text mode. -/
theorem foldl_flats (ns : List Node) : (Node.flats ns).foldl modeAfter .text = .text := by
  induction ns with
  | nil => rfl
  | cons n ns ih =>
      have hnode : n.flat.foldl modeAfter .text = .text := by
        cases n with
        | text content => rfl
        | echo elements => rw [Node.flat, tagPayloads, List.foldl_append]; rfl
        | loop header children => rw [Node.flat, List.foldl_append]; rfl
      rw [Node.flats, List.foldl_append, hnode, ih]

theorem head?_flat {n : Node} (h : n.isText = false) : n.flat.head? = some .tagStart := by
  cases n with
  | text content => simp [Node.isText] at h
  | echo elements => rfl
  | loop header children => rfl

theorem getLast?_flat {n : Node} (h : n.isText = false) : n.flat.getLast? = some .tagEnd := by
  cases n with
  | text content => simp [Node.isText] at h
  | echo elements => simp [Node.flat, tagPayloads]
  | loop header children =>
      rw [Node.flat, List.getLast?_append]
      rfl

theorem exists_of_nodeJoin?_eq_some {m n r : Node} (h : m.join? n = some r) :
    ∃ a b, m = .text a ∧ n = .text b ∧ r = .text (a ++ b) := by
  cases m <;> cases n <;> simp_all [Node.join?]

/-- Nodes that do not meet in texts have payloads that do not. -/
theorem forall_join?_flats {as bs : List Node}
    (h : ∀ m ∈ as.getLast?, ∀ n ∈ bs.head?, m.join? n = none) :
    ∀ p ∈ (Node.flats as).getLast?, ∀ q ∈ (Node.flats bs ++ [Payload.endOfInput]).head?,
      p.join? q = none := by
  intro p hp q hq
  rcases List.eq_nil_or_concat' as with rfl | ⟨front, m, rfl⟩
  · simp [Node.flats] at hp
  have hlast : (Node.flats (front ++ [m])).getLast? = m.flat.getLast? := by
    have hne : m.flat ≠ [] := by cases m <;> simp [Node.flat, tagPayloads]
    rw [Node.flats_append, Node.flats, Node.flats, List.append_nil,
      List.getLast?_append_of_ne_nil _ hne]
  rw [hlast] at hp
  cases hm : m.isText with
  | false =>
      rw [getLast?_flat hm] at hp
      obtain rfl := Option.some.inj hp
      rfl
  | true =>
      -- only another text could be joined with the text at the end
      cases bs with
      | nil =>
          obtain rfl := Option.some.inj hq
          cases p <;> rfl
      | cons n bs =>
          have hn : n.isText = false := by
            have hnone := h m (by simp) n (by simp)
            cases m <;> cases n <;> simp_all [Node.join?, Node.isText]
          rw [Node.flats, List.head?_append, List.head?_append, head?_flat hn] at hq
          obtain rfl := Option.some.inj hq
          cases p <;> rfl

/-- **Nodes one behind the other are written with their payloads one behind the other.** -/
theorem flats_concat (as bs : List Node) :
    Payload.concat (Node.flats as) (Node.flats bs ++ [.endOfInput])
      = Node.flats (Node.concat as bs) ++ [.endOfInput] := by
  unfold Payload.concat Node.concat
  rcases appendJoining_cases Node.join? as bs with ⟨front, m, n, back, r, rfl, rfl, hr⟩ | hnone
  · obtain ⟨a, b, rfl, rfl, rfl⟩ := exists_of_nodeJoin?_eq_some hr
    have hpayload : (Payload.text a).join? (.text b) = some (.text (a ++ b)) := rfl
    rw [appendJoining_of_some front hr, Node.flats_append, Node.flats_append]
    simp [Node.flats, Node.flat, appendJoining_of_some _ hpayload]
  · rw [appendJoining_of_none hnone, appendJoining_of_none (forall_join?_flats hnone),
      Node.flats_append, List.append_assoc]

theorem arePlain_concat {as bs : List Node} (has : Node.ArePlain as) (hbs : Node.ArePlain bs) :
    Node.ArePlain (Node.concat as bs) := by
  rw [Node.arePlain_iff] at has hbs ⊢
  unfold Node.concat
  rcases appendJoining_cases Node.join? as bs with ⟨front, m, n, back, r, rfl, rfl, hr⟩ | hnone
  · obtain ⟨a, b, rfl, rfl, rfl⟩ := exists_of_nodeJoin?_eq_some hr
    rw [appendJoining_of_some front hr]
    intro n hn
    rcases List.mem_append.mp hn with hn | hn
    · exact has n (List.mem_append_left _ hn)
    rcases List.mem_cons.mp hn with rfl | hn
    · exact trivial
    · exact hbs n (List.mem_cons_of_mem _ hn)
  · rw [appendJoining_of_none hnone]
    intro n hn
    exact (List.mem_append.mp hn).elim (has n) (hbs n)

/-! ## Parsing -/

/-- The payloads of a parsed text, in front of the end of the input, lead back to text mode. -/
theorem exists_scans_of_parse {options : Options} {t : Text} {document : List Node}
    (h : parse options t = .ok document) :
    ∃ ps, Scans .text t (ps ++ [.endOfInput]) ∧ ps.foldl modeAfter .text = .text ∧
      capitalNames false ps = Node.flats document := by
  obtain ⟨tokens, htokens, hflat, -⟩ := flat_of_parse h
  have hscans := exists_tokenize_iff.mp ⟨tokens, htokens, rfl⟩
  obtain ⟨ts, last, _, _, -, -, hend, rfl⟩ := exists_reads_of_tokenize htokens
  rw [List.map_append, List.map_singleton, Token.isEnd_iff.mp hend] at hscans hflat
  have hmode : (ts.map Token.payload).foldl modeAfter .text = .text := by
    have hwhole := congrArg (List.foldl modeAfter .text) hflat
    rw [foldl_capitalNames, List.foldl_append, List.foldl_append, foldl_flats] at hwhole
    exact hwhole
  refine ⟨ts.map Token.payload, hscans, hmode, ?_⟩
  rw [capitalNames_append hmode (by simp)] at hflat
  exact List.append_cancel_right hflat

/-- **One text behind another parses to one document behind the other**, if no tag opening arises
between them. -/
theorem parse_append {options : Options} {t₁ t₂ : Text} {d₁ d₂ : List Node}
    (h₁ : parse options t₁ = .ok d₁) (h₂ : parse options t₂ = .ok d₂)
    (hjoint : t₁.getLast? ≠ some '\x7b' ∨ t₂.head? ≠ some '$') :
    parse options (t₁ ++ t₂) = .ok (Node.concat d₁ d₂) := by
  obtain ⟨ps, hps, hmode, hflat⟩ := exists_scans_of_parse h₁
  obtain ⟨tokens₂, htokens₂, hflat₂, hplain₂⟩ := flat_of_parse h₂
  obtain ⟨_, _, _, hplain₁⟩ := flat_of_parse h₁
  have hscans := hps.append hmode (exists_tokenize_iff.mp ⟨tokens₂, htokens₂, rfl⟩) hjoint
  refine parse_of_scans hscans ?_ fun hstrict =>
    arePlain_concat (hplain₁ hstrict) (hplain₂ hstrict)
  rw [capitalNames_concat hmode, hflat, hflat₂, flats_concat]

/-- Texts meet, and the first ends with a brace that opens no tag. -/
theorem parse_append_braces :
    parse .default "a\x7b".toList = .ok [.text "a\x7b".toList] ∧
      parse .default "b\x7b$=i$\x7d".toList
        = .ok [.text ['b'], .echo [.var ⟨['i'], by decide⟩]] ∧
      parse .default ("a\x7b".toList ++ "b\x7b$=i$\x7d".toList)
        = .ok [.text "a\x7bb".toList, .echo [.var ⟨['i'], by decide⟩]] := by
  have hfirst : Scans .text "a\x7b".toList [.text "a\x7b".toList, .endOfInput] :=
    .token rfl (by simp) (.finished rfl)
  have hsecond : Scans .text "b\x7b$=i$\x7d".toList
      [.text ['b'], .tagStart, .identifier ['='], .identifier ['i'], .tagEnd, .endOfInput] :=
    .token rfl (by simp) (.token rfl (by simp) (.token rfl (by simp) (.token rfl (by simp)
      (.token rfl (by simp) (.finished rfl)))))
  have hparse₁ : parse .default "a\x7b".toList = .ok [.text "a\x7b".toList] :=
    parse_of_scans hfirst rfl (fun h => by simp [Options.default] at h)
  have hparse₂ : parse .default "b\x7b$=i$\x7d".toList
      = .ok [.text ['b'], .echo [.var ⟨['i'], by decide⟩]] :=
    parse_of_scans hsecond rfl (fun h => by simp [Options.default] at h)
  exact ⟨hparse₁, hparse₂, parse_append hparse₁ hparse₂ (.inr (by decide))⟩

end TagTemplate
