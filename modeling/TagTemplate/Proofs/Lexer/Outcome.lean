import TagTemplate.Proofs.Lexer.Request
import TagTemplate.Proofs.Lexer.Run

set_option autoImplicit false

/-! # What a request for the next token does

There are five ways in which a lexer answers a request for the next token (`Lexer.Outcome`). Two of
them leave it as it is: it repeats the fault that it has met, or it has come to the end of the input
before. In the other three it scans, and gives a token, meets a fault, or stops in front of an
integer with too many digits. Each case says what becomes of the lexer: what it keeps as its last
token and as its fault, and that neither the lexer nor what it reports ever lies further back in the
text than the lexer stood before. So the tokens of a run stand in the order of the text
(`Lexer.drain_inOrder`), and a run that fails does so behind all of them
(`Lexer.Ready.drain_le_place`).
-/

namespace TagTemplate

namespace Lexer

/-- The outcomes of a request for the next token: the answer, and the lexer behind it. -/
inductive Outcome (l : Lexer) : Except LexFailure Token → Lexer → Prop
  | stopped {met : MetFault} (hmet : l.met = some met) :
      Outcome l (.error (.error ⟨.stopped met.fault, met.position⟩)) l
  | pastEnd (hmet : l.met = none) (hend : l.isFinished = true) :
      Outcome l (.error (.error ⟨.pastEnd, l.position⟩)) l
  | token {t : Token} {l' : Lexer} (hready : l.Ready) (hmet : l'.met = none)
      (hlast : l'.last = some t) (hstart : l.position.offset ≤ t.position.offset)
      (hstop : t.position.offset ≤ l'.position.offset) : Outcome l (.ok t) l'
  | fault {fault : LexFault} {place : Position} {l' : Lexer} (hready : l.Ready)
      (hmet : l'.met = some ⟨fault, place⟩) (hlast : l'.last = l.last)
      (hstart : l.position.offset ≤ place.offset) (hstop : place.offset ≤ l'.position.offset) :
      Outcome l (.error (.error ⟨.fault fault, place⟩)) l'
  | digitLimit {count : Nat} {l' : Lexer} (hready : l.Ready) (hmet : l'.met = none)
      (hlast : l'.last = l.last) (hstop : l.position.offset ≤ l'.position.offset) :
      Outcome l (.error (.digitLimit count)) l'

variable {l l' : Lexer}

/-- Further text only adds to the offset. -/
theorem offset_le_advance (p : Position) (t : Text) : p.offset ≤ (p.advance t).offset := by
  rw [Position.advance_offset]
  exact Nat.le_add_right _ _

/-- A fault is reported between where its scan starts and where it stops. -/
theorem faultPosition_bounds (fault : LexFault) {start stop : Position}
    (h : start.offset ≤ stop.offset) :
    start.offset ≤ (faultPosition fault start stop).offset ∧
      (faultPosition fault start stop).offset ≤ stop.offset := by
  unfold faultPosition
  split
  · exact ⟨Nat.le_refl _, h⟩
  · exact ⟨h, Nat.le_refl _⟩

/-- What a scan leads to. -/
theorem Ready.outcome_afterScan (h : l.Ready) (s : Scan) :
    l.Outcome (l.afterScan s).1 (l.afterScan s).2 := by
  have hstart := offset_le_advance l.position s.blank
  have hstop := offset_le_advance (l.position.advance s.blank) s.passed
  unfold afterScan
  dsimp only
  split
  · exact .token h h.met rfl hstart hstop
  · exact .digitLimit h h.met rfl (Nat.le_trans hstart hstop)
  · next fault _ =>
    obtain ⟨hlow, hhigh⟩ := faultPosition_bounds fault hstop
    exact .fault h rfl rfl (Nat.le_trans hstart hlow) hhigh

/-- **Every request for the next token has one of the outcomes.** -/
theorem outcome_of_next {result : Except LexFailure Token} (hnext : l.next = (result, l')) :
    l.Outcome result l' := by
  have houtcome : l.Outcome l.next.1 l.next.2 := by
    cases hmet : l.met with
    | some met =>
        have hrepeat : l.next = (.error (.error ⟨.stopped met.fault, met.position⟩), l) := by
          rw [next, hmet]
        rw [hrepeat]
        exact .stopped hmet
    | none =>
        by_cases hend : l.isFinished = true
        · have hpast : l.next = (.error (.error ⟨.pastEnd, l.position⟩), l) := by
            rw [next, hmet]
            exact if_pos hend
          rw [hpast]
          exact .pastEnd hmet hend
        · have hready : l.Ready := ⟨hmet, by simpa using hend⟩
          rw [hready.next]
          exact hready.outcome_afterScan _
  rw [hnext] at houtcome
  exact houtcome

end Lexer

/-! ## Runs go forward -/

/-- Tokens stand in the order of the text. -/
def InOrder (ts : List Token) : Prop :=
  ts.Pairwise fun a b => a.position.offset ≤ b.position.offset

/-- The place of a failure of a lexer: that of its error, or where the lexer has stopped if the
failure has no position of its own. -/
def LexFailure.place (failure : LexFailure) (l : Lexer) : Position :=
  match failure with
  | .error e => e.position
  | .digitLimit _ => l.position

namespace Lexer

variable {l l' : Lexer} {ts : List Token}

/-- A token lies between the lexer before it and the lexer behind it. -/
theorem offset_of_next_ok {t : Token} (hnext : l.next = (.ok t, l')) :
    l.position.offset ≤ t.position.offset ∧ t.position.offset ≤ l'.position.offset := by
  cases outcome_of_next hnext with
  | token hready hmet hlast hstart hstop => exact ⟨hstart, hstop⟩

/-- A lexer that scans fails at or behind the place where it stood. -/
theorem Ready.offset_le_place (h : l.Ready) {failure : LexFailure}
    (hnext : l.next = (.error failure, l')) :
    l.position.offset ≤ (failure.place l').offset := by
  cases outcome_of_next hnext with
  | stopped hmet => simp [h.met] at hmet
  | pastEnd hmet hend => simp [h.unfinished] at hend
  | fault hready hmet hlast hstart hstop => exact hstart
  | digitLimit hready hmet hlast hstop => exact hstop

/-- The tokens of a run lie between the lexer before it and the lexer behind it. -/
theorem Reads.offset_bounds (hreads : l.Reads ts l') :
    l.position.offset ≤ l'.position.offset ∧
      ∀ t ∈ ts, l.position.offset ≤ t.position.offset ∧
        t.position.offset ≤ l'.position.offset := by
  induction hreads with
  | done l => simp
  | @token l l' l'' t ts hnext ht _ ih =>
      obtain ⟨hstart, hstop⟩ := offset_of_next_ok hnext
      obtain ⟨hle, hts⟩ := ih
      have hbehind : l'.position.offset ≤ l''.position.offset := hle
      refine ⟨by omega, fun t' ht' => ?_⟩
      rcases List.mem_cons.mp ht' with rfl | ht'
      · exact ⟨hstart, by omega⟩
      · obtain ⟨hlow, hhigh⟩ := hts t' ht'
        have hfront : l'.position.offset ≤ t'.position.offset := hlow
        exact ⟨by omega, hhigh⟩

/-- **The tokens of a run stand in order**, and so does a token that is read behind them. -/
theorem Reads.inOrder (hreads : l.Reads ts l') : InOrder ts := by
  induction hreads with
  | done l => exact List.Pairwise.nil
  | @token l l' l'' t ts hnext ht hrest ih =>
      refine List.pairwise_cons.mpr ⟨fun t' ht' => ?_, ih⟩
      have hstop := (offset_of_next_ok hnext).2
      have hlow : l'.position.offset ≤ t'.position.offset := (hrest.offset_bounds.2 t' ht').1
      omega

/-- The tokens of the loop over a text stand in order. -/
theorem drain_inOrder (l : Lexer) : InOrder l.drain.tokens := by
  obtain ⟨ts, l', run, hreads, hends, hdrain⟩ := l.exists_reads_ends
  rw [hdrain]
  cases hends with
  | failed hnext => simpa using hreads.inOrder
  | @finished last l'' hnext hend =>
      refine List.pairwise_append.mpr ⟨hreads.inOrder, List.pairwise_singleton _ _, ?_⟩
      intro t ht last' hlast'
      obtain rfl := List.mem_singleton.mp hlast'
      have hstart := (offset_of_next_ok hnext).1
      have hhigh := (hreads.offset_bounds.2 t ht).2
      omega

/-- **Where the loop over a text fails, all its tokens lie behind it.** -/
theorem Ready.drain_le_place (h : l.Ready) {failure : LexFailure}
    (hfailure : l.drain.failure = some failure) :
    ∀ t ∈ l.drain.tokens, t.position.offset ≤ (failure.place l.drain.lexer).offset := by
  obtain ⟨ts, l', run, hreads, hends, hdrain⟩ := l.exists_reads_ends
  rw [hdrain] at hfailure ⊢
  cases hends with
  | finished hnext hend => simp at hfailure
  | failed hnext =>
      cases hfailure
      intro t ht
      have hplace := (hreads.ready h).offset_le_place hnext
      have hhigh := (hreads.offset_bounds.2 t (by simpa using ht)).2
      exact Nat.le_trans hhigh hplace

end Lexer

end TagTemplate
