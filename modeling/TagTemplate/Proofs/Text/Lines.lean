import Mathlib.Data.List.Basic
import TagTemplate.Text.Quoted

set_option autoImplicit false

/-! # Lines of a text

A text is cut into its lines at the line feeds. There is one line more than there are line feeds
(`Text.length_splitOn`), a front without line feeds belongs to the first line
(`Text.splitOn_append_front`), and pieces that are joined by line feeds come apart into the lines of
the pieces (`Text.splitOn_join`). Quoted text stands on one line, whatever it quotes
(`Text.lineFeed_not_mem_quoted`).
-/

namespace TagTemplate.Text

/-! ## Cutting a text -/

/-- Cutting a text at a character gives one part more than the character occurs. -/
theorem length_splitOn (c : Char) (t : Text) : (t.splitOn c).length = t.count c + 1 := by
  unfold List.splitOn
  induction t with
  | nil => rfl
  | cons d t ih =>
      rw [List.splitOnP_cons_eq_if_modifyHead, List.count_cons]
      by_cases hd : (d == c) = true
      · rw [if_pos hd, if_pos hd, List.length_cons, ih]
      · rw [if_neg hd, if_neg hd, List.length_modifyHead, ih]

/-- A front in which the character does not occur belongs to the first part. -/
theorem splitOn_append_front {c : Char} {front : Text} (h : c ∉ front) (t : Text) :
    ∃ first more, (front ++ t).splitOn c = (front ++ first) :: more := by
  unfold List.splitOn
  induction front with
  | nil =>
      obtain ⟨first, more, hparts⟩ :=
        List.exists_cons_of_ne_nil (List.splitOnP_ne_nil (fun d => d == c) t)
      exact ⟨first, more, hparts⟩
  | cons d front ih =>
      obtain ⟨first, more, hparts⟩ := ih (List.not_mem_of_not_mem_cons h)
      have hother : ¬ (d == c) = true := by simpa using Ne.symm (List.ne_of_not_mem_cons h)
      refine ⟨first, more, ?_⟩
      rw [List.cons_append, List.splitOnP_cons_eq_if_modifyHead, if_neg hother, hparts]
      rfl

/-- **Pieces that were joined come apart** into the parts of the pieces, one after the other. -/
theorem splitOn_join (c : Char) {pieces : List Text} (h : pieces ≠ []) :
    (join [c] pieces).splitOn c = pieces.flatMap fun piece => piece.splitOn c := by
  fun_induction join [c] pieces with
  | case1 => exact absurd rfl h
  | case2 piece => exact (List.append_nil _).symm
  | case3 piece rest hrest ih =>
      have hpieces : rest ≠ [] := fun hnil => hrest hnil
      have hcut : (piece ++ c :: join [c] rest).splitOn c
          = piece.splitOn c ++ (join [c] rest).splitOn c :=
        List.splitOnP_append_cons _ _ (by simp)
      rw [List.append_assoc, List.singleton_append, hcut, ih hpieces, List.flatMap_cons]

/-- A separator adds nothing to the number of occurrences of a character that is not in it. -/
theorem count_join {c : Char} {separator : Text} (h : c ∉ separator) (pieces : List Text) :
    (join separator pieces).count c = pieces.flatten.count c := by
  fun_induction join separator pieces with
  | case1 => rfl
  | case2 piece => simp
  | case3 piece rest hrest ih =>
      have hnone : separator.count c = 0 := List.count_eq_zero.mpr h
      rw [List.count_append, List.count_append, hnone, ih, List.flatten_cons, List.count_append]
      rfl

/-! ## Quoted text -/

theorem lineFeed_not_mem_toDigits {base : ℕ} (hbase : 1 < base) (n : ℕ) :
    '\n' ∉ Nat.toDigits base n := by
  induction n using Nat.strongRecOn with
  | ind n ih =>
      rw [Nat.toDigits_eq_if hbase]
      split
      · simp
      · have hless : n / base < n := Nat.div_lt_self (by omega) hbase
        simp [ih _ hless]

/-- An escape sequence by the code point has no line feed. -/
theorem lineFeed_not_mem_codePointEscape (c : Char) : '\n' ∉ codePointEscape c := by
  have hhex : ∀ width n, '\n' ∉ hexDigits width n := by
    intro width n
    unfold hexDigits
    have hdigits : '\n' ∉ Nat.toDigits 16 n := lineFeed_not_mem_toDigits (by decide) n
    simp [hdigits]
  unfold codePointEscape
  split
  · simp [hhex]
  · split <;> simp [hhex]

theorem lineFeed_not_mem_quotedChar {quote : Char} (hquote : quote ≠ '\n') (c : Char) :
    '\n' ∉ quotedChar quote c := by
  unfold quotedChar
  split
  · next hescape =>
    rcases hescape with rfl | rfl <;> simp [Ne.symm hquote]
  · split
    · decide
    · split
      · decide
      · next hfeed =>
        split
        · decide
        · split
          · simpa using Ne.symm hfeed
          · exact lineFeed_not_mem_codePointEscape c

/-- **Quoted text stands on one line.** -/
theorem lineFeed_not_mem_quoted (t : Text) : '\n' ∉ quoted t := by
  have hquote : quoteFor t ≠ '\n' := by
    unfold quoteFor
    split <;> decide
  unfold quoted
  simp only [List.cons_append, List.mem_cons, List.mem_append, List.mem_flatMap, List.mem_nil_iff,
    or_false, not_or, not_exists, not_and]
  exact ⟨Ne.symm hquote, fun c _ => lineFeed_not_mem_quotedChar hquote c, Ne.symm hquote⟩

end TagTemplate.Text
