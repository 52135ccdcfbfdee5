import BslInsight.Text.Lines
import BslInsight.Text.Occurrence

/-!
# Pieces and lines of texts

Texts and paths are cut at separators and put together again.  There is one
piece more than there are separators; so the number of lines of a text can be
told from its line breaks, and the mark that may begin a text does not change
it.
-/

namespace BslInsight

open List

variable {α : Type} {pieces : List (List α)} {text : List Char}

theorem splitOn_eq_listSplitOn [DecidableEq α] (separator : α) (items : List α) :
    splitOn separator items = items.splitOn separator := by
  induction items with
  | nil => rfl
  | cons item rest ih =>
    rw [splitOn, ih, splitOn_cons_eq_if_modifyHead]
    cases hpcs : rest.splitOn separator with
    | nil => exact absurd hpcs (splitOn_ne_nil separator rest)
    | cons piece pieces =>
      by_cases hitem : item = separator
      · simp [hitem]
      · simp [hitem]

theorem joinWith_eq_intercalate (separator : List α) (pieces : List (List α)) :
    joinWith separator pieces = separator.intercalate pieces := by
  induction pieces with
  | nil => rfl
  | cons piece pieces ih =>
    cases pieces with
    | nil => simp [joinWith]
    | cons next pieces =>
      rw [joinWith, ih, intercalate_cons_cons]
      simp

theorem joinWith_cons (separator piece : List α) (hpcs : pieces ≠ []) :
    joinWith separator (piece :: pieces) = piece ++ separator ++ joinWith separator pieces := by
  cases pieces with
  | nil => exact absurd rfl hpcs
  | cons next pieces => rfl

theorem joinWith_append (separator : List α) {others : List (List α)} (hpcs : pieces ≠ [])
    (hoths : others ≠ []) :
    joinWith separator (pieces ++ others) =
      joinWith separator pieces ++ separator ++ joinWith separator others := by
  induction pieces with
  | nil => exact absurd rfl hpcs
  | cons piece pieces ih =>
    by_cases hnil : pieces = []
    · subst hnil
      exact joinWith_cons separator piece hoths
    · rw [cons_append, joinWith_cons _ _ (by simp [hnil]), joinWith_cons _ _ hnil, ih hnil]
      simp only [append_assoc]

theorem mem_of_mem_joinWith {separator : List α} {item : α}
    (hitem : item ∈ joinWith separator pieces) :
    item ∈ separator ∨ ∃ piece ∈ pieces, item ∈ piece := by
  induction pieces with
  | nil => cases hitem
  | cons piece pieces ih =>
    by_cases hnil : pieces = []
    · subst hnil
      exact .inr ⟨piece, mem_cons_self, hitem⟩
    · rw [joinWith_cons _ _ hnil, mem_append, mem_append] at hitem
      rcases hitem with (hhere | hbetween) | hlater
      · exact .inr ⟨piece, mem_cons_self, hhere⟩
      · exact .inl hbetween
      · exact (ih hlater).imp_right fun ⟨other, hoth, hmem⟩ => ⟨other, mem_cons_of_mem _ hoth, hmem⟩

theorem joinWith_splitOn [DecidableEq α] (separator : α) (items : List α) :
    joinWith [separator] (splitOn separator items) = items := by
  rw [joinWith_eq_intercalate, splitOn_eq_listSplitOn, intercalate_splitOn]

theorem splitOn_joinWith [DecidableEq α] {separator : α}
    (hpcs : ∀ piece ∈ pieces, separator ∉ piece) (hne : pieces ≠ []) :
    splitOn separator (joinWith [separator] pieces) = pieces := by
  rw [splitOn_eq_listSplitOn, joinWith_eq_intercalate]
  exact splitOn_intercalate separator hpcs hne

theorem splitOn_ne_nil [DecidableEq α] (separator : α) (items : List α) :
    splitOn separator items ≠ [] := by
  rw [splitOn_eq_listSplitOn]
  exact List.splitOn_ne_nil separator items

theorem length_splitOn [DecidableEq α] (separator : α) (items : List α) :
    (splitOn separator items).length = items.count separator + 1 := by
  induction items with
  | nil => rfl
  | cons item rest ih =>
    obtain ⟨piece, pieces, hpcs⟩ := exists_cons_of_ne_nil (splitOn_ne_nil separator rest)
    rw [hpcs] at ih
    rw [splitOn, hpcs]
    by_cases hitem : item = separator
    · simp [hitem, ← ih]
    · simp [hitem, ← ih]

theorem mem_of_mem_splitOn [DecidableEq α] {separator item : α} {items piece : List α}
    (hpiece : piece ∈ splitOn separator items) (hitem : item ∈ piece) :
    item ∈ items ∧ item ≠ separator := by
  induction items generalizing piece with
  | nil =>
    rw [splitOn, mem_singleton] at hpiece
    simp [hpiece] at hitem
  | cons first rest ih =>
    obtain ⟨next, pieces, hpcs⟩ := exists_cons_of_ne_nil (splitOn_ne_nil separator rest)
    rw [hpcs] at ih
    have hlater (other : List α) (hoth : other ∈ next :: pieces) (hmem : item ∈ other) :
        item ∈ first :: rest ∧ item ≠ separator :=
      (ih hoth hmem).imp_left (mem_cons_of_mem first)
    rw [splitOn, hpcs] at hpiece
    simp only at hpiece
    split at hpiece
    next hsep =>
      rcases mem_cons.mp hpiece with rfl | hold
      · cases hitem
      · exact hlater piece hold hitem
    next hsep =>
      rcases mem_cons.mp hpiece with rfl | hold
      · rcases mem_cons.mp hitem with rfl | hmem
        · exact ⟨mem_cons_self, hsep⟩
        · exact hlater next mem_cons_self hmem
      · exact hlater piece (mem_cons_of_mem _ hold) hitem

theorem splitOn_append_cons [DecidableEq α] (separator : α) (items others : List α) :
    splitOn separator (items ++ separator :: others) =
      splitOn separator items ++ splitOn separator others := by
  simp only [splitOn_eq_listSplitOn, splitOn_append_cons_self]

theorem exists_splitOn_eq_concat [DecidableEq α] (separator : α) (items : List α) :
    ∃ pieces last, splitOn separator items = pieces ++ [last] := by
  rcases eq_nil_or_concat (splitOn separator items) with hnil | ⟨pieces, last, hconcat⟩
  · exact absurd hnil (splitOn_ne_nil separator items)
  · exact ⟨pieces, last, by rw [hconcat, concat_eq_append]⟩

theorem proseLines_eq {last : List Char} {lines : List (List Char)}
    (hlines : splitOn '\n' text = lines ++ [last]) :
    proseLines text = lines.map dropReturn ++ if last = [] then [] else [last] := by
  unfold proseLines
  rw [hlines]
  simp only [dropLast_concat, getLast?_concat]
  cases last <;> simp

theorem mem_of_mem_splitLines {line : List Char} {c : Char} (hline : line ∈ splitLines text)
    (hc : c ∈ line) : c ∈ text ∧ c ≠ '\n' := by
  obtain ⟨piece, hpiece, rfl⟩ := mem_map.mp hline
  refine mem_of_mem_splitOn hpiece ?_
  unfold dropReturn at hc
  split at hc
  · exact (dropLast_sublist piece).mem hc
  · exact hc

theorem length_splitLines (text : List Char) : (splitLines text).length = text.count '\n' + 1 := by
  rw [splitLines, length_map, length_splitOn]

theorem count_dropByteOrderMark (text : List Char) :
    (dropByteOrderMark text).count '\n' = text.count '\n' := by
  unfold dropByteOrderMark
  split
  next rest =>
    have hmark : '\ufeff' ≠ '\n' := by decide
    rw [count_cons_of_ne hmark]
  next => rfl

theorem hasInfix_iff {needle text : List Char} : hasInfix needle text ↔ needle <:+: text := by
  induction text with
  | nil => simp [hasInfix]
  | cons c rest ih => rw [hasInfix, Bool.or_eq_true, ih, infix_cons_iff, isPrefixOf_iff_prefix]

end BslInsight
