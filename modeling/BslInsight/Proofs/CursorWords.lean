import BslInsight.Cursor
import BslInsight.Proofs.HeaderLines

/-!
# Words around the cursor

A word is a run of letters, digits and underscores.  It is found from every column in it and at its
ends, and what stands before it is seen through the blanks that part the two.
-/

namespace BslInsight

open List

variable {c : Char} {word gap front after rest : List Char}

lemma not_isWordChar_of_isBlank (hc : isBlank c) : isWordChar c = false := by
  have hnot := of_isBlank (p := fun c => !isWordChar c) (by decide +kernel) hc
  simpa using hnot

lemma isWordChar_of_isLetter (hc : isLetter c) : isWordChar c := by
  simp [isWordChar, isAlphanumeric, hc]

lemma wordBefore_append (hword : ∀ c ∈ word, isWordChar c)
    (hrest : rest.head?.any isWordChar = false) : wordBefore (word.reverse ++ rest) = word := by
  rw [wordBefore, takeWhile_append_of_head (by simpa using hword) hrest, reverse_reverse]

lemma trimStart_reverse (hgap : ∀ c ∈ gap, isBlank c)
    (hword : ∀ c ∈ word, isWordChar c) (hne : word ≠ []) (front : List Char) :
    trimStart (front ++ (word ++ gap)).reverse = word.reverse ++ front.reverse := by
  rw [reverse_append, reverse_append, append_assoc, trimStart_append_of_blank (by simpa using hgap)]
  apply trimStart_of_head
  cases hchars : word.reverse with
  | nil => exact absurd (reverse_eq_nil_iff.mp hchars) hne
  | cons c others =>
    have hc := hword c (mem_reverse.mp (by simp [hchars]))
    show isBlank c = false
    by_contra hblank
    simp [not_isWordChar_of_isBlank (by simpa using hblank)] at hc

lemma endsWithNew_reverse (hgap : ∀ c ∈ gap, isBlank c)
    (hword : ∀ c ∈ word, isWordChar c) (hne : word ≠ [])
    (hfront : front.getLast?.any isWordChar = false) :
    endsWithNew (front ++ (word ++ gap)).reverse =
      (Keyword.ofWord? (String.ofList word) == some .new) := by
  rw [endsWithNew, trimStart_reverse hgap hword hne,
    wordBefore_append hword (by simpa using hfront)]

lemma trimStart_reverse_ne_dot (hgap : ∀ c ∈ gap, isBlank c)
    (hword : ∀ c ∈ word, isWordChar c) (hne : word ≠ []) (front rest : List Char) :
    trimStart (front ++ (word ++ gap)).reverse ≠ '.' :: rest := by
  rw [trimStart_reverse hgap hword hne]
  intro heq
  obtain ⟨c, others, hchars⟩ := exists_cons_of_ne_nil (reverse_ne_nil_iff.mpr hne)
  have hc := hword c (mem_reverse.mp (by simp [hchars]))
  rw [hchars, cons_append, List.cons.injEq] at heq
  have hdot : isWordChar '.' = false := by decide +kernel
  rw [heq.1, hdot] at hc
  cases hc

end BslInsight
