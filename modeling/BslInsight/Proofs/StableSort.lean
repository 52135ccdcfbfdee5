import Mathlib.Data.List.Basic

/-!
# Sorting by a comparison

Lists are sorted with comparisons that may leave different items tied.  Tied items keep their order,
so the sorted list depends only on the order that the items of each tie have among themselves.
-/

namespace BslInsight

open List

section

variable {α : Type} (cmp : α → α → Ordering) [Std.TransCmp cmp]

lemma isLE_or_isLE (first second : α) : ((cmp first second).isLE || (cmp second first).isLE) := by
  have hswap : cmp second first = (cmp first second).swap := Std.OrientedCmp.eq_swap
  rw [hswap]
  cases cmp first second <;> rfl

lemma pairwise_mergeSort_isLE (items : List α) :
    (items.mergeSort fun first second => (cmp first second).isLE).Pairwise
      fun first second => (cmp first second).isLE :=
  pairwise_mergeSort (fun _ _ _ => Std.TransCmp.isLE_trans) (isLE_or_isLE cmp) items

lemma filter_tied_mergeSort (item : α) (items : List α) :
    (items.mergeSort fun first second => (cmp first second).isLE).filter (cmp item · = .eq) =
      items.filter (cmp item · = .eq) := by
  have htied : (items.filter (cmp item · = .eq)).Pairwise
      fun first second => (cmp first second).isLE := by
    apply pairwise_of_forall_mem_list
    intro first hfirst second hsnd
    have hfirst := Std.OrientedCmp.eq_symm (of_decide_eq_true (mem_filter.mp hfirst).2)
    have hsnd := of_decide_eq_true (mem_filter.mp hsnd).2
    rw [Std.TransCmp.eq_trans hfirst hsnd]
    rfl
  have hsort := sublist_mergeSort (fun _ _ _ => Std.TransCmp.isLE_trans) (isLE_or_isLE cmp)
    htied filter_sublist
  have hsub := hsort.filter (cmp item · = .eq)
  rw [filter_filter] at hsub
  simp only [Bool.and_self] at hsub
  exact (hsub.eq_of_length ((mergeSort_perm items _).filter _).length_eq.symm).symm

variable {cmp}

lemma mem_of_filter_tied {items others : List α}
    (htied : ∀ item, items.filter (cmp item · = .eq) = others.filter (cmp item · = .eq)) {item : α}
    (hitem : item ∈ items) : item ∈ others := by
  have hself : item ∈ items.filter (cmp item · = .eq) :=
    mem_filter.mpr ⟨hitem, decide_eq_true Std.ReflCmp.compare_self⟩
  rw [htied item] at hself
  exact mem_of_mem_filter hself

lemma isLE_head {first item : α} {rest : List α}
    (hsort : (first :: rest).Pairwise fun first second => (cmp first second).isLE)
    (hitem : item ∈ first :: rest) : (cmp first item).isLE := by
  rcases mem_cons.mp hitem with rfl | hitem
  · exact Std.ReflCmp.isLE_rfl
  · exact (pairwise_cons.mp hsort).1 item hitem

lemma eq_of_filter_tied {items others : List α}
    (hitems : items.Pairwise fun first second => (cmp first second).isLE)
    (hoths : others.Pairwise fun first second => (cmp first second).isLE)
    (htied : ∀ item, items.filter (cmp item · = .eq) = others.filter (cmp item · = .eq)) :
    items = others := by
  induction items generalizing others with
  | nil =>
    exact (eq_nil_iff_forall_not_mem.mpr fun item hitem =>
      not_mem_nil (mem_of_filter_tied (fun item => (htied item).symm) hitem)).symm
  | cons first rest ih =>
    cases others with
    | nil => exact absurd (mem_of_filter_tied htied mem_cons_self) not_mem_nil
    | cons second following =>
      -- Each head is in both lists, so the heads are tied and come first in their tie.
      have hle := isLE_head hitems
        (mem_of_filter_tied (fun item => (htied item).symm) mem_cons_self)
      have hge := isLE_head hoths (mem_of_filter_tied htied mem_cons_self)
      have heq : cmp first second = .eq := Std.OrientedCmp.isLE_antisymm hle hge
      have hself : cmp first first = .eq := Std.ReflCmp.compare_self
      have hhead := htied first
      rw [filter_cons_of_pos (by simpa using hself),
        filter_cons_of_pos (by simpa using heq)] at hhead
      obtain rfl := (List.cons.inj hhead).1
      congr 1
      apply ih (pairwise_cons.mp hitems).2 (pairwise_cons.mp hoths).2
      intro item
      have hitem := htied item
      rw [filter_cons, filter_cons] at hitem
      split at hitem
      next => exact (List.cons.inj hitem).2
      next => exact hitem

lemma mergeSort_eq_of_filter_tied {items others : List α}
    (htied : ∀ item, items.filter (cmp item · = .eq) = others.filter (cmp item · = .eq)) :
    (items.mergeSort fun first second => (cmp first second).isLE) =
      others.mergeSort fun first second => (cmp first second).isLE := by
  apply eq_of_filter_tied (pairwise_mergeSort_isLE cmp items) (pairwise_mergeSort_isLE cmp others)
  intro item
  rw [filter_tied_mergeSort, filter_tied_mergeSort, htied item]

end

end BslInsight
