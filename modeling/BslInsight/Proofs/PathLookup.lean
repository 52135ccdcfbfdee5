import BslInsight.Proofs.PathNormalization
import BslInsight.Workspace

/-!
# Maps under paths

Tables, buffers and edit numbers are kept under paths, and two spellings of
the same components are one key.  This file says what a lookup finds after a
value was put in or taken out.  Tables are kept in the order of paths; the
lookup does not depend on that order.
-/

namespace BslInsight

open List

namespace Path

@[simp] lemma same_self (path : Path) : path.same path := by
  simp [same]

lemma same_comm (first second : Path) : first.same second = second.same first := by
  rw [Bool.eq_iff_iff, same_iff, same_iff]
  exact eq_comm

lemma same_congr_left {first second : Path} (hsame : first.same second) (path : Path) :
    first.same path = second.same path := by
  rw [Bool.eq_iff_iff, same_iff, same_iff, same_iff.mp hsame]

lemma same_congr_right {first second : Path} (hsame : first.same second) (path : Path) :
    path.same first = path.same second := by
  rw [Bool.eq_iff_iff, same_iff, same_iff, same_iff.mp hsame]

end Path

lemma Component.compare_eq_iff (first second : Component) :
    first.compare second = .eq ↔ first = second := by
  cases first <;> cases second <;> simp [Component.compare, Component.rank]

namespace Path

lemma compareComponents_eq_iff (first second : List Component) :
    compareComponents first second = .eq ↔ first = second := by
  induction first generalizing second with
  | nil => cases second <;> simp [compareComponents]
  | cons component rest ih =>
    cases second with
    | nil => simp [compareComponents]
    | cons other others =>
      simp [compareComponents, Ordering.then_eq_eq, Component.compare_eq_iff, ih]

lemma compare_eq_iff (first second : Path) : first.compare second = .eq ↔ first.same second := by
  rw [compare, compareComponents_eq_iff, same_iff]

end Path

namespace PathMap

variable {α : Type}

lemma get?_cons (key path : Path) (value : α) (entries : PathMap α) :
    get? ((key, value) :: entries) path =
      if key.same path then some value else get? entries path := by
  unfold get?
  by_cases hkey : key.same path
  · simp [hkey]
  · simp [hkey]

lemma get?_erase (entries : PathMap α) (removed path : Path) : (entries.erase removed).get? path =
      if removed.same path then none else entries.get? path := by
  induction entries with
  | nil => simp [erase, get?]
  | cons entry rest ih =>
    obtain ⟨key, value⟩ := entry
    by_cases hkey : key.same removed
    · have herase : erase ((key, value) :: rest) removed = erase rest removed := by
        simp [erase, hkey]
      rw [herase, ih, get?_cons, Path.same_congr_left hkey]
      split <;> rfl
    · have herase : erase ((key, value) :: rest) removed = (key, value) :: erase rest removed := by
        simp [erase, hkey]
      rw [herase, get?_cons, get?_cons, ih]
      by_cases hpath : key.same path
      · have hremoved : removed.same path = false := by
          rw [← Path.same_congr_right hpath, Path.same_comm]
          simpa using hkey
        simp [hpath, hremoved]
      · simp [hpath]

lemma get?_insert (entries : PathMap α) (key path : Path) (value : α) :
    (entries.insert key value).get? path =
      if key.same path then some value else entries.get? path := by
  have happend : (entries.insert key value).get? path =
      ((entries.erase key).get? path).or (get? [(key, value)] path) := by
    simp only [insert, get?, find?_append]
    cases (entries.erase key).find? fun entry => entry.1.same path <;> rfl
  rw [happend, get?_erase, get?_cons]
  by_cases hkey : key.same path
  · simp [hkey]
  · simp only [hkey, Bool.false_eq_true, if_false]
    cases entries.get? path <;> rfl

lemma mem_insert {entries : PathMap α} {key : Path} {value : α} {entry : Path × α} :
    entry ∈ entries.insert key value ↔
      (entry ∈ entries ∧ entry.1.same key = false) ∨ entry = (key, value) := by
  simp [insert, erase]

lemma pairwise_insert {entries : PathMap α}
    (hdist : entries.Pairwise fun first second => first.1.same second.1 = false) (key : Path)
    (value : α) :
    (entries.insert key value).Pairwise fun first second => first.1.same second.1 = false := by
  apply pairwise_append.mpr
  refine ⟨hdist.sublist filter_sublist, pairwise_singleton _ _, ?_⟩
  intro entry hentry other hoth
  rw [mem_singleton.mp hoth]
  simpa using (mem_filter.mp hentry).2

lemma mem_of_get?_eq_some {entries : PathMap α} {path : Path} {value : α}
    (hget : entries.get? path = some value) :
    ∃ key, (key, value) ∈ entries ∧ key.same path := by
  obtain ⟨entry, hfind, rfl⟩ := Option.map_eq_some_iff.mp hget
  exact ⟨entry.1, mem_of_find?_eq_some hfind,
    find?_some (p := fun entry : Path × α => entry.1.same path) hfind⟩

end PathMap

namespace TableMap

lemma get?_cons (key path : Path) (table : ModuleTable) (tables : TableMap) :
    get? ((key, table) :: tables) path = if key.same path then some table else get? tables path :=
  PathMap.get?_cons key path table tables

lemma get?_erase (tables : TableMap) (removed path : Path) : (tables.erase removed).get? path =
      if removed.same path then none else tables.get? path :=
  PathMap.get?_erase tables removed path

lemma get?_insert (tables : TableMap) (key path : Path) (table : ModuleTable) :
    (tables.insert key table).get? path =
      if key.same path then some table else tables.get? path := by
  induction tables with
  | nil => exact get?_cons key path table []
  | cons entry rest ih =>
    obtain ⟨other, old⟩ := entry
    cases hcmp : key.compare other with
    | lt => simp only [insert, hcmp, get?_cons]
    | eq =>
      have hsame := (Path.compare_eq_iff key other).mp hcmp
      simp only [insert, hcmp, get?_cons, Path.same_congr_left hsame]
      split <;> rfl
    | gt =>
      simp only [insert, hcmp, get?_cons, ih]
      by_cases hoth : other.same path
      · have hkey : key.same path = false := by
          rw [← Path.same_congr_right hoth, Bool.eq_false_iff]
          intro hsame
          rw [← Path.compare_eq_iff, hcmp] at hsame
          simp at hsame
        simp [hoth, hkey]
      · simp [hoth]

end TableMap

end BslInsight
