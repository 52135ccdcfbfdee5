import BslInsight.Path
import BslInsight.Proofs.TextPieces
import Mathlib.Data.List.Induction

/-!
# Normal forms of paths

Each step of normalisation keeps one shape: a root and a parent may stand at the beginning, and only
names behind them.  Components of this shape stay as they are, and the components of a normalised
path are the ones it was spelled from.  So normalising twice is the same as normalising once, and
two normalised paths with the same components are equal.
-/

namespace BslInsight

open List

variable {component : Component} {segment : List UInt8} {components done : List Component}
  {segments : List (List UInt8)} {first second : Path}

namespace Component

/-- A component that reads the same wherever it stands after the beginning
of a path. -/
def IsPlain : Component → Prop
  | .parent => True
  | .name value => value ≠ [] ∧ value ≠ [dotByte] ∧ value ≠ [dotByte, dotByte] ∧ slashByte ∉ value
  | _ => False

lemma ofSegment?_bytes (hplain : component.IsPlain) (first : Bool) :
    ofSegment? first component.bytes = some component := by
  cases component with
  | root | current => exact hplain.elim
  | parent => simp [ofSegment?, bytes]
  | name value =>
    obtain ⟨hempty, hdot, hdots, -⟩ := hplain
    simp [ofSegment?, bytes, hempty, hdot, hdots]

lemma bytes_ne_nil (hplain : component.IsPlain) : component.bytes ≠ [] := by
  cases component with
  | root | current => exact hplain.elim
  | parent => simp [bytes]
  | name value => exact hplain.1

lemma slashByte_notMem_bytes (hplain : component.IsPlain) : slashByte ∉ component.bytes := by
  cases component with
  | root | current => exact hplain.elim
  | parent => decide
  | name value => exact hplain.2.2.2

lemma isPlain_of_ofSegment?_false (hslash : slashByte ∉ segment)
    (hcomp : ofSegment? false segment = some component) : component.IsPlain := by
  unfold ofSegment? at hcomp
  split at hcomp
  next => simp at hcomp
  next hempty =>
    split at hcomp
    next => simp at hcomp
    next hdot =>
      split at hcomp
      next =>
        simp only [Option.some.injEq] at hcomp
        subst component
        trivial
      next hdots =>
        simp only [Option.some.injEq] at hcomp
        subst component
        exact ⟨hempty, hdot, hdots, hslash⟩

lemma isPlain_or_current_of_ofSegment?_true (hslash : slashByte ∉ segment)
    (hcomp : ofSegment? true segment = some component) :
    component.IsPlain ∨ component = .current := by
  by_cases hdot : segment = [dotByte]
  · subst segment
    right
    simpa [ofSegment?] using hcomp.symm
  · left
    apply isPlain_of_ofSegment?_false hslash
    simpa [ofSegment?, hdot] using hcomp

end Component

namespace Path

lemma slashByte_notMem_of_mem_splitOn {bytes : List UInt8}
    (hseg : segment ∈ splitOn slashByte bytes) : slashByte ∉ segment :=
  fun hslash => (mem_of_mem_splitOn hseg hslash).2 rfl

/-- The components that stand after each other in a path: the root is only
at the beginning, and everything else is plain. -/
def IsSpelled : List Component → Prop
  | .root :: rest => ∀ component ∈ rest, component.IsPlain
  | components => ∀ component ∈ components, component.IsPlain

lemma filterMap_ofSegment?_bytes (hplain : ∀ component ∈ components, component.IsPlain) :
    (components.map Component.bytes).filterMap (Component.ofSegment? false) =
      components := by
  induction components with
  | nil => rfl
  | cons component rest ih =>
    have hhead := hplain component mem_cons_self
    have hrest := ih fun other hoth => hplain other (mem_cons_of_mem component hoth)
    simp [Component.ofSegment?_bytes hhead, hrest]

lemma splitOn_joinWith_bytes (hne : components ≠ [])
    (hplain : ∀ component ∈ components, component.IsPlain) :
    splitOn slashByte (joinWith [slashByte] (components.map Component.bytes)) =
      components.map Component.bytes := by
  rw [splitOn_eq_listSplitOn, joinWith_eq_intercalate]
  apply splitOn_intercalate
  · intro segment hseg
    obtain ⟨component, hcomp, rfl⟩ := mem_map.mp hseg
    exact Component.slashByte_notMem_bytes (hplain component hcomp)
  · simpa using hne

lemma components_ofComponents_root {rest : List Component}
    (hplain : ∀ component ∈ rest, component.IsPlain) :
    (ofComponents (.root :: rest)).components = .root :: rest := by
  unfold components ofComponents
  have hsplit : splitOn slashByte (slashByte :: joinWith [slashByte] (rest.map Component.bytes)) =
      [] :: splitOn slashByte (joinWith [slashByte] (rest.map Component.bytes)) := by
    simp [splitOn_eq_listSplitOn, splitOn_cons_eq_if_modifyHead]
  simp only [isAbsolute, head?_cons, decide_true, if_true, hsplit]
  have hempty : Component.ofSegment? false [] = none := rfl
  rw [filterMap_cons_none hempty]
  cases rest with
  | nil => rfl
  | cons component others =>
    rw [splitOn_joinWith_bytes (by simp) hplain, filterMap_ofSegment?_bytes hplain]

lemma components_ofComponents_plain (hplain : ∀ component ∈ components, component.IsPlain) :
    (ofComponents components).components = components := by
  cases components with
  | nil => rfl
  | cons component rest =>
    have hhead := hplain component mem_cons_self
    have hrest : ∀ other ∈ rest, other.IsPlain := fun other hoth =>
      hplain other (mem_cons_of_mem component hoth)
    have hspel : ofComponents (component :: rest) =
        ⟨joinWith [slashByte] ((component :: rest).map Component.bytes)⟩ := by
      cases component with
      | root => exact hhead.elim
      | current => exact hhead.elim
      | parent => rfl
      | name value => rfl
    have hrlv : (ofComponents (component :: rest)).isAbsolute = false := by
      have hslash := Component.slashByte_notMem_bytes hhead
      obtain ⟨byte, bytes, hbytes⟩ := exists_cons_of_ne_nil (Component.bytes_ne_nil hhead)
      have hbyte : byte ≠ slashByte := by
        intro heq
        exact hslash (by simp [hbytes, heq])
      rw [hspel]
      cases rest with
      | nil => simp [isAbsolute, joinWith, hbytes, hbyte]
      | cons next others => simp [isAbsolute, joinWith, hbytes, hbyte]
    unfold Path.components
    rw [hrlv, hspel]
    simp only [Bool.false_eq_true, if_false]
    rw [splitOn_joinWith_bytes (by simp) hplain]
    simp [ofSegments, Component.ofSegment?_bytes hhead, filterMap_ofSegment?_bytes hrest]

lemma components_ofComponents (hspel : IsSpelled components) :
    (ofComponents components).components = components := by
  cases components with
  | nil => rfl
  | cons component rest =>
    cases component with
    | root => exact components_ofComponents_root hspel
    | current => exact components_ofComponents_plain hspel
    | parent => exact components_ofComponents_plain hspel
    | name value => exact components_ofComponents_plain hspel

/-! ## The shape of normalised components -/

def keptFronts : List (List Component) := [[], [.parent], [.root], [.root, .parent]]

/-- A root and a parent may stand at the beginning, and only names behind them. -/
inductive IsReduced : List Component → Prop
  | intro (front : List Component) (hfront : front ∈ keptFronts) (names : List FileName) :
      IsReduced (front ++ names.map .name)

inductive StepsTo (done : List Component) (component : Component) : List Component → Prop
  | grows (hcomp : component ≠ .current) : StepsTo done component (done ++ [component])
  | stays (hcomp : component = .current) : StepsTo done component done
  | shrinks {front : List Component} {name : FileName} (hcomp : component = .parent)
      (hdone : done = front ++ [.name name]) : StepsTo done component front
  | leavesRoot (hcomp : component = .parent) (hdone : done = [.root, .parent]) :
      StepsTo done component [.root]
  | loses (hcomp : component = .parent) (hdone : done = [.parent]) : StepsTo done component []

lemma IsReduced.step_parent (hdone : IsReduced done) :
    StepsTo done .parent (normalizeStep done .parent) ∧ IsReduced (normalizeStep done .parent) := by
  obtain ⟨front, hfront, names⟩ := hdone
  induction names using reverseRecOn with
  | append_singleton before last _ =>
    rw [map_append, map_singleton, ← append_assoc]
    simp only [normalizeStep, getLast?_concat, dropLast_concat]
    exact ⟨.shrinks rfl rfl, .intro front hfront before⟩
  | nil =>
    simp only [keptFronts, mem_cons, not_mem_nil, or_false] at hfront
    rcases hfront with rfl | rfl | rfl | rfl
    · exact ⟨.grows (by simp), .intro [.parent] (by simp [keptFronts]) []⟩
    · exact ⟨.loses rfl rfl, .intro [] (by simp [keptFronts]) []⟩
    · exact ⟨.grows (by simp), .intro [.root, .parent] (by simp [keptFronts]) []⟩
    · exact ⟨.leavesRoot rfl rfl, .intro [.root] (by simp [keptFronts]) []⟩

lemma IsReduced.step (hdone : IsReduced done) (hroot : component = .root → done = []) :
    StepsTo done component (normalizeStep done component) ∧
      IsReduced (normalizeStep done component) := by
  cases component with
  | parent => exact hdone.step_parent
  | current => exact ⟨.stays rfl, hdone⟩
  | root =>
    rw [hroot rfl]
    exact ⟨.grows (by simp), .intro [.root] (by simp [keptFronts]) []⟩
  | name value =>
    obtain ⟨front, hfront, names⟩ := hdone
    refine ⟨.grows (by simp), ?_⟩
    have hnames := IsReduced.intro front hfront (names ++ [value])
    rwa [map_append, map_singleton, ← append_assoc] at hnames

@[simp] lemma normalizeComponents_append_singleton
    (components : List Component) (component : Component) :
    normalizeComponents (components ++ [component]) =
      normalizeStep (normalizeComponents components) component := by
  simp [normalizeComponents]

lemma root_not_mem_tail_concat (hroot : .root ∉ (components ++ [component]).tail) :
    .root ∉ components.tail ∧ (component = .root → components = []) := by
  cases components with
  | nil => simp
  | cons first rest =>
    simp only [cons_append, tail_cons, mem_append, mem_singleton, not_or] at hroot
    exact ⟨hroot.1, fun hcomp => absurd hcomp.symm hroot.2⟩

lemma step_normalizeComponents (hreduced : IsReduced (normalizeComponents components))
    (hroot : component = .root → components = []) :
    StepsTo (normalizeComponents components) component
        (normalizeComponents (components ++ [component])) ∧
      IsReduced (normalizeComponents (components ++ [component])) := by
  rw [normalizeComponents_append_singleton]
  apply hreduced.step
  intro hcomp
  rw [hroot hcomp]
  rfl

lemma isReduced_normalizeComponents (hroot : .root ∉ components.tail) :
    IsReduced (normalizeComponents components) := by
  induction components using reverseRecOn with
  | nil => exact .intro [] (by simp [keptFronts]) []
  | append_singleton components component ih =>
    obtain ⟨hearl, hfirst⟩ := root_not_mem_tail_concat hroot
    exact (step_normalizeComponents (ih hearl) hfirst).2

lemma stepsTo_concat (hroot : .root ∉ (components ++ [component]).tail) :
    StepsTo (normalizeComponents components) component
      (normalizeComponents (components ++ [component])) := by
  obtain ⟨hearl, hfirst⟩ := root_not_mem_tail_concat hroot
  exact (step_normalizeComponents (isReduced_normalizeComponents hearl) hfirst).1

lemma IsReduced.normalizeComponents_eq (hdone : IsReduced done) :
    normalizeComponents done = done := by
  obtain ⟨front, hfront, names⟩ := hdone
  induction names using reverseRecOn with
  | nil =>
    simp only [keptFronts, mem_cons, not_mem_nil, or_false] at hfront
    rcases hfront with rfl | rfl | rfl | rfl <;> rfl
  | append_singleton names name ih =>
    rw [map_append, map_singleton, ← append_assoc, normalizeComponents_append_singleton, ih]
    rfl

lemma StepsTo.mem_or_eq {next : List Component} {other : Component}
    (hstep : StepsTo done component next) (hoth : other ∈ next) :
    other ∈ done ∨ other = component := by
  cases hstep with
  | grows => simpa using hoth
  | stays => exact .inl hoth
  | shrinks hcomp hdone => exact .inl (hdone ▸ mem_append_left _ hoth)
  | leavesRoot hcomp hdone => exact .inl (by simp [hdone, mem_singleton.mp hoth])
  | loses => simp at hoth

lemma mem_of_mem_normalizeComponents (hroot : .root ∉ components.tail)
    (hcomp : component ∈ normalizeComponents components) : component ∈ components := by
  induction components using reverseRecOn with
  | nil => exact hcomp
  | append_singleton components last ih =>
    rcases (stepsTo_concat hroot).mem_or_eq hcomp with hold | rfl
    · exact mem_append_left _ (ih (root_not_mem_tail_concat hroot).1 hold)
    · simp

/-! ## Components of a normalised path -/

lemma isPlain_of_mem_filterMap (hslash : ∀ segment ∈ segments, slashByte ∉ segment)
    (hcomp : component ∈ segments.filterMap (Component.ofSegment? false)) :
    component.IsPlain := by
  obtain ⟨segment, hseg, hread⟩ := mem_filterMap.mp hcomp
  exact Component.isPlain_of_ofSegment?_false (hslash segment hseg) hread

lemma isPlain_or_current_of_mem_ofSegments (hslash : ∀ segment ∈ segments, slashByte ∉ segment)
    (hcomp : component ∈ ofSegments segments) : component.IsPlain ∨ component = .current := by
  cases segments with
  | nil => simp [ofSegments] at hcomp
  | cons first rest =>
    simp only [ofSegments, mem_append, Option.mem_toList] at hcomp
    rcases hcomp with hfirst | hrest
    · exact Component.isPlain_or_current_of_ofSegment?_true (hslash first mem_cons_self) hfirst
    · left
      apply isPlain_of_mem_filterMap _ hrest
      intro segment hseg
      exact hslash segment (mem_cons_of_mem first hseg)

lemma root_not_mem_tail_components (path : Path) : .root ∉ path.components.tail := by
  have hslash : ∀ segment ∈ splitOn slashByte path.bytes, slashByte ∉ segment :=
    fun segment hseg => slashByte_notMem_of_mem_splitOn hseg
  unfold components
  split
  next => exact fun hroot => isPlain_of_mem_filterMap hslash hroot
  next =>
    intro hroot
    rcases isPlain_or_current_of_mem_ofSegments hslash (mem_of_mem_tail hroot) with
      hplain | hcur
    · exact hplain
    · cases hcur

lemma isPlain_of_mem_components {name : FileName} {path : Path}
    (hname : .name name ∈ path.components) : (Component.name name).IsPlain := by
  have hslash : ∀ segment ∈ splitOn slashByte path.bytes, slashByte ∉ segment :=
    fun segment hseg => slashByte_notMem_of_mem_splitOn hseg
  unfold components at hname
  split at hname
  next => exact isPlain_of_mem_filterMap hslash (by simpa using hname)
  next => exact (isPlain_or_current_of_mem_ofSegments hslash hname).resolve_right (by simp)

lemma IsReduced.isSpelled (hdone : IsReduced done)
    (hplain : ∀ name, .name name ∈ done → (Component.name name).IsPlain) : IsSpelled done := by
  obtain ⟨front, hfront, names⟩ := hdone
  have hnames : ∀ component ∈ names.map Component.name, component.IsPlain := by
    intro component hcomp
    obtain ⟨name, -, rfl⟩ := mem_map.mp hcomp
    exact hplain name (mem_append_right _ hcomp)
  have hparent : ∀ component ∈ Component.parent :: names.map .name, component.IsPlain :=
    forall_mem_cons.mpr ⟨trivial, hnames⟩
  simp only [keptFronts, mem_cons, not_mem_nil, or_false] at hfront
  rcases hfront with rfl | rfl | rfl | rfl
  · cases names with
    | nil => exact hnames
    | cons name rest => exact hnames
  · exact hparent
  · exact hnames
  · exact hparent

lemma isPlain_of_mem_normalizeComponents {name : FileName} {path : Path}
    (hname : .name name ∈ normalizeComponents path.components) : (Component.name name).IsPlain :=
  isPlain_of_mem_components
    (mem_of_mem_normalizeComponents path.root_not_mem_tail_components hname)

lemma isSpelled_normalizeComponents (path : Path) :
    IsSpelled (normalizeComponents path.components) := by
  have hreduced := isReduced_normalizeComponents path.root_not_mem_tail_components
  exact hreduced.isSpelled fun name => isPlain_of_mem_normalizeComponents

lemma components_normalize (path : Path) :
    path.normalize.components = normalizeComponents path.components :=
  components_ofComponents (isSpelled_normalizeComponents path)

lemma isReduced_normalize (path : Path) : IsReduced path.normalize.components := by
  rw [components_normalize]
  exact isReduced_normalizeComponents path.root_not_mem_tail_components

lemma normalize_normalize (path : Path) : path.normalize.normalize = path.normalize := by
  rw [normalize, path.isReduced_normalize.normalizeComponents_eq, components_normalize, ← normalize]

lemma same_iff : first.same second ↔ first.components = second.components := by
  simp [same]

lemma eq_of_same_of_normalize (hsame : first.same second)
    (hfirst : first.normalize = first) (hsnd : second.normalize = second) : first = second := by
  rw [← hfirst, ← hsnd, normalize, same_iff.mp hsame, ← normalize]

end Path

end BslInsight
