import BslInsight.Proofs.PathSpellings
import Mathlib.Data.List.Infix

/-!
# The place that a normalised path leads to

Normalisation does not look at a disk.  It keeps the place of an absolute path, and that of a
relative one as long as the path never climbs two levels above where it starts: a parent that
stays is removed again by the next one.  A path that leads back to its start becomes the empty
path, which is no directory.
-/

namespace BslInsight

open List

variable {lower higher base : List FileName} {component : Component}
  {done rest front components : List Component} {depth : Nat} {disk : Disk} {path : Path}

namespace Component

def lead (location : List FileName) : Component → List FileName
  | .root => []
  | .current => location
  | .parent => location.dropLast
  | .name value => location ++ [value]

def isName : Component → Bool
  | .name _ => true
  | _ => false

lemma length_lead_le (hle : higher.length ≤ lower.length) (component : Component) :
    (component.lead higher).length ≤ (component.lead lower).length := by
  cases component with
  | root => exact le_rfl
  | current => exact hle
  | parent =>
    simp only [lead, length_dropLast]
    omega
  | name value => simpa [lead] using hle

lemma length_lead_lt (hlt : higher.length < lower.length) (hroot : component ≠ .root)
    (hhigher : component = .parent → higher ≠ []) :
    (component.lead higher).length < (component.lead lower).length := by
  cases component with
  | root => exact absurd rfl hroot
  | current => exact hlt
  | parent =>
    have hpos := length_pos_iff.mpr (hhigher rfl)
    simp only [lead, length_dropLast]
    omega
  | name value => simpa [lead] using hlt

end Component

namespace Path

def resolve (base : List FileName) (components : List Component) : List FileName :=
  components.foldl Component.lead base

/-- The components never lead more than one level above where they start. -/
def ClimbsOnce (components : List Component) : Prop :=
  ∀ front, front <+: components → front.count .parent ≤ front.countP Component.isName + 1

instance (components : List Component) : Decidable (ClimbsOnce components) := decidable_of_iff
    (∀ front ∈ components.inits, front.count .parent ≤ front.countP Component.isName + 1)
    (by simp only [mem_inits, ClimbsOnce])

def LeadsBack (path : Path) : Prop :=
  ∀ base : List FileName, path.components.count .parent ≤ base.length →
    resolve base path.components = base

/-- Normalisation gives a path that is not empty and that leads from every base
deep enough to where the path leads. -/
def KeepsPlace (path : Path) : Prop := path.normalize.bytes ≠ [] ∧
    ∀ base : List FileName, path.components.count .parent ≤ base.length →
      resolve base path.normalize.components = resolve base path.components

/-- A rebuild whose root is a directory reads that directory. -/
def RebuildsInPlace (path : Path) : Prop := ∀ disk : Disk, disk.isDirectory path = true →
    Workspace.rebuildRoot disk path = .ok path.normalize ∧
      disk.locate path.normalize = disk.locate path

@[simp] lemma resolve_nil (base : List FileName) : resolve base [] = base := rfl

@[simp] lemma resolve_append (base : List FileName) (components others : List Component) :
    resolve base (components ++ others) = resolve (resolve base components) others := by
  simp [resolve]

@[simp] lemma resolve_cons (base : List FileName) (component : Component) (rest : List Component) :
    resolve base (component :: rest) = resolve (component.lead base) rest := rfl

@[simp] lemma resolve_map_name (base names : List FileName) :
    resolve base (names.map .name) = base ++ names := by
  induction names generalizing base with
  | nil => simp
  | cons name rest ih => simp [Component.lead, ih]

/-! ## Paths of which no kept parent is removed -/

lemma StepsTo.resolve_eq {next : List Component} (hstep : StepsTo done component next)
    (hkeeps : component = .parent → done ≠ [.parent]) (base : List FileName) :
    resolve base next = component.lead (resolve base done) := by
  cases hstep with
  | grows hcomp => simp
  | stays hcomp => simp [hcomp, Component.lead]
  | shrinks hcomp hdone | leavesRoot hcomp hdone => simp [hcomp, hdone, Component.lead]
  | loses hcomp hdone => exact absurd hdone (hkeeps hcomp)

/-- No parent component meets another one that was kept and stands alone. -/
def KeepsParents (components : List Component) : Prop :=
  ∀ front, front ++ [.parent] <+: components → normalizeComponents front ≠ [.parent]

lemma keepsParents_concat : KeepsParents (components ++ [component]) ↔ KeepsParents components ∧
        (component = .parent → normalizeComponents components ≠ [.parent]) := by
  simp only [KeepsParents, prefix_concat_iff]
  constructor
  · intro hkeeps
    refine ⟨fun front hfront => hkeeps front (.inr hfront), ?_⟩
    rintro rfl
    exact hkeeps components (.inl rfl)
  · rintro ⟨hearl, hlast⟩ front (hfront | hfront)
    · obtain ⟨rfl, hcomp⟩ := append_inj' hfront rfl
      exact hlast (singleton_inj.mp hcomp).symm
    · exact hearl front hfront

lemma resolve_normalizeComponents (hroot : .root ∉ components.tail)
    (hkeeps : KeepsParents components) (base : List FileName) :
    resolve base (normalizeComponents components) = resolve base components := by
  induction components using reverseRecOn with
  | nil => rfl
  | append_singleton components component ih =>
    obtain ⟨hearl, -⟩ := root_not_mem_tail_concat hroot
    obtain ⟨hkept, hlast⟩ := keepsParents_concat.mp hkeeps
    rw [(stepsTo_concat hroot).resolve_eq hlast, ih hearl hkept, resolve_append]
    rfl

lemma head?_normalizeComponents_root (hroot : .root ∉ rest) :
    (normalizeComponents (.root :: rest)).head? = some .root := by
  induction rest using reverseRecOn with
  | nil => rfl
  | append_singleton rest component ih =>
    have htail : .root ∉ (.root :: rest ++ [component]).tail := hroot
    have hstep := stepsTo_concat htail
    have hhead := ih fun hmem => hroot (mem_append_left _ hmem)
    rw [cons_append] at hstep
    generalize normalizeComponents (.root :: (rest ++ [component])) = next at hstep ⊢
    cases hstep with
    | grows => simp [hhead]
    | stays => exact hhead
    | shrinks hcomp hdone =>
      cases next with
      | nil => simp [hdone] at hhead
      | cons first others => simpa [hdone] using hhead
    | leavesRoot => rfl
    | loses hcomp hdone => simp [hdone] at hhead

lemma keepsParents_root (hroot : .root ∉ rest) : KeepsParents (.root :: rest) := by
  intro front hfront
  cases front with
  | nil => simp at hfront
  | cons first others =>
    rw [cons_append, cons_prefix_cons] at hfront
    obtain ⟨rfl, hoths⟩ := hfront
    have hmem : .root ∉ others := fun hmem => hroot (hoths.subset (mem_append_left _ hmem))
    intro hnorm
    have hhead := head?_normalizeComponents_root hmem
    simp [hnorm] at hhead

/-! ## How high a relative path climbs -/

lemma length_resolve (hroot : .root ∉ components) (hbase : components.count .parent ≤ base.length) :
    (resolve base components).length + components.count .parent =
      base.length + components.countP Component.isName := by
  induction components using reverseRecOn with
  | nil => simp
  | append_singleton components component ih =>
    simp only [mem_append, mem_singleton, not_or] at hroot
    rw [count_append] at hbase
    have hearl := ih hroot.1 (by omega)
    rw [resolve_append, count_append, countP_append]
    cases component with
    | root => exact absurd rfl hroot.2
    | current => simpa [Component.lead, Component.isName] using hearl
    | name value =>
      simp [Component.lead, Component.isName]
      omega
    | parent =>
      simp [Component.lead, Component.isName] at hbase ⊢
      omega

/-- What is made of a relative path is never higher than the path, and it is lower
once a kept parent has been removed. -/
lemma length_resolve_normalizeComponents (hroot : .root ∉ components)
    (hbase : components.count .parent ≤ base.length) :
    (resolve base components).length ≤ (resolve base (normalizeComponents components)).length ∧
      (¬ KeepsParents components → (resolve base components).length <
          (resolve base (normalizeComponents components)).length) := by
  induction components using reverseRecOn with
  | nil => exact ⟨le_rfl, fun hkeeps => absurd (by simp [KeepsParents]) hkeeps⟩
  | append_singleton components component ih =>
    have hstep := stepsTo_concat fun hmem => hroot (mem_of_mem_tail hmem)
    simp only [mem_append, mem_singleton, not_or] at hroot
    rw [count_append] at hbase
    have hshort : components.count .parent ≤ base.length := by omega
    obtain ⟨hle, hlt⟩ := ih hroot.1 hshort
    have hdepth := length_resolve hroot.1 hshort
    have hpos (hparent : component = .parent) : resolve base components ≠ [] := by
      rw [← length_pos_iff]
      rw [hparent, count_singleton_self] at hbase
      omega
    rw [keepsParents_concat, resolve_append]
    by_cases hloses : component = .parent ∧ normalizeComponents components = [.parent]
    · obtain ⟨rfl, hdone⟩ := hloses
      rw [normalizeComponents_append_singleton, hdone]
      rw [hdone] at hle
      have hhigher := length_pos_iff.mpr (hpos rfl)
      simp only [resolve_cons, resolve_nil, Component.lead, length_dropLast] at hle ⊢
      simp only [normalizeStep, getLast?_singleton, dropLast_singleton, resolve_nil]
      omega
    · have hkeeps : component = .parent → normalizeComponents components ≠ [.parent] :=
        fun hparent hdone => hloses ⟨hparent, hdone⟩
      rw [hstep.resolve_eq hkeeps]
      refine ⟨Component.length_lead_le hle component, fun hlost => ?_⟩
      have hearl : ¬ KeepsParents components := fun hkept => hlost ⟨hkept, hkeeps⟩
      exact Component.length_lead_lt (hlt hearl) (Ne.symm hroot.2) hpos

lemma KeepsParents.of_prefix (hkeeps : KeepsParents components) (hfront : front <+: components) :
    KeepsParents front :=
  fun before hbef => hkeeps before (hbef.trans hfront)

lemma IsReduced.le_length_resolve (hdone : IsReduced done) (hroot : .root ∉ done)
    (base : List FileName) : base.length ≤ (resolve base done).length + 1 := by
  obtain ⟨front, hfront, names⟩ := hdone
  simp only [keptFronts, mem_cons, not_mem_nil, or_false] at hfront
  rcases hfront with rfl | rfl | rfl | rfl
  · simp
    omega
  · simp [Component.lead]
    omega
  · simp at hroot
  · simp at hroot

lemma root_not_mem_normalizeComponents (hroot : .root ∉ components) :
    .root ∉ normalizeComponents components := by
  intro hmem
  have htail : .root ∉ components.tail := fun htail => hroot (mem_of_mem_tail htail)
  exact hroot (mem_of_mem_normalizeComponents htail hmem)

lemma keepsParents_iff_climbsOnce (hroot : .root ∉ components) :
    KeepsParents components ↔ ClimbsOnce components := by
  constructor
  · intro hkeeps front hfront
    have hrlv : .root ∉ front := fun hmem => hroot (hfront.subset hmem)
    have htail : .root ∉ front.tail := fun hmem => hrlv (mem_of_mem_tail hmem)
    let base : List FileName := replicate (front.count .parent) []
    have hbase : front.count .parent ≤ base.length := by simp [base]
    have hdepth := length_resolve hrlv hbase
    have hlow := (isReduced_normalizeComponents htail).le_length_resolve
      (root_not_mem_normalizeComponents hrlv) base
    rw [resolve_normalizeComponents htail (hkeeps.of_prefix hfront)] at hlow
    omega
  · intro hclimbs
    induction components using reverseRecOn with
    | nil => simp [KeepsParents]
    | append_singleton components component ih =>
      simp only [mem_append, mem_singleton, not_or] at hroot
      have hkept := ih hroot.1 fun front hfront => hclimbs front (hfront.trans (by simp))
      refine keepsParents_concat.mpr ⟨hkept, ?_⟩
      rintro rfl hdone
      -- The path is one level above its base already, and climbs once more.
      have hlevel := hclimbs _ (prefix_refl _)
      have htail : .root ∉ components.tail := fun hmem => hroot.1 (mem_of_mem_tail hmem)
      let base : List FileName := replicate (components.count .parent + 1) []
      have hbase : components.count .parent ≤ base.length := by simp [base]
      have hdepth := length_resolve hroot.1 hbase
      rw [← resolve_normalizeComponents htail hkept, hdone] at hdepth
      simp [Component.lead, base] at hdepth
      simp [Component.isName] at hlevel
      omega

lemma IsReduced.eq_nil (hdone : IsReduced done) (hroot : .root ∉ done)
    (hback : ∀ base : List FileName, depth ≤ base.length → resolve base done = base) :
    done = [] := by
  obtain ⟨front, hfront, names⟩ := hdone
  simp only [keptFronts, mem_cons, not_mem_nil, or_false] at hfront
  rcases hfront with rfl | rfl | rfl | rfl
  · have hnames := hback (replicate depth []) (by simp)
    simpa using hnames
  · -- The last name of a base may differ from the first name of the path.
    have hlast := hback (replicate depth [] ++ [names.headD [] ++ [slashByte]]) (by simp)
    simp only [singleton_append, resolve_cons, Component.lead, dropLast_concat,
      resolve_map_name, append_cancel_left_eq] at hlast
    rw [hlast] at hlast
    simp at hlast
  · simp at hroot
  · simp at hroot

lemma bytes_normalize_eq_nil_iff (path : Path) :
    path.normalize.bytes = [] ↔ normalizeComponents path.components = [] := by
  constructor
  · intro hbytes
    have hempty : path.normalize = ⟨[]⟩ := congrArg Path.mk hbytes
    rw [← components_normalize, hempty]
    rfl
  · intro hcomps
    rw [normalize, hcomps]
    rfl

lemma components_cases (path : Path) :
    (path.isAbsolute ∧ ∃ rest, path.components = .root :: rest ∧ .root ∉ rest) ∨
      path.isAbsolute = false ∧ .root ∉ path.components := by
  have htail := root_not_mem_tail_components path
  have habs := path.isAbsolute_iff
  cases hcomps : path.components with
  | nil =>
    rw [hcomps] at habs
    exact .inr ⟨by simpa using habs, by simp⟩
  | cons first rest =>
    rw [hcomps] at habs htail
    by_cases hfirst : first = .root
    · subst first
      exact .inl ⟨by simpa using habs, rest, rfl, htail⟩
    · refine .inr ⟨by simpa [hfirst] using habs, ?_⟩
      simpa using ⟨Ne.symm hfirst, htail⟩

lemma isAbsolute_normalize (path : Path) : path.normalize.isAbsolute = path.isAbsolute := by
  rw [Bool.eq_iff_iff, isAbsolute_iff, components_normalize]
  rcases path.components_cases with ⟨habs, rest, hcomps, hrest⟩ | ⟨hrlv, hroot⟩
  · simp [habs, hcomps, head?_normalizeComponents_root hrest]
  · have hnorm := root_not_mem_normalizeComponents hroot
    simp only [hrlv, Bool.false_eq_true, iff_false]
    exact fun hhead => hnorm (mem_of_mem_head? hhead)

end Path

/-! ## Directories on the way -/

def FileTree.Walks (tree : FileTree) (base : List FileName) (components : List Component) : Prop :=
  ∀ front, front <+: components → tree.look (Path.resolve base front) = some none

namespace FileTree

variable {tree : FileTree} {base : List FileName} {components : List Component}

lemma Walks.of_prefix (hwalks : tree.Walks base components) (hfront : front <+: components) :
    tree.Walks base front :=
  fun before hbef => hwalks before (hbef.trans hfront)

@[simp] lemma walks_nil : tree.Walks base [] ↔ tree.look base = some none := by
  simp [Walks]

@[simp] lemma walks_cons : tree.Walks base (component :: components) ↔
      tree.look base = some none ∧ tree.Walks (component.lead base) components := by
  constructor
  · intro hwalks
    refine ⟨hwalks [] (by simp), fun front hfront => ?_⟩
    exact hwalks (component :: front) (cons_prefix_cons.mpr ⟨rfl, hfront⟩)
  · rintro ⟨hbase, hwalks⟩ front hfront
    cases front with
    | nil => exact hbase
    | cons first rest =>
      obtain ⟨rfl, hrest⟩ := cons_prefix_cons.mp hfront
      exact hwalks rest hrest

lemma Walks.step {next : List Component} (hwalks : tree.Walks base done)
    (hstep : Path.StepsTo done component next)
    (hplace : tree.look (Path.resolve base next) = some none) : tree.Walks base next := by
  cases hstep with
  | grows =>
    intro front hfront
    rcases prefix_concat_iff.mp hfront with rfl | hearl
    · exact hplace
    · exact hwalks front hearl
  | stays => exact hwalks
  | shrinks hcomp hdone => exact hwalks.of_prefix (hdone ▸ prefix_append _ _)
  | leavesRoot hcomp hdone => exact hwalks.of_prefix (by simp [hdone])
  | loses => exact hwalks.of_prefix nil_prefix

lemma Walks.normalizeComponents
    (hwalks : tree.Walks base components) (hroot : .root ∉ components.tail)
    (hkeeps : Path.KeepsParents components) :
    tree.Walks base (Path.normalizeComponents components) := by
  induction components using reverseRecOn with
  | nil => exact hwalks
  | append_singleton components component ih =>
    have hearl := ih (hwalks.of_prefix (by simp)) (Path.root_not_mem_tail_concat hroot).1
      (Path.keepsParents_concat.mp hkeeps).1
    apply hearl.step (Path.stepsTo_concat hroot)
    rw [Path.resolve_normalizeComponents hroot hkeeps]
    exact hwalks _ (prefix_refl _)

end FileTree

namespace Disk

variable {root : FileTree} {location next : List FileName}

lemma resolve_ofSegment? (first : Bool) (segment : List UInt8) (location : List FileName) :
    Path.resolve location (Component.ofSegment? first segment).toList =
      follow location segment := by
  unfold Component.ofSegment? follow
  by_cases hempty : segment = []
  · simp [hempty]
  · by_cases hdot : segment = [dotByte]
    · cases first <;> simp [hdot, Component.lead]
    · by_cases hdots : segment = [dotByte, dotByte] <;> simp [hempty, hdot, hdots, Component.lead]

lemma walks_ofSegment? {first : Bool} {segment : List UInt8} :
    root.Walks location ((Component.ofSegment? first segment).toList ++ components) ↔
      root.look location = some none ∧ root.Walks (follow location segment) components := by
  rw [← resolve_ofSegment? first]
  cases Component.ofSegment? first segment with
  | none => simpa using fun hwalks : root.Walks location components => hwalks [] (by simp)
  | some component => simp

lemma foldlM_step_directory_iff {segments : List (List UInt8)} :
    segments.foldlM (step root) location = .ok next ∧ root.look next = some none ↔
      root.Walks location (segments.filterMap (Component.ofSegment? false)) ∧
        Path.resolve location (segments.filterMap (Component.ofSegment? false)) = next := by
  induction segments generalizing location with
  | nil =>
    simp only [foldlM_nil, filterMap_nil, FileTree.walks_nil, Path.resolve_nil]
    constructor
    · rintro ⟨hlocation, hplace⟩
      obtain rfl := Except.ok.inj hlocation
      exact ⟨hplace, rfl⟩
    · rintro ⟨hplace, rfl⟩
      exact ⟨rfl, hplace⟩
  | cons segment rest ih =>
    have hcomps : (segment :: rest).filterMap (Component.ofSegment? false) =
        (Component.ofSegment? false segment).toList ++
          rest.filterMap (Component.ofSegment? false) := by
      cases hseg : Component.ofSegment? false segment <;> simp [hseg]
    rw [foldlM_step_cons_iff, and_assoc, ih, hcomps, walks_ofSegment?, Path.resolve_append,
      resolve_ofSegment?, and_assoc]

lemma locate_directory_iff : disk.locate path = .ok next ∧ disk.root.look next = some none ↔
      path.bytes ≠ [] ∧ disk.root.Walks (disk.start path) path.components ∧
        Path.resolve (disk.start path) path.components = next := by
  unfold locate
  by_cases hbytes : path.bytes = []
  · simp [hbytes]
  rw [if_neg hbytes]
  unfold Path.components
  by_cases habs : path.isAbsolute
  · have hstart : disk.start path = [] := by simp [start, habs]
    simp only [habs, if_true, hstart, foldlM_step_directory_iff, FileTree.walks_cons,
      Path.resolve_cons, Component.lead]
    constructor
    · rintro ⟨hwalks, hnext⟩
      exact ⟨hbytes, ⟨hwalks [] (by simp), hwalks⟩, hnext⟩
    · rintro ⟨-, ⟨-, hwalks⟩, hnext⟩
      exact ⟨hwalks, hnext⟩
  · obtain ⟨segment, segments, hsegs⟩ := exists_cons_of_ne_nil (splitOn_ne_nil slashByte path.bytes)
    simp only [habs, Bool.false_eq_true, if_false, hsegs, Path.ofSegments]
    rw [foldlM_step_cons_iff, and_assoc, foldlM_step_directory_iff, walks_ofSegment?,
      Path.resolve_append, resolve_ofSegment?, and_assoc]
    simp [hbytes]

lemma isDirectory_iff : disk.isDirectory path ↔
      path.bytes ≠ [] ∧ disk.root.Walks (disk.start path) path.components := by
  have hloc : disk.isDirectory path ↔
      ∃ location, disk.locate path = .ok location ∧ disk.root.look location = some none := by
    unfold isDirectory lookup FileTree.look
    cases disk.locate path with
    | error failure => simp [bind, Except.bind]
    | ok location =>
      simp only [bind, Except.bind, Except.ok.injEq, exists_eq_left']
      cases disk.root.get? location with
      | none => simp
      | some tree => cases tree <;> simp [FileTree.isDirectory, FileTree.content?]
  rw [hloc]
  simp only [locate_directory_iff, exists_and_left, exists_eq', and_true]

lemma start_normalize (disk : Disk) (path : Path) :
    disk.start path.normalize = disk.start path := by
  rw [start, path.isAbsolute_normalize]
  rfl

end Disk

/-! ## Disks on which a path leads to a directory -/

def FileTree.thicket (names : List FileName) : Nat → FileTree
  | 0 => .directory []
  | depth + 1 => .directory (names.map fun name => (name, thicket names depth))

lemma FileTree.look_thicket {names location : List FileName} (hnames : location ⊆ names)
    (hdepth : location.length ≤ depth) : (thicket names depth).look location = some none := by
  induction location generalizing depth with
  | nil => cases depth <;> rfl
  | cons name rest ih =>
    obtain ⟨hname, hrest⟩ := cons_subset.mp hnames
    cases depth with
    | zero => simp at hdepth
    | succ depth =>
      rw [thicket, look_directory_cons, lookup_graph (fun _ => thicket names depth) hname]
      exact ih hrest (by simpa using hdepth)

namespace Path

lemma length_resolve_le (base : List FileName) (components : List Component) :
    (resolve base components).length ≤ base.length + components.length := by
  induction components generalizing base with
  | nil => simp
  | cons component rest ih =>
    have hstep : (component.lead base).length ≤ base.length + 1 := by
      cases component <;> simp only [Component.lead, length_nil, length_dropLast,
        length_append, length_singleton] <;> omega
    have hrest := ih (component.lead base)
    rw [resolve_cons, length_cons]
    omega

lemma resolve_subset (base : List FileName) (components : List Component) :
    resolve base components ⊆ base ++ components.map Component.bytes := by
  induction components generalizing base with
  | nil => simp
  | cons component rest ih =>
    have hstep : component.lead base ⊆ base ++ [component.bytes] := by
      cases component with
      | root => simp [Component.lead]
      | current => simp [Component.lead]
      | parent => exact fun name hname => mem_append_left _ (dropLast_subset _ hname)
      | name value => simp [Component.lead, Component.bytes]
    intro name hname
    rcases mem_append.mp (ih _ hname) with hlead | hrest
    · have := hstep hlead
      simp at this ⊢
      tauto
    · simp only [map_cons, mem_append, mem_cons]
      tauto

def thicketDisk (base : List FileName) (components : List Component) : Disk where
  root := .thicket (base ++ components.map Component.bytes) (base.length + components.length)
  workingDir := base

lemma walks_thicketDisk (base : List FileName) (components : List Component) :
    (thicketDisk base components).root.Walks base components := by
  intro front hfront
  apply FileTree.look_thicket
  · intro name hname
    rcases mem_append.mp (resolve_subset base front hname) with hbase | hcomps
    · exact mem_append_left _ hbase
    · exact mem_append_right _ ((hfront.map _).subset hcomps)
  · have hlen := length_resolve_le base front
    have hshort := hfront.length_le
    omega

/-! ## When the place is kept -/

lemma keepsParents_components_iff (path : Path) :
    KeepsParents path.components ↔ path.isAbsolute ∨ ClimbsOnce path.components := by
  rcases path.components_cases with ⟨habs, rest, hcomps, hrest⟩ | ⟨hrlv, hroot⟩
  · simp [habs, hcomps, keepsParents_root hrest]
  · simp [hrlv, keepsParents_iff_climbsOnce hroot]

lemma resolve_normalize_iff (path : Path) (hbase : path.components.count .parent ≤ base.length) :
    resolve base path.normalize.components = resolve base path.components ↔
      path.isAbsolute ∨ ClimbsOnce path.components := by
  rw [components_normalize, ← keepsParents_components_iff]
  constructor
  · intro hplace
    by_contra hkeeps
    rcases path.components_cases with ⟨habs, -⟩ | ⟨-, hroot⟩
    · exact hkeeps (path.keepsParents_components_iff.mpr (.inl habs))
    · have hlower := (length_resolve_normalizeComponents hroot hbase).2 hkeeps
      rw [hplace] at hlower
      exact lt_irrefl _ hlower
  · intro hkeeps
    exact resolve_normalizeComponents path.root_not_mem_tail_components hkeeps base

lemma bytes_normalize_ne_nil_iff (hkeeps : path.isAbsolute ∨ ClimbsOnce path.components) :
    path.normalize.bytes ≠ [] ↔ path.isAbsolute ∨ ¬ LeadsBack path := by
  rw [Ne, bytes_normalize_eq_nil_iff]
  rcases path.components_cases with ⟨habs, rest, hcomps, hrest⟩ | ⟨hrlv, hroot⟩
  · have hhead := head?_normalizeComponents_root hrest
    simp only [habs, true_or, iff_true, hcomps]
    intro hempty
    simp [hempty] at hhead
  · simp only [hrlv, Bool.false_eq_true, false_or, not_iff_not]
    have hplace {base : List FileName} (hbase : path.components.count .parent ≤ base.length) :
        resolve base (normalizeComponents path.components) = resolve base path.components := by
      rw [← components_normalize]
      exact (path.resolve_normalize_iff hbase).mpr hkeeps
    constructor
    · intro hempty base hbase
      rw [← hplace hbase, hempty, resolve_nil]
    · intro hback
      apply (isReduced_normalizeComponents path.root_not_mem_tail_components).eq_nil
        (root_not_mem_normalizeComponents hroot)
      intro base hbase
      rw [hplace hbase, hback base hbase]

lemma keepsPlace_iff (path : Path) : KeepsPlace path ↔
      path.isAbsolute ∨ ClimbsOnce path.components ∧ ¬ LeadsBack path := by
  have hplaces : (∀ base : List FileName, path.components.count .parent ≤ base.length →
      resolve base path.normalize.components = resolve base path.components) ↔
        path.isAbsolute ∨ ClimbsOnce path.components := by
    constructor
    · intro hplaces
      have hbase : path.components.count .parent ≤
          (replicate (path.components.count .parent) ([] : FileName)).length := by simp
      exact (path.resolve_normalize_iff hbase).mp (hplaces _ hbase)
    · intro hkeeps base hbase
      exact (path.resolve_normalize_iff hbase).mpr hkeeps
  rw [KeepsPlace, hplaces, and_comm, and_congr_right bytes_normalize_ne_nil_iff]
  tauto

lemma rebuildRoot_eq_ok_iff : Workspace.rebuildRoot disk path = .ok path.normalize ↔
      disk.isDirectory path.normalize := by
  unfold Workspace.rebuildRoot
  split
  next hdrct => simp [hdrct]
  next hdrct => simp [hdrct]

lemma RebuildsInPlace.keepsPlace (hrebs : RebuildsInPlace path) (hbytes : path.bytes ≠ [])
    (hrlv : path.isAbsolute = false) : KeepsPlace path := by
  have hdisk (base : List FileName) : path.normalize.bytes ≠ [] ∧
        resolve base path.normalize.components = resolve base path.components := by
    let disk := thicketDisk base path.components
    have hstart : disk.start path = base := by simp [Disk.start, hrlv, disk, thicketDisk]
    have hwalks : disk.root.Walks (disk.start path) path.components := by
      rw [hstart]
      exact walks_thicketDisk base path.components
    obtain ⟨hroot, hloc⟩ := hrebs disk (Disk.isDirectory_iff.mpr ⟨hbytes, hwalks⟩)
    obtain ⟨hnorm, hnormalWalks⟩ := Disk.isDirectory_iff.mp (rebuildRoot_eq_ok_iff.mp hroot)
    have hplace := (Disk.locate_directory_iff.mpr ⟨hbytes, hwalks, rfl⟩).1
    have hnormalPlace := (Disk.locate_directory_iff.mpr ⟨hnorm, hnormalWalks, rfl⟩).1
    rw [hloc, hplace, Disk.start_normalize, hstart] at hnormalPlace
    exact ⟨hnorm, (Except.ok.inj hnormalPlace).symm⟩
  exact ⟨(hdisk []).1, fun base _ => (hdisk base).2⟩

lemma KeepsPlace.rebuildsInPlace (hplace : KeepsPlace path) : RebuildsInPlace path := by
  intro disk hdrct
  obtain ⟨hbytes, hwalks⟩ := Disk.isDirectory_iff.mp hdrct
  have hkeeps : KeepsParents path.components := by
    rw [keepsParents_components_iff]
    exact (path.keepsPlace_iff.mp hplace).imp_right And.left
  have hroot := path.root_not_mem_tail_components
  have hnormalWalks : disk.root.Walks (disk.start path.normalize) path.normalize.components := by
    rw [Disk.start_normalize, components_normalize]
    exact hwalks.normalizeComponents hroot hkeeps
  refine ⟨rebuildRoot_eq_ok_iff.mpr (Disk.isDirectory_iff.mpr ⟨hplace.1, hnormalWalks⟩), ?_⟩
  rw [(Disk.locate_directory_iff.mpr ⟨hbytes, hwalks, rfl⟩).1,
    (Disk.locate_directory_iff.mpr ⟨hplace.1, hnormalWalks, rfl⟩).1, Disk.start_normalize,
    components_normalize, resolve_normalizeComponents hroot hkeeps]

lemma rebuildsInPlace_iff (path : Path) :
    RebuildsInPlace path ↔ path.bytes = [] ∨ KeepsPlace path := by
  constructor
  · intro hrebs
    by_cases hbytes : path.bytes = []
    · exact .inl hbytes
    · right
      cases hrlv : path.isAbsolute with
      | true => exact path.keepsPlace_iff.mpr (.inl hrlv)
      | false => exact hrebs.keepsPlace hbytes hrlv
  · rintro (hbytes | hplace)
    · intro disk hdrct
      exact absurd hbytes (Disk.isDirectory_iff.mp hdrct).1
    · exact hplace.rebuildsInPlace

/-- Normalisation keeps the place of absolute paths and of relative paths that
never climb two levels.  It leaves nothing of a path that leads back, so that a
rebuild finds a directory under every other path of these kinds, and under no path
else. -/
theorem normalize_places (path : Path) :
    (∀ base : List FileName, path.components.count .parent ≤ base.length →
      (resolve base path.normalize.components = resolve base path.components ↔
        path.isAbsolute = true ∨ ClimbsOnce path.components)) ∧
      (KeepsPlace path ↔ path.isAbsolute = true ∨ ClimbsOnce path.components ∧ ¬ LeadsBack path) ∧
      (RebuildsInPlace path ↔ path.bytes = [] ∨ path.isAbsolute = true ∨
          ClimbsOnce path.components ∧ ¬ LeadsBack path) := by
  refine ⟨fun base => path.resolve_normalize_iff, path.keepsPlace_iff, ?_⟩
  rw [rebuildsInPlace_iff, keepsPlace_iff]

theorem normalize_places_neighbour :
    let path := ofText "../a/./../ws"
    (ClimbsOnce path.components ∧ ¬ LeadsBack path) ∧ KeepsPlace path ∧ RebuildsInPlace path := by
  intro path
  have hclimbs : ClimbsOnce path.components := by decide +kernel
  have haway : ¬ LeadsBack path := by
    intro hback
    have hbase := hback [[], []] (by decide +kernel)
    revert hbase
    decide +kernel
  obtain ⟨-, hplace, hrebuilds⟩ := normalize_places path
  exact ⟨⟨hclimbs, haway⟩, hplace.mpr (.inr ⟨hclimbs, haway⟩),
    hrebuilds.mpr (.inr (.inr ⟨hclimbs, haway⟩))⟩

/-- The directory above the parent is lost, and the working directory is not found
under its own name. -/
theorem not_keepsPlace_two_parents :
    let above := ofText "../.."
    let here := ofText "."
    let disk : Disk := {}
    (above.bytes ≠ [] ∧ ¬ KeepsPlace above ∧ ∀ base : List FileName, 2 ≤ base.length →
        resolve base above.normalize.components ≠ resolve base above.components) ∧
      here.bytes ≠ [] ∧ disk.isDirectory here = true ∧
        Workspace.rebuildRoot disk here = .error (.io ⟨[]⟩ .rootNotDirectory) := by
  intro above here disk
  have habove : above.normalize = ⟨[]⟩ := by decide +kernel
  have hhere : here.normalize = ⟨[]⟩ := by decide +kernel
  refine ⟨⟨by decide +kernel, fun hplace => hplace.1 (by rw [habove]), ?_⟩,
    by decide +kernel, by decide +kernel, ?_⟩
  · intro base hbase hplace
    have hcomponents : above.components = [.parent, .parent] := by decide +kernel
    have hempty : (⟨[]⟩ : Path).components = [] := by decide +kernel
    have hlength := congrArg List.length hplace
    rw [habove, hcomponents, hempty] at hlength
    simp only [resolve_nil, resolve_cons, Component.lead, length_dropLast] at hlength
    omega
  · rw [Workspace.rebuildRoot, hhere]
    rfl

end Path

end BslInsight
