import BslInsight.Proofs.RegionClosings
import Mathlib.Data.List.Nodup
import Mathlib.Data.List.Sort

/-!
# Regions and their symbols

Regions are nested in each other or apart.  Each ends where it is closed, or with the text.  What
is not closed and what closes nothing is reported once.  A symbol is given to the innermost region
around its line.
-/

namespace BslInsight

open List

variable {first second closing : Closing} {others : List Closing} {line : Nat} {frame : Frame}
  {region : Region}

/-- The line where a frame is closed, or the last line of the text. -/
def closingLine (closings : List Closing) (lastLine : Nat) (frame : Frame) : Nat :=
  ((closings.find? (·.frame = frame)).map (·.line)).getD lastLine

namespace Region

def Contains (outer inner : Region) : Prop :=
  outer.startLine ≤ inner.startLine ∧ inner.endLine ≤ outer.endLine

def Includes (region : Region) (line : Nat) : Prop :=
  region.startLine ≤ line ∧ line ≤ region.endLine

def Nests (first second : Region) : Prop :=
  first.endLine < second.startLine ∨ second.endLine < first.startLine ∨
    first.Contains second ∨ second.Contains first

end Region

/-- The name of the region around a line that starts last. -/
inductive RegionAround (regions : List Region) (line : Nat) : Option String → Prop
  | inside {region : Region} (hreg : region ∈ regions) (hinc : region.Includes line)
      (hinner : ∀ other ∈ regions, other.Includes line →
        other = region ∨ other.startLine < region.startLine) :
      RegionAround regions line (some region.name)
  | outside (houtside : ∀ region ∈ regions, ¬region.Includes line) : RegionAround regions line none

def ModuleTable.SymbolsInRegions (table : ModuleTable) : Prop :=
  ∀ symbol ∈ table.symbols, RegionAround table.regions symbol.range.startLine symbol.region

/-- The regions of a table and the reports about them are those of its directives,
of which some close others. -/
structure ModuleTable.RegionsAccounted
    (table : ModuleTable) (closings : List Closing) (lastLine : Nat) : Prop where
  closes : ClosesInnermost table.directives closings
  regions_opened : table.regions.map (fun region => (region.name, region.startLine)) =
      (table.directives.filter (·.instruction? = some .region)).map fun directive =>
        (directive.regionName, directive.line)
  regions_sorted : table.regions.Pairwise fun earlier later => earlier.startLine < later.startLine
  regions_ended : ∀ region ∈ table.regions, region.startLine ≤ region.endLine ∧
      region.endLine = closingLine closings lastLine (.region region.name region.startLine)
  regions_nested : ∀ first ∈ table.regions, ∀ second ∈ table.regions, first.Nests second
  openers_accounted : ∀ frame ∈ openers table.directives,
      (∃! closing, closing ∈ closings ∧ closing.frame = frame) ∧
          table.issues.count ⟨frame.line, .unclosedRegion⟩ = 0 ∨
        (∀ closing ∈ closings, closing.frame ≠ frame) ∧
          table.issues.count ⟨frame.line, .unclosedRegion⟩ = 1
  ends_accounted : ∀ directive ∈ table.directives, directive.isEnd = true →
      (∃! closing, closing ∈ closings ∧ closing.line = directive.line) ∧
          table.issues.count ⟨directive.line, .unexpectedRegionEnd⟩ = 0 ∨
        (∀ closing ∈ closings, closing.line ≠ directive.line) ∧
          table.issues.count ⟨directive.line, .unexpectedRegionEnd⟩ = 1
  unclosed_opened : ∀ line, ⟨line, .unclosedRegion⟩ ∈ table.issues →
      ∃ frame ∈ openers table.directives, frame.line = line
  unexpected_ended : ∀ line, ⟨line, .unexpectedRegionEnd⟩ ∈ table.issues →
      ∃ directive ∈ table.directives, directive.line = line ∧ directive.isEnd = true

/-! ## The closings are determined -/

section

variable {directives : List Directive} {closings : List Closing}

lemma ClosesInnermost.eq_of_frame (hcls : ClosesInnermost directives closings)
    (hfirst : first ∈ closings) (hsnd : second ∈ closings) (hframe : first.frame = second.frame)
    : first = second := by
  -- A frame that was closed is not open any more.
  have hnot {earlier later : Closing} (hearl : earlier ∈ closings) (hlater : later ∈ closings)
      (hsame : earlier.frame = later.frame) : ¬earlier.line < later.line :=
    fun hbef => (hcls.isOpenAt hlater).kept earlier hearl hbef (.inl hsame)
  have hline : first.line = second.line :=
    Nat.le_antisymm (Nat.not_lt.mp (hnot hsnd hfirst hframe.symm))
      (Nat.not_lt.mp (hnot hfirst hsnd hframe))
  obtain ⟨frame, line⟩ := first
  simp only at hframe hline
  rw [hframe, hline]

lemma ClosesInnermost.eq_of_line (hcls : ClosesInnermost directives closings)
    (horder : DirectivesInOrder directives) (hfirst : first ∈ closings)
    (hsnd : second ∈ closings) (hline : first.line = second.line) : first = second := by
  obtain ⟨directive, hdir, hplace, hending, hinmost⟩ := (hcls first).mp hfirst
  obtain ⟨other, hoth, hotherPlace, hotherEnding, hotherInnermost⟩ := (hcls second).mp hsnd
  obtain rfl : directive = other :=
    eq_of_line_eq horder hdir hoth (by rw [hplace, hotherPlace, hline])
  have hkind := Option.some.inj (hending.symm.trans hotherEnding)
  rw [hline] at hinmost
  have hle := hotherInnermost.innermost first.frame hinmost.toIsOpenAt hkind
  have hge := hinmost.innermost second.frame hotherInnermost.toIsOpenAt hkind.symm
  refine hcls.eq_of_frame hfirst hsnd ?_
  exact eq_of_line_eq horder.openers_sorted hinmost.opened hotherInnermost.opened
    (Nat.le_antisymm hle hge)

lemma ClosesInnermost.unique (hcls : ClosesInnermost directives closings)
    (hoths : ClosesInnermost directives others) (closing : Closing) :
    closing ∈ closings ↔ closing ∈ others := by
  induction hline : closing.line using Nat.strong_induction_on generalizing closing with
  | _ line ih =>
    have hsame (frame : Frame) : IsOpenAt directives closings line frame ↔
        IsOpenAt directives others line frame := by
      constructor
      · intro hopen
        refine { hopen with kept := fun other hoth hbef => ?_ }
        exact hopen.kept other ((ih other.line hbef other rfl).mpr hoth) hbef
      · intro hopen
        refine { hopen with kept := fun other hoth hbef => ?_ }
        exact hopen.kept other ((ih other.line hbef other rfl).mp hoth) hbef
    rw [hcls closing, hoths closing, hline, isInnermostAt_congr hsame]

/-! ## Where regions end -/

lemma ClosesInnermost.closingLine_eq (hcls : ClosesInnermost directives closings)
    (hcl : closing ∈ closings) (lastLine : Nat) :
    closingLine closings lastLine closing.frame = closing.line := by
  unfold closingLine
  cases hfound : closings.find? (·.frame = closing.frame) with
  | none =>
    have hnone := find?_eq_none.mp hfound closing hcl
    simp at hnone
  | some found =>
    have hframe : found.frame = closing.frame := by simpa using find?_some hfound
    rw [hcls.eq_of_frame (mem_of_find?_eq_some hfound) hcl hframe]
    rfl

lemma closingLine_of_not_closed (hframe : ∀ closing ∈ closings, closing.frame ≠ frame)
    (lastLine : Nat) : closingLine closings lastLine frame = lastLine := by
  have hnone : closings.find? (·.frame = frame) = none := by simpa using hframe
  rw [closingLine, hnone]
  rfl

end

lemma Frame.regionTo?_eq_some_iff : frame.regionTo? line = some region ↔
      frame = .region region.name region.startLine ∧ line = region.endLine := by
  obtain ⟨name, start, stop⟩ := region
  cases frame <;> simp [regionTo?, regionName?, Frame.line, and_assoc]

namespace RegionTrail.Accounts

variable {trail : RegionTrail} {closings : List Closing} {lastLine : Nat}
  (hacc : trail.Accounts closings (lastLine + 1))
include hacc

lemma mem_regions_iff :
    region ∈ trail.regions ++ trail.frames.reverse.filterMap (Frame.regionTo? lastLine) ↔
      ∃ frame ∈ openers trail.directives,
        frame.regionTo? (closingLine closings lastLine frame) = some region := by
  rw [mem_append, hacc.regions, mem_filterMap, mem_filterMap]
  constructor
  · rintro (⟨closing, hcl, hreg⟩ | ⟨frame, hframe, hreg⟩)
    · refine ⟨closing.frame, (hacc.closes.isOpenAt hcl).opened, ?_⟩
      rwa [hacc.closes.closingLine_eq hcl]
    · obtain ⟨hopn, hopen⟩ := hacc.mem_frames_iff.mp (mem_reverse.mp hframe)
      refine ⟨frame, hopn, ?_⟩
      rwa [closingLine_of_not_closed hopen.frame_ne]
  · rintro ⟨frame, hframe, hreg⟩
    have hkind : frame.isRegion := by
      rw [(Frame.regionTo?_eq_some_iff.mp hreg).1]
      rfl
    rcases hacc.regions_closed frame hframe hkind with hopen | ⟨closing, hcl, rfl⟩
    · rw [closingLine_of_not_closed hopen.frame_ne] at hreg
      exact .inr ⟨frame, mem_reverse.mpr (hacc.mem_frames_iff.mpr ⟨hframe, hopen⟩), hreg⟩
    · rw [hacc.closes.closingLine_eq hcl] at hreg
      exact .inl ⟨closing, hcl, hreg⟩

lemma nodup_regions :
    (trail.regions ++ trail.frames.reverse.filterMap (Frame.regionTo? lastLine)).Nodup := by
  rw [hacc.regions, nodup_append]
  refine ⟨?_, ?_, ?_⟩
  · refine Nodup.filterMap ?_ (hacc.closings_sorted.imp fun hlines heq => by simp [heq] at hlines)
    intro first second region hfirst hsnd
    obtain ⟨hframe, hline⟩ := Frame.regionTo?_eq_some_iff.mp hfirst
    obtain ⟨hoth, hotherLine⟩ := Frame.regionTo?_eq_some_iff.mp hsnd
    obtain ⟨frame, line⟩ := first
    simp only at hframe hline
    rw [hframe, hline, ← hoth, ← hotherLine]
  · refine Nodup.filterMap ?_ (hacc.frames_sorted.imp fun hlines heq => by simp [heq] at hlines)
    intro first second region hfirst hsnd
    rw [(Frame.regionTo?_eq_some_iff.mp hfirst).1, (Frame.regionTo?_eq_some_iff.mp hsnd).1]
  · rintro region hshut _ hopen rfl
    obtain ⟨closing, hcl, hfirst⟩ := mem_filterMap.mp hshut
    obtain ⟨frame, hframe, hsnd⟩ := mem_filterMap.mp hopen
    have hstill := (hacc.mem_frames_iff.mp (mem_reverse.mp hframe)).2
    refine hstill closing hcl (.inl ?_)
    rw [(Frame.regionTo?_eq_some_iff.mp hfirst).1, (Frame.regionTo?_eq_some_iff.mp hsnd).1]

lemma regions_strictly_sorted : ((openers trail.directives).filterMap fun frame =>
        frame.regionTo? (closingLine closings lastLine frame)).Pairwise
      fun earlier later => earlier.startLine < later.startLine := by
  refine Pairwise.filterMap _ ?_ hacc.inOrder.openers_sorted
  intro earlier later hlines first hfirst second hsnd
  rwa [(Frame.regionTo?_eq_some_iff.mp hfirst).1, (Frame.regionTo?_eq_some_iff.mp hsnd).1] at hlines

lemma regions_finish : (trail.finish lastLine).regions =
      (openers trail.directives).filterMap fun frame =>
        frame.regionTo? (closingLine closings lastLine frame) := by
  have hsort := hacc.regions_strictly_sorted
  have hperm := (perm_ext_iff_of_nodup hacc.nodup_regions
    (hsort.imp fun hlines heq => by simp [heq] at hlines)).mpr fun region =>
      hacc.mem_regions_iff.trans mem_filterMap.symm
  have hmerged := (mergeSort_perm
    (trail.regions ++ trail.frames.reverse.filterMap (Frame.regionTo? lastLine))
    fun a b => decide (a.startLine ≤ b.startLine)).trans hperm
  have htrans (a b c : Region) : decide (a.startLine ≤ b.startLine) →
      decide (b.startLine ≤ c.startLine) → decide (a.startLine ≤ c.startLine) := by
    simpa using Nat.le_trans
  have htotal (a b : Region) :
      (decide (a.startLine ≤ b.startLine) || decide (b.startLine ≤ a.startLine)) := by
    simpa using Nat.le_total a.startLine b.startLine
  have hordered : (trail.finish lastLine).regions.Pairwise fun a b => a.startLine ≤ b.startLine :=
    (pairwise_mergeSort htrans htotal _).imp fun hle => by simpa using hle
  refine List.Perm.eq_of_pairwise ?_ hordered (hsort.imp Nat.le_of_lt) hmerged
  intro first second hfirst hsnd hle hge
  exact eq_of_line_eq hsort (hmerged.mem_iff.mp hfirst) hsnd (Nat.le_antisymm hle hge)

lemma mem_regions_finish : region ∈ (trail.finish lastLine).regions ↔
      Frame.region region.name region.startLine ∈ openers trail.directives ∧
        closingLine closings lastLine (.region region.name region.startLine) = region.endLine := by
  rw [hacc.regions_finish, mem_filterMap]
  constructor
  · rintro ⟨frame, hframe, hreg⟩
    obtain ⟨rfl, hend⟩ := Frame.regionTo?_eq_some_iff.mp hreg
    exact ⟨hframe, hend⟩
  · rintro ⟨hframe, hend⟩
    exact ⟨_, hframe, Frame.regionTo?_eq_some_iff.mpr ⟨rfl, hend⟩⟩

lemma closing_read (hcl : closing ∈ closings) : closing.line ≤ lastLine := by
  obtain ⟨directive, hdir, hplace, -, -⟩ := (hacc.closes closing).mp hcl
  have hread := hacc.directives_read directive hdir
  omega

lemma closingLine_bounds (hframe : frame ∈ openers trail.directives) :
    frame.line ≤ closingLine closings lastLine frame ∧
      closingLine closings lastLine frame ≤ lastLine := by
  by_cases hshut : ∃ closing ∈ closings, closing.frame = frame
  · obtain ⟨closing, hcl, rfl⟩ := hshut
    rw [hacc.closes.closingLine_eq hcl]
    exact ⟨(hacc.closes.isOpenAt hcl).before.le, hacc.closing_read hcl⟩
  · rw [closingLine_of_not_closed (by simpa using hshut)]
    exact ⟨Nat.le_of_lt_succ (hacc.openers_read hframe), le_rfl⟩

lemma line_ne_of_opener (hcl : closing ∈ closings)
    (hframe : frame ∈ openers trail.directives) : frame.line ≠ closing.line := by
  intro hline
  obtain ⟨directive, hdir, hplace, hending, -⟩ := (hacc.closes closing).mp hcl
  obtain ⟨opener, hopener, hopens⟩ := mem_openers.mp hframe
  obtain rfl : opener = directive := eq_of_line_eq hacc.inOrder hopener hdir
      (by rw [← Directive.line_of_frame? hopens, hline, hplace])
  rw [Directive.frame?_of_isEnd (Directive.isEnd_of_instruction? hending)] at hopens
  cases hopens

lemma closingLine_le_of_inside {outer inner : Frame} (houter : outer ∈ openers trail.directives)
    (hinner : inner ∈ openers trail.directives) (houterKind : outer.isRegion)
    (hinnerKind : inner.isRegion) (hlines : outer.line < inner.line)
    (hins : inner.line ≤ closingLine closings lastLine outer) :
    closingLine closings lastLine inner ≤ closingLine closings lastLine outer := by
  rcases hacc.regions_closed outer houter houterKind with hopen | ⟨closing, hcl, rfl⟩
  · rw [closingLine_of_not_closed hopen.frame_ne]
    exact (hacc.closingLine_bounds hinner).2
  · rw [hacc.closes.closingLine_eq hcl] at hins ⊢
    have hends : closing.Ends inner := .inr ⟨houterKind, hlines,
        lt_of_le_of_ne hins (hacc.line_ne_of_opener hcl hinner)⟩
    rcases hacc.regions_closed inner hinner hinnerKind with hopen | ⟨other, hoth, rfl⟩
    · exact absurd hends (hopen closing hcl)
    · rw [hacc.closes.closingLine_eq hoth]
      by_contra hafter
      exact (hacc.closes.isOpenAt hoth).kept closing hcl (by omega) hends

lemma regions_nest {first second : Region} (hfirst : first ∈ (trail.finish lastLine).regions)
    (hsnd : second ∈ (trail.finish lastLine).regions) : first.Nests second := by
  obtain ⟨hopn, hend⟩ := hacc.mem_regions_finish.mp hfirst
  obtain ⟨hotherOpened, hotherEnd⟩ := hacc.mem_regions_finish.mp hsnd
  have hins := hacc.closingLine_le_of_inside hopn hotherOpened rfl rfl
  have hotherInside := hacc.closingLine_le_of_inside hotherOpened hopn rfl rfl
  rw [hend, hotherEnd] at hins hotherInside
  simp only [Frame.line] at hins hotherInside
  unfold Region.Nests Region.Contains
  rcases Nat.lt_trichotomy first.startLine second.startLine with hlt | heq | hgt
  · have := hins hlt
    omega
  · omega
  · have := hotherInside hgt
    omega

lemma unclosed_finish : ListsOnce ((trail.finish lastLine).reported .unclosedRegion) fun line =>
      ∃ frame ∈ openers trail.directives,
        (∀ closing ∈ closings, closing.frame ≠ frame) ∧ frame.line = line := by
  have hrptd : (trail.finish lastLine).reported .unclosedRegion =
      trail.reported .unclosedRegion ++ trail.frames.reverse.map Frame.line :=
    trail.reported_report (trail.frames.reverse.map Frame.line) .unclosedRegion .unclosedRegion
  have hopen : ListsOnce (trail.frames.reverse.map Frame.line) fun line =>
      ∃ frame ∈ openers trail.directives, StillOpen closings frame ∧ frame.line = line := by
    constructor
    · exact (pairwise_map.mpr hacc.frames_sorted).imp Nat.ne_of_lt
    · intro line
      simp only [mem_map, mem_reverse, hacc.mem_frames_iff, and_assoc]
  rw [hrptd]
  refine (hacc.unclosed.append hopen ?_).congr fun line => ?_
  · rintro line ⟨frame, hgiven, hline⟩ ⟨other, hoth, hstill, hotherLine⟩
    obtain rfl : frame = other := eq_of_line_eq hacc.inOrder.openers_sorted hgiven.opened hoth
        (hline.trans hotherLine.symm)
    exact hgiven.ended hstill
  · constructor
    · rintro (⟨frame, hgiven, hline⟩ | ⟨frame, hframe, hstill, hline⟩)
      · exact ⟨frame, hgiven.opened, hgiven.notClosed, hline⟩
      · exact ⟨frame, hframe, hstill.frame_ne, hline⟩
    · rintro ⟨frame, hframe, hnot, hline⟩
      by_cases hstill : StillOpen closings frame
      · exact .inr ⟨frame, hframe, hstill, hline⟩
      · exact .inl ⟨frame, ⟨hframe, hstill, hnot⟩, hline⟩

lemma unexpected_finish : ListsOnce ((trail.finish lastLine).reported .unexpectedRegionEnd)
      (Unmatched trail.directives closings) := by
  have hrptd : (trail.finish lastLine).reported .unexpectedRegionEnd =
      trail.reported .unexpectedRegionEnd ++ [] :=
    trail.reported_report (trail.frames.reverse.map Frame.line) .unclosedRegion .unexpectedRegionEnd
  rw [hrptd, append_nil]
  exact hacc.unexpected

end RegionTrail.Accounts

/-! ## The reports of a table -/

lemma ListsOnce.accounted {lines : List Nat} {p : Nat → Prop} (hlists : ListsOnce lines p)
    {closings : List Closing} {about : Closing → Prop} (hholds : p line ↔ ∀ closing ∈ closings,
      ¬about closing) (hunique : ∀ first ∈ closings, ∀ second ∈ closings, about first →
        about second → first = second) :
    (∃! closing, closing ∈ closings ∧ about closing) ∧ lines.count line = 0 ∨
      (∀ closing ∈ closings, ¬about closing) ∧ lines.count line = 1 := by
  by_cases hnone : ∀ closing ∈ closings, ¬about closing
  · exact .inr ⟨hnone, count_eq_one_of_mem hlists.nodup
      ((hlists.mem_iff line).mpr (hholds.mpr hnone))⟩
  · refine .inl ⟨?_, count_eq_zero_of_not_mem fun hmem =>
      hnone (hholds.mp ((hlists.mem_iff line).mp hmem))⟩
    obtain ⟨closing, hcl, habout⟩ : ∃ closing ∈ closings, about closing := by simpa using hnone
    exact ⟨closing, ⟨hcl, habout⟩, fun other hoth => hunique other hoth.1 closing hcl hoth.2 habout⟩

lemma ModuleTable.count_issues
    (table : ModuleTable) (line : Nat) {kind : IssueKind} (hkind : kind.isAboutRegions) :
    table.issues.count (Issue.mk line kind) =
      ((ScanState.regionTrail { table := table }).reported kind).count line := by
  have hreps : (ScanState.regionTrail { table := table }).reports.filter (·.kind = kind) =
      table.issues.filter (·.kind = kind) := by
    refine filter_filter.trans (filter_congr fun issue _ => ?_)
    by_cases hsame : issue.kind = kind <;> simp [hsame, hkind]
  rw [BslInsight.count_issues, RegionTrail.reported, hreps]

lemma openers_regions (directives : List Directive) (last : Frame → Nat) :
    ((openers directives).filterMap fun frame => frame.regionTo? (last frame)).map
        (fun region => (region.name, region.startLine)) =
      (directives.filter (·.instruction? = some .region)).map fun directive =>
        (directive.regionName, directive.line) := by
  induction directives with
  | nil => rfl
  | cons directive directives ih =>
    have hopeners : openers (directive :: directives) =
        directive.frame?.toList ++ openers directives := by
      unfold openers
      cases hframe : directive.frame? <;> simp [hframe]
    rw [hopeners, filterMap_append, map_append, ih]
    by_cases hreg : directive.instruction? = some .region
    · simp [hreg, Directive.frame?, Frame.regionTo?, Frame.regionName?, Frame.line]
    · rw [filter_cons_of_neg (by simpa using hreg)]
      have hnone : directive.frame?.toList.filterMap
          (fun frame => frame.regionTo? (last frame)) = [] := by
        unfold Directive.frame?
        split
        next h => exact absurd h hreg
        next h => rfl
        next h => rfl
      rw [hnone]
      rfl

namespace RegionTrail.Accounts

variable {trail : RegionTrail} {closings : List Closing} {lastLine : Nat} {table : ModuleTable}
  (hacc : trail.Accounts closings (lastLine + 1))
  (htrail : ScanState.regionTrail { table := table } = trail.finish lastLine)
include hacc htrail

lemma opener_accounted (hframe : frame ∈ openers trail.directives) :
    (∃! closing, closing ∈ closings ∧ closing.frame = frame) ∧
        table.issues.count ⟨frame.line, .unclosedRegion⟩ = 0 ∨
      (∀ closing ∈ closings, closing.frame ≠ frame) ∧
        table.issues.count ⟨frame.line, .unclosedRegion⟩ = 1 := by
  have hrptd := hacc.unclosed_finish
  rw [← htrail] at hrptd
  rw [table.count_issues frame.line rfl]
  refine hrptd.accounted ⟨?_, fun hnot => ⟨frame, hframe, hnot, rfl⟩⟩ ?_
  · rintro ⟨other, hoth, hnot, hline⟩
    rwa [eq_of_line_eq hacc.inOrder.openers_sorted hframe hoth hline.symm]
  · exact fun first hfirst second hsnd hframe hsame =>
      hacc.closes.eq_of_frame hfirst hsnd (hframe.trans hsame.symm)

lemma end_accounted {directive : Directive} (hdir : directive ∈ trail.directives)
    (hend : directive.isEnd) :
    (∃! closing, closing ∈ closings ∧ closing.line = directive.line) ∧
        table.issues.count ⟨directive.line, .unexpectedRegionEnd⟩ = 0 ∨
      (∀ closing ∈ closings, closing.line ≠ directive.line) ∧
        table.issues.count ⟨directive.line, .unexpectedRegionEnd⟩ = 1 := by
  have hrptd := hacc.unexpected_finish
  rw [← htrail] at hrptd
  rw [table.count_issues directive.line rfl]
  refine hrptd.accounted (and_iff_right ⟨directive, hdir, rfl, hend⟩) ?_
  exact fun first hfirst second hsnd hline hsame =>
    hacc.closes.eq_of_line hacc.inOrder hfirst hsnd (hline.trans hsame.symm)

lemma regionsAccounted : table.RegionsAccounted closings lastLine := by
  have hdirs : table.directives = trail.directives := congrArg (·.directives) htrail
  have hregs : table.regions = (trail.finish lastLine).regions := congrArg (·.regions) htrail
  have huncl := hacc.unclosed_finish
  have hunexpected := hacc.unexpected_finish
  rw [← htrail] at huncl hunexpected
  constructor <;> simp only [hdirs, hregs]
  case closes => exact hacc.closes
  case regions_opened =>
    rw [hacc.regions_finish]
    exact openers_regions trail.directives (closingLine closings lastLine)
  case regions_sorted =>
    rw [hacc.regions_finish]
    exact hacc.regions_strictly_sorted
  case regions_ended =>
    intro region hreg
    obtain ⟨hopn, hend⟩ := hacc.mem_regions_finish.mp hreg
    have hbounds := hacc.closingLine_bounds hopn
    rw [hend] at hbounds
    exact ⟨hbounds.1, hend.symm⟩
  case regions_nested => exact fun first hfirst second hsnd => hacc.regions_nest hfirst hsnd
  case openers_accounted => exact fun frame hframe => hacc.opener_accounted htrail hframe
  case ends_accounted => exact fun directive hdir hend => hacc.end_accounted htrail hdir hend
  case unclosed_opened =>
    intro line hissue
    rw [← count_pos_iff, table.count_issues line rfl, count_pos_iff] at hissue
    obtain ⟨frame, hframe, -, hline⟩ := (huncl.mem_iff line).mp hissue
    exact ⟨frame, hframe, hline⟩
  case unexpected_ended =>
    intro line hissue
    rw [← count_pos_iff, table.count_issues line rfl, count_pos_iff] at hissue
    exact ((hunexpected.mem_iff line).mp hissue).1

end RegionTrail.Accounts

/-! ## The regions around a line -/

namespace RegionTrail.Accounts

variable {trail : RegionTrail} {closings : List Closing} {lastLine : Nat}
  (hacc : trail.Accounts closings (lastLine + 1))
include hacc

lemma le_closingLine_iff (hline : line ≤ lastLine) : line ≤ closingLine closings lastLine frame ↔
      ∀ closing ∈ closings, closing.frame = frame → line ≤ closing.line := by
  by_cases hshut : ∃ closing ∈ closings, closing.frame = frame
  · obtain ⟨closing, hcl, rfl⟩ := hshut
    rw [hacc.closes.closingLine_eq hcl]
    constructor
    · intro hle other hoth hsame
      rwa [hacc.closes.eq_of_frame hoth hcl hsame]
    · exact fun hall => hall closing hcl rfl
  · rw [closingLine_of_not_closed (by simpa using hshut)]
    refine iff_of_true hline fun closing hcl hframe => ?_
    exact absurd ⟨closing, hcl, hframe⟩ hshut

lemma mem_around_iff (hline : line ≤ lastLine) :
    frame ∈ (openers trail.directives).filter (fun frame =>
        frame.line ≤ line ∧ ∀ closing ∈ closings, closing.frame = frame → line ≤ closing.line) ↔
      frame ∈ openers trail.directives ∧ frame.line ≤ line ∧
        line ≤ closingLine closings lastLine frame := by
  rw [mem_filter, decide_eq_true_eq, hacc.le_closingLine_iff hline]

/-- What a declaration sees on the stack is the innermost of the regions that are
around its line when all of them have ended. -/
lemma regionAround_regionAt (hline : line ≤ lastLine) :
    RegionAround (trail.finish lastLine).regions line (regionAt trail.directives closings line) := by
  have hmem {region : Region} (hreg : region ∈ (trail.finish lastLine).regions)
      (hinc : region.Includes line) :=
    (hacc.mem_around_iff hline).mpr ⟨(hacc.mem_regions_finish.mp hreg).1, hinc.1, by
        rw [(hacc.mem_regions_finish.mp hreg).2]
        exact hinc.2⟩
  cases hfound : regionAt trail.directives closings line with
  | none =>
    refine .outside fun region hreg hinc => ?_
    have hnone := findSome?_eq_none_iff.mp hfound _ (mem_reverse.mpr (hmem hreg hinc))
    cases hnone
  | some name =>
    obtain ⟨inner, frame, outer, hsplit, hname, hconditionals⟩ := findSome?_eq_some_iff.mp hfound
    have hdescending := pairwise_reverse.mpr (hacc.inOrder.openers_sorted.filter fun frame =>
        frame.line ≤ line ∧ ∀ closing ∈ closings, closing.frame = frame → line ≤ closing.line)
    rw [hsplit] at hdescending
    have houter := (pairwise_cons.mp (pairwise_append.mp hdescending).2.1).1
    have hframe : frame ∈ inner ++ frame :: outer := by simp
    rw [← hsplit, mem_reverse, hacc.mem_around_iff hline] at hframe
    obtain ⟨hopn, hstart, hstop⟩ := hframe
    cases frame with
    | conditional start => cases hname
    | region other start =>
      obtain rfl : other = name := Option.some.inj hname
      let region : Region := ⟨other, start, closingLine closings lastLine (.region other start)⟩
      have hreg : region ∈ (trail.finish lastLine).regions :=
        hacc.mem_regions_finish.mpr ⟨hopn, rfl⟩
      refine RegionAround.inside hreg ⟨hstart, hstop⟩ fun around haround hinc => ?_
      have hplace := mem_reverse.mpr (hmem haround hinc)
      rw [hsplit, mem_append, mem_cons] at hplace
      rcases hplace with hinner | hsame | houterFrame
      · cases hconditionals _ hinner
      · refine .inl ?_
        have hend := (hacc.mem_regions_finish.mp haround).2
        obtain ⟨aroundName, aroundStart, aroundEnd⟩ := around
        simp only at hsame hend
        obtain ⟨rfl, rfl⟩ := Frame.region.inj hsame
        rw [← hend]
      · exact .inr (houter _ houterFrame)

end RegionTrail.Accounts

/-! ## Whole modules -/

lemma RegionTrail.Accounts.nothing : RegionTrail.Accounts ⟨[], [], [], [], []⟩ [] 0 where
  inOrder := Pairwise.nil
  directives_read := by simp
  closes := by simp [ClosesInnermost]
  closings_sorted := Pairwise.nil
  frames := rfl
  regions := rfl
  regions_closed := by simp [openers]
  unclosed := by
    refine ⟨nodup_nil, fun line => ⟨fun hmem => absurd hmem not_mem_nil, ?_⟩⟩
    rintro ⟨frame, hgiven, -⟩
    exact absurd hgiven.opened not_mem_nil
  unexpected := ⟨nodup_nil, by simp [reported, Unmatched]⟩
  stamps := by simp

lemma exists_accounts_parseModule (file : Path) (dialect : Dialect) (text : String) :
    ∃ (trail : RegionTrail) (closings : List Closing),
      trail.Accounts closings (text.toList.count '\n' + 1) ∧
        ScanState.regionTrail { table := parseModule file dialect text } =
          trail.finish (text.toList.count '\n') := by
  let chars := dropByteOrderMark text.toList
  let lines := splitLines chars
  let start : ScanState := { table := { file, dialect, text := String.ofList chars } }
  have hcount : lines.length = text.toList.count '\n' + 1 := by
    rw [length_splitLines, count_dropByteOrderMark]
  have hstart : start.regionTrail.Accounts [] 0 := .nothing
  obtain ⟨closings, hacc⟩ : ∃ closings,
      (start.scanLines 0 lines).regionTrail.Accounts closings (0 + lines.length) :=
    ScanState.accounts_scanLines hstart lines
  have hfinish := (start.scanLines 0 lines).regionTrail_finish (lines.length - 1)
  rw [Nat.zero_add, hcount] at hacc
  rw [hcount, Nat.add_sub_cancel] at hfinish
  refine ⟨_, closings, hacc, Eq.trans ?_ hfinish⟩
  rw [← Nat.add_sub_cancel (n := text.toList.count '\n') (m := 1), ← hcount]
  rfl

/-- The regions of a module form a forest, and each of its end directives and of the
directives that need an end is matched or reported. -/
theorem parseModule_regionsAccounted (file : Path) (dialect : Dialect) (text : String) :
    ∃ closings, (parseModule file dialect text).RegionsAccounted closings (text.toList.count '\n') ∧
      ∀ others, ClosesInnermost (parseModule file dialect text).directives others →
        ∀ closing, closing ∈ others ↔ closing ∈ closings := by
  obtain ⟨trail, closings, haccounts, htrail⟩ := exists_accounts_parseModule file dialect text
  have haccounted := haccounts.regionsAccounted htrail
  exact ⟨closings, haccounted, fun others hothers => hothers.unique haccounted.closes⟩

/-- A symbol belongs to the innermost region around the line that it starts on. -/
theorem parseModule_symbolsInRegions (file : Path) (dialect : Dialect) (text : String) :
    (parseModule file dialect text).SymbolsInRegions := by
  obtain ⟨trail, closings, haccounts, htrail⟩ := exists_accounts_parseModule file dialect text
  intro symbol hsymbol
  have hregions := congrArg (·.regions) htrail
  have hstamps : ScanState.stamps { table := parseModule file dialect text } = trail.stamps :=
    congrArg (·.stamps) htrail
  have hstamp : symbol.stamp ∈ trail.stamps := by
    rw [← hstamps]
    exact mem_map_of_mem (mem_append_left _ hsymbol)
  obtain ⟨hread, hregion⟩ := haccounts.stamps symbol.stamp hstamp
  have haround := haccounts.regionAround_regionAt (Nat.le_of_lt_succ hread)
  rwa [← hregion, ← hregions] at haround

end BslInsight
