import BslInsight.Proofs.RegionTrail
import Mathlib.Data.List.Pairwise

/-!
# What end directives close

An end directive closes the innermost open frame of its kind.  With a region go the conditionals
inside it, while the end of a conditional leaves the regions inside it open.  The closings, which
the scanner forgets, are kept in a list here; from it the stack, the ended regions and the reports
can be told.
-/

namespace BslInsight

open List

variable {lines : List Nat} {next number line : Nat} {after : RegionTrail} {directive : Directive}
  {frame : Frame}

structure Closing where
  frame : Frame
  line : Nat
deriving DecidableEq, Repr

def Frame.ending : Frame → Instruction
  | .region _ _ => .endRegion
  | .conditional _ => .endIf

def Directive.frame? (directive : Directive) : Option Frame := match directive.instruction? with
  | some .region => some (.region directive.regionName directive.line)
  | some .«if» => some (.conditional directive.line)
  | _ => none

def Directive.isEnd (directive : Directive) : Bool :=
  directive.instruction? == some .endRegion || directive.instruction? == some .endIf

def openers (directives : List Directive) : List Frame := directives.filterMap Directive.frame?

/-- A closing ends its own frame, and all that was opened in a region that it closes. -/
def Closing.Ends (closing : Closing) (frame : Frame) : Prop := closing.frame = frame ∨
    closing.frame.isRegion = true ∧ closing.frame.line < frame.line ∧ frame.line < closing.line

instance (closing : Closing) (frame : Frame) : Decidable (closing.Ends frame) :=
  inferInstanceAs (Decidable (_ ∨ _))

structure IsOpenAt
    (directives : List Directive) (closings : List Closing) (line : Nat) (frame : Frame) :
    Prop where
  opened : frame ∈ openers directives
  before : frame.line < line
  kept : ∀ closing ∈ closings, closing.line < line → ¬closing.Ends frame

/-- The innermost of the open frames that end with the same instruction. -/
structure IsInnermostAt
    (directives : List Directive) (closings : List Closing) (line : Nat) (frame : Frame) :
    Prop extends IsOpenAt directives closings line frame where
  innermost : ∀ other, IsOpenAt directives closings line other → other.ending = frame.ending →
      other.line ≤ frame.line

/-- Every end directive closes the innermost open frame of its kind, and nothing else
is closed.  Since a frame is open at a line whatever is closed from that line on, this
determines the closings of the directives one after the other. -/
def ClosesInnermost (directives : List Directive) (closings : List Closing) : Prop :=
  ∀ closing, closing ∈ closings ↔ ∃ directive ∈ directives, directive.line = closing.line ∧
      directive.instruction? = some closing.frame.ending ∧
      IsInnermostAt directives closings closing.line closing.frame

/-! ## Frames and their directives -/

lemma Frame.ending_eq_endRegion_iff : frame.ending = .endRegion ↔ frame.isRegion := by
  cases frame <;> simp [ending, isRegion]

lemma Frame.ending_eq_endIf_iff : frame.ending = .endIf ↔ (!frame.isRegion) := by
  cases frame <;> simp [ending, isRegion]

lemma Directive.line_of_frame? (hframe : directive.frame? = some frame) :
    frame.line = directive.line := by
  unfold frame? at hframe
  split at hframe
  · obtain rfl := Option.some.inj hframe
    rfl
  · obtain rfl := Option.some.inj hframe
    rfl
  · cases hframe

lemma Directive.isEnd_of_instruction? (hinstr : directive.instruction? = some frame.ending) :
    directive.isEnd := by
  cases frame <;> simp [isEnd, hinstr, Frame.ending]

lemma Directive.frame?_of_isEnd (hend : directive.isEnd) : directive.frame? = none := by
  have hcases : directive.instruction? = some .endRegion ∨ directive.instruction? = some .endIf := by
    simpa [isEnd] using hend
  rcases hcases with h | h <;> simp [frame?, h]

lemma mem_openers {directives : List Directive} :
    frame ∈ openers directives ↔ ∃ directive ∈ directives, directive.frame? = some frame :=
  mem_filterMap

lemma openers_concat (directives : List Directive) (directive : Directive) :
    openers (directives ++ [directive]) = openers directives ++ directive.frame?.toList := by
  unfold openers
  rw [filterMap_append]
  cases hframe : directive.frame? <;> simp [hframe]

def DirectivesInOrder (directives : List Directive) : Prop :=
  directives.Pairwise fun earlier later => earlier.line < later.line

lemma DirectivesInOrder.openers_sorted
    {directives : List Directive} (horder : DirectivesInOrder directives) :
    (openers directives).Pairwise fun earlier later => earlier.line < later.line := by
  refine Pairwise.filterMap Directive.frame? ?_ horder
  intro earlier later hlines frame hframe other hoth
  rwa [Directive.line_of_frame? hframe, Directive.line_of_frame? hoth]

lemma eq_of_line_eq {α : Type} {line : α → Nat} {items : List α}
    (hsort : items.Pairwise fun earlier later => line earlier < line later) {first second : α}
    (hfirst : first ∈ items) (hsnd : second ∈ items) (hlines : line first = line second) :
    first = second := by
  by_contra hne
  have hsymm : Std.Symm fun left right : α => line left ≠ line right :=
    ⟨fun _ _ hleft => hleft.symm⟩
  have hapart := hsort.imp Nat.ne_of_lt
  exact hapart.forall hfirst hsnd hne hlines

/-! ## One more directive -/

section

variable {directives : List Directive} {closings new : List Closing} {directive : Directive}
  {line : Nat} {frame : Frame}

lemma isOpenAt_concat
    (hline : line ≤ directive.line) (hnew : ∀ closing ∈ new, line ≤ closing.line) :
    IsOpenAt (directives ++ [directive]) (closings ++ new) line frame ↔
      IsOpenAt directives closings line frame := by
  constructor
  · rintro ⟨hopn, hbef, hkept⟩
    refine ⟨?_, hbef, fun closing hcl => hkept closing (mem_append_left _ hcl)⟩
    rw [openers_concat] at hopn
    rcases mem_append.mp hopn with hold | hlast
    · exact hold
    · have hframe := Directive.line_of_frame? (Option.mem_toList.mp hlast)
      omega
  · rintro ⟨hopn, hbef, hkept⟩
    refine ⟨?_, hbef, fun closing hcl hearly => ?_⟩
    · rw [openers_concat]
      exact mem_append_left _ hopn
    · rcases mem_append.mp hcl with hold | hlast
      · exact hkept closing hold hearly
      · exact absurd hearly (Nat.not_lt.mpr (hnew closing hlast))

lemma isInnermostAt_congr {others : List Directive} (hsame : ∀ frame,
      IsOpenAt others new line frame ↔ IsOpenAt directives closings line frame) :
    IsInnermostAt others new line frame ↔ IsInnermostAt directives closings line frame := by
  constructor
  · rintro ⟨hopen, hinmost⟩
    exact ⟨(hsame frame).mp hopen, fun other hoth => hinmost other ((hsame other).mpr hoth)⟩
  · rintro ⟨hopen, hinmost⟩
    exact ⟨(hsame frame).mpr hopen, fun other hoth => hinmost other ((hsame other).mp hoth)⟩

lemma ClosesInnermost.line_lt (hcls : ClosesInnermost directives closings)
    (hread : ∀ earlier ∈ directives, earlier.line < line) {closing : Closing}
    (hcl : closing ∈ closings) : closing.line < line := by
  obtain ⟨earlier, hearl, hline, -⟩ := (hcls closing).mp hcl
  rw [← hline]
  exact hread earlier hearl

lemma ClosesInnermost.concat (hcls : ClosesInnermost directives closings)
    (hread : ∀ earlier ∈ directives, earlier.line < directive.line)
    (hnew : ∀ closing, closing ∈ new ↔ closing.line = directive.line ∧
      directive.instruction? = some closing.frame.ending ∧
      IsInnermostAt directives closings directive.line closing.frame) :
    ClosesInnermost (directives ++ [directive]) (closings ++ new) := by
  have hnewLine (closing : Closing) (hcl : closing ∈ new) : closing.line = directive.line :=
    ((hnew closing).mp hcl).1
  intro closing
  have hsame (hline : closing.line ≤ directive.line) :
      IsInnermostAt (directives ++ [directive]) (closings ++ new) closing.line closing.frame ↔
        IsInnermostAt directives closings closing.line closing.frame :=
    isInnermostAt_congr fun _ =>
      isOpenAt_concat hline fun other hoth => by rwa [hnewLine other hoth]
  rw [mem_append]
  constructor
  · rintro (hold | hlast)
    · obtain ⟨earlier, hearl, hline, hinstr, hinmost⟩ := (hcls closing).mp hold
      have hbef := hcls.line_lt hread hold
      exact ⟨earlier, mem_append_left _ hearl, hline, hinstr, (hsame hbef.le).mpr hinmost⟩
    · obtain ⟨hline, hinstr, hinmost⟩ := (hnew closing).mp hlast
      refine ⟨directive, mem_append_right _ (mem_singleton_self _), hline.symm,
        hinstr, (hsame hline.le).mpr ?_⟩
      rwa [hline]
  · rintro ⟨found, hfound, hline, hinstr, hinmost⟩
    rcases mem_append.mp hfound with hold | hlast
    · have hbef := hread found hold
      rw [hsame (by omega)] at hinmost
      exact .inl ((hcls closing).mpr ⟨found, hold, hline, hinstr, hinmost⟩)
    · obtain rfl := mem_singleton.mp hlast
      rw [hsame hline.ge, ← hline] at hinmost
      exact .inr ((hnew closing).mpr ⟨hline.symm, hinstr, hinmost⟩)

end

/-! ## The stack -/

lemma findSome?_regionName? (frames : List Frame) : frames.findSome? Frame.regionName? =
      (frames.filter Frame.isRegion).findSome? Frame.regionName? := by
  induction frames with
  | nil => rfl
  | cons frame rest ih =>
    cases frame with
    | region name line => rfl
    | conditional line => exact ih

lemma Closing.not_ends_of_outer
    {closing : Closing} {outer : Frame} (houter : outer.line < closing.frame.line) :
    ¬closing.Ends outer := by
  rintro (hsame | ⟨-, hgreater, -⟩)
  · exact houter.ne (congrArg Frame.line hsame).symm
  · exact Nat.lt_asymm houter hgreater

lemma Closing.ends_iff_of_inner
    {closing : Closing} {inner : Frame} (hinner : closing.frame.line < inner.line)
    (hread : inner.line < closing.line) :
    (closing.Ends inner ↔ closing.frame.isRegion) ∧ inner ≠ closing.frame := by
  have hne : closing.frame ≠ inner := fun hsame => hinner.ne (congrArg Frame.line hsame)
  refine ⟨⟨?_, fun hreg => .inr ⟨hreg, hinner, hread⟩⟩, hne.symm⟩
  rintro (hsame | ⟨hreg, -⟩)
  · exact absurd hsame hne
  · exact hreg

/-! ## The account of a trail -/

def StillOpen (closings : List Closing) (frame : Frame) : Prop :=
  ∀ closing ∈ closings, ¬closing.Ends frame

instance (closings : List Closing) : DecidablePred (StillOpen closings) :=
  fun frame => inferInstanceAs (Decidable (∀ closing ∈ closings, ¬closing.Ends frame))

lemma StillOpen.frame_ne {closings : List Closing} (hopen : StillOpen closings frame) :
    ∀ closing ∈ closings, closing.frame ≠ frame :=
  fun closing hcl hsame => hopen closing hcl (.inl hsame)

structure GivenUp (directives : List Directive) (closings : List Closing) (frame : Frame) :
    Prop where
  opened : frame ∈ openers directives
  ended : ¬StillOpen closings frame
  notClosed : ∀ closing ∈ closings, closing.frame ≠ frame

def Unmatched (directives : List Directive) (closings : List Closing) (line : Nat) : Prop :=
  (∃ directive ∈ directives, directive.line = line ∧ directive.isEnd = true) ∧
    ∀ closing ∈ closings, closing.line ≠ line

def regionAt (directives : List Directive) (closings : List Closing) (line : Nat) : Option String :=
  ((openers directives).filter fun frame =>
    frame.line ≤ line ∧ ∀ closing ∈ closings, closing.frame = frame → line ≤ closing.line).reverse
    |>.findSome? Frame.regionName?

/-- The list has every line with a property once, and no other lines. -/
structure ListsOnce (lines : List Nat) (p : Nat → Prop) : Prop where
  nodup : lines.Nodup
  mem_iff : ∀ line, line ∈ lines ↔ p line

def RegionTrail.reported (trail : RegionTrail) (kind : IssueKind) : List Nat :=
  (trail.reports.filter (·.kind = kind)).map (·.line)

/-- The closings account for a trail of which a number of lines has been read. -/
structure RegionTrail.Accounts (trail : RegionTrail) (closings : List Closing) (read : Nat) :
    Prop where
  inOrder : DirectivesInOrder trail.directives
  directives_read : ∀ directive ∈ trail.directives, directive.line < read
  closes : ClosesInnermost trail.directives closings
  closings_sorted : closings.Pairwise fun earlier later => earlier.line < later.line
  frames : trail.frames.reverse = (openers trail.directives).filter (StillOpen closings ·)
  regions : trail.regions = closings.filterMap fun closing => closing.frame.regionTo? closing.line
  regions_closed : ∀ frame ∈ openers trail.directives, frame.isRegion = true →
      StillOpen closings frame ∨ ∃ closing ∈ closings, closing.frame = frame
  unclosed : ListsOnce (trail.reported .unclosedRegion) fun line =>
      ∃ frame, GivenUp trail.directives closings frame ∧ frame.line = line
  unexpected : ListsOnce (trail.reported .unexpectedRegionEnd) (Unmatched trail.directives closings)
  stamps : ∀ stamp ∈ trail.stamps, stamp.1 < read ∧
      stamp.2 = regionAt trail.directives closings stamp.1

lemma ListsOnce.congr {p q : Nat → Prop} (hlists : ListsOnce lines p)
    (hsame : ∀ line, p line ↔ q line) : ListsOnce lines q :=
  ⟨hlists.nodup, fun line => (hlists.mem_iff line).trans (hsame line)⟩

lemma ListsOnce.append {more : List Nat} {p q : Nat → Prop} (hlines : ListsOnce lines p)
    (hmore : ListsOnce more q) (hapart : ∀ line, p line → ¬q line) :
    ListsOnce (lines ++ more) fun line => p line ∨ q line := by
  constructor
  · refine nodup_append.mpr ⟨hlines.nodup, hmore.nodup, ?_⟩
    rintro line hline _ hoth rfl
    exact hapart line ((hlines.mem_iff line).mp hline) ((hmore.mem_iff line).mp hoth)
  · intro line
    rw [mem_append, hlines.mem_iff, hmore.mem_iff]

lemma RegionTrail.reported_report
    (trail : RegionTrail) (lines : List Nat) (kind other : IssueKind) :
    (trail.report lines kind).reported other =
      trail.reported other ++ if kind = other then lines else [] := by
  have hnew : (lines.map fun line => Issue.mk line kind).filter (·.kind = other) =
      if kind = other then lines.map (⟨·, kind⟩) else [] := by
    split
    next hkind => exact filter_eq_self.mpr (by simpa using fun _ _ => hkind)
    next hkind => exact filter_eq_nil_iff.mpr (by simpa using fun _ _ => hkind)
  unfold reported report
  rw [filter_append, hnew, map_append]
  split <;> simp [Function.comp_def]

/-! ## What one more directive changes -/

section

variable {directives : List Directive} {closings new : List Closing} {directive : Directive}

lemma stillOpen_append : StillOpen (closings ++ new) frame ↔
    StillOpen closings frame ∧ StillOpen new frame :=
  forall_mem_append

lemma ClosesInnermost.isOpenAt (hcls : ClosesInnermost directives closings) {closing : Closing}
    (hcl : closing ∈ closings) : IsOpenAt directives closings closing.line closing.frame := by
  obtain ⟨-, -, -, -, hinmost⟩ := (hcls closing).mp hcl
  exact hinmost.toIsOpenAt

lemma DirectivesInOrder.concat (horder : DirectivesInOrder directives)
    (hread : ∀ earlier ∈ directives, earlier.line < directive.line) :
    DirectivesInOrder (directives ++ [directive]) :=
  pairwise_concat horder hread

lemma givenUp_concat (hopen : ∀ closing ∈ new, StillOpen closings closing.frame)
    (hfresh : ∀ frame ∈ directive.frame?, StillOpen (closings ++ new) frame) :
    GivenUp (directives ++ [directive]) (closings ++ new) frame ↔
      GivenUp directives closings frame ∨
        (frame ∈ openers directives ∧ StillOpen closings frame) ∧ ¬StillOpen new frame ∧
          ∀ closing ∈ new, closing.frame ≠ frame := by
  constructor
  · rintro ⟨hopn, hended, hshut⟩
    obtain ⟨hold, hnew⟩ := forall_mem_append.mp hshut
    rw [openers_concat] at hopn
    rcases mem_append.mp hopn with hopn | hlast
    · by_cases hstill : StillOpen closings frame
      · exact .inr ⟨⟨hopn, hstill⟩, fun h => hended (stillOpen_append.mpr ⟨hstill, h⟩), hnew⟩
      · exact .inl ⟨hopn, hstill, hold⟩
    · exact absurd (hfresh frame (Option.mem_toList.mp hlast)) hended
  · have hopeners (hopn : frame ∈ openers directives) :
        frame ∈ openers (directives ++ [directive]) := by
      rw [openers_concat]
      exact mem_append_left _ hopn
    rintro (⟨hopn, hended, hshut⟩ | ⟨⟨hopn, hstill⟩, hended, hshut⟩)
    · refine ⟨hopeners hopn, fun h => hended (stillOpen_append.mp h).1,
        forall_mem_append.mpr ⟨hshut, fun closing hcl => ?_⟩⟩
      rintro rfl
      exact hended (hopen closing hcl)
    · exact ⟨hopeners hopn, fun h => hended (stillOpen_append.mp h).2,
        forall_mem_append.mpr ⟨hstill.frame_ne, hshut⟩⟩

variable (hcls : ClosesInnermost directives closings)
  (hread : ∀ earlier ∈ directives, earlier.line < directive.line)
  (hnew : ∀ closing ∈ new, closing.line = directive.line)
include hcls hread

lemma stillOpen_of_frame? (hframe : directive.frame? = some frame) : StillOpen closings frame := by
  have hline := Directive.line_of_frame? hframe
  intro closing hcl hends
  have hbef := hcls.line_lt hread hcl
  have hopn := (hcls.isOpenAt hcl).before
  rcases hends with rfl | ⟨-, -, hins⟩ <;> omega

include hnew

lemma unmatched_concat : Unmatched (directives ++ [directive]) (closings ++ new) line ↔
      Unmatched directives closings line ∨ line = directive.line ∧ directive.isEnd ∧ new = [] := by
  constructor
  · rintro ⟨⟨found, hfound, rfl, hend⟩, hshut⟩
    rcases mem_append.mp hfound with hold | hlast
    · exact .inl ⟨⟨found, hold, rfl, hend⟩,
        fun closing hcl => hshut closing (mem_append_left _ hcl)⟩
    · obtain rfl := mem_singleton.mp hlast
      refine .inr ⟨rfl, hend, eq_nil_iff_forall_not_mem.mpr fun closing hcl => ?_⟩
      exact hshut closing (mem_append_right _ hcl) (hnew closing hcl)
  · rintro (⟨⟨found, hfound, rfl, hend⟩, hshut⟩ | ⟨rfl, hend, rfl⟩)
    · refine ⟨⟨found, mem_append_left _ hfound, rfl, hend⟩, fun closing hcl => ?_⟩
      rcases mem_append.mp hcl with hold | hlast
      · exact hshut closing hold
      · have hbef := hread found hfound
        rw [hnew closing hlast]
        omega
    · refine ⟨⟨directive, mem_append_right _ (mem_singleton_self _), rfl, hend⟩, ?_⟩
      intro closing hcl
      rw [append_nil] at hcl
      exact (hcls.line_lt hread hcl).ne

omit hcls hread in
lemma regionAt_concat (hline : line < directive.line) :
    regionAt (directives ++ [directive]) (closings ++ new) line =
      regionAt directives closings line := by
  have hlast : directive.frame?.toList.filter (fun frame =>
      decide (frame.line ≤ line ∧
        ∀ closing ∈ closings ++ new, closing.frame = frame → line ≤ closing.line)) = [] := by
    refine filter_eq_nil_iff.mpr fun frame hframe => ?_
    have hplace := Directive.line_of_frame? (Option.mem_toList.mp hframe)
    simp only [decide_eq_true_eq, not_and]
    intro hle
    omega
  have hsame (frame : Frame) :
      (∀ closing ∈ closings ++ new, closing.frame = frame → line ≤ closing.line) ↔
        ∀ closing ∈ closings, closing.frame = frame → line ≤ closing.line := by
    constructor
    · exact fun hall closing hcl => hall closing (mem_append_left _ hcl)
    · intro hall closing hcl hframe
      rcases mem_append.mp hcl with hold | hlater
      · exact hall closing hold hframe
      · rw [hnew closing hlater]
        exact hline.le
  unfold regionAt
  rw [openers_concat, filter_append, hlast, append_nil]
  simp only [hsame]

end

namespace RegionTrail.Accounts

variable {trail : RegionTrail} {closings : List Closing} {read : Nat}

section

variable (hacc : trail.Accounts closings read)
include hacc

lemma mono {more : Nat} (hmore : read ≤ more) : trail.Accounts closings more := { hacc with
    directives_read := fun directive hdir =>
      Nat.lt_of_lt_of_le (hacc.directives_read directive hdir) hmore
    stamps := fun stamp hstamp =>
      ⟨Nat.lt_of_lt_of_le (hacc.stamps stamp hstamp).1 hmore, (hacc.stamps stamp hstamp).2⟩ }

lemma openers_read (hframe : frame ∈ openers trail.directives) : frame.line < read := by
  obtain ⟨directive, hdir, hopens⟩ := mem_openers.mp hframe
  rw [Directive.line_of_frame? hopens]
  exact hacc.directives_read directive hdir

lemma mem_frames_iff :
    frame ∈ trail.frames ↔ frame ∈ openers trail.directives ∧ StillOpen closings frame := by
  rw [← mem_reverse, hacc.frames, mem_filter, decide_eq_true_eq]

lemma isOpenAt_iff : IsOpenAt trail.directives closings read frame ↔ frame ∈ trail.frames := by
  rw [hacc.mem_frames_iff]
  constructor
  · rintro ⟨hopn, -, hkept⟩
    refine ⟨hopn, fun closing hcl => hkept closing hcl ?_⟩
    exact hacc.closes.line_lt hacc.directives_read hcl
  · rintro ⟨hopn, hopen⟩
    exact ⟨hopn, hacc.openers_read hopn, fun closing hcl _ => hopen closing hcl⟩

lemma frames_sorted : trail.frames.reverse.Pairwise fun outer inner => outer.line < inner.line := by
  rw [hacc.frames]
  exact hacc.inOrder.openers_sorted.filter _

lemma currentRegion_eq (hline : read ≤ line) :
    trail.currentRegion = regionAt trail.directives closings line := by
  have hregs (frame : Frame) (hframe : frame ∈ openers trail.directives) :
      (frame.isRegion && decide (StillOpen closings frame)) =
        (frame.isRegion && decide (frame.line ≤ line ∧
          ∀ closing ∈ closings, closing.frame = frame → line ≤ closing.line)) := by
    cases hreg : frame.isRegion with
    | false => rfl
    | true =>
      have hread := hacc.openers_read hframe
      rw [Bool.true_and, Bool.true_and, decide_eq_decide]
      constructor
      · intro hopen
        exact ⟨by omega, fun closing hcl hsame => absurd hsame (hopen.frame_ne closing hcl)⟩
      · rintro ⟨-, hlater⟩
        rcases hacc.regions_closed frame hframe hreg with hopen | ⟨closing, hcl, hsame⟩
        · exact hopen
        · have hbef := hacc.closes.line_lt hacc.directives_read hcl
          have hafter := hlater closing hcl hsame
          omega
  calc
    trail.currentRegion = (trail.frames.filter Frame.isRegion).findSome? Frame.regionName? :=
      findSome?_regionName? trail.frames
    _ = (((openers trail.directives).filter (StillOpen closings ·)).filter
          Frame.isRegion).reverse.findSome? Frame.regionName? := by
        rw [← hacc.frames, filter_reverse, reverse_reverse]
    _ = (((openers trail.directives).filter fun frame => frame.line ≤ line ∧
          ∀ closing ∈ closings, closing.frame = frame → line ≤ closing.line).filter
            Frame.isRegion).reverse.findSome? Frame.regionName? := by
        rw [filter_filter, filter_congr hregs, ← filter_filter]
    _ = regionAt trail.directives closings line := by
        rw [← filter_reverse, ← findSome?_regionName?, regionAt]

lemma symbols (hnext : read ≤ next)
    {stamps : List (Nat × Option String)} (hstamps : ∀ stamp ∈ stamps,
      read ≤ stamp.1 ∧ stamp.1 < next ∧ stamp.2 = trail.currentRegion) :
    ({ trail with stamps := trail.stamps ++ stamps } : RegionTrail).Accounts closings next := by
  have hmore := hacc.mono hnext
  refine { hmore with stamps := fun stamp hstamp => ?_ }
  rcases mem_append.mp hstamp with hold | hlast
  · exact hmore.stamps stamp hold
  · obtain ⟨hfirst, hlast, hreg⟩ := hstamps stamp hlast
    exact ⟨hlast, hreg.trans (hacc.currentRegion_eq hfirst)⟩

end

end RegionTrail.Accounts

/-! ## Directives -/

/-- What a directive does to a trail, told by the closing that it makes. -/
structure RegionTrail.Steps (trail : RegionTrail) (directive : Directive) (new : List Closing)
    (after : RegionTrail) : Prop where
  directives : after.directives = trail.directives ++ [directive]
  stamps : after.stamps = trail.stamps
  closes : ∀ closing, closing ∈ new ↔ closing.line = directive.line ∧
      directive.instruction? = some closing.frame.ending ∧ closing.frame ∈ trail.frames ∧
      ∀ other ∈ trail.frames, other.ending = closing.frame.ending → other.line ≤ closing.frame.line
  sorted : new.Pairwise fun earlier later => earlier.line < later.line
  frames : after.frames.reverse =
      (trail.frames.reverse ++ directive.frame?.toList).filter (StillOpen new ·)
  regions : after.regions = trail.regions ++
      new.filterMap fun closing => closing.frame.regionTo? closing.line
  unclosed : after.reported .unclosedRegion = trail.reported .unclosedRegion ++
      (trail.frames.reverse.filter fun frame =>
        ¬StillOpen new frame ∧ ∀ closing ∈ new, closing.frame ≠ frame).map Frame.line
  unexpected : after.reported .unexpectedRegionEnd = trail.reported .unexpectedRegionEnd ++
      if directive.isEnd = true ∧ new = [] then [directive.line] else []

lemma RegionTrail.steps_nil {trail : RegionTrail}
    (hdirs : after.directives = trail.directives ++ [directive])
    (hstamps : after.stamps = trail.stamps) (hregs : after.regions = trail.regions)
    (hfrs : after.frames = directive.frame?.toList ++ trail.frames)
    (hnone : ∀ frame ∈ trail.frames, directive.instruction? ≠ some frame.ending)
    (huncl : after.reported .unclosedRegion = trail.reported .unclosedRegion)
    (hunexpected : after.reported .unexpectedRegionEnd =
      trail.reported .unexpectedRegionEnd ++ if directive.isEnd then [directive.line] else []) :
    trail.Steps directive [] after := by
  have hall (frames : List Frame) : frames.filter (StillOpen [] ·) = frames :=
    filter_eq_self.mpr fun frame _ => by simp [StillOpen]
  refine ⟨hdirs, hstamps, fun closing => ⟨by simp, ?_⟩, .nil, ?_, ?_, ?_, ?_⟩
  · rintro ⟨-, hinstr, hframe, -⟩
    exact absurd hinstr (hnone closing.frame hframe)
  · rw [hall, hfrs, reverse_append]
    cases directive.frame? <;> rfl
  · simp [hregs]
  · simp [huncl, StillOpen]
  · simp [hunexpected]

lemma RegionTrail.steps_of_not_isEnd {trail : RegionTrail} (hend : directive.isEnd = false)
    (hafter : after = { trail with frames := directive.frame?.toList ++ trail.frames }) :
    trail.Steps directive [] (after.addDirective directive) := by
  subst hafter
  refine steps_nil rfl rfl rfl rfl (fun frame _ hinstr => ?_) rfl ?_
  · rw [Directive.isEnd_of_instruction? hinstr] at hend
    cases hend
  · rw [hend]
    exact (append_nil _).symm

namespace RegionTrail.Accounts

variable {trail : RegionTrail} {closings new : List Closing}
  (hacc : trail.Accounts closings directive.line)
include hacc

lemma isInnermostAt_iff :
    IsInnermostAt trail.directives closings directive.line frame ↔ frame ∈ trail.frames ∧
      ∀ other ∈ trail.frames, other.ending = frame.ending → other.line ≤ frame.line := by
  simp only [← hacc.isOpenAt_iff]
  exact ⟨fun h => ⟨h.toIsOpenAt, h.innermost⟩, fun h => ⟨h.1, h.2⟩⟩

section

variable (hsteps : trail.Steps directive new after)
include hsteps

lemma stillOpen_fresh (hframe : frame ∈ directive.frame?) : StillOpen (closings ++ new) frame := by
  refine stillOpen_append.mpr ⟨stillOpen_of_frame? hacc.closes hacc.directives_read hframe, ?_⟩
  intro closing hcl
  have hend := ((hsteps.closes closing).mp hcl).2.1
  rw [Directive.frame?_of_isEnd (Directive.isEnd_of_instruction? hend)] at hframe
  cases hframe

lemma regions_closed_step (hframe : frame ∈ openers trail.directives) (hreg : frame.isRegion) :
    StillOpen (closings ++ new) frame ∨ ∃ closing ∈ closings ++ new, closing.frame = frame := by
  rcases hacc.regions_closed frame hframe hreg with hstill | ⟨found, hfound, hsame⟩
  · refine or_iff_not_imp_left.mpr fun hended => ?_
    obtain ⟨closing, hcl, hends⟩ : ∃ closing ∈ new, closing.Ends frame := by
      by_contra hnone
      exact hended (stillOpen_append.mpr ⟨hstill, by simpa [StillOpen] using hnone⟩)
    refine ⟨closing, mem_append_right _ hcl, hends.resolve_right ?_⟩
    rintro ⟨houter, hbelow, -⟩
    obtain ⟨-, -, -, hinmost⟩ := (hsteps.closes closing).mp hcl
    refine Nat.not_lt.mpr (hinmost frame (hacc.mem_frames_iff.mpr ⟨hframe, hstill⟩) ?_) hbelow
    rw [Frame.ending_eq_endRegion_iff.mpr houter, Frame.ending_eq_endRegion_iff.mpr hreg]
  · exact .inr ⟨found, mem_append_left _ hfound, hsame⟩

lemma unclosed_step : ListsOnce (after.reported .unclosedRegion) fun line => ∃ frame,
      GivenUp (trail.directives ++ [directive]) (closings ++ new) frame ∧ frame.line = line := by
  let lost := trail.frames.reverse.filter fun frame =>
    ¬StillOpen new frame ∧ ∀ closing ∈ new, closing.frame ≠ frame
  have hlost {frame : Frame} : frame ∈ lost ↔
      (frame ∈ openers trail.directives ∧ StillOpen closings frame) ∧
        ¬StillOpen new frame ∧ ∀ closing ∈ new, closing.frame ≠ frame := by
    rw [mem_filter, mem_reverse, hacc.mem_frames_iff, decide_eq_true_eq]
  have hopen (closing : Closing) (hcl : closing ∈ new) : StillOpen closings closing.frame := by
    obtain ⟨-, -, hframe, -⟩ := (hsteps.closes closing).mp hcl
    exact (hacc.mem_frames_iff.mp hframe).2
  have hlines : ListsOnce (lost.map Frame.line) fun line => ∃ frame ∈ lost, frame.line = line :=
    ⟨pairwise_map.mpr ((hacc.frames_sorted.filter _).imp Nat.ne_of_lt), fun line => mem_map⟩
  rw [hsteps.unclosed]
  refine (hacc.unclosed.append hlines ?_).congr fun line => ?_
  · rintro line ⟨first, hfirst, rfl⟩ ⟨second, hsnd, hsame⟩
    obtain ⟨⟨hopn, hstill⟩, -⟩ := hlost.mp hsnd
    rw [eq_of_line_eq hacc.inOrder.openers_sorted hopn hfirst.opened hsame] at hstill
    exact hfirst.ended hstill
  · simp only [givenUp_concat hopen fun _ => hacc.stillOpen_fresh hsteps, hlost,
      or_and_right, exists_or]

lemma step : after.Accounts (closings ++ new) (directive.line + 1) := by
  have hread := hacc.directives_read
  have hnew (closing : Closing) : closing ∈ new ↔ closing.line = directive.line ∧
      directive.instruction? = some closing.frame.ending ∧
      IsInnermostAt trail.directives closings directive.line closing.frame := by
    rw [hsteps.closes, hacc.isInnermostAt_iff]
  have hline (closing : Closing) (hcl : closing ∈ new) : closing.line = directive.line :=
    ((hnew closing).mp hcl).1
  have hdirs := hsteps.directives
  constructor
  · rw [hdirs]
    exact hacc.inOrder.concat hread
  · rw [hdirs]
    exact forall_mem_concat (fun earlier hearl => Nat.lt_succ_of_lt (hread earlier hearl))
      (Nat.lt_succ_self _)
  · rw [hdirs]
    exact hacc.closes.concat hread hnew
  · refine pairwise_append.mpr ⟨hacc.closings_sorted, hsteps.sorted, ?_⟩
    intro earlier hearl later hlater
    rw [hline later hlater]
    exact hacc.closes.line_lt hread hearl
  · have hfresh := filter_eq_self.mpr fun frame hframe => decide_eq_true
        (stillOpen_append.mp (hacc.stillOpen_fresh hsteps (Option.mem_toList.mp hframe))).1
    rw [hsteps.frames, hacc.frames, hdirs, openers_concat, ← hfresh,
      ← filter_append, filter_filter, hfresh]
    refine filter_congr fun frame _ => ?_
    rw [← Bool.decide_and, decide_eq_decide, stillOpen_append, and_comm]
  · rw [hsteps.regions, hacc.regions, filterMap_append]
  · rw [hdirs, openers_concat]
    intro frame hframe hreg
    rcases mem_append.mp hframe with hold | hlast
    · exact hacc.regions_closed_step hsteps hold hreg
    · exact .inl (hacc.stillOpen_fresh hsteps (Option.mem_toList.mp hlast))
  · rw [hdirs]
    exact hacc.unclosed_step hsteps
  · have hlast : ListsOnce (if directive.isEnd ∧ new = [] then [directive.line] else []) fun line =>
          line = directive.line ∧ directive.isEnd ∧ new = [] := by
      split
      next h => exact ⟨pairwise_singleton _ _, by simp [h]⟩
      next h => exact ⟨nodup_nil, fun line => by simpa using fun _ => not_and.mp h⟩
    rw [hsteps.unexpected, hdirs]
    refine (hacc.unexpected.append hlast ?_).congr fun line => ?_
    · rintro line ⟨⟨found, hfound, rfl, -⟩, -⟩ ⟨hsame, -⟩
      exact (hread found hfound).ne hsame
    · rw [unmatched_concat hacc.closes hread hline]
  · intro stamp hstamp
    rw [hsteps.stamps] at hstamp
    obtain ⟨hbef, hreg⟩ := hacc.stamps stamp hstamp
    rw [hdirs, regionAt_concat hline hbef]
    exact ⟨Nat.lt_succ_of_lt hbef, hreg⟩

end

section Cut

variable {above below : List Frame} (hstack : trail.frames.reverse = below.reverse ++ frame :: above)
include hstack

lemma line_lt_of_cut : (∀ other ∈ below.reverse, other.line < frame.line) ∧
    ∀ other ∈ above, frame.line < other.line ∧ other.line < directive.line := by
  have hsort := hacc.frames_sorted
  rw [hstack, pairwise_append] at hsort
  obtain ⟨-, hins, hbelow⟩ := hsort
  refine ⟨fun other hoth => hbelow other hoth frame mem_cons_self, fun other hoth =>
    ⟨rel_of_pairwise_cons hins hoth, ?_⟩⟩
  have hmem : other ∈ trail.frames.reverse := hstack ▸ mem_append_right _ (mem_cons_of_mem _ hoth)
  exact hacc.openers_read (hacc.mem_frames_iff.mp (mem_reverse.mp hmem)).1

lemma stillOpen_of_cut : (∀ other ∈ below.reverse, StillOpen [⟨frame, directive.line⟩] other) ∧
      ∀ other ∈ above, (StillOpen [⟨frame, directive.line⟩] other ↔ ¬frame.isRegion) ∧
        frame ≠ other := by
  obtain ⟨houter, hinner⟩ := hacc.line_lt_of_cut hstack
  constructor
  · intro other hoth
    simpa [StillOpen] using Closing.not_ends_of_outer (houter other hoth)
  · intro other hoth
    have hends : (Closing.Ends ⟨frame, directive.line⟩ other ↔ _) ∧ _ :=
      Closing.ends_iff_of_inner (hinner other hoth).1 (hinner other hoth).2
    exact ⟨by simp [StillOpen, hends.1], hends.2.symm⟩

lemma frames_of_cut : trail.frames.reverse.filter (StillOpen [⟨frame, directive.line⟩] ·) =
    below.reverse ++ if frame.isRegion then [] else above := by
  obtain ⟨hkeeps, hends⟩ := hacc.stillOpen_of_cut hstack
  rw [hstack, filter_append, filter_cons_of_neg (by simp [StillOpen, Closing.Ends]),
    filter_eq_self.mpr fun other hoth => decide_eq_true (hkeeps other hoth)]
  congr 1
  split
  next hreg => exact filter_eq_nil_iff.mpr fun other hoth => by simp [hends other hoth, hreg]
  next hreg => exact filter_eq_self.mpr fun other hoth => by simp [hends other hoth, hreg]

lemma lost_of_cut : (trail.frames.reverse.filter fun other =>
    ¬StillOpen [⟨frame, directive.line⟩] other ∧
      ∀ closing ∈ [Closing.mk frame directive.line], closing.frame ≠ other) =
    if frame.isRegion then above else [] := by
  obtain ⟨hkeeps, hends⟩ := hacc.stillOpen_of_cut hstack
  rw [hstack, filter_append, filter_cons_of_neg (by simp),
    filter_eq_nil_iff.mpr fun other hoth => by simp [hkeeps other hoth], nil_append]
  split
  next hreg => exact filter_eq_self.mpr fun other hoth => by simp [hends other hoth, hreg]
  next hreg => exact filter_eq_nil_iff.mpr fun other hoth => by simp [hends other hoth, hreg]

lemma closes_of_cut (hinstr : directive.instruction? = some frame.ending)
    (habove : ∀ other ∈ above, other.ending ≠ frame.ending) (closing : Closing) :
    closing ∈ [Closing.mk frame directive.line] ↔ closing.line = directive.line ∧
      directive.instruction? = some closing.frame.ending ∧ closing.frame ∈ trail.frames ∧
      ∀ other ∈ trail.frames, other.ending = closing.frame.ending →
        other.line ≤ closing.frame.line := by
  have hmem (other : Frame) : other ∈ trail.frames ↔ other ∈ below.reverse ++ frame :: above := by
    rw [← mem_reverse, hstack]
  have hframe := (hmem frame).mpr (mem_append_right _ mem_cons_self)
  have hinmost (other : Frame) (hoth : other ∈ trail.frames)
      (hending : other.ending = frame.ending) : other.line ≤ frame.line := by
    rcases mem_append.mp ((hmem other).mp hoth) with hout | hin
    · exact ((hacc.line_lt_of_cut hstack).1 other hout).le
    · rcases mem_cons.mp hin with rfl | hin
      · exact Nat.le_refl _
      · exact absurd hending (habove other hin)
  constructor
  · intro hcl
    obtain rfl := mem_singleton.mp hcl
    exact ⟨rfl, hinstr, hframe, hinmost⟩
  · rintro ⟨hline, hsnd, hfound, hlast⟩
    have hending : frame.ending = closing.frame.ending := Option.some.inj (hinstr.symm.trans hsnd)
    have hsame : closing.frame = frame := eq_of_line_eq hacc.frames_sorted
      (mem_reverse.mpr hfound) (mem_reverse.mpr hframe)
      (Nat.le_antisymm (hinmost _ hfound hending.symm) (hlast frame hframe hending))
    rw [mem_singleton, ← hsame, ← hline]

end Cut

/-- The stack is cut at the frame that is closed.  A region takes what lies above it
along, and a conditional does not. -/
lemma steps_close (hend : directive.isEnd) {isKind : Frame → Bool}
    (hcls : ∀ frame, directive.instruction? = some frame.ending ↔ isKind frame) :
    ∃ new, trail.Steps directive new
      ((trail.close isKind directive.line).addDirective directive) := by
  have hnoFrame := Directive.frame?_of_isEnd hend
  unfold RegionTrail.close
  cases hcut : cutAt? isKind trail.frames with
  | none =>
    refine ⟨[], steps_nil rfl rfl rfl ?_ (fun frame hframe hinstr => ?_) ?_ ?_⟩
    · rw [hnoFrame]
      rfl
    · have hopen := (hcls frame).mp hinstr
      rw [cutAt?_eq_none_iff.mp hcut frame hframe] at hopen
      cases hopen
    · exact (trail.reported_report _ _ _).trans (append_nil _)
    · rw [if_pos hend]
      exact trail.reported_report _ _ _
  | some found =>
    obtain ⟨above, frame, below⟩ := found
    obtain ⟨hstack, hshut, habove⟩ := cutAt?_eq_some hcut
    have hinstr := (hcls frame).mpr hshut
    refine ⟨[⟨frame, directive.line⟩], rfl, rfl,
      hacc.closes_of_cut hstack hinstr fun other hoth hending => ?_,
      pairwise_singleton _ _, ?_, ?_, ?_, ?_⟩
    · have hopen := (hcls other).mp (hending ▸ hinstr)
      rw [habove other hoth] at hopen
      cases hopen
    · rw [hnoFrame, Option.toList_none, append_nil, hacc.frames_of_cut hstack]
      cases hreg : frame.isRegion <;> simp [addDirective, hreg]
    · cases hreg : frame.regionTo? directive.line <;> simp [addDirective, hreg]
    · refine (trail.reported_report _ _ _).trans ?_
      rw [if_pos rfl, hacc.lost_of_cut hstack]
      cases frame.isRegion <;> rfl
    · exact (trail.reported_report _ _ _).trans (by simp)

lemma follow : ∃ more, (trail.follow directive).Accounts more (directive.line + 1) := by
  suffices hsteps : ∃ new, trail.Steps directive new (trail.follow directive) by
    obtain ⟨new, hsteps⟩ := hsteps
    exact ⟨closings ++ new, hacc.step hsteps⟩
  unfold RegionTrail.follow
  simp only
  split
  next h => exact ⟨[], steps_of_not_isEnd (by simp [Directive.isEnd, h]) (by simp [Directive.frame?, h])⟩
  next h =>
    refine hacc.steps_close (by simp [Directive.isEnd, h]) fun frame => ?_
    rw [h, Option.some_inj, eq_comm, Frame.ending_eq_endRegion_iff]
  next h => exact ⟨[], steps_of_not_isEnd (by simp [Directive.isEnd, h]) (by simp [Directive.frame?, h])⟩
  next h =>
    refine hacc.steps_close (by simp [Directive.isEnd, h]) fun frame => ?_
    rw [h, Option.some_inj, eq_comm, Frame.ending_eq_endIf_iff]
  next hreg hendRegion hif hendIf =>
    refine ⟨[], steps_of_not_isEnd (by simpa [Directive.isEnd] using ⟨hendRegion, hendIf⟩) ?_⟩
    have hframe : directive.frame? = none := by
      unfold Directive.frame?
      split <;> first | rfl | contradiction
    rw [hframe]
    rfl

end RegionTrail.Accounts

lemma RegionTrail.Reads.accounts {before : RegionTrail} (hreads : before.Reads number next after)
    (hnext : number ≤ next) {closings : List Closing} (hacc : before.Accounts closings number) :
    ∃ more, after.Accounts more next := by
  cases hreads with
  | directive directive hline hlast =>
    subst hline hlast
    exact hacc.follow
  | symbols stamps hstamps => exact ⟨closings, hacc.symbols hnext hstamps⟩

lemma ScanState.accounts_scanLines {state : ScanState} {closings : List Closing}
    (hacc : state.regionTrail.Accounts closings number) (lines : List (List Char)) :
    ∃ more, (state.scanLines number lines).regionTrail.Accounts more (number + lines.length) := by
  let accounted (number : Nat) (state : ScanState) : Prop :=
    ∃ closings, state.regionTrail.Accounts closings number
  have hstart : accounted number state := ⟨closings, hacc⟩
  refine scanLines_reads ?_ hstart lines
  rintro number state line rest ⟨closings, hacc⟩
  exact (state.reads_scanLine number line rest).accounts (by omega) hacc

end BslInsight
