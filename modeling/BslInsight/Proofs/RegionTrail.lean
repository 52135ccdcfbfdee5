import BslInsight.Proofs.LineVisits

/-!
# The trail of regions

The trail of regions is what the scanner keeps of preprocessor instructions, with a stamp for each
symbol: the line of its declaration and the region it was given.  Tokens only add stamps, each
with the innermost open region.  All the rest is done by directives.
-/

namespace BslInsight

open List

variable (lastLine : Nat) (trail : RegionTrail) (number : Nat)

namespace Directive

def word (directive : Directive) : List Char := (directive.text.toList.drop 1).takeWhile isWordChar

def instruction? (directive : Directive) : Option Instruction :=
  if directive.kind = .preprocessor then Instruction.ofWord? (String.ofList directive.word)
  else none

def regionName (directive : Directive) : String :=
  let argument := trim (directive.text.toList.drop (1 + directive.word.length))
  String.ofList ((firstWord? argument).getD [])

end Directive

structure RegionTrail where
  frames : List Frame
  regions : List Region
  directives : List Directive
  reports : List Issue
  stamps : List (Nat × Option String)

def Frame.regionTo? (line : Nat) (frame : Frame) : Option Region :=
  frame.regionName?.map fun name => ⟨name, frame.line, line⟩

def Symbol.stamp (symbol : Symbol) : Nat × Option String := (symbol.range.startLine, symbol.region)

namespace RegionTrail

def currentRegion (trail : RegionTrail) : Option String := trail.frames.findSome? Frame.regionName?

def stamped (trail : RegionTrail) (line count : Nat) : RegionTrail := { trail with
    stamps := trail.stamps ++ replicate count (line, trail.currentRegion) }

def report (trail : RegionTrail) (lines : List Nat) (kind : IssueKind) : RegionTrail :=
  { trail with reports := trail.reports ++ lines.map (⟨·, kind⟩) }

def addDirective (trail : RegionTrail) (directive : Directive) : RegionTrail :=
  { trail with directives := trail.directives ++ [directive] }

/-- The end of the innermost frame of a kind.  Conditionals inside a region are given up with
it, and what is inside a conditional stays open. -/
def close (trail : RegionTrail) (isKind : Frame → Bool) (line : Nat) : RegionTrail :=
  match cutAt? isKind trail.frames with
  | none => trail.report [line] .unexpectedRegionEnd
  | some (above, frame, below) =>
    { trail.report (if frame.isRegion then above.map Frame.line else []) .unclosedRegion with
      frames := (if frame.isRegion then [] else above.reverse) ++ below
      regions := trail.regions ++ (frame.regionTo? line).toList }

def finish (trail : RegionTrail) (lastLine : Nat) : RegionTrail :=
  { trail.report (trail.frames.reverse.map Frame.line) .unclosedRegion with
    frames := []
    regions := (trail.regions ++ trail.frames.reverse.filterMap (Frame.regionTo? lastLine)).mergeSort
      fun a b => decide (a.startLine ≤ b.startLine) }

def follow (trail : RegionTrail) (directive : Directive) : RegionTrail :=
  let line := directive.line
  let next := match directive.instruction? with
    | some .region => { trail with frames := .region directive.regionName line :: trail.frames }
    | some .endRegion => trail.close Frame.isRegion line
    | some .«if» => { trail with frames := .conditional line :: trail.frames }
    | some .endIf => trail.close (!·.isRegion) line
    | _ => trail
  next.addDirective directive

inductive Reads (number next : Nat) (trail : RegionTrail) : RegionTrail → Prop
  | directive (directive : Directive) (hline : directive.line = number)
      (hnext : next = number + 1) : Reads number next trail (trail.follow directive)
  | symbols (stamps : List (Nat × Option String)) (hstamps : ∀ stamp ∈ stamps,
        number ≤ stamp.1 ∧ stamp.1 < next ∧ stamp.2 = trail.currentRegion) :
      Reads number next trail { trail with stamps := trail.stamps ++ stamps }

lemma reads_refl (next : Nat) (trail : RegionTrail) : trail.Reads number next trail := by
  have hreads := @Reads.symbols number next trail [] nofun
  rwa [append_nil] at hreads

lemma reads_stamped (count : Nat) :
    trail.Reads number (number + 1) (trail.stamped number count) := by
  refine .symbols _ fun stamp hstamp => ?_
  obtain rfl := eq_of_mem_replicate hstamp
  exact ⟨Nat.le_refl _, Nat.lt_succ_self _, rfl⟩

@[simp] lemma stamped_zero (line : Nat) : trail.stamped line 0 = trail := by
  simp [stamped]

lemma stamped_stamped (line first second : Nat) :
    (trail.stamped line first).stamped line second = trail.stamped line (first + second) := by
  simp [stamped, currentRegion, replicate_append_replicate]

end RegionTrail

namespace ScanState

def stamps (state : ScanState) : List (Nat × Option String) :=
  (state.table.symbols ++ (state.current.map (·.symbol)).toList).map Symbol.stamp

def regionTrail (state : ScanState) : RegionTrail where
  frames := state.frames
  regions := state.table.regions
  directives := state.table.directives
  reports := state.table.issues.filter (·.kind.isAboutRegions)
  stamps := state.stamps

variable (state : ScanState) (line : Nat)

/-! ## Methods and blocks -/

lemma regionTrail_addIssues (places : List Nat) (kind : IssueKind) :
    (state.addIssues places kind).regionTrail =
      if kind.isAboutRegions then state.regionTrail.report places kind else state.regionTrail := by
  have hnew : (places.map fun place => Issue.mk place kind).filter (·.kind.isAboutRegions) =
      if kind.isAboutRegions then places.map (⟨·, kind⟩) else [] := by
    split
    next hkind => exact filter_eq_self.mpr (by simpa using fun _ _ => hkind)
    next hkind => exact filter_eq_nil_iff.mpr (by simpa using fun _ _ => hkind)
  simp only [regionTrail, addIssues, stamps, RegionTrail.report, filter_append, hnew]
  split <;> simp

lemma regionTrail_addIssue (place : Nat) (kind : IssueKind) :
    (state.addIssue place kind).regionTrail =
      if kind.isAboutRegions then state.regionTrail.report [place] kind else state.regionTrail :=
  state.regionTrail_addIssues [place] kind

@[simp] lemma regionTrail_closeMethod :
    (state.closeMethod line).regionTrail = state.regionTrail := by
  cases hcur : state.current with
  | none => simp [closeMethod, hcur]
  | some method =>
    rw [closeMethod_of_current hcur]
    simp [regionTrail, stamps, hcur, OpenMethod.closedSymbol, Symbol.stamp]

@[simp] lemma regionTrail_abandonMethod :
    (state.abandonMethod line).regionTrail = state.regionTrail := by
  unfold abandonMethod
  split
  next => rfl
  next =>
    rw [regionTrail_closeMethod, regionTrail_addIssue]
    rfl

@[simp] lemma regionTrail_terminate (kind : SymbolKind) :
    (state.terminate line kind).regionTrail = state.regionTrail := by
  unfold terminate
  split
  next => exact state.regionTrail_addIssue line .unexpectedTerminator
  next =>
    rw [regionTrail_closeMethod, regionTrail_addIssues, if_neg (by decide)]
    split
    · rfl
    · exact state.regionTrail_addIssue line .mismatchedTerminator

lemma regionTrail_withCurrent {method other : OpenMethod} (hcur : state.current = some method)
    (hsym : other.symbol = method.symbol) :
    { state with current := some other }.regionTrail = state.regionTrail := by
  simp [regionTrail, stamps, hcur, hsym]

@[simp] lemma regionTrail_pushBlock (kind : BlockKind) :
    (state.pushBlock kind line).regionTrail = state.regionTrail := by
  unfold pushBlock
  split
  next => rfl
  next method hcur => exact regionTrail_withCurrent state hcur rfl

@[simp] lemma regionTrail_popBlock (kind : BlockKind) :
    (state.popBlock kind).regionTrail = state.regionTrail := by
  unfold popBlock
  split
  next => rfl
  next method hcur =>
    split
    next => rfl
    next =>
      rw [regionTrail_addIssues, if_neg (by decide)]
      exact regionTrail_withCurrent state hcur rfl

/-! ## Names -/

@[simp] lemma regionTrail_declareImplicit (token : Token) :
    (state.declareImplicit line token).regionTrail = state.regionTrail := by
  unfold declareImplicit
  split
  next => rfl
  next method hcur =>
    simp only
    split
    · rfl
    · exact regionTrail_withCurrent state hcur rfl

@[simp] lemma regionTrail_recordAssignment (target : Token) (right : List Token) :
    (state.recordAssignment line target right).regionTrail = state.regionTrail := by
  rw [← regionTrail_declareImplicit state line target]
  unfold recordAssignment
  simp only
  split
  next method hcur => exact regionTrail_withCurrent _ hcur rfl
  next => rfl

lemma regionTrail_declareVariable (token : Token) (exported : Bool) :
    ∃ count, (state.declareVariable line token exported).regionTrail =
      state.regionTrail.stamped line count := by
  unfold declareVariable
  simp only
  split
  next method hcur =>
    refine ⟨0, ?_⟩
    rw [RegionTrail.stamped_zero]
    exact regionTrail_withCurrent state hcur rfl
  next hcur =>
    refine ⟨1, ?_⟩
    simp [regionTrail, stamps, hcur, Symbol.stamp, RegionTrail.stamped, ScanState.range,
      ScanState.currentRegion, RegionTrail.currentRegion]

lemma regionTrail_perform (action : TokenAction) :
    ∃ count, (state.perform line action).regionTrail = state.regionTrail.stamped line count := by
  cases action with
  | declare token exported => exact state.regionTrail_declareVariable line token exported
  | _ => exact ⟨0, by simp [perform]⟩

lemma regionTrail_processTokens (atStart : Bool) (tokens : List Token) :
    ∃ count, (state.processTokens line atStart tokens).regionTrail =
      state.regionTrail.stamped line count := by
  rw [processTokens_eq_foldl]
  refine foldlRecOn (motive := fun after : ScanState =>
    ∃ count, after.regionTrail = state.regionTrail.stamped line count) _ _ ⟨0, by simp⟩ ?_
  rintro after ⟨count, hcount⟩ action -
  obtain ⟨more, hmore⟩ := after.regionTrail_perform line action
  exact ⟨count + more, by rw [hmore, hcount, RegionTrail.stamped_stamped]⟩

/-! ## Lines -/

lemma regionTrail_statementLine (text : List Char) :
    ∃ count, (state.statementLine line text).regionTrail = state.regionTrail.stamped line count :=
  regionTrail_processTokens { state with inString := (lexLine state.inString text).2 } line true _

lemma regionTrail_beginMethod (text : List Char) (header : Header) (list : ParamList)
    (following : List (List Char)) :
    ∃ count, (state.beginMethod number text header list following).regionTrail =
      (state.regionTrail.stamped number 1).stamped (number + list.extraLines) count := by
  have hbef : (state.beforeMethod number list).regionTrail = state.regionTrail := by
    unfold beforeMethod
    simp only
    split
    · simp
    · rw [regionTrail_addIssue, if_neg (by decide), regionTrail_abandonMethod]
  have hcur := state.current_beforeMethod number list
  let before := state.beforeMethod number list
  let tokens := (lexLine before.inString list.tail).1
  let opened : ScanState := { before with
      inString := (lexLine before.inString list.tail).2
      comments := []
      directive := none
      current := some (before.headerMethod number text header list following tokens) }
  have hopn : opened.regionTrail = before.regionTrail.stamped number 1 := by
    simp [opened, before, regionTrail, stamps, hcur, Symbol.stamp, RegionTrail.stamped,
      headerMethod, ScanState.range, ScanState.currentRegion, RegionTrail.currentRegion]
  obtain ⟨count, hcount⟩ :=
    opened.regionTrail_processTokens (number + list.extraLines) true (afterExport tokens)
  refine ⟨count, ?_⟩
  rw [← hbef, ← hopn, ← hcount, beginMethod_eq]

lemma regionTrail_directiveLine (trimmed : List Char) :
    (state.directiveLine line trimmed).regionTrail =
      state.regionTrail.follow ⟨.compilation, line, String.ofList (withoutComment trimmed)⟩ := by
  unfold directiveLine
  simp only
  split <;> rfl

lemma regionTrail_closeRegion :
    (state.closeRegion line).regionTrail = state.regionTrail.close Frame.isRegion line := by
  have hfrs : state.regionTrail.frames = state.frames := rfl
  unfold closeRegion RegionTrail.close
  rw [hfrs]
  cases hcut : cutAt? Frame.isRegion state.frames with
  | none => exact state.regionTrail_addIssue line .unexpectedRegionEnd
  | some cut =>
    obtain ⟨above, frame, below⟩ := cut
    have hreg := (cutAt?_eq_some hcut).2.1
    cases frame with
    | conditional start => cases hreg
    | region name start =>
      have hrptd := regionTrail_addIssues { state with frames := below }
        (above.map Frame.line) .unclosedRegion
      exact congrArg (fun trail : RegionTrail =>
        { trail with regions := trail.regions ++ [Region.mk name start line] }) hrptd

lemma regionTrail_closeConditional : (state.closeConditional line).regionTrail =
    state.regionTrail.close (!·.isRegion) line := by
  have hfrs : state.regionTrail.frames = state.frames := rfl
  unfold closeConditional RegionTrail.close
  rw [hfrs]
  cases hcut : cutAt? (fun frame : Frame => !frame.isRegion) state.frames with
  | none => exact state.regionTrail_addIssue line .unexpectedRegionEnd
  | some cut =>
    obtain ⟨above, frame, below⟩ := cut
    have hreg := (cutAt?_eq_some hcut).2.1
    cases frame with
    | region name start => cases hreg
    | conditional start =>
      simp [regionTrail, stamps, RegionTrail.report, Frame.isRegion, Frame.regionTo?,
        Frame.regionName?]

lemma exists_follow_preprocessorLine (trimmed : List Char) :
    ∃ directive : Directive, directive.line = line ∧
      (state.preprocessorLine line trimmed).regionTrail = state.regionTrail.follow directive := by
  let text := withoutComment trimmed
  let plain : Directive := ⟨.preprocessor, line, String.ofList text⟩
  have hword : plain.word = (text.drop 1).takeWhile isWordChar := by
    simp [plain, Directive.word]
  have hinstr : plain.instruction? =
      Instruction.ofWord? (String.ofList ((text.drop 1).takeWhile isWordChar)) := by
    rw [Directive.instruction?, hword, if_pos rfl]
  unfold preprocessorLine
  simp only
  rw [← hinstr]
  split
  next h =>
    have hname : plain.regionName = String.ofList ((firstWord? (trim (text.drop
          (1 + ((text.drop 1).takeWhile isWordChar).length)))).getD []) := by
      rw [Directive.regionName, hword]
      simp [plain]
    refine ⟨plain, rfl, ?_⟩
    simp only [RegionTrail.follow, h, hname]
    rfl
  next h =>
    refine ⟨plain, rfl, ?_⟩
    simp only [RegionTrail.follow, h]
    rw [← state.regionTrail_closeRegion line]
    rfl
  next h =>
    refine ⟨plain, rfl, ?_⟩
    simp only [RegionTrail.follow, h]
    rfl
  next h =>
    refine ⟨plain, rfl, ?_⟩
    simp only [RegionTrail.follow, h]
    rw [← state.regionTrail_closeConditional line]
    rfl
  next => exact ⟨⟨.«import», line, _⟩, rfl, rfl⟩
  next =>
    refine ⟨plain, rfl, ?_⟩
    simp only [RegionTrail.follow]
    rfl

lemma regionTrail_withComments (comments : List (List Char)) :
    { state with comments }.regionTrail = state.regionTrail :=
  rfl

lemma reads_passLine (text : List Char) :
    state.regionTrail.Reads line (line + 1) (state.passLine line text).regionTrail := by
  unfold passLine
  simp only
  split_ifs
  · exact RegionTrail.reads_refl _ _ _
  · exact RegionTrail.reads_refl _ _ _
  · rw [regionTrail_directiveLine]
    exact .directive _ rfl rfl
  · obtain ⟨directive, hline, hfollow⟩ := state.exists_follow_preprocessorLine line (trim text)
    rw [regionTrail_withComments (state.preprocessorLine line (trim text)), hfollow]
    exact .directive directive hline rfl

lemma reads_beginMethod (text : List Char) (header : Header) (list : ParamList)
    (following : List (List Char)) :
    state.regionTrail.Reads number (number + 1 + list.extraLines)
      (state.beginMethod number text header list following).regionTrail := by
  obtain ⟨count, hcount⟩ := state.regionTrail_beginMethod number text header list following
  rw [hcount]
  simp only [RegionTrail.stamped, append_assoc]
  refine .symbols _ fun stamp hstamp => ?_
  rcases mem_append.mp hstamp with hmeth | hvar
  · obtain rfl := eq_of_mem_replicate hmeth
    exact ⟨Nat.le_refl _, by omega, rfl⟩
  · obtain rfl := eq_of_mem_replicate hvar
    exact ⟨Nat.le_add_right _ _, by omega, rfl⟩

lemma reads_scanLine (text : List Char) (following : List (List Char)) :
    state.regionTrail.Reads number (number + 1 + (state.scanLine number text following).2)
      (state.scanLine number text following).1.regionTrail := by
  have hstatements : state.regionTrail.Reads number (number + 1)
      (state.statementLine number text).regionTrail := by
    obtain ⟨count, hcount⟩ := state.regionTrail_statementLine number text
    rw [hcount]
    exact state.regionTrail.reads_stamped number count
  refine scanLine_cases state number text following ?_ ?_ ?_
  · intro visit _ _ _
    exact state.reads_passLine number text
  · intro header visit _ hhdr
    rw [visit.extraLines_of_header hhdr]
    exact state.reads_beginMethod number text header _ following
  · intro comments directive visit _ _
    exact hstatements

/-! ## After the last line -/

lemma regionTrail_finishFrame (frame : Frame) : (finishFrame lastLine state frame).regionTrail =
      { state.regionTrail.report [frame.line] .unclosedRegion with
        regions := state.table.regions ++ (frame.regionTo? lastLine).toList } := by
  have hrep := state.regionTrail_addIssue frame.line .unclosedRegion
  rw [if_pos (by decide)] at hrep
  cases frame with
  | region name line =>
    exact congrArg (fun trail : RegionTrail =>
        { trail with regions := trail.regions ++ [Region.mk name line lastLine] })
      hrep
  | conditional line =>
    simp only [Frame.regionTo?, Frame.regionName?, Option.map_none, Option.toList_none, append_nil]
    exact hrep

lemma regionTrail_finishFrames (frames : List Frame) :
    (frames.foldl (finishFrame lastLine) state).regionTrail =
      { state.regionTrail.report (frames.map Frame.line) .unclosedRegion with
        regions := state.table.regions ++ frames.filterMap (Frame.regionTo? lastLine) } := by
  induction frames generalizing state with
  | nil => simp [RegionTrail.report, regionTrail]
  | cons frame frames ih =>
    have hfirst := state.regionTrail_finishFrame lastLine frame
    have hregs : (finishFrame lastLine state frame).table.regions =
        state.table.regions ++ (frame.regionTo? lastLine).toList :=
      congrArg (·.regions) hfirst
    have hcons : (frame :: frames).filterMap (Frame.regionTo? lastLine) =
        (frame.regionTo? lastLine).toList ++ frames.filterMap (Frame.regionTo? lastLine) := by
      cases hreg : frame.regionTo? lastLine <;> simp [hreg]
    rw [foldl_cons, ih, hfirst, hregs, hcons]
    simp [RegionTrail.report]

lemma regionTrail_finish (lastLine : Nat) :
    ScanState.regionTrail { table := state.finish lastLine } =
      state.regionTrail.finish lastLine := by
  let ended := state.abandonMethod lastLine
  let finished := ended.frames.reverse.foldl (finishFrame lastLine) ended
  have hended : ended.regionTrail = state.regionTrail := state.regionTrail_abandonMethod lastLine
  have hcur : finished.current = none :=
    (moves_finishFrames ended lastLine fun _ => mem_reverse.mp).2.trans
      (state.current_abandonMethod lastLine)
  have hstamps : finished.stamps = finished.table.symbols.map Symbol.stamp := by
    simp [stamps, hcur]
  have hfinished := ended.regionTrail_finishFrames lastLine ended.frames.reverse
  have htable : ScanState.regionTrail { table := state.finish lastLine } =
      { finished.regionTrail with
        frames := []
        regions := finished.regionTrail.regions.mergeSort
          fun a b => decide (a.startLine ≤ b.startLine) } := by
    simp only [regionTrail, hstamps]
    simp only [stamps, finish, Option.map_none, Option.toList_none, append_nil]
    rfl
  rw [htable, hfinished, ← hended]
  rfl

end ScanState

end BslInsight
