import BslInsight.Proofs.ScanAgreement
import BslInsight.Proofs.TableLayout
import BslInsight.Resolve

/-!
# Lines that begin with an assignment

An assignment at the beginning of a line belongs to the method that is open there, or else to the
module.  From its line on the run keeps it, and it is found among the assignments that the table
gives for the line.
-/

namespace BslInsight

open List

variable {method : OpenMethod} {target : Token} {visit : LineVisit} {right : List Token}

def LineVisit.statements (visit : LineVisit) : List Token :=
  if visit.header?.isSome then ScanState.afterExport visit.lexed.1 else visit.lexed.1

structure LineVisit.Assigns (visit : LineVisit) (target : Token) (right : List Token) : Prop where
  isName : target.IsName
  begins : ∃ equals, equals.kind = .assign ∧ visit.statements = target :: equals :: right

namespace ScanState

def Records (assignment : Assignment) (state : ScanState) : Prop := (∃ scope ∈ state.table.scopes,
    scope.containsLine assignment.line = true ∧ assignment ∈ scope.assignments) ∨
  (∃ method, state.current = some method ∧ method.symbol.range.startLine ≤ assignment.line ∧
    assignment ∈ method.assignments) ∨
  (assignment ∈ state.table.moduleAssignments ∧
    (∀ scope ∈ state.table.scopes, scope.containsLine assignment.line = false) ∧
    ∀ method, state.current = some method → assignment.line < method.symbol.range.startLine)

variable {assignment : Assignment} {line : Nat} {state before after : ScanState}

lemma containsLine_closedScope {index place : Nat} (hplace : place ≤ line) :
    (method.closedScope index line).containsLine place ↔ method.symbol.range.startLine ≤ place := by
  rw [MethodScope.containsLine, Bool.and_eq_true, decide_eq_true_eq, decide_eq_true_eq]
  change _ ∧ place ≤ max line _ ↔ _
  exact and_iff_left (hplace.trans (Nat.le_max_left _ _))

lemma Records.closeMethod (hrecs : state.Records assignment)
    (hcur : state.current = some method) (hline : assignment.line ≤ line) :
    (state.closeMethod line).Records assignment := by
  rw [closeMethod_of_current hcur]
  rcases hrecs with ⟨scope, hscope, hkept⟩ | ⟨_, hmeth, hstart, hkept⟩ | ⟨hkept, hscps, hlater⟩
  · exact .inl ⟨scope, mem_append_left _ hscope, hkept⟩
  · obtain rfl := Option.some.inj (hcur.symm.trans hmeth)
    exact .inl ⟨_, mem_append_right _ (mem_singleton_self _),
      (containsLine_closedScope hline).mpr hstart, hkept⟩
  · refine .inr (.inr ⟨hkept, forall_mem_concat hscps ?_, by simp⟩)
    rw [Bool.eq_false_iff]
    exact (containsLine_closedScope hline).not.mpr (Nat.not_le_of_lt (hlater method hcur))

lemma Records.keep
    (hrecs : before.Records assignment) (hscps : after.table.scopes = before.table.scopes)
    (hmodule : before.table.moduleAssignments ⊆ after.table.moduleAssignments)
    (hcur : ∀ method, before.current = some method → ∃ kept, after.current = some kept ∧
      kept.symbol = method.symbol ∧ method.assignments ⊆ kept.assignments)
    (hnone : before.current = none → after.current = none) : after.Records assignment := by
  rcases hrecs with hkept | ⟨method, hmeth, hstart, hkept⟩ | ⟨hkept, hall, hlater⟩
  · exact .inl (hscps ▸ hkept)
  · obtain ⟨kept, hafter, hsym, hassignments⟩ := hcur method hmeth
    exact .inr (.inl ⟨kept, hafter, hsym ▸ hstart, hassignments hkept⟩)
  · refine .inr (.inr ⟨hmodule hkept, hscps ▸ hall, fun method hmeth => ?_⟩)
    cases hbef : before.current with
    | none => simp [hnone hbef] at hmeth
    | some old =>
      obtain ⟨kept, hafter, hsym, -⟩ := hcur old hbef
      obtain rfl := Option.some.inj (hafter.symm.trans hmeth)
      exact hsym ▸ hlater old hbef

lemma Records.move (hmove : ScanMove origin line before after) (hrecs : before.Records assignment)
    (hline : assignment.line ≤ line) : after.Records assignment := by
  cases hmove with
  | close hcur => exact hrecs.closeMethod hcur hline
  | blocks hcur | declareLocal hcur =>
    refine hrecs.keep rfl (fun _ h => h) (fun method hmeth => ?_) (by simp [hcur])
    obtain rfl := Option.some.inj (hcur.symm.trans hmeth)
    exact ⟨_, rfl, rfl, fun _ h => h⟩
  | assign hcur =>
    refine hrecs.keep rfl (fun _ h => h) (fun method hmeth => ?_) (by simp [hcur])
    obtain rfl := Option.some.inj (hcur.symm.trans hmeth)
    exact ⟨_, rfl, rfl, subset_append_left _ _⟩
  | assignOutside hcur =>
    exact hrecs.keep rfl (subset_append_left _ _)
      (fun method hmeth => ⟨method, hmeth, rfl, fun _ h => h⟩) id
  | _ =>
    exact hrecs.keep rfl (fun _ h => h) (fun method hmeth => ⟨method, hmeth, rfl, fun _ h => h⟩) id

lemma scanInvariant_records (assignment : Assignment) :
    ScanInvariant fun read state => assignment.line < read ∧ state.Records assignment where
  mono hholds hmore := ⟨hholds.1.trans_le hmore, hholds.2⟩
  move hmove hholds := ⟨hholds.1, hholds.2.move hmove (Nat.le_of_lt_succ hholds.1)⟩
  directive kind text hholds := ⟨Nat.lt_succ_of_lt hholds.1, hholds.2⟩
  opening := by
    rintro first last state method ⟨hline, hrecs⟩ hnone hlast hopens
    refine ⟨by omega, ?_⟩
    rcases hrecs with hkept | ⟨_, hmeth, -⟩ | ⟨hkept, hscps, -⟩
    · exact .inl hkept
    · simp [hnone] at hmeth
    · refine .inr (.inr ⟨hkept, hscps, ?_⟩)
      rintro _ ⟨⟩
      exact hopens.start ▸ hline

lemma Records.processTokens (hshut : ∀ extent ∈ state.trail.closed, extent.2 < line)
    (hopen : ∀ start ∈ state.trail.current, start ≤ line) {equals : Token} (htgt : target.IsName)
    (heqs : equals.kind = .assign) (right : List Token) :
    (state.processTokens line true (target :: equals :: right)).Records
      (assignmentOf line target right) := by
  have hword : Keyword.ofWord? target.text = none := by simpa [isKeyword] using htgt.2
  have hrecorded : (state.recordAssignment line target right).Records
      (assignmentOf line target right) := by
    rw [← state.trail_declareImplicit line target] at hshut hopen
    unfold recordAssignment
    simp only
    split
    next method hmeth =>
      have hstart := hopen method.symbol.range.startLine (by simp [trail, hmeth])
      exact .inr (.inl ⟨_, rfl, hstart, mem_append_right _ (mem_singleton_self _)⟩)
    next hnone =>
      refine .inr (.inr ⟨mem_append_right _ (mem_singleton_self _), fun scope hscope => ?_,
        by simp [hnone]⟩)
      have hend := hshut _ (mem_map_of_mem hscope)
      rw [MethodScope.containsLine, Bool.and_eq_false_iff]
      exact .inr (decide_eq_false (Nat.not_le_of_lt hend))
  have hread : state.processTokens line true (target :: equals :: right) =
      (state.recordAssignment line target right).processTokens line false (equals :: right) := by
    rw [ScanState.processTokens, htgt.1, hword]
    simp [nextIsAssign, heqs]
  rw [hread]
  exact ((scanInvariant_records _).moves (moves_processTokens _ line false fun _ _ => trivial)
    ⟨Nat.lt_succ_self line, hrecorded⟩).2

lemma LaidOut.trail_lt {read : Nat} (hstate : state.LaidOut read) :
    (∀ extent ∈ state.trail.closed, extent.2 < read) ∧
      ∀ start ∈ state.trail.current, start < read := by
  constructor
  · intro extent hext
    obtain ⟨scope, hscope, rfl⟩ := mem_map.mp hext
    exact (hstate.table.scopes scope hscope).2.1
  · intro start hstart
    obtain ⟨method, hmeth, rfl⟩ := Option.map_eq_some_iff.mp hstart
    exact (hstate.current method hmeth).start

lemma Records.scanLine (hstate : state.LaidOut visit.number)
    (hstr : state.inString = visit.inString) (hassigns : visit.Assigns target right) :
    (state.scanLine visit.number visit.line visit.following).1.Records
      (assignmentOf visit.tokenLine target right) := by
  obtain ⟨number, _, text, following⟩ := visit
  subst hstr
  obtain ⟨hname, equals, heqs, hbeg⟩ := hassigns
  obtain ⟨hshut, hopen⟩ := hstate.trail_lt
  unfold LineVisit.statements at hbeg
  refine scanLine_cases state number text following ?_ ?_ ?_
  · intro visit _ hhdr hlexed
    simp [visit, hhdr, hlexed] at hbeg
  · intro header visit hfalse hhdr
    let list := ParamList.read (text.drop header.paramsStart) following
    rw [hhdr, Option.isSome_some, if_pos rfl, LineVisit.lexed_of_header hhdr] at hbeg
    have htoks : afterExport (lexLine false list.tail).1 = target :: equals :: right := hbeg
    rw [LineVisit.tokenLine, visit.extraLines_of_header hhdr]
    change (state.beginMethod number text header list following).Records
      (assignmentOf (number + list.extraLines) target right)
    rw [beginMethod_eq]
    simp only [inString_beforeMethod, hfalse, htoks]
    refine Records.processTokens (fun extent hext => ?_) ?_ hname heqs right
    · change extent ∈ (state.beforeMethod number list).trail.closed at hext
      rw [trail_beforeMethod, Trail.abandon] at hext
      split at hext
      · exact (hshut extent hext).trans_le (Nat.le_add_right _ _)
      next start hstart =>
        have hbef : start < number := hopen start hstart
        rcases mem_append.mp hext with hold | hnew
        · exact (hshut extent hold).trans_le (Nat.le_add_right _ _)
        · obtain rfl := mem_singleton.mp hnew
          simp only
          omega
    · rintro _ ⟨⟩
      exact Nat.le_add_right _ _
  · intro comments directive visit hhdr hlexed
    rw [hhdr, Option.isSome_none, if_neg (by simp), hlexed] at hbeg
    have hrecs : (state.statementLine number text).Records (assignmentOf number target right) := by
      unfold statementLine
      simp only [hbeg]
      refine Records.processTokens ?_ ?_ hname heqs right
      · exact hshut
      · exact fun start hstart => (hopen start hstart).le
    rw [LineVisit.tokenLine, LineVisit.extraLines_of_no_header hhdr]
    exact hrecs

end ScanState

/-- A run comes to every visit, with what is kept up to there. -/
lemma ScanInvariant.exists_before {holds : Nat → ScanState → Prop} (hinv : ScanInvariant holds)
    {state : ScanState} {number : Nat} {lines : List (List Char)} (hstate : holds number state)
    (hfirst : number = 0 → state.current = none) (hlines : ∀ line ∈ lines, '\n' ∉ line)
    (hvisit : visit ∈ visits state.inString number lines) :
    ∃ before, holds visit.number before ∧ before.inString = visit.inString ∧
      state.scanLines number lines =
        (before.scanLine visit.number visit.line visit.following).1.scanLines
          (visit.tokenLine + 1) (visit.following.drop visit.extraLines) := by
  fun_induction ScanState.scanLines state number lines with
  | case1 state number => simp [visits] at hvisit
  | case2 state number line rest next extra hscan ih =>
    obtain ⟨hline, hrest⟩ := forall_mem_cons.mp hlines
    obtain ⟨hextra, htrail⟩ := state.trail_scanLine number rest hline hrest
    have hnext := hinv.scanLine hstate hfirst line rest
    rw [hscan] at hextra htrail hnext
    have hstr : next.inString = (LineVisit.mk number state.inString line rest).lexed.2 :=
      congrArg Trail.inString htrail
    rw [visits, mem_cons] at hvisit
    rcases hvisit with rfl | hlater
    · refine ⟨state, hstate, rfl, ?_⟩
      rw [hscan, LineVisit.tokenLine, ← hextra, Nat.add_right_comm]
    · rw [← hextra, ← hstr] at hlater
      exact ih hnext (fun h => by omega) (fun other hoth => hrest other (mem_of_mem_drop hoth))
        hlater

lemma ScanState.Records.mem_assignmentsAt
    {assignment : Assignment} {state : ScanState} (hrecs : state.Records assignment)
    (hcur : state.current = none) {lines : Nat} (htable : state.table.LaidOut lines)
    (ws : Snapshot) (catalog : Catalog) :
    assignment ∈ (Resolver.mk state.table ws catalog).assignmentsAt assignment.line := by
  rcases hrecs with ⟨scope, hscope, hline, hkept⟩ | ⟨method, hmeth, -⟩ | ⟨hkept, hscps, -⟩
  · have hfound := (htable.scopeAt?_eq_some_iff _ scope).mpr ⟨hscope, hline⟩
    simpa only [Resolver.assignmentsAt, hfound] using hkept
  · simp [hcur] at hmeth
  · have hnone : state.table.scopeAt? assignment.line = none :=
      find?_eq_none.mpr fun scope hscope => by simp [hscps scope hscope]
    simpa only [Resolver.assignmentsAt, hnone] using hkept

lemma ScanState.laidOut_start (file : Path) (dialect : Dialect) (text : String) :
    ({ table := { file, dialect, text } } : ScanState).LaidOut 0 := by
  refine ⟨?_, by simp, by simp⟩
  constructor <;> simp

lemma laidOut_parseModule (file : Path) (dialect : Dialect) (text : String) :
    (parseModule file dialect text).LaidOut (text.toList.count '\n' + 1) := by
  obtain ⟨state, hstate, -, htable⟩ := ScanState.scanInvariant_laidOut.parseModule
    ScanState.laidOut_start file dialect text
  exact htable ▸ hstate.table

lemma mem_assignmentsAt {text : String} (hvisit : visit ∈ moduleVisits text)
    (hassigns : visit.Assigns target right) (file : Path) (dialect : Dialect) (ws : Snapshot)
    (catalog : Catalog) :
    assignmentOf visit.tokenLine target right ∈
      (Resolver.mk (parseModule file dialect text) ws catalog).assignmentsAt
        visit.tokenLine := by
  let start : ScanState :=
    { table := { file, dialect, text := String.ofList (dropByteOrderMark text.toList) } }
  let last := (moduleLines text).length - 1
  have hkeeps := ScanState.scanInvariant_records (assignmentOf visit.tokenLine target right)
  obtain ⟨before, hbef, hstr, hrun⟩ := ScanState.scanInvariant_laidOut.exists_before
    (ScanState.laidOut_start file dialect start.table.text) (fun _ => rfl)
    (fun _ => break_not_mem_moduleLines) hvisit
  have hscanned := hkeeps.scanLines
    ⟨Nat.lt_succ_self visit.tokenLine, ScanState.Records.scanLine hbef hstr hassigns⟩
    (fun h => by omega) (visit.following.drop visit.extraLines)
  have hlines := congrArg List.length (drop_of_mem_visits hvisit).2
  have hextra := visit.extraLines_le
  rw [length_drop, length_cons] at hlines
  have hlen : visit.tokenLine + 1 + (visit.following.drop visit.extraLines).length = last + 1 := by
    rw [LineVisit.tokenLine, length_drop]
    omega
  rw [← hrun, hlen] at hscanned
  obtain ⟨ended, hmoves, hcur, htable⟩ :=
    (start.scanLines 0 (moduleLines text)).exists_moves_finish last
  have hrecs := (hkeeps.moves hmoves hscanned).2
  have hprs : ended.table = parseModule file dialect text := htable
  rw [← hprs]
  exact hrecs.mem_assignmentsAt hcur (hprs ▸ laidOut_parseModule file dialect text) ws catalog

end BslInsight
