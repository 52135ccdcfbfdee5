import BslInsight.Proofs.LineVisits
import Mathlib.Data.List.Nodup

/-!
# Where methods begin and end

A method begins at each header outside of strings.  It ends at the first terminator from the end
of its parameter list on, if that comes before the next header; otherwise right before that
header, or with the text, and is reported.
-/

namespace BslInsight

open List

variable {line count : Nat} {visit : LineVisit} {text : String}
  {visited rest before : List LineVisit}

/-! ## Methods in the order of the text -/

structure MethodExtent where
  start : Nat
  stop : Nat
  isLeft : Bool

def extentAfter (start count : Nat) : List LineVisit → MethodExtent
  | [] => ⟨start, count - 1, true⟩
  | visit :: rest =>
    if visit.header?.isSome then ⟨start, visit.number - 1, true⟩
    else if visit.hasTerminator then ⟨start, visit.tokenLine, false⟩
    else extentAfter start count rest

def LineVisit.extent (visit : LineVisit) (count : Nat) (rest : List LineVisit) : MethodExtent :=
  if visit.hasTerminator then ⟨visit.number, visit.tokenLine, false⟩
  else extentAfter visit.number count rest

def methodExtents (count : Nat) : List LineVisit → List MethodExtent
  | [] => []
  | visit :: rest =>
    (if visit.header?.isSome then [visit.extent count rest] else []) ++ methodExtents count rest

def headerLines (visited : List LineVisit) : List Nat :=
  (visited.filter (·.header?.isSome)).map (·.number)

structure InTurn (count : Nat) (visited : List LineVisit) : Prop where
  pairwise : visited.Pairwise fun earlier later => earlier.tokenLine < later.number
  bounded : ∀ visit ∈ visited, visit.tokenLine < count

lemma inTurn_visits (inString : Bool) (number : Nat) (lines : List (List Char)) :
    InTurn (number + lines.length) (visits inString number lines) := by
  constructor
  · fun_induction visits inString number lines with
    | case1 => exact .nil
    | case2 inString number line rest first ih =>
      refine pairwise_cons.mpr ⟨fun later hlater => ?_, ih⟩
      have hle := (drop_of_mem_visits hlater).1
      have hline : first.tokenLine = number + first.extraLines := rfl
      omega
  · intro visit hvisit
    obtain ⟨hle, hdrop⟩ := drop_of_mem_visits hvisit
    have hlen := congrArg List.length hdrop
    rw [length_drop, length_cons] at hlen
    have hextra := visit.extraLines_le
    have hline : visit.tokenLine = visit.number + visit.extraLines := rfl
    omega

lemma LineVisit.number_le (visit : LineVisit) : visit.number ≤ visit.tokenLine :=
  Nat.le_add_right _ _

lemma InTurn.lt (hturn : InTurn count (visit :: rest)) {later : LineVisit}
    (hlater : later ∈ rest) : visit.tokenLine < later.number :=
  rel_of_pairwise_cons hturn.pairwise hlater

lemma InTurn.tail (hturn : InTurn count (visit :: rest)) : InTurn count rest :=
  ⟨hturn.pairwise.of_cons, fun later hlater => hturn.bounded later (mem_cons_of_mem _ hlater)⟩

lemma InTurn.headerLines_sorted (hturn : InTurn count visited) :
    (headerLines visited).Pairwise (· < ·) := by
  refine pairwise_map.mpr ((hturn.pairwise.filter _).imp fun {earlier _} hlt => ?_)
  exact earlier.number_le.trans_lt hlt

lemma start_extentAfter (start count : Nat) (visited : List LineVisit) :
    (extentAfter start count visited).start = start := by
  fun_induction extentAfter start count visited with
  | case1 | case2 | case3 => rfl
  | case4 _ _ _ _ ih => exact ih

lemma LineVisit.start_extent (visit : LineVisit) (count : Nat) (rest : List LineVisit) :
    (visit.extent count rest).start = visit.number := by
  unfold extent
  split
  · rfl
  · exact start_extentAfter _ _ _

lemma map_start_methodExtents (count : Nat) (visited : List LineVisit) :
    (methodExtents count visited).map (·.start) = headerLines visited := by
  induction visited with
  | nil => rfl
  | cons visit rest ih =>
    cases hhdr : visit.header?.isSome <;>
      simp [methodExtents, headerLines, hhdr, ih, visit.start_extent]

lemma mem_methodExtents {extent : MethodExtent} :
    extent ∈ methodExtents count visited ↔ ∃ before visit rest,
      visited = before ++ visit :: rest ∧ visit.header?.isSome ∧
        extent = visit.extent count rest := by
  induction visited with
  | nil => simp [methodExtents]
  | cons first later ih =>
    rw [methodExtents, mem_append, ih]
    constructor
    · rintro (hfirst | ⟨before, visit, rest, rfl, hhdr, rfl⟩)
      · split at hfirst
        next hhdr => exact ⟨[], first, later, rfl, hhdr, mem_singleton.mp hfirst⟩
        next => cases hfirst
      · exact ⟨first :: before, visit, rest, rfl, hhdr, rfl⟩
    · rintro ⟨before, visit, rest, hsplit, hhdr, rfl⟩
      cases before with
      | nil =>
        obtain ⟨rfl, rfl⟩ := List.cons.inj hsplit
        exact .inl (by simp [hhdr])
      | cons _ before =>
        obtain ⟨rfl, rfl⟩ := List.cons.inj hsplit
        exact .inr ⟨before, visit, rest, rfl, hhdr, rfl⟩

lemma Trail.foldl_follow {trail : Trail} (hturn : InTurn count visited)
    (hopen : ∀ start ∈ trail.current, start < count ∧ ∀ visit ∈ visited, start < visit.number) :
    let ended := (visited.foldl Trail.follow trail).abandon (count - 1)
    let extents := (trail.current.map (extentAfter · count visited)).toList ++
      methodExtents count visited
    ended.closed = trail.closed ++ extents.map (fun extent => (extent.start, extent.stop)) ∧
      ended.unterminated = trail.unterminated ++ (extents.filter (·.isLeft)).map (·.start) := by
  induction visited generalizing trail with
  | nil =>
    cases hcur : trail.current with
    | none => simp [abandon, hcur, methodExtents]
    | some start =>
      have hlast : max (count - 1) start = count - 1 := by
        have := (hopen start hcur).1
        omega
      simp [abandon, hcur, methodExtents, extentAfter, hlast]
  | cons visit rest ih =>
    have hfollow := @ih (trail.follow visit) hturn.tail
    have hstart := Nat.max_eq_left visit.number_le
    have hnum : visit.number < count ∧ ∀ later ∈ rest, visit.number < later.number :=
      ⟨visit.number_le.trans_lt (hturn.bounded visit mem_cons_self),
        fun later hlater => visit.number_le.trans_lt (hturn.lt hlater)⟩
    cases hcur : trail.current with
    | none =>
      cases hhdr : visit.header?.isSome <;> cases hterm : visit.hasTerminator <;>
        simp_all [Trail.follow, begin, abandon, closeIf, close, withString, methodExtents,
          LineVisit.extent]
    | some start =>
      obtain ⟨hcount, hrest⟩ := hopen start hcur
      obtain ⟨hvisit, hlater⟩ := forall_mem_cons.mp hrest
      have hbef : max (visit.number - 1) start = visit.number - 1 := by omega
      have hstop := Nat.max_eq_left (hvisit.le.trans visit.number_le)
      cases hhdr : visit.header?.isSome <;> cases hterm : visit.hasTerminator <;>
        simp_all [Trail.follow, begin, abandon, closeIf, close, withString, methodExtents,
          LineVisit.extent, extentAfter]

/-! ## The table -/

namespace ScanState

lemma trail_finish (state : ScanState) (lastLine : Nat) :
    let table := state.finish lastLine
    let ended := state.trail.abandon lastLine
    table.scopes.map (fun scope => (scope.startLine, scope.endLine)) = ended.closed ∧
      (table.issues.filter (·.kind = .unterminatedMethod)).map (·.line) =
        ended.unterminated := by
  let finished := (state.abandonMethod lastLine).frames.reverse.foldl (finishFrame lastLine)
    (state.abandonMethod lastLine)
  have htrail : finished.trail = state.trail.abandon lastLine := by
    rw [(framedFrom_finishFrames _ _ _).trail_eq, trail_abandonMethod]
  exact ⟨congrArg Trail.closed htrail, congrArg Trail.unterminated htrail⟩

structure MethodsScoped (state : ScanState) : Prop where
  table : state.table.methods.map (fun method => (method.range.startLine, method.range.endLine)) =
      state.table.scopes.map fun scope => (scope.startLine, scope.endLine)
  current : ∀ method, state.current = some method → method.symbol.kind.isMethod = true

lemma MethodsScoped.move {before after : ScanState} (hmove : ScanMove origin line before after)
    (hbef : before.MethodsScoped) : after.MethodsScoped := by
  rcases keepsMethods_or_closes hmove with hkeeps | ⟨method, hmeth, rfl⟩
  · refine ⟨by rw [hkeeps.methods, hkeeps.scopes, hbef.table], fun method hmeth => ?_⟩
    obtain ⟨old, hold, hsym⟩ := hkeeps.exists_symbol hmeth
    exact hsym ▸ hbef.current old hold
  · have hkind := hbef.current _ hmeth
    have hkept := hbef.table
    rw [closeMethod_of_current hmeth]
    refine ⟨?_, by simp⟩
    simp only [ModuleTable.methods] at hkept ⊢
    rw [filter_append, map_append, hkept, map_append]
    simp [OpenMethod.closedSymbol, OpenMethod.closedScope, hkind]

lemma scanInvariant_methodsScoped : ScanInvariant fun _ state => state.MethodsScoped where
  mono := fun hstate _ => hstate
  move := MethodsScoped.move
  directive := fun _ _ hstate => { hstate with }
  opening := fun hstate _ _ hopens => by
    refine ⟨hstate.table, ?_⟩
    rintro other ⟨⟩
    exact hopens.kind

end ScanState

def moduleLines (text : String) : List (List Char) := splitLines (dropByteOrderMark text.toList)

lemma break_not_mem_moduleLines {line : List Char} (hline : line ∈ moduleLines text) :
    '\n' ∉ line :=
  fun hmem => (mem_of_mem_splitLines hline hmem).2 rfl

def moduleVisits (text : String) : List LineVisit := visits false 0 (moduleLines text)

def StopsAt (visited : List LineVisit) (line : Nat) : Prop :=
  ∃ visit ∈ visited, visit.tokenLine = line ∧ visit.hasTerminator = true

def ReachedOutside (visited : List LineVisit) (line : Nat) : Prop :=
  ∃ visit ∈ visited, visit.number = line ∧ visit.inString = false

def DeclaresAt (lines : List (List Char)) (number : Nat) : Prop :=
  ∃ line, lines[number]? = some line ∧ (Header.ofLine? line).isSome = true

def ModuleTable.methodLines (table : ModuleTable) : List Nat :=
  table.methods.map (·.range.startLine)

def ModuleTable.nextMethodLine (table : ModuleTable) (count line : Nat) : Nat :=
  (table.methodLines.find? (line < ·)).getD count

lemma inTurn_moduleVisits (text : String) :
    InTurn (moduleLines text).length (moduleVisits text) := by
  have hturn := inTurn_visits false 0 (moduleLines text)
  rwa [Nat.zero_add] at hturn

lemma methods_parseModule (file : Path) (dialect : Dialect) (text : String) :
    let table := parseModule file dialect text
    let extents := methodExtents (moduleLines text).length (moduleVisits text)
    table.methods.map (fun method => (method.range.startLine, method.range.endLine)) =
        extents.map (fun extent => (extent.start, extent.stop)) ∧
      ∀ line, table.issues.count ⟨line, .unterminatedMethod⟩ =
        ((extents.filter (·.isLeft)).map (·.start)).count line := by
  intro table extents
  let start : ScanState :=
    { table := { file, dialect, text := String.ofList (dropByteOrderMark text.toList) } }
  let scanned := start.scanLines 0 (moduleLines text)
  have htrail : scanned.trail = (moduleVisits text).foldl Trail.follow start.trail :=
    start.trail_scanLines 0 fun _ => break_not_mem_moduleLines
  obtain ⟨hshut, hrptd⟩ := scanned.trail_finish ((moduleLines text).length - 1)
  have hnone : ∀ first ∈ start.trail.current, first < (moduleLines text).length ∧
      ∀ visit ∈ moduleVisits text, first < visit.number := by
    simp [start, ScanState.trail]
  obtain ⟨hextents, hleft⟩ := Trail.foldl_follow (inTurn_moduleVisits text) hnone
  rw [htrail] at hshut hrptd
  obtain ⟨state, hstate, -, htable⟩ := ScanState.scanInvariant_methodsScoped.parseModule
    (fun _ _ _ => ⟨rfl, by simp⟩) file dialect text
  have hscoped := hstate.table
  rw [htable] at hscoped
  refine ⟨hscoped.trans (hshut.trans hextents), fun line => ?_⟩
  rw [count_issues]
  exact congrArg (List.count line) (hrptd.trans hleft)

lemma methodLines_parseModule (file : Path) (dialect : Dialect) (text : String) :
    (parseModule file dialect text).methodLines = headerLines (moduleVisits text) := by
  have hstarts := congrArg (List.map Prod.fst) (methods_parseModule file dialect text).1
  rw [map_map, map_map] at hstarts
  exact hstarts.trans (map_start_methodExtents _ _)

/-! ## Headers of the text -/

lemma getElem?_of_mem_moduleVisits (hvisit : visit ∈ moduleVisits text) :
    (moduleLines text)[visit.number]? = some visit.line := by
  obtain ⟨-, hdrop⟩ := drop_of_mem_visits hvisit
  rw [Nat.sub_zero] at hdrop
  rw [← head?_drop, hdrop]
  rfl

lemma LineVisit.inString_of_header (hhdr : visit.header?.isSome) : visit.inString = false := by
  cases hstr : visit.inString with
  | false => rfl
  | true => simp [header?, hstr] at hhdr

lemma mem_headerLines : line ∈ headerLines (moduleVisits text) ↔
    DeclaresAt (moduleLines text) line ∧ ReachedOutside (moduleVisits text) line := by
  simp only [headerLines, mem_map, mem_filter]
  constructor
  · rintro ⟨visit, ⟨hvisit, hhdr⟩, rfl⟩
    have hstr := LineVisit.inString_of_header hhdr
    refine ⟨⟨visit.line, getElem?_of_mem_moduleVisits hvisit, ?_⟩, visit, hvisit, rfl, hstr⟩
    simpa [LineVisit.header?, hstr] using hhdr
  · rintro ⟨⟨text, htext, hhdr⟩, visit, hvisit, rfl, hstr⟩
    rw [getElem?_of_mem_moduleVisits hvisit] at htext
    obtain rfl := Option.some.inj htext
    exact ⟨visit, ⟨hvisit, by simpa [LineVisit.header?, hstr] using hhdr⟩, rfl⟩

lemma reachedOutside_of_no_quote (hquote : '"' ∉ text.toList)
    (hdecs : DeclaresAt (moduleLines text) line) : ReachedOutside (moduleVisits text) line := by
  obtain ⟨header, hline, hhdr⟩ := hdecs
  have hbdry : isMethodBoundary header := by
    rw [isMethodBoundary, hhdr, Bool.true_or]
  obtain ⟨visit, hvisit, hnum, -⟩ := exists_visit_of_isMethodBoundary false 0 hline hbdry
  have hlines (other : List Char) (hoth : other ∈ moduleLines text) : '"' ∉ other := by
    intro hmem
    have hchar := (mem_of_mem_splitLines hoth hmem).1
    unfold dropByteOrderMark at hchar
    split at hchar
    next rest htext => exact hquote (htext ▸ mem_cons_of_mem _ hchar)
    next => exact hquote hchar
  exact ⟨visit, hvisit, by omega, inString_of_mem_visits rfl hlines hvisit⟩

/-! ## The next header -/

def nextHeader (count : Nat) (visited : List LineVisit) : Nat :=
  (headerLines visited).head?.getD count

lemma nextHeader_cons : nextHeader count (visit :: rest) =
    if visit.header?.isSome then visit.number else nextHeader count rest := by
  cases hhdr : visit.header?.isSome <;> simp [nextHeader, headerLines, hhdr]

lemma stopsAt_cons : StopsAt (visit :: rest) line ↔
    visit.tokenLine = line ∧ visit.hasTerminator ∨ StopsAt rest line := by
  simp [StopsAt]

lemma find?_headerLines (hturn : InTurn count (before ++ visit :: rest)) :
    ((headerLines (before ++ visit :: rest)).find? (visit.number < ·)).getD count =
      nextHeader count rest := by
  obtain ⟨-, hrest, hbef⟩ := pairwise_append.mp hturn.pairwise
  have hearl (line : Nat) (hline : line ∈ headerLines before) : line < visit.number := by
    obtain ⟨earlier, hearl, rfl⟩ := mem_map.mp hline
    exact earlier.number_le.trans_lt (hbef earlier (mem_filter.mp hearl).1 visit mem_cons_self)
  have hlater (line : Nat) (hline : line ∈ headerLines rest) : visit.number < line := by
    obtain ⟨later, hlater, rfl⟩ := mem_map.mp hline
    exact visit.number_le.trans_lt (rel_of_pairwise_cons hrest (mem_filter.mp hlater).1)
  have hself (line : Nat) (hline : line ∈ headerLines [visit]) : line ≤ visit.number := by
    obtain ⟨other, hoth, rfl⟩ := mem_map.mp hline
    exact (congrArg _ (mem_singleton.mp (mem_filter.mp hoth).1)).le
  have hsplit : headerLines (before ++ visit :: rest) =
      headerLines before ++ (headerLines [visit] ++ headerLines rest) := by
    simp [headerLines, ← map_append, ← filter_append]
  rw [hsplit, find?_append, find?_append,
    find?_eq_none.mpr fun line hline => by simpa using (hearl line hline).le,
    find?_eq_none.mpr fun line hline => by simpa using hself line hline]
  unfold nextHeader
  cases hhdrs : headerLines rest with
  | nil => rfl
  | cons line lines => simp [hlater line (hhdrs ▸ mem_cons_self)]

section

variable {first : Nat} (hcount : first < count) (hfirst : ∀ visit ∈ visited, first < visit.number)
include hfirst

lemma StopsAt.lt (hstops : StopsAt visited line) : first < line := by
  obtain ⟨visit, hvisit, rfl, -⟩ := hstops
  exact (hfirst visit hvisit).trans_le visit.number_le

include hcount

lemma lt_nextHeader : first < nextHeader count visited := by
  unfold nextHeader
  cases hhead : (headerLines visited).head? with
  | none => exact hcount
  | some line =>
    obtain ⟨visit, hvisit, rfl⟩ := mem_map.mp (mem_of_mem_head? hhead)
    exact hfirst visit (mem_filter.mp hvisit).1

lemma extentAfter_cases (start : Nat) (hturn : InTurn count visited) :
    let extent := extentAfter start count visited
    let next := nextHeader count visited
    (extent.isLeft = false ∧ extent.stop < next ∧ StopsAt visited extent.stop ∧
        ∀ line < extent.stop, ¬ StopsAt visited line) ∨
      (extent.isLeft ∧ extent.stop + 1 = next ∧ ∀ line < next, ¬ StopsAt visited line) := by
  fun_induction extentAfter start count visited with
  | case1 => exact .inr ⟨rfl, Nat.sub_add_cancel (Nat.zero_lt_of_lt hcount), by simp [StopsAt]⟩
  | case2 visit rest hhdr =>
    have hvisit := hfirst visit mem_cons_self
    rw [nextHeader_cons, if_pos hhdr]
    refine .inr ⟨rfl, Nat.sub_add_cancel (Nat.zero_lt_of_lt hvisit), fun line hline hstops => ?_⟩
    rcases stopsAt_cons.mp hstops with ⟨rfl, -⟩ | hlater
    · exact Nat.not_le_of_lt hline visit.number_le
    · have := hlater.lt fun later hlater => hturn.lt hlater
      have := visit.number_le
      omega
  | case3 visit rest hhdr hterm =>
    have hlater (later : LineVisit) (hlater : later ∈ rest) : visit.tokenLine < later.number :=
      hturn.lt hlater
    rw [nextHeader_cons, if_neg hhdr]
    refine .inl ⟨rfl, lt_nextHeader (hturn.bounded visit mem_cons_self) hlater,
      stopsAt_cons.mpr (.inl ⟨rfl, hterm⟩), fun line hline hstops => ?_⟩
    rcases stopsAt_cons.mp hstops with ⟨rfl, -⟩ | hstops
    · exact Nat.lt_irrefl _ hline
    · exact Nat.lt_asymm hline (hstops.lt hlater)
  | case4 visit rest hhdr hterm ih =>
    simp only [nextHeader_cons, if_neg hhdr, stopsAt_cons, hterm]
    simpa using ih (forall_mem_cons.mp hfirst).2 hturn.tail

end

lemma stopsAt_append (hturn : InTurn count (before ++ visit :: rest))
    (hline : visit.tokenLine ≤ line) :
    StopsAt (before ++ visit :: rest) line ↔ StopsAt (visit :: rest) line := by
  constructor
  · rintro ⟨other, hoth, rfl, hterm⟩
    rcases mem_append.mp hoth with hbef | hrest
    · have hlt := (pairwise_append.mp hturn.pairwise).2.2 other hbef visit mem_cons_self
      have hle := visit.number_le
      omega
    · exact ⟨other, hrest, rfl, hterm⟩
  · rintro ⟨other, hoth, hstop⟩
    exact ⟨other, mem_append_right _ hoth, hstop⟩

/-- From the end of its parameter list on, a method ends at the first terminator before the next
header, or else before the header. -/
lemma InTurn.delimits (hturn : InTurn count (before ++ visit :: rest)) :
    let visited := before ++ visit :: rest
    let extent := visit.extent count rest
    let next := nextHeader count rest
    (∀ stop, visit.tokenLine ≤ stop → stop < next → StopsAt visited stop →
        (∀ line, visit.tokenLine ≤ line → line < stop → ¬ StopsAt visited line) →
          extent.stop = stop ∧ extent.isLeft = false) ∧
      ((∀ line, visit.tokenLine ≤ line → line < next → ¬ StopsAt visited line) →
        extent.stop + 1 = next ∧ extent.isLeft) := by
  intro visited extent next
  have hstops {line : Nat} (hline : visit.tokenLine ≤ line) :
      StopsAt visited line ↔ visit.tokenLine = line ∧ visit.hasTerminator ∨ StopsAt rest line :=
    (stopsAt_append hturn hline).trans stopsAt_cons
  have hrest : InTurn count (visit :: rest) := ⟨(pairwise_append.mp hturn.pairwise).2.1,
      fun other hoth => hturn.bounded other (mem_append_right _ hoth)⟩
  have hcount := hrest.bounded visit mem_cons_self
  have hlater (later : LineVisit) (hlater : later ∈ rest) := hrest.lt hlater
  have hnext : visit.tokenLine < next := lt_nextHeader hcount hlater
  by_cases hterm : visit.hasTerminator
  · have hext : extent = ⟨visit.number, visit.tokenLine, false⟩ := if_pos hterm
    have hfirst : StopsAt visited visit.tokenLine := (hstops le_rfl).mpr (.inl ⟨rfl, hterm⟩)
    rw [hext]
    refine ⟨fun stop hstop _ _ hnone => ⟨?_, rfl⟩, fun hnone => absurd hfirst (hnone _ le_rfl hnext)⟩
    exact hstop.eq_of_not_lt fun hlt => hnone _ le_rfl hlt hfirst
  · have hext : extent = extentAfter visit.number count rest := if_neg hterm
    rw [hext]
    have hstops {line : Nat} (hline : visit.tokenLine ≤ line) :
        StopsAt visited line ↔ StopsAt rest line := by
      simp [hstops hline, hterm]
    rcases extentAfter_cases hcount hlater visit.number hrest.tail with
      ⟨hleft, hbef, hstop, hfirst⟩ | ⟨hleft, hstop, hnone⟩
    · have hle := (hstop.lt hlater).le
      refine ⟨fun stop hline _ hoth hnone => ⟨?_, hleft⟩,
        fun hnone => absurd ((hstops hle).mpr hstop) (hnone _ hle hbef)⟩
      by_contra hne
      rcases Nat.lt_or_gt_of_ne hne with hlt | hlt
      · exact hnone _ hle hlt ((hstops hle).mpr hstop)
      · exact hfirst stop hlt ((hstops hline).mp hoth)
    · exact ⟨fun stop hline hlt hoth => absurd ((hstops hline).mp hoth) (hnone stop hlt),
        fun _ => ⟨hstop, hleft⟩⟩

lemma count_isLeft {extents : List MethodExtent} (hnodup : (extents.map (·.start)).Nodup)
    {extent : MethodExtent} (hext : extent ∈ extents) :
    ((extents.filter (·.isLeft)).map (·.start)).count extent.start =
      if extent.isLeft then 1 else 0 := by
  split
  next hleft =>
    exact count_eq_one_of_mem (hnodup.sublist (filter_sublist.map _))
      (mem_map_of_mem (mem_filter.mpr ⟨hext, hleft⟩))
  next hleft =>
    refine count_eq_zero.mpr fun hmem => ?_
    obtain ⟨other, hoth, hstart⟩ := mem_map.mp hmem
    obtain ⟨hoth, hleft'⟩ := mem_filter.mp hoth
    exact hleft (inj_on_of_nodup_map hnodup hoth hext hstart ▸ hleft')

/-- Every header outside of strings begins a method, and a method ends at its first
terminator or before the next header. -/
theorem parseModule_methodExtents (file : Path) (dialect : Dialect) (text : String) :
    let table := parseModule file dialect text
    let lines := moduleLines text
    let visited := moduleVisits text
    table.methodLines.Pairwise (· < ·) ∧
    (∀ line, line ∈ table.methodLines ↔ DeclaresAt lines line ∧ ReachedOutside visited line) ∧
    ('"' ∉ text.toList → ∀ line, line ∈ table.methodLines ↔ DeclaresAt lines line) ∧
    ∀ method ∈ table.methods, ∃ visit ∈ visited,
      visit.number = method.range.startLine ∧ visit.header?.isSome = true ∧
      let next := table.nextMethodLine lines.length visit.number
      (∀ stop, visit.tokenLine ≤ stop → stop < next → StopsAt visited stop →
        (∀ line, visit.tokenLine ≤ line → line < stop → ¬StopsAt visited line) →
          method.range.endLine = stop ∧ ⟨visit.number, .unterminatedMethod⟩ ∉ table.issues) ∧
      ((∀ line, visit.tokenLine ≤ line → line < next → ¬StopsAt visited line) →
        method.range.endLine + 1 = next ∧
          table.issues.count ⟨visit.number, .unterminatedMethod⟩ = 1) := by
  intro table lines visited
  obtain ⟨hmethods, hissues⟩ := methods_parseModule file dialect text
  have hturn : InTurn lines.length visited := inTurn_moduleVisits text
  have hsorted := hturn.headerLines_sorted
  rw [← map_start_methodExtents lines.length] at hsorted
  have hlines : table.methodLines = headerLines visited := methodLines_parseModule file dialect text
  refine ⟨hlines ▸ hturn.headerLines_sorted, fun line => hlines ▸ mem_headerLines, ?_, ?_⟩
  · intro hquote line
    rw [hlines, mem_headerLines, and_iff_left_iff_imp]
    exact reachedOutside_of_no_quote hquote
  · intro method hmethod
    have hextent : (method.range.startLine, method.range.endLine) ∈
        (methodExtents lines.length visited).map fun extent => (extent.start, extent.stop) := by
      rw [← hmethods]
      exact mem_map_of_mem hmethod
    obtain ⟨extent, hextent, hrange⟩ := mem_map.mp hextent
    obtain ⟨before, visit, rest, hvisited, hheader, rfl⟩ := mem_methodExtents.mp hextent
    obtain ⟨hstart, hstop⟩ := Prod.mk.inj hrange
    rw [visit.start_extent] at hstart
    refine ⟨visit, hvisited ▸ mem_append_right _ mem_cons_self, hstart, hheader, ?_⟩
    rw [ModuleTable.nextMethodLine, hlines, ← hstop, ← count_eq_zero, hissues]
    have hcount := count_isLeft (hsorted.imp Nat.ne_of_lt) hextent
    rw [visit.start_extent] at hcount
    rw [hcount]
    simp only [hvisited] at hturn ⊢
    rw [find?_headerLines hturn]
    refine hturn.delimits.imp (fun hstops stop hle hlt hstop hnone => ?_) fun hleft hnone => ?_
    · exact (hstops stop hle hlt hstop hnone).imp_right fun hleft => by simp [hleft]
    · exact (hleft hnone).imp_right fun hleft => by simp [hleft]

end BslInsight
