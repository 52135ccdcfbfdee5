import BslInsight.Proofs.NamePlaces

/-!
# Comment blocks and the symbols they document

Comment lines are kept until a symbol takes them or a line of another kind comes.
Lines with an annotation do neither.  So a method gets the comment lines of the run
of such lines that ends right above its header, and what one symbol has taken is
gone for the next.
-/

namespace BslInsight

open List

variable {count number : Nat} {visit : LineVisit} {visited : List LineVisit} {text : String}

namespace LineVisit

def isComment (visit : LineVisit) : Bool :=
  !visit.inString && (trim visit.line).take 2 == ['/', '/']

def isAnnotation (visit : LineVisit) : Bool :=
  !visit.inString && (trim visit.line).head? == some '&'

def isNote (visit : LineVisit) : Bool := visit.isComment || visit.isAnnotation

end LineVisit

/-- The longest run of comment lines and annotations that ends right above a line. -/
def notesAbove (visited : List LineVisit) : Nat → List LineVisit
  | 0 => []
  | line + 1 =>
    match visited.find? (·.number == line) with
    | some visit => if visit.isNote then notesAbove visited line ++ [visit] else []
    | none => []

def commentsAbove (visited : List LineVisit) (line : Nat) : List LineVisit :=
  (notesAbove visited line).filter (·.isComment)

def documentationOf (comments : List (List Char)) : Option String :=
  if comments = [] then none else some (String.ofList (joinWith ['\n'] comments))

def documentationAbove (visited : List LineVisit) (line : Nat) : Option String :=
  documentationOf ((commentsAbove visited line).map (·.line))

structure SymbolNote where
  kind : SymbolKind
  line : Nat
  documentation : Option String

def Symbol.note (symbol : Symbol) : SymbolNote :=
  ⟨symbol.kind, symbol.range.startLine, symbol.documentation⟩

def SymbolNote.Uses (visited : List LineVisit) (note : SymbolNote) (comment : LineVisit) : Prop :=
  note.documentation.isSome = true ∧ comment ∈ commentsAbove visited note.line

/-! ## Lines above a line -/

lemma InTurn.eq_of_number_le (hturn : InTurn count visited) (hvisit : visit ∈ visited)
    {other : LineVisit} (hoth : other ∈ visited) (hfirst : visit.number ≤ other.number)
    (hlast : other.number ≤ visit.tokenLine) : other = visit := by
  refine Pairwise.forall_of_forall_of_flip
    (R := fun a b : LineVisit => a.number ≤ b.number → b.number ≤ a.tokenLine → b = a)
    (fun _ _ _ _ => rfl) (hturn.pairwise.imp ?_) (hturn.pairwise.imp ?_) hvisit hoth hfirst hlast
  · intro earlier later hlt _ hle
    omega
  · intro earlier later hlt hle _
    have := earlier.number_le
    omega

lemma notesAbove_succ (hturn : InTurn count visited) (hvisit : visit ∈ visited)
    (hnote : visit.isNote) :
    notesAbove visited (visit.number + 1) = notesAbove visited visit.number ++ [visit] := by
  have hfound : (visited.find? (·.number == visit.number)).isSome :=
    find?_isSome.mpr ⟨visit, hvisit, beq_self_eq_true _⟩
  obtain ⟨found, hfound⟩ := Option.isSome_iff_exists.mp hfound
  have hnum : found.number = visit.number := by simpa using find?_some hfound
  obtain rfl : found = visit := hturn.eq_of_number_le hvisit (mem_of_find?_eq_some hfound)
    hnum.ge (hnum.le.trans visit.number_le)
  rw [notesAbove, hfound]
  exact if_pos hnote

lemma notesAbove_after (hturn : InTurn count visited) (hvisit : visit ∈ visited)
    (hnote : visit.isNote = false) : notesAbove visited (visit.tokenLine + 1) = [] := by
  rw [notesAbove]
  split
  next found hfound =>
    have hnum : found.number = visit.tokenLine := by simpa using find?_some hfound
    obtain rfl : found = visit := hturn.eq_of_number_le hvisit (mem_of_find?_eq_some hfound)
      (visit.number_le.trans hnum.ge) hnum.le
    exact if_neg (by simp [hnote])
  next => rfl

lemma number_lt_of_mem_commentsAbove (hvisit : visit ∈ commentsAbove visited number) :
    visit.number < number := by
  replace hvisit := mem_of_mem_filter hvisit
  induction number with
  | zero => cases hvisit
  | succ number ih =>
    rw [notesAbove] at hvisit
    split at hvisit
    next found hfound =>
      split at hvisit
      · rcases mem_append.mp hvisit with habove | hlast
        · exact Nat.lt_succ_of_lt (ih habove)
        · obtain rfl := mem_singleton.mp hlast
          have hnum : visit.number = number := by simpa using find?_some hfound
          exact hnum ▸ Nat.lt_succ_self _
      · cases hvisit
    next => cases hvisit

/-! ## What a line does to comments and symbols -/

/-- The comments that wait for a symbol, the symbols outside of methods and the methods,
and whether all parameters and locals are without documentation. -/
structure CommentTrail where
  pending : List (List Char)
  notes : List SymbolNote
  plain : Bool

namespace CommentTrail

variable {trail after : CommentTrail}

def declare (trail : CommentTrail) (kind : SymbolKind) (line : Nat) (others : List SymbolNote) :
    CommentTrail :=
  { trail with
    pending := []
    notes := trail.notes ++ ⟨kind, line, documentationOf trail.pending⟩ :: others }

/-- The tokens of a line declare some variables, and the first of them takes what is pending. -/
def Declares (line : Nat) (trail after : CommentTrail) : Prop :=
  after = trail ∨ ∃ others : List SymbolNote,
    (∀ note ∈ others, note.kind = .variable ∧ note.documentation = none) ∧
      after = trail.declare .variable line others

/-- What reading a line does: notes are kept, and any other line clears what is pending,
maybe after its first symbol has taken it. -/
inductive Reads (visit : LineVisit) (trail : CommentTrail) : CommentTrail → Prop
  | note (hnote : visit.isNote = true) (hline : visit.tokenLine = visit.number) : Reads visit trail
        { trail with pending := trail.pending ++ if visit.isComment then [visit.line] else [] }
  | clear (hnote : visit.isNote = false) : Reads visit trail { trail with pending := [] }
  | declare (hnote : visit.isNote = false) (kind : SymbolKind) {others : List SymbolNote}
      (hoths : ∀ note ∈ others, note.kind = .variable ∧ note.documentation = none) :
      Reads visit trail (trail.declare kind visit.number others)

lemma Reads.pending_eq_nil (hreads : trail.Reads visit after) (hnote : visit.isNote = false) :
    after.pending = [] := by
  cases hreads with
  | note hkept => simp [hkept] at hnote
  | clear | declare => rfl

/-- What is pending before a line, and what the symbols so far are documented with. -/
structure Accounts (visited : List LineVisit) (number : Nat) (trail : CommentTrail) : Prop where
  pending : trail.pending = (commentsAbove visited number).map (·.line)
  plain : trail.plain = true
  documented : ∀ note ∈ trail.notes, note.kind.isMethod = true ∨ note.documentation.isSome = true →
    note.documentation = documentationAbove visited note.line
  apart : trail.notes.Pairwise fun first second =>
    ∀ comment, ¬ (first.Uses visited comment ∧ second.Uses visited comment)
  /-- What is documented stands above all comments that are pending. -/
  earlier : ∀ note ∈ trail.notes, note.documentation.isSome = true →
    note.line < number ∧ ∀ comment ∈ commentsAbove visited number, note.line < comment.number

lemma Accounts.apart_declare (hacc : trail.Accounts visited number) (kind : SymbolKind)
    {others : List SymbolNote} (hoths : ∀ note ∈ others, note.documentation = none) :
    (trail.declare kind number others).notes.Pairwise fun first second =>
      ∀ comment, ¬ (first.Uses visited comment ∧ second.Uses visited comment) := by
  have hunused : ∀ note ∈ others, ∀ comment, ¬ note.Uses visited comment := by
    rintro note hmem comment ⟨hsome, -⟩
    simp [hoths note hmem] at hsome
  refine pairwise_append.mpr ⟨hacc.apart, pairwise_cons.mpr ⟨?_, ?_⟩, ?_⟩
  · exact fun note hmem comment huses => hunused note hmem comment huses.2
  · exact pairwise_of_forall_mem_list fun _ _ note hmem comment huses =>
      hunused note hmem comment huses.2
  · intro old hold new hnew comment huses
    rcases mem_cons.mp hnew with rfl | hnew
    · have hbelow := number_lt_of_mem_commentsAbove huses.1.2
      have habove := (hacc.earlier old hold huses.1.1).2 comment huses.2.2
      omega
    · exact hunused new hnew comment huses.2

lemma Accounts.reads (hturn : InTurn count visited) (hvisit : visit ∈ visited)
    (hacc : trail.Accounts visited visit.number) (hreads : trail.Reads visit after) :
    after.Accounts visited (visit.tokenLine + 1) := by
  obtain ⟨hpend, hplain, hdoc, hapart, hearl⟩ := hacc
  have hlast : visit.number < visit.tokenLine + 1 := Nat.lt_succ_of_le visit.number_le
  have hclear (hnote : visit.isNote = false) :
      commentsAbove visited (visit.tokenLine + 1) = [] := by
    rw [commentsAbove, notesAbove_after hturn hvisit hnote, filter_nil]
  cases hreads with
  | note hnote hline =>
    have hnext : commentsAbove visited (visit.tokenLine + 1) =
        commentsAbove visited visit.number ++ if visit.isComment then [visit] else [] := by
      rw [hline, commentsAbove, notesAbove_succ hturn hvisit hnote, filter_append, filter_cons,
        filter_nil]
      rfl
    refine ⟨?_, hplain, hdoc, hapart, fun note hmem hsome => ?_⟩
    · rw [hnext, hpend, map_append]
      split <;> rfl
    · obtain ⟨hlt, habove⟩ := hearl note hmem hsome
      refine ⟨hlt.trans hlast, fun comment hcom => ?_⟩
      rw [hnext, mem_append] at hcom
      rcases hcom with hcom | hcom
      · exact habove comment hcom
      · split at hcom
        · rwa [mem_singleton.mp hcom]
        · cases hcom
  | clear hnote =>
    refine ⟨by rw [hclear hnote]; rfl, hplain, hdoc, hapart, fun note hmem hsome => ?_⟩
    exact ⟨(hearl note hmem hsome).1.trans hlast, by simp [hclear hnote]⟩
  | @declare hnote kind others hoths =>
    refine ⟨by rw [hclear hnote]; rfl, hplain, ?_, ?_, ?_⟩
    · refine forall_mem_append.mpr ⟨hdoc, forall_mem_cons.mpr ⟨fun _ => ?_, ?_⟩⟩
      · rw [documentationAbove, ← hpend]
      · intro note hmem hwanted
        simp [hoths note hmem, SymbolKind.isMethod] at hwanted
    · exact apart_declare ⟨hpend, hplain, hdoc, hapart, hearl⟩ kind
        fun note hmem => (hoths note hmem).2
    · refine forall_mem_append.mpr ⟨?_, forall_mem_cons.mpr ⟨?_, ?_⟩⟩
      · exact fun note hmem hsome => ⟨(hearl note hmem hsome).1.trans hlast, by simp [hclear hnote]⟩
      · exact fun _ => ⟨hlast, by simp [hclear hnote]⟩
      · intro note hmem hsome
        simp [hoths note hmem] at hsome

end CommentTrail

namespace ScanState

variable (state : ScanState) (line : Nat)

def commentTrail (state : ScanState) : CommentTrail where
  pending := state.comments
  notes := (state.table.symbols ++ (state.current.map (·.symbol)).toList).map Symbol.note
  plain := (state.table.scopes.flatMap (fun scope => scope.params ++ scope.locals) ++
    state.current.toList.flatMap fun method => method.params ++ method.locals).all
      (·.documentation.isNone)

/-! ## Tokens -/

lemma commentTrail_withCurrent {method other : OpenMethod} (hcur : state.current = some method)
    (hsym : other.symbol = method.symbol) (hpars : other.params = method.params)
    (hlocals : other.locals.all (·.documentation.isNone) =
      method.locals.all (·.documentation.isNone)) :
    { state with current := some other }.commentTrail = state.commentTrail := by
  simp [commentTrail, hcur, hsym, hpars, hlocals]

@[simp] lemma commentTrail_addIssues (places : List Nat) (kind : IssueKind) :
    (state.addIssues places kind).commentTrail = state.commentTrail :=
  rfl

@[simp] lemma commentTrail_addIssue (place : Nat) (kind : IssueKind) :
    (state.addIssue place kind).commentTrail = state.commentTrail :=
  rfl

@[simp] lemma commentTrail_closeMethod :
    (state.closeMethod line).commentTrail = state.commentTrail := by
  cases hcur : state.current with
  | none => simp [closeMethod, hcur]
  | some method =>
    rw [closeMethod_of_current hcur]
    simp [commentTrail, hcur, OpenMethod.closedSymbol, OpenMethod.closedScope, Symbol.note]

@[simp] lemma commentTrail_abandonMethod :
    (state.abandonMethod line).commentTrail = state.commentTrail := by
  unfold abandonMethod
  split <;> simp

@[simp] lemma commentTrail_declareImplicit (token : Token) :
    (state.declareImplicit line token).commentTrail = state.commentTrail := by
  unfold declareImplicit
  split
  next => rfl
  next method hcur =>
    simp only
    split
    · rfl
    · exact commentTrail_withCurrent state hcur rfl rfl (by simp)

lemma commentTrail_perform (action : TokenAction) :
    (state.perform line action).commentTrail = state.commentTrail ∨
      (state.perform line action).commentTrail = state.commentTrail.declare .variable line [] := by
  cases action with
  | declare token exported =>
    simp only [perform, declareVariable]
    split
    next method hcur => exact .inl (commentTrail_withCurrent state hcur rfl rfl (by simp))
    next hcur =>
      right
      simp [commentTrail, hcur, CommentTrail.declare, Symbol.note, ScanState.range]
      rfl
  | count token => exact .inl (state.commentTrail_declareImplicit line token)
  | assign target right =>
    left
    rw [← state.commentTrail_declareImplicit line target]
    simp only [perform, recordAssignment]
    split
    next method hcur => exact commentTrail_withCurrent _ hcur rfl rfl rfl
    next => rfl
  | openBlock kind =>
    left
    simp only [perform, pushBlock]
    split
    next => rfl
    next method hcur => exact commentTrail_withCurrent state hcur rfl rfl rfl
  | closeBlock kind =>
    left
    simp only [perform, popBlock]
    split
    next => rfl
    next method hcur =>
      split
      next => rfl
      next => exact commentTrail_withCurrent state hcur rfl rfl rfl
  | endMethod kind =>
    left
    simp only [perform, terminate]
    split
    next => rfl
    next =>
      simp only [commentTrail_closeMethod, commentTrail_addIssues]
      split <;> rfl

lemma commentTrail_processTokens (atStart : Bool) (tokens : List Token) :
    state.commentTrail.Declares line (state.processTokens line atStart tokens).commentTrail := by
  rw [processTokens_eq_foldl]
  refine foldlRecOn (motive := fun after : ScanState =>
    state.commentTrail.Declares line after.commentTrail) _ _ (.inl rfl) ?_
  intro after hafter action _
  rcases after.commentTrail_perform line action with hkept | hdeclared
  · rwa [hkept]
  · right
    rw [hdeclared]
    rcases hafter with hkept | ⟨others, hoths, hdecs⟩
    · exact ⟨[], by simp, by rw [hkept]⟩
    · refine ⟨others ++ [⟨.variable, line, none⟩], forall_mem_concat hoths ⟨rfl, rfl⟩, ?_⟩
      simp [hdecs, CommentTrail.declare, documentationOf]

/-! ## Lines -/

variable {line} {state}

lemma FramedFrom.commentTrail_eq {after : ScanState} (hframed : state.FramedFrom after) :
    after.commentTrail = { state.commentTrail with pending := after.comments } := by
  obtain ⟨reports, -, hafter⟩ := hframed
  rw [hafter]
  rfl

lemma commentTrail_passLine (hstr : visit.inString = false) (hpass : passesOver visit.line) :
    state.commentTrail.Reads visit (state.passLine visit.number visit.line).commentTrail := by
  have hline : visit.tokenLine = visit.number := by
    refine congrArg (visit.number + ·) (LineVisit.extraLines_of_no_header ?_)
    cases hhdr : Header.ofLine? visit.line with
    | none => simp [LineVisit.header?, hhdr]
    | some header => simp [passesOver_of_header hhdr] at hpass
  rw [(framedFrom_passLine visit.number).commentTrail_eq]
  have hnote : visit.isNote = (visit.isComment || visit.isAnnotation) := rfl
  unfold passLine
  simp only
  split_ifs with hblank hcom hannotation
  · exact .clear (by simp [hnote, LineVisit.isComment, LineVisit.isAnnotation, hblank])
  · have hcom : visit.isComment := by simp [LineVisit.isComment, hstr, hcom]
    have hreads : state.commentTrail.Reads visit _ := .note (by simp [hnote, hcom]) hline
    rwa [if_pos hcom] at hreads
  · have hcom : visit.isComment = false := by simp [LineVisit.isComment, hcom]
    have hannotation : visit.isAnnotation := by
      simp [LineVisit.isAnnotation, hstr, hannotation]
    have hkept : (state.directiveLine visit.number (trim visit.line)).comments =
        state.comments := by
      unfold directiveLine
      simp only
      split <;> rfl
    have hreads : state.commentTrail.Reads visit _ := .note (by simp [hnote, hannotation]) hline
    rw [if_neg (by simp [hcom]), append_nil] at hreads
    rwa [hkept]
  · exact .clear (by
      simp [hnote, LineVisit.isComment, LineVisit.isAnnotation, hcom, hannotation])

lemma commentTrail_beginMethod (hnote : visit.isNote = false) (header : Header) (list : ParamList) :
    state.commentTrail.Reads visit (state.beginMethod visit.number visit.line header list
      visit.following).commentTrail := by
  let before := state.beforeMethod visit.number list
  have hbef : before.commentTrail = state.commentTrail := by
    unfold before beforeMethod
    simp only
    split <;> simp
  have hcur : before.current = none := state.current_beforeMethod visit.number list
  let tokens := (lexLine before.inString list.tail).1
  let opened : ScanState := { before with
      inString := (lexLine before.inString list.tail).2
      comments := []
      directive := none
      current := some (before.headerMethod visit.number visit.line header list visit.following
        tokens) }
  have hopn : opened.commentTrail = state.commentTrail.declare header.kind visit.number [] := by
    rw [← hbef]
    simp [opened, commentTrail, hcur, CommentTrail.declare, Symbol.note, headerMethod,
      ScanState.range, paramSymbols]
    rfl
  rw [beginMethod_eq]
  rcases opened.commentTrail_processTokens (visit.number + list.extraLines) true
    (afterExport tokens) with hkept | ⟨others, hoths, hdecs⟩
  · have hreads : state.commentTrail.Reads visit _ := .declare hnote header.kind (forall_mem_nil _)
    rwa [← hopn, ← hkept] at hreads
  · have hall : ∀ note ∈ (⟨.variable, visit.number + list.extraLines, none⟩ : SymbolNote) :: others,
        note.kind = .variable ∧ note.documentation = none :=
      forall_mem_cons.mpr ⟨⟨rfl, rfl⟩, hoths⟩
    have hreads : state.commentTrail.Reads visit _ := .declare hnote header.kind hall
    have heq : (opened.commentTrail.declare .variable (visit.number + list.extraLines) others) =
        state.commentTrail.declare header.kind visit.number
          (⟨.variable, visit.number + list.extraLines, none⟩ :: others) := by
      simp [hopn, CommentTrail.declare, documentationOf]
    rwa [← heq, ← hdecs] at hreads

lemma commentTrail_statementLine (hnote : visit.isNote = false) :
    let after := state.statementLine visit.number visit.line
    state.commentTrail.Reads visit { after.commentTrail with pending := [] } ∧
      (state.comments = [] → after.comments = []) := by
  let read : ScanState := { state with inString := (lexLine state.inString visit.line).2 }
  rcases read.commentTrail_processTokens visit.number true
    (lexLine state.inString visit.line).1 with hkept | ⟨others, hoths, hdecs⟩
  · refine ⟨?_, fun hnone => (congrArg CommentTrail.pending hkept).trans hnone⟩
    have hreads : state.commentTrail.Reads visit _ := .clear hnote
    exact hkept ▸ hreads
  · refine ⟨?_, fun _ => congrArg CommentTrail.pending hdecs⟩
    have hreads : state.commentTrail.Reads visit _ := .declare hnote .variable hoths
    exact hdecs ▸ hreads

lemma commentTrail_scanLine (hstr : state.inString = visit.inString)
    (hopen : state.inString → state.comments = []) :
    let after := (state.scanLine visit.number visit.line visit.following).1
    state.commentTrail.Reads visit after.commentTrail ∧ (after.inString → after.comments = []) := by
  simp only
  cases hins : state.inString with
  | true =>
    have hnote : visit.isNote = false := by
      simp [LineVisit.isNote, LineVisit.isComment, LineVisit.isAnnotation, ← hstr, hins]
    obtain ⟨hreads, hpend⟩ := state.commentTrail_statementLine hnote
    rw [scanLine_of_inString _ _ hins]
    have hnone := hpend (hopen hins)
    rw [← hnone] at hreads
    exact ⟨hreads, fun _ => hnone⟩
  | false =>
    rw [hins] at hstr
    cases hpass : passesOver visit.line with
    | true =>
      rw [scanLine_of_passesOver _ _ hins hpass]
      have hframed : state.FramedFrom (state.passLine visit.number visit.line) :=
        framedFrom_passLine visit.number
      obtain ⟨reports, -, hafter⟩ := hframed
      have hkept : (state.passLine visit.number visit.line).inString = false := by
        rw [hafter, hins]
      exact ⟨commentTrail_passLine hstr.symm hpass, by simp [hkept]⟩
    | false =>
      have hnote : visit.isNote = false := by
        simp only [passesOver_iff, ← Bool.not_eq_true, not_or] at hpass
        simp [LineVisit.isNote, LineVisit.isComment, LineVisit.isAnnotation, hpass]
      cases hhdr : Header.ofLine? visit.line with
      | some header =>
        rw [scanLine_of_header _ _ hins hhdr]
        have hreads := state.commentTrail_beginMethod hnote header
          (ParamList.read (visit.line.drop header.paramsStart) visit.following)
        exact ⟨hreads, fun _ => hreads.pending_eq_nil hnote⟩
      | none =>
        rw [scanLine_of_statements _ _ hins hpass hhdr]
        exact ⟨(state.commentTrail_statementLine hnote).1, fun _ => rfl⟩

lemma commentTrail_finish (state : ScanState) (lastLine : Nat) :
    let table := state.finish lastLine
    state.commentTrail.notes = table.symbols.map Symbol.note ∧
      state.commentTrail.plain = (table.scopes.flatMap fun scope =>
        scope.params ++ scope.locals).all (·.documentation.isNone) := by
  let ended := state.abandonMethod lastLine
  let finished := ended.frames.reverse.foldl (finishFrame lastLine) ended
  have hframed : ended.FramedFrom finished := framedFrom_finishFrames lastLine _ ended
  have hcur : finished.current = none := by
    obtain ⟨reports, -, hafter⟩ := hframed
    rw [hafter]
    exact state.current_abandonMethod lastLine
  have htrail := hframed.commentTrail_eq
  rw [commentTrail_abandonMethod] at htrail
  have hlast : finished.commentTrail.notes = finished.table.symbols.map Symbol.note ∧
      finished.commentTrail.plain = (finished.table.scopes.flatMap fun scope =>
        scope.params ++ scope.locals).all (·.documentation.isNone) := by
    simp [commentTrail, hcur]
  rwa [htrail] at hlast

end ScanState

lemma exists_commentTrail_finish (file : Path) (dialect : Dialect) (text : String) :
    ∃ (state : ScanState) (number lastLine : Nat),
      state.commentTrail.Accounts (moduleVisits text) number ∧
        parseModule file dialect text = state.finish lastLine := by
  let start : ScanState :=
    { table := { file, dialect, text := String.ofList (dropByteOrderMark text.toList) } }
  have hstart : start.commentTrail.Accounts (moduleVisits text) 0 := by
    refine ⟨rfl, rfl, ?_, ?_, ?_⟩ <;> simp [start, ScanState.commentTrail]
  have hscanned := ScanState.scanLines_visits
    (fun (_ : Unit) number state => state.commentTrail.Accounts (moduleVisits text) number ∧
      (state.inString → state.comments = []))
    (fun _ _ => ()) () (fun _ => break_not_mem_moduleLines) ⟨hstart, fun _ => rfl⟩
    fun visit hvisit _ before hstr _ _ ⟨hacc, hopen⟩ => by
      obtain ⟨hreads, hshut⟩ := before.commentTrail_scanLine hstr hopen
      exact ⟨hacc.reads (inTurn_moduleVisits text) hvisit hreads, hshut⟩
  exact ⟨_, _, _, hscanned.1, rfl⟩

/-- The documentation of a method are the comment lines of the longest run of comment lines
and annotations that ends right above its header.  What else is documented has the comment
lines above its line, and no comment line is used for two symbols. -/
theorem parseModule_documentation (file : Path) (dialect : Dialect) (text : String) :
    let visited := moduleVisits text
    let table := parseModule file dialect text
    (∀ method ∈ table.methods,
      method.documentation = documentationAbove visited method.range.startLine) ∧
    (∀ symbol ∈ table.declared, symbol.documentation.isSome = true →
      symbol.documentation = documentationAbove visited symbol.range.startLine) ∧
    table.declared.Pairwise fun first second =>
      ∀ comment, ¬ (first.note.Uses visited comment ∧ second.note.Uses visited comment) := by
  intro visited table
  obtain ⟨state, number, lastLine, ⟨-, hplain, hdocumented, hapart, -⟩, htable⟩ :=
    exists_commentTrail_finish file dialect text
  obtain ⟨hnotes, hinner⟩ := state.commentTrail_finish lastLine
  rw [hnotes, ← htable] at hdocumented hapart
  rw [hinner, ← htable, all_eq_true] at hplain
  replace hdocumented := forall_mem_map.mp hdocumented
  have hinner : ∀ symbol ∈ table.scopes.flatMap fun scope => scope.params ++ scope.locals,
      symbol.documentation.isSome = false :=
    fun symbol hsymbol => by simpa using hplain symbol hsymbol
  refine ⟨fun method hmethod => ?_, forall_mem_append.mpr ⟨?_, ?_⟩,
    pairwise_append.mpr ⟨pairwise_map.mp hapart, ?_, ?_⟩⟩
  · obtain ⟨hsymbol, hkind⟩ := mem_filter.mp hmethod
    exact hdocumented method hsymbol (.inl hkind)
  · exact fun symbol hsymbol hsome => hdocumented symbol hsymbol (.inr hsome)
  · intro symbol hsymbol hsome
    simp [hinner symbol hsymbol] at hsome
  · refine pairwise_of_forall_mem_list fun _ _ symbol hsymbol comment huses => ?_
    exact Bool.false_ne_true ((hinner symbol hsymbol).symm.trans huses.2.1)
  · intro _ _ symbol hsymbol comment huses
    exact Bool.false_ne_true ((hinner symbol hsymbol).symm.trans huses.2.1)

end BslInsight
