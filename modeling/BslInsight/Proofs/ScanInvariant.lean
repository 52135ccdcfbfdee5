import BslInsight.Proofs.ScanMoves
import BslInsight.Proofs.TextPieces

/-!
# Invariants of reading a module

An invariant of reading survives moves at the last line, a directive on the next line, and the
opening of a method on the next lines.  It holds of the state from which the table of a module is
taken, with all of its lines read.
-/

namespace BslInsight

open List

variable {α : Type} {skip line number : Nat} {header : Header} {state : ScanState}

/-- A method that has just been opened by a header on the lines from `first`
to `last` of a file. -/
structure OpenMethod.OpensAt (method : OpenMethod) (file : Path) (first last : Nat) : Prop where
  file : method.symbol.range.file = file
  start : method.symbol.range.startLine = first
  kind : method.symbol.kind.isMethod = true
  params : ∀ param ∈ method.params, first ≤ param.range.startLine ∧ param.range.startLine ≤ last ∧
        param.range.endLine = param.range.startLine
  locals : method.locals = []
  assignments : method.assignments = []
  blocks : method.blocks = []

structure ScanInvariant (holds : Nat → ScanState → Prop) : Prop where
  mono : ∀ {read more : Nat} {state : ScanState}, holds read state → read ≤ more → holds more state
  move : ∀ {line : Nat} {before after : ScanState},
      ScanMove anyToken line before after → holds (line + 1) before → holds (line + 1) after
  directive : ∀ {number : Nat} {state : ScanState} (kind : DirectiveKind)
      (text : List Char), holds number state →
        holds (number + 1) (state.addDirective kind number text)
  opening : ∀ {first last : Nat} {state : ScanState} {method : OpenMethod},
      holds first state → state.current = none → first ≤ last →
        method.OpensAt state.table.file first last →
          holds (last + 1) { state with current := some method }

lemma forall_mem_concat {p : α → Prop} {items : List α} (hitems : ∀ item ∈ items, p item)
    {last : α} (hlast : p last) : ∀ item ∈ items ++ [last], p item :=
  forall_mem_append.mpr ⟨hitems, forall_mem_singleton.mpr hlast⟩

lemma pairwise_concat {related : α → α → Prop} {items : List α} (hitems : items.Pairwise related)
    {last : α} (hlast : ∀ earlier ∈ items, related earlier last) :
    (items ++ [last]).Pairwise related := by
  refine pairwise_append.mpr ⟨hitems, pairwise_singleton _ _, ?_⟩
  intro earlier hearl
  exact forall_mem_singleton.mpr (hlast earlier hearl)

/-! ## Headers -/

lemma findWordInLines?_bounds {word : String} {place column : Nat} {texts : List (List Char)}
    (hfound : findWordInLines? word skip line texts = some (place, column)) :
    line ≤ place ∧ place < line + texts.length := by
  induction texts generalizing skip line with
  | nil => cases hfound
  | cons text texts ih =>
    unfold findWordInLines? at hfound
    rw [length_cons]
    split at hfound
    next =>
      obtain ⟨rfl, -⟩ : line = place ∧ _ = column := by simpa using hfound
      omega
    next =>
      have hlater := ih hfound
      omega

lemma ParamList.extraLines_continued_le
    (depth : Nat) (inQuote : Bool) (following : List (List Char)) :
    (continued depth inQuote following).extraLines ≤ following.length := by
  induction following generalizing depth inQuote with
  | nil => exact Nat.le_refl 0
  | cons line rest ih =>
    unfold continued
    split
    · exact Nat.zero_le _
    · split
      next => simp
      next depth inQuote _ =>
        have hrest := ih depth inQuote
        simp only [length_cons]
        omega

lemma ParamList.extraLines_read_le (first : List Char) (following : List (List Char)) :
    (read first following).extraLines ≤ following.length := by
  unfold read
  split
  · exact Nat.zero_le _
  · exact extraLines_continued_le _ _ following

lemma Header.isMethod_of_ofLine? {line : List Char} (hhdr : ofLine? line = some header) :
    header.kind.isMethod := by
  unfold ofLine? at hhdr
  simp only [Option.bind_eq_bind, Option.bind_eq_some_iff] at hhdr
  obtain ⟨⟨word, rest⟩, -, after, -, hname⟩ := hhdr
  simp only at hname
  split at hname
  · split at hname
    · rw [Option.some.injEq] at hname
      rw [← hname]
      simp only
      split <;> rfl
    · cases hname
  · cases hname

namespace ScanState

lemma moves_abandonMethod (state : ScanState) (line : Nat) :
    ScanMoves origin line state (state.abandonMethod line) := by
  unfold abandonMethod
  split
  next => exact .refl
  next method hcur =>
    have hrep : ScanMove origin line state
        (state.addIssue method.symbol.range.startLine .unterminatedMethod) :=
      .issue state _ (.inr (.inl ⟨method, hcur, .inl rfl⟩))
    have hclose : ScanMove origin line (state.addIssue method.symbol.range.startLine .unterminatedMethod)
        ((state.addIssue method.symbol.range.startLine .unterminatedMethod).closeMethod line) :=
      .close _ hcur
    exact .tail (.single hrep) hclose

@[simp] lemma current_closeMethod (state : ScanState) (line : Nat) :
    (state.closeMethod line).current = none := by
  unfold closeMethod
  split
  next hcur => exact hcur
  next => rfl

@[simp] lemma current_abandonMethod (state : ScanState) (line : Nat) :
    (state.abandonMethod line).current = none := by
  unfold abandonMethod
  split
  next hcur => exact hcur
  next => simp

lemma param_line_bounds {name : String} {extra fallback : Nat} (line : List Char)
    (following : List (List Char)) :
    let place := ((findWordInLines? name skip number
      (line :: following.take extra)).getD (number, fallback)).1
    number ≤ place ∧ place ≤ number + extra := by
  intro place
  cases hfound : findWordInLines? name skip number (line :: following.take extra) with
  | none =>
    have hplace : place = number := by simp [place, hfound]
    omega
  | some found =>
    have hplace : place = found.1 := by simp [place, hfound]
    have hbounds := findWordInLines?_bounds hfound
    have hlen : (line :: following.take extra).length ≤ extra + 1 := by
      rw [length_cons, length_take]
      exact Nat.succ_le_succ (Nat.min_le_left extra following.length)
    omega

lemma moves_openMethod (state : ScanState) {method : OpenMethod} {last : Nat}
    (hstart : method.symbol.range.startLine = number) (closed inString : Bool)
    {tokens : List Token} (htoks : ∀ token ∈ tokens, origin token) :
    ScanMoves origin last { state with current := some method } (processTokens
        { (if closed then state else state.addIssue number .malformedHeader) with
          inString
          comments := []
          directive := none
          current := some method } last true tokens) := by
  have hread := fun opened => moves_processTokens opened last true htoks
  cases closed with
  | true => exact (hread _).head (.note _ inString [] none)
  | false =>
    let opened : ScanState := { state with current := some method }
    have hrep : ScanMove origin last opened (opened.addIssue number .malformedHeader) :=
      .issue opened _ (.inr (.inl ⟨method, rfl, .inl hstart⟩))
    exact ((hread _).head (.note _ inString [] none)).head hrep

lemma exists_moves_beginMethod (state : ScanState) (number : Nat) (line : List Char)
    (hkind : header.kind.isMethod) (list : ParamList) (following : List (List Char)) :
    ∃ method : OpenMethod,
      method.OpensAt (state.abandonMethod (number - 1)).table.file number (number + list.extraLines) ∧
      ScanMoves anyToken (number + list.extraLines)
        { state.abandonMethod (number - 1) with current := some method }
        (state.beginMethod number line header list following) := by
  unfold beginMethod
  simp only
  refine ⟨_, ?_, moves_openMethod _ ?_ list.closed _ fun _ _ => trivial⟩
  · refine ⟨by cases list.closed <;> rfl, rfl, hkind, ?_, rfl, rfl, rfl⟩
    intro symbol hsym
    obtain ⟨param, -, rfl⟩ := mem_map.mp hsym
    rw [← and_assoc]
    exact ⟨param_line_bounds line following, rfl⟩
  · rfl

lemma moves_finishFrames (state : ScanState) {frames : List Frame} (lastLine : Nat)
    (hfrs : ∀ frame ∈ frames, frame ∈ state.frames) :
    ScanMoves anyToken lastLine state (frames.foldl (finishFrame lastLine) state) ∧
      (frames.foldl (finishFrame lastLine) state).current = state.current := by
  induction frames generalizing state with
  | nil => exact ⟨.refl, rfl⟩
  | cons frame frames ih =>
    have hrep : ScanMove anyToken lastLine state (state.addIssue frame.line .unclosedRegion) :=
      .issue state _ (.inr (.inr ⟨frame, hfrs frame mem_cons_self, rfl⟩))
    have hrest (other) (hoth : other ∈ frames) : other ∈ state.frames :=
      hfrs other (mem_cons_of_mem _ hoth)
    cases frame with
    | region name line =>
      obtain ⟨hmoves, hcur⟩ := ih (finishFrame lastLine state (.region name line)) hrest
      exact ⟨(hmoves.head (.region _ _)).head hrep, hcur⟩
    | conditional line =>
      obtain ⟨hmoves, hcur⟩ := ih (finishFrame lastLine state (.conditional line)) hrest
      exact ⟨hmoves.head hrep, hcur⟩

lemma exists_moves_finish (state : ScanState) (lastLine : Nat) :
    ∃ ended : ScanState, ScanMoves anyToken lastLine state ended ∧ ended.current = none ∧
      ended.table = state.finish lastLine := by
  have habandon : ScanMoves anyToken lastLine state (state.abandonMethod lastLine) :=
    state.moves_abandonMethod lastLine
  obtain ⟨hfrs, hcur⟩ := moves_finishFrames (state.abandonMethod lastLine) lastLine
      (fun frame hframe => mem_reverse.mp hframe)
  let finished := (state.abandonMethod lastLine).frames.reverse.foldl
    (finishFrame lastLine) (state.abandonMethod lastLine)
  exact ⟨{ finished with table := state.finish lastLine },
    (habandon.trans hfrs).tail (.region finished _),
    hcur.trans (current_abandonMethod state lastLine), rfl⟩

lemma extraLines_scanLine_le (state : ScanState) (number : Nat) (line : List Char)
    (following : List (List Char)) :
    (state.scanLine number line following).2 ≤ following.length := by
  unfold scanLine
  simp only
  split_ifs
  iterate 5 exact Nat.zero_le _
  split
  · exact ParamList.extraLines_read_le _ following
  · exact Nat.zero_le _

lemma scanLines_reads {holds : Nat → ScanState → Prop}
    (hstep : ∀ number state line following, holds number state →
      holds (number + 1 + (state.scanLine number line following).2)
        (state.scanLine number line following).1)
    (hstate : holds number state) (lines : List (List Char)) :
    holds (number + lines.length) (state.scanLines number lines) := by
  fun_induction scanLines state number lines with
  | case1 => exact hstate
  | case2 state number line rest next extra hscan ih =>
    have hnext := hstep number state line rest hstate
    have hextra := state.extraLines_scanLine_le number line rest
    rw [hscan] at hnext hextra
    have hcount : number + 1 + extra + (rest.drop extra).length =
        number + (line :: rest).length := by
      rw [length_drop, length_cons]
      omega
    exact hcount ▸ ih hnext

end ScanState

/-! ## The induction over a module -/

namespace ScanInvariant

variable {holds : Nat → ScanState → Prop} (hinv : ScanInvariant holds)

include hinv

lemma moves {before after : ScanState} (hmoves : ScanMoves anyToken line before after)
    (hbef : holds (line + 1) before) : holds (line + 1) after := by
  induction hmoves with
  | refl => exact hbef
  | tail _ hmove ih => exact hinv.move hmove ih

section

variable (hstate : holds number state)
include hstate

variable (hfirst : number = 0 → state.current = none)
include hfirst

lemma abandonMethod : holds number (state.abandonMethod (number - 1)) := by
  cases number with
  | zero =>
    have hsame : state.abandonMethod (0 - 1) = state := by
      simp [ScanState.abandonMethod, hfirst rfl]
    rwa [hsame]
  | succ line => exact hinv.moves (state.moves_abandonMethod line) hstate

lemma beginMethod (line : List Char) (hkind : header.kind.isMethod) (list : ParamList)
    (following : List (List Char)) :
    holds (number + 1 + list.extraLines) (state.beginMethod number line header list following) := by
  obtain ⟨method, hopens, hmoves⟩ := state.exists_moves_beginMethod number line hkind list following
  have hended := hinv.abandonMethod hstate hfirst
  have hopn := hinv.opening hended
    (state.current_abandonMethod (number - 1)) (Nat.le_add_right _ _) hopens
  rw [Nat.add_right_comm]
  exact hinv.moves hmoves hopn

/-- One line with the lines that its header takes.  Before the first line there
is no method that a header could end. -/
lemma scanLine (line : List Char) (following : List (List Char)) :
    holds (number + 1 + (state.scanLine number line following).2)
      (state.scanLine number line following).1 := by
  have hnext : holds (number + 1) state := hinv.mono hstate (Nat.le_succ number)
  have hmoves := state.moves_statementLine number line fun _ _ => trivial
  unfold ScanState.scanLine
  simp only
  split_ifs
  · exact hinv.moves hmoves hnext
  · exact hinv.move (.note state _ [] _) hnext
  · exact hinv.move (.note state _ _ _) hnext
  · obtain ⟨kind, text, hmoves⟩ := state.exists_moves_directiveLine number (trim line)
    exact hinv.moves hmoves (hinv.directive kind text hstate)
  · obtain ⟨kind, text, hmoves⟩ := state.exists_moves_preprocessorLine number (trim line)
    exact hinv.moves (hmoves.tail (.note _ _ [] _)) (hinv.directive kind text hstate)
  · split
    next header hhdr =>
      exact hinv.beginMethod hstate hfirst line (Header.isMethod_of_ofLine? hhdr) _ following
    next => exact hinv.moves (hmoves.tail (.note _ _ [] none)) hnext

lemma scanLines
    (lines : List (List Char)) : holds (number + lines.length) (state.scanLines number lines) := by
  let holds' (read : Nat) (state : ScanState) : Prop :=
    holds read state ∧ (read = 0 → state.current = none)
  have hread : holds' (number + lines.length) (state.scanLines number lines) := by
    refine ScanState.scanLines_reads (fun number state line rest hstate => ?_) ⟨hstate, hfirst⟩ lines
    exact ⟨hinv.scanLine hstate.1 hstate.2 line rest, fun h => by omega⟩
  exact hread.1

end

/-- What holds before the first line and is an invariant holds of the state
that a module ends in, with all lines read and no method open. -/
lemma exists_end {file : Path} {dialect : Dialect} {text : String} (hstart :
      holds 0 { table := { file, dialect, text := String.ofList (dropByteOrderMark text.toList) } }) :
    ∃ state, holds (text.toList.count '\n' + 1) state ∧ state.current = none ∧
      state.table = BslInsight.parseModule file dialect text := by
  let chars := dropByteOrderMark text.toList
  let lines := splitLines chars
  let start : ScanState := { table := { file, dialect, text := String.ofList chars } }
  have hcount : lines.length = text.toList.count '\n' + 1 := by
    rw [length_splitLines, count_dropByteOrderMark]
  have hread := hinv.scanLines hstart (fun _ => rfl) lines
  rw [Nat.zero_add, hcount] at hread
  obtain ⟨ended, hmoves, hcur, htable⟩ :=
    (start.scanLines 0 lines).exists_moves_finish (lines.length - 1)
  rw [hcount, Nat.add_sub_cancel] at hmoves
  exact ⟨ended, hinv.moves hmoves hread, hcur, htable⟩

lemma parseModule (hstart : ∀ file dialect text, holds 0 { table := { file, dialect, text } })
    (file : Path) (dialect : Dialect) (text : String) :
    ∃ state, holds (text.toList.count '\n' + 1) state ∧ state.current = none ∧
      state.table = BslInsight.parseModule file dialect text :=
  hinv.exists_end (hstart file dialect _)

end ScanInvariant

end BslInsight
