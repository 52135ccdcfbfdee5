import BslInsight.Proofs.MethodExtents
import Mathlib.Data.List.Induction

/-!
# The blocks of a method

A closing word ends the innermost open block of its kind; the blocks inside it are reported, and
so are those that are open at the end of the method.  Every block is closed by one word or
reported once, and nothing is reported just if the words that are not ignored are well nested.
-/

namespace BslInsight

open List

variable {opened : OpenedBlock} {kinds : List BlockKind} {kind : BlockKind} {method : OpenMethod}
  {words : List BlockWord}

/-! ## Words for blocks -/

inductive BlockWord where
  | opens (block : Block)
  | closes (kind : BlockKind)
deriving DecidableEq

def BlockWord.isOpening : BlockWord → Bool
  | .opens _ => true
  | .closes _ => false

structure OpenedBlock where
  index : Nat
  block : Block
deriving DecidableEq

def openedBlocks (words : List BlockWord) : List OpenedBlock := words.zipIdx.filterMap fun entry =>
    match entry.1 with
    | .opens block => some ⟨entry.2, block⟩
    | .closes _ => none

/-- Words in which each block is closed by the word of its kind, after the blocks inside
it. -/
inductive WellNested : List BlockWord → Prop
  | nil : WellNested []
  | block (block : Block) {inner rest : List BlockWord}
      (hinner : WellNested inner) (hrest : WellNested rest) :
      WellNested (.opens block :: (inner ++ .closes block.kind :: rest))

/-- What becomes of the blocks after the first `seen` words.  The innermost open block is
the first of `stack`, and a block is paired with the position of the word that closed it. -/
structure BlockRun where
  seen : Nat := 0
  stack : List OpenedBlock := []
  pairs : List (OpenedBlock × Nat) := []
  unclosed : List OpenedBlock := []

def BlockRun.read (run : BlockRun) : BlockWord → BlockRun
  | .opens block => { run with seen := run.seen + 1, stack := ⟨run.seen, block⟩ :: run.stack }
  | .closes kind =>
    match cutAt? (fun opened : OpenedBlock => opened.block.kind == kind) run.stack with
    | none => { run with seen := run.seen + 1 }
    | some (above, opened, below) =>
      { seen := run.seen + 1
        stack := below
        pairs := run.pairs ++ [(opened, run.seen)]
        unclosed := run.unclosed ++ above }

def blockRun (words : List BlockWord) : BlockRun := words.foldl BlockRun.read {}

lemma blockRun_concat (words : List BlockWord) (word : BlockWord) :
    blockRun (words ++ [word]) = (blockRun words).read word := by
  rw [blockRun, foldl_append]
  rfl

def keptWords (words : List BlockWord) (pairs : List (OpenedBlock × Nat)) : List BlockWord :=
  (words.zipIdx.filter fun entry => entry.1.isOpening || pairs.any (·.2 == entry.2)).map Prod.fst

lemma openedBlocks_concat (words : List BlockWord) (word : BlockWord) :
    openedBlocks (words ++ [word]) = openedBlocks words ++ match word with
      | .opens block => [⟨words.length, block⟩]
      | .closes _ => [] := by
  unfold openedBlocks
  rw [zipIdx_append, filterMap_append]
  cases word <;> simp

lemma index_lt_of_mem_openedBlocks (hopn : opened ∈ openedBlocks words) :
    opened.index < words.length := by
  obtain ⟨⟨word, index⟩, hmem, hopens⟩ := mem_filterMap.mp hopn
  have hindex : index < words.length := by simpa using (mem_zipIdx hmem).2.1
  cases word with
  | opens block =>
    obtain rfl := Option.some.inj hopens
    exact hindex
  | closes kind => cases hopens

lemma keptWords_concat
    (words : List BlockWord) (word : BlockWord) {pairs : List (OpenedBlock × Nat)}
    (more : List (OpenedBlock × Nat)) (hpairs : ∀ pair ∈ pairs, pair.2 < words.length)
    (hmore : ∀ pair ∈ more, pair.2 = words.length) :
    keptWords (words ++ [word]) (pairs ++ more) =
      keptWords words pairs ++ if word.isOpening || !more.isEmpty then [word] else [] := by
  have hold (entry : BlockWord × Nat) (hentry : entry ∈ words.zipIdx) :
      (pairs ++ more).any (·.2 == entry.2) = pairs.any (·.2 == entry.2) := by
    have hindex : entry.2 < words.length := by simpa using (mem_zipIdx hentry).2.1
    have hnone : more.any (·.2 == entry.2) = false := by
      refine any_eq_false.mpr fun pair hpair => ?_
      simp [hmore pair hpair, hindex.ne']
    rw [any_append, hnone, Bool.or_false]
  have hlast : (pairs ++ more).any (·.2 == words.length) = !more.isEmpty := by
    have hnone : pairs.any (·.2 == words.length) = false :=
      any_eq_false.mpr fun pair hpair => by simpa using (hpairs pair hpair).ne
    rw [any_append, hnone, Bool.false_or]
    cases more with
    | nil => rfl
    | cons pair rest => simp [hmore pair mem_cons_self]
  unfold keptWords
  rw [zipIdx_append, filter_append, map_append]
  congr 1
  · refine congrArg (List.map Prod.fst) (filter_congr fun entry hentry => ?_)
    rw [hold entry hentry]
  · rw [zipIdx_singleton, Nat.zero_add, filter_cons, hlast]
    split <;> rfl

/-! ## Well nested words -/

def nestingStep (kinds : Option (List BlockKind)) (word : BlockWord) : Option (List BlockKind) :=
  match word, kinds with
  | .opens block, some kinds => some (block.kind :: kinds)
  | .closes kind, some (inner :: kinds) => if inner = kind then some kinds else none
  | _, _ => none

def nesting (words : List BlockWord) : Option (List BlockKind) := words.foldl nestingStep (some [])

lemma nesting_concat (words : List BlockWord) (word : BlockWord) :
    nesting (words ++ [word]) = nestingStep (nesting words) word := by
  rw [nesting, foldl_append]
  rfl

lemma foldl_nestingStep_none (words : List BlockWord) : words.foldl nestingStep none = none := by
  induction words with
  | nil => rfl
  | cons word words ih => cases word <;> exact ih

lemma WellNested.foldl_nestingStep (hwords : WellNested words) (kinds : List BlockKind) :
    words.foldl nestingStep (some kinds) = some kinds := by
  induction hwords generalizing kinds with
  | nil => rfl
  | block block _ _ ihinner ihrest =>
    rw [foldl_cons, foldl_append, nestingStep, ihinner, foldl_cons, nestingStep, if_pos rfl, ihrest]

inductive ClosesAll : List BlockKind → List BlockWord → Prop
  | nil {words : List BlockWord} (hwords : WellNested words) : ClosesAll [] words
  | cons (kind : BlockKind) {kinds : List BlockKind} {inner rest : List BlockWord}
      (hinner : WellNested inner) (hrest : ClosesAll kinds rest) :
      ClosesAll (kind :: kinds) (inner ++ .closes kind :: rest)

lemma ClosesAll.block (block : Block) {inner rest : List BlockWord} (hinner : WellNested inner)
    (hrest : ClosesAll kinds rest) :
    ClosesAll kinds (.opens block :: (inner ++ .closes block.kind :: rest)) := by
  cases hrest with
  | nil hwords => exact .nil (.block block hinner hwords)
  | cons kind hnext hrest =>
    have hcls := ClosesAll.cons kind (.block block hinner hnext) hrest
    rwa [cons_append, append_assoc, cons_append] at hcls

lemma closesAll_of_foldl (hwords : words.foldl nestingStep (some kinds) = some []) :
    ClosesAll kinds words := by
  induction words generalizing kinds with
  | nil =>
    obtain rfl := Option.some.inj hwords
    exact .nil .nil
  | cons word words ih =>
    cases word with
    | opens block =>
      cases ih hwords with
      | cons _ hinner hrest => exact hrest.block block hinner
    | closes kind =>
      cases kinds with
      | nil =>
        have hnone : nestingStep (some []) (.closes kind) = none := rfl
        rw [foldl_cons, hnone, foldl_nestingStep_none] at hwords
        cases hwords
      | cons inner kinds =>
        rw [foldl_cons, nestingStep] at hwords
        split at hwords
        next hkind =>
          rw [hkind]
          exact .cons kind .nil (ih hwords)
        next =>
          rw [foldl_nestingStep_none] at hwords
          cases hwords

lemma nesting_eq_nil_iff : nesting words = some [] ↔ WellNested words := by
  constructor
  · intro hnesting
    obtain ⟨hwords⟩ := closesAll_of_foldl hnesting
    exact hwords
  · exact fun hwords => hwords.foldl_nestingStep []

/-! ## The words of a method -/

/-- The blocks that words open are each closed, reported or open, and the words that are
kept are nested as long as nothing is reported. -/
structure BlockRun.Accounts (run : BlockRun) (words : List BlockWord) : Prop where
  seen : run.seen = words.length
  blocks : (run.pairs.map Prod.fst ++ run.unclosed ++ run.stack).Perm (openedBlocks words)
  closers : ∀ pair ∈ run.pairs,
    pair.1.index < pair.2 ∧ words[pair.2]? = some (.closes pair.1.block.kind)
  distinct : (run.pairs.map Prod.snd).Nodup
  nesting : nesting (keptWords words run.pairs) =
    if run.unclosed = [] then some (run.stack.map (·.block.kind)) else none

namespace BlockRun.Accounts

variable {run : BlockRun} {words : List BlockWord} (hacc : run.Accounts words)
include hacc

lemma closer_lt {pair : OpenedBlock × Nat} (hpair : pair ∈ run.pairs) : pair.2 < words.length :=
  (List.getElem?_eq_some_iff.mp (hacc.closers pair hpair).2).1

lemma closers_concat (word : BlockWord) : ∀ pair ∈ run.pairs, pair.1.index < pair.2 ∧
      (words ++ [word])[pair.2]? = some (.closes pair.1.block.kind) := by
  intro pair hpair
  obtain ⟨hindex, hcls⟩ := hacc.closers pair hpair
  exact ⟨hindex, by rwa [getElem?_append_left (hacc.closer_lt hpair)]⟩

lemma opens (block : Block) : (run.read (.opens block)).Accounts (words ++ [.opens block]) where
  seen := by simp [BlockRun.read, hacc.seen]
  blocks := by
    rw [openedBlocks_concat, ← hacc.seen]
    exact perm_middle.trans ((hacc.blocks.cons _).trans (perm_append_singleton _ _).symm)
  closers := hacc.closers_concat _
  distinct := hacc.distinct
  nesting := by
    have hkept := keptWords_concat words (.opens block) [] (fun _ => hacc.closer_lt) (by simp)
    rw [append_nil, BlockWord.isOpening, Bool.true_or, if_pos rfl] at hkept
    simp only [BlockRun.read]
    rw [hkept, nesting_concat, hacc.nesting]
    by_cases huncl : run.unclosed = [] <;> simp [huncl, nestingStep]

lemma ignores (hnone : ∀ opened ∈ run.stack, (opened.block.kind == kind) = false) :
    (run.read (.closes kind)).Accounts (words ++ [.closes kind]) := by
  have hread : run.read (.closes kind) = { run with seen := run.seen + 1 } := by
    simp only [BlockRun.read, cutAt?_eq_none_iff.mpr hnone]
  have hkept := keptWords_concat words (.closes kind) [] (fun _ => hacc.closer_lt) (by simp)
  rw [append_nil] at hkept
  rw [hread]
  exact
    { seen := by simp [hacc.seen]
      blocks := by
        rw [openedBlocks_concat, append_nil]
        exact hacc.blocks
      closers := hacc.closers_concat _
      distinct := hacc.distinct
      nesting := by
        rw [hkept]
        simpa [BlockWord.isOpening] using hacc.nesting }

lemma closes {above below : List OpenedBlock}
    (hcut : cutAt? (fun opened : OpenedBlock => opened.block.kind == kind) run.stack =
      some (above, opened, below)) :
    (run.read (.closes kind)).Accounts (words ++ [.closes kind]) := by
  obtain ⟨hreverse, hkind, habove⟩ := cutAt?_eq_some hcut
  have hstack : run.stack = above.reverse ++ opened :: below := by
    rw [← reverse_reverse run.stack, hreverse]
    simp
  have hopn : opened ∈ openedBlocks words := by
    refine hacc.blocks.subset (mem_append_right _ ?_)
    simp [hstack]
  have hread : run.read (.closes kind) =
      { seen := run.seen + 1, stack := below, pairs := run.pairs ++ [(opened, run.seen)]
        unclosed := run.unclosed ++ above } := by
    simp only [BlockRun.read, hcut]
  have hkept := keptWords_concat words (.closes kind) [(opened, run.seen)]
    (fun _ => hacc.closer_lt) (by simp [hacc.seen])
  rw [hread]
  exact
    { seen := by simp [hacc.seen]
      blocks := by
        have hold := hacc.blocks
        rw [hstack] at hold
        rw [openedBlocks_concat, append_nil]
        rw [perm_iff_count] at hold ⊢
        intro item
        rw [← hold item]
        simp only [map_append, map_singleton, count_append, count_cons, count_nil, count_reverse]
        omega
      closers := by
        refine forall_mem_concat (hacc.closers_concat _) ⟨?_, ?_⟩
        · rw [hacc.seen]
          exact index_lt_of_mem_openedBlocks hopn
        · simp [hacc.seen, eq_of_beq hkind]
      distinct := by
        rw [map_append, map_singleton, nodup_append]
        refine ⟨hacc.distinct, nodup_singleton _, ?_⟩
        rintro position hposition _ hlast rfl
        obtain ⟨pair, hpair, rfl⟩ := mem_map.mp hposition
        have hlt := hacc.closer_lt hpair
        rw [mem_singleton.mp hlast, hacc.seen] at hlt
        exact Nat.lt_irrefl _ hlt
      nesting := by
        rw [hkept, if_pos (by simp), nesting_concat, hacc.nesting, hstack]
        by_cases huncl : run.unclosed = []
        · obtain rfl | ⟨inner, top, rfl⟩ := above.eq_nil_or_concat'
          · simp [huncl, nestingStep, eq_of_beq hkind]
          · have htop : top.block.kind ≠ kind := by
              simpa using habove top (mem_append_right _ mem_cons_self)
            simp [huncl, nestingStep, htop]
        · rw [if_neg huncl, if_neg (by simp [huncl])]
          rfl }

end BlockRun.Accounts

lemma accounts_blockRun (words : List BlockWord) : (blockRun words).Accounts words := by
  induction words using reverseRecOn with
  | nil => exact ⟨rfl, .nil, by simp [blockRun], .nil, rfl⟩
  | append_singleton words word ih =>
    rw [blockRun_concat]
    cases word with
    | opens block => exact ih.opens block
    | closes kind =>
      cases hcut : cutAt? (fun opened : OpenedBlock => opened.block.kind == kind)
          (blockRun words).stack with
      | none => exact ih.ignores (cutAt?_eq_none_iff.mp hcut)
      | some cut => exact ih.closes hcut

/-! ## The methods of a module -/

structure MethodBlocks where
  start : Nat
  words : List BlockWord := []
  terminated : Bool := false

/-- The blocks of a method that are reported.  Without a terminator those that are open at
its end are not. -/
def MethodBlocks.unclosed (method : MethodBlocks) : List OpenedBlock :=
  (blockRun method.words).unclosed ++
    if method.terminated then (blockRun method.words).stack.reverse else []

structure MethodsRead where
  ended : List MethodBlocks := []
  current : Option MethodBlocks := none

namespace MethodsRead

def close (read : MethodsRead) (terminated : Bool) : MethodsRead :=
  { ended := read.ended ++ (read.current.map ({ · with terminated })).toList }

def word (read : MethodsRead) (word : BlockWord) : MethodsRead :=
  { read with current := read.current.map fun method =>
      { method with words := method.words ++ [word] } }

def perform (line : Nat) (read : MethodsRead) : TokenAction → MethodsRead
  | .openBlock kind => read.word (.opens ⟨kind, line⟩)
  | .closeBlock kind => read.word (.closes kind)
  | .endMethod _ => read.close true
  | _ => read

def begin (read : MethodsRead) (line : Nat) : MethodsRead :=
  { read.close false with current := some { start := line } }

def follow (read : MethodsRead) (visit : LineVisit) : MethodsRead :=
  (visit.lexed.1.flatMap Token.keywordActions).foldl (perform visit.tokenLine)
    (if visit.header?.isSome then read.begin visit.number else read)

end MethodsRead

def moduleMethods (text : String) : List MethodBlocks :=
  (((moduleVisits text).foldl MethodsRead.follow {}).close false).ended

def ModuleTable.unclosedLines (table : ModuleTable) : List Nat :=
  (table.issues.filter (·.kind = .unclosedBlock)).map (·.line)

lemma unclosedLines_addIssues (state : ScanState) (lines : List Nat) :
    (state.addIssues lines .unclosedBlock).table.unclosedLines =
      state.table.unclosedLines ++ lines := by
  simp [ScanState.addIssues, ModuleTable.unclosedLines, filter_map, Function.comp_def]

structure MethodsRead.Describes (read : MethodsRead) (state : ScanState) : Prop where
  starts : state.table.scopes.map (·.startLine) = read.ended.map (·.start)
  reports : state.table.unclosedLines = (read.ended.flatMap MethodBlocks.unclosed ++
      read.current.toList.flatMap fun method => (blockRun method.words).unclosed).map (·.block.line)
  current : state.current.map (fun method => (method.symbol.range.startLine, method.blocks)) =
    read.current.map fun method => (method.start, (blockRun method.words).stack.map (·.block))

namespace MethodsRead.Describes

variable {read : MethodsRead} {state : ScanState} (hread : read.Describes state)
include hread

lemma addIssue (line : Nat) {kind : IssueKind} (hkind : kind ≠ .unclosedBlock) :
    read.Describes (state.addIssue line kind) := by
  have hsame : (state.addIssue line kind).table.unclosedLines = state.table.unclosedLines := by
    simp [ScanState.addIssue, ModuleTable.unclosedLines, hkind]
  exact ⟨hread.starts, hsame.trans hread.reports, hread.current⟩

lemma framed {after : ScanState} (hframed : state.FramedFrom after) : read.Describes after := by
  have hregs : IssueKind.unclosedBlock.isAboutRegions = false := rfl
  have hissues := hframed.filter_issues hregs
  obtain ⟨reports, -, hafter⟩ := hframed
  have hsame := congrArg (List.map Issue.line) hissues
  refine ⟨?_, hsame.trans hread.reports, ?_⟩
  · rw [hafter]
    exact hread.starts
  · rw [hafter]
    exact hread.current

lemma current_cases : (state.current = none ∧ read.current = none) ∨
      ∃ method blocks, state.current = some method ∧ read.current = some blocks ∧
        method.symbol.range.startLine = blocks.start ∧
        method.blocks = (blockRun blocks.words).stack.map (·.block) := by
  have hcur := hread.current
  cases hstate : state.current with
  | none =>
    rw [hstate] at hcur
    exact .inl ⟨rfl, Option.map_eq_none_iff.mp hcur.symm⟩
  | some method =>
    rw [hstate] at hcur
    obtain ⟨blocks, hblocs, hsame⟩ := Option.map_eq_some_iff.mp hcur.symm
    obtain ⟨hstart, hstack⟩ := Prod.mk.inj hsame
    exact .inr ⟨method, blocks, rfl, hblocs, hstart.symm, hstack.symm⟩

lemma withMethod {changed : OpenMethod} (hcur : state.current = some method)
    (hsym : changed.symbol = method.symbol) (hblocs : changed.blocks = method.blocks) :
    read.Describes { state with current := some changed } := by
  refine ⟨hread.starts, hread.reports, ?_⟩
  rw [← hread.current, hcur, Option.map_some, Option.map_some, hsym, hblocs]

lemma declareImplicit (line : Nat) (token : Token) :
    read.Describes (state.declareImplicit line token) := by
  unfold ScanState.declareImplicit
  split
  next => exact hread
  next method hcur =>
    simp only
    split
    · exact hread
    · exact hread.withMethod hcur rfl rfl

lemma declareVariable (line : Nat) (token : Token) (exported : Bool) :
    read.Describes (state.declareVariable line token exported) := by
  unfold ScanState.declareVariable
  simp only
  split
  next method hcur => exact hread.withMethod hcur rfl rfl
  next hcur => exact ⟨hread.starts, hread.reports, hread.current⟩

lemma recordAssignment (line : Nat) (target : Token) (right : List Token) :
    read.Describes (state.recordAssignment line target right) := by
  have hdeclared := hread.declareImplicit line target
  unfold ScanState.recordAssignment
  simp only
  split
  next method hcur => exact hdeclared.withMethod hcur rfl rfl
  next => exact ⟨hdeclared.starts, hdeclared.reports, hdeclared.current⟩

lemma word_of_none (hnone : read.current = none) (word : BlockWord) :
    (read.word word).Describes state := by
  have hsame : read.word word = read := by
    rw [MethodsRead.word, hnone, Option.map_none, ← hnone]
  rwa [hsame]

lemma pushBlock (kind : BlockKind) (line : Nat) :
    (read.word (.opens ⟨kind, line⟩)).Describes (state.pushBlock kind line) := by
  unfold ScanState.pushBlock
  obtain ⟨hstate, hnone⟩ | ⟨method, blocks, hstate, hblocs, hstart, hstack⟩ := hread.current_cases
  · rw [hstate]
    exact hread.word_of_none hnone _
  · have hreps := hread.reports
    rw [hstate, MethodsRead.word, hblocs]
    rw [hblocs] at hreps
    refine ⟨hread.starts, ?_, ?_⟩
    · simpa [blockRun_concat, BlockRun.read] using hreps
    · simp [blockRun_concat, BlockRun.read, hstart, hstack]

lemma popBlock (kind : BlockKind) : (read.word (.closes kind)).Describes (state.popBlock kind) := by
  unfold ScanState.popBlock
  obtain ⟨hstate, hnone⟩ | ⟨method, blocks, hstate, hblocs, hstart, hstack⟩ := hread.current_cases
  · rw [hstate]
    exact hread.word_of_none hnone _
  · have hreps := hread.reports
    have hcut := cutAt?_map (fun block : Block => block.kind == kind) OpenedBlock.block
      (blockRun blocks.words).stack
    rw [hstate, MethodsRead.word, hblocs]
    rw [hblocs] at hreps
    simp only [hstack, hcut]
    cases hfound : cutAt? (fun opened : OpenedBlock => opened.block.kind == kind)
        (blockRun blocks.words).stack with
    | none =>
      refine ⟨hread.starts, ?_, ?_⟩
      · simpa [blockRun_concat, BlockRun.read, hfound] using hreps
      · simp [blockRun_concat, BlockRun.read, hfound, hstate, hstart, hstack]
    | some cut =>
      refine ⟨hread.starts, ?_, ?_⟩
      · simp [blockRun_concat, BlockRun.read, hfound, unclosedLines_addIssues, hreps]
      · simp [blockRun_concat, BlockRun.read, hfound, ScanState.addIssues, hstart]

lemma close {blocks : MethodBlocks} (hblocs : read.current = some blocks) (after : ScanState)
    (hcur : after.current = some method) (hstart : method.symbol.range.startLine = blocks.start)
    (hscps : after.table.scopes = state.table.scopes) {terminated : Bool}
    (hreps : after.table.unclosedLines = state.table.unclosedLines ++
      (if terminated then (blockRun blocks.words).stack.reverse else []).map (·.block.line))
    (line : Nat) : (read.close terminated).Describes (after.closeMethod line) := by
  have hbef := hread.reports
  rw [ScanState.closeMethod_of_current hcur, MethodsRead.close, hblocs]
  rw [hblocs] at hbef
  refine ⟨?_, ?_, rfl⟩
  · simp [hscps, hread.starts, OpenMethod.closedScope, hstart]
  · refine hreps.trans ?_
    rw [hbef]
    simp [MethodBlocks.unclosed]

lemma close_of_none (hnone : read.current = none) (terminated : Bool) :
    (read.close terminated).Describes state := by
  have hsame : read.close terminated = read := by
    rw [MethodsRead.close, hnone, Option.map_none, Option.toList_none, append_nil, ← hnone]
  rwa [hsame]

lemma abandonMethod (line : Nat) : (read.close false).Describes (state.abandonMethod line) := by
  unfold ScanState.abandonMethod
  obtain ⟨hstate, hnone⟩ | ⟨method, blocks, hstate, hblocs, hstart, -⟩ := hread.current_cases
  · rw [hstate]
    exact hread.close_of_none hnone false
  · rw [hstate]
    refine hread.close hblocs (state.addIssue _ _) hstate hstart rfl ?_ line
    simp [ScanState.addIssue, ModuleTable.unclosedLines]

lemma terminate (line : Nat) (kind : SymbolKind) :
    (read.close true).Describes (state.terminate line kind) := by
  unfold ScanState.terminate
  obtain ⟨hstate, hnone⟩ | ⟨method, blocks, hstate, hblocs, hstart, hstack⟩ := hread.current_cases
  · rw [hstate]
    exact (hread.close_of_none hnone true).addIssue line (by decide)
  · rw [hstate]
    let noted := if method.symbol.kind = kind then state
      else state.addIssue line .mismatchedTerminator
    have hnoted : noted.current = some method ∧ noted.table.scopes = state.table.scopes ∧
        noted.table.unclosedLines = state.table.unclosedLines := by
      unfold noted
      split
      · exact ⟨hstate, rfl, rfl⟩
      · exact ⟨hstate, rfl, by simp [ScanState.addIssue, ModuleTable.unclosedLines]⟩
    refine hread.close hblocs (noted.addIssues _ _) hnoted.1 hstart hnoted.2.1 ?_ line
    rw [unclosedLines_addIssues, hnoted.2.2, hstack, if_pos rfl]
    simp

lemma perform (line : Nat) (action : TokenAction) :
    (read.perform line action).Describes (state.perform line action) := by
  cases action with
  | declare token exported => exact hread.declareVariable line token exported
  | count token => exact hread.declareImplicit line token
  | assign target right => exact hread.recordAssignment line target right
  | openBlock kind => exact hread.pushBlock kind line
  | closeBlock kind => exact hread.popBlock kind
  | endMethod kind => exact hread.terminate line kind

omit hread in
lemma foldl_perform_filter (line : Nat) (actions : List TokenAction) (read : MethodsRead) :
    (actions.filter TokenAction.isStructural).foldl (MethodsRead.perform line) read =
      actions.foldl (MethodsRead.perform line) read := by
  induction actions generalizing read with
  | nil => rfl
  | cons action actions ih => cases action <;> exact ih _

lemma processTokens (line : Nat) {tokens : List Token} (htoks : CommentsLast tokens) :
    ((tokens.flatMap Token.keywordActions).foldl (MethodsRead.perform line) read).Describes
      (state.processTokens line true tokens) := by
  have hacts : (Pending.statement.actions tokens).filter TokenAction.isStructural =
      tokens.flatMap Token.keywordActions :=
    filter_isStructural_actions htoks fun _ => rfl
  rw [ScanState.processTokens_eq_foldl, ← hacts, foldl_perform_filter, if_pos rfl]
  generalize Pending.statement.actions tokens = actions
  induction actions generalizing read state with
  | nil => exact hread
  | cons action actions ih => exact ih (hread.perform line action)

lemma note (inString : Bool) (comments : List (List Char)) (directive : Option String) :
    read.Describes { state with inString, comments, directive } :=
  ⟨hread.starts, hread.reports, hread.current⟩

lemma scanLine
    (number : Nat) {line : List Char} {following : List (List Char)} (hline : '\n' ∉ line)
    (hfoll : ∀ other ∈ following, '\n' ∉ other) :
    (read.follow ⟨number, state.inString, line, following⟩).Describes
      (state.scanLine number line following).1 := by
  refine ScanState.scanLine_cases state number line following ?_ ?_ ?_
  · intro visit _ hhdr hlexed
    rw [MethodsRead.follow, hlexed, hhdr]
    exact hread.framed (ScanState.framedFrom_passLine number)
  · intro header visit hstr hhdr
    let list := ParamList.read (line.drop header.paramsStart) following
    have hdrop : '\n' ∉ line.drop header.paramsStart := fun h => hline (mem_of_mem_drop h)
    have htoks := (commentsLast_lexLine (not_mem_tail_read hdrop hfoll) false).of_suffix
      (ScanState.afterExport_suffix _)
    have hbef : (read.close false).Describes (state.beforeMethod number list) := by
      have hended := hread.abandonMethod (number - 1)
      unfold ScanState.beforeMethod
      simp only
      split
      · exact hended
      · exact hended.addIssue _ (by decide)
    rw [MethodsRead.follow, LineVisit.lexed_of_header hhdr, hhdr, Option.isSome_some,
      if_pos rfl, LineVisit.tokenLine, LineVisit.extraLines_of_header hhdr,
      ← ScanState.keywordActions_afterExport, ScanState.beginMethod_eq]
    simp only [ScanState.inString_beforeMethod, hstr]
    refine processTokens ?_ _ htoks
    refine ⟨hbef.starts, ?_, rfl⟩
    simpa [MethodsRead.begin, MethodsRead.close, blockRun] using hbef.reports
  · intro comments directive visit hhdr hlexed
    rw [MethodsRead.follow, hlexed, hhdr, LineVisit.tokenLine,
      LineVisit.extraLines_of_no_header hhdr]
    have hnoted := hread.note (lexLine state.inString line).2 state.comments state.directive
    exact (hnoted.processTokens number (commentsLast_lexLine hline _)).note _ comments directive

lemma finish (lastLine : Nat) :
    (state.finish lastLine).scopes.map (·.startLine) = (read.close false).ended.map (·.start) ∧
      (state.finish lastLine).unclosedLines =
        ((read.close false).ended.flatMap MethodBlocks.unclosed).map (·.block.line) := by
  have hended := (hread.abandonMethod lastLine).framed
    (ScanState.framedFrom_finishFrames lastLine (state.abandonMethod lastLine).frames.reverse _)
  refine ⟨hended.starts, hended.reports.trans ?_⟩
  rw [MethodsRead.close, Option.toList_none, flatMap_nil, append_nil]

end MethodsRead.Describes

lemma unclosedLines_parseModule (file : Path) (dialect : Dialect) (text : String) :
    (parseModule file dialect text).scopes.map (·.startLine) = (moduleMethods text).map (·.start) ∧
      (parseModule file dialect text).unclosedLines =
        ((moduleMethods text).flatMap MethodBlocks.unclosed).map (·.block.line) := by
  let start : ScanState :=
    { table := { file, dialect, text := String.ofList (dropByteOrderMark text.toList) } }
  have hstart : ({} : MethodsRead).Describes start := ⟨rfl, rfl, rfl⟩
  have hscanned : ((moduleVisits text).foldl MethodsRead.follow {}).Describes
      (start.scanLines 0 (moduleLines text)) := by
    refine ScanState.scanLines_visits (fun (read : MethodsRead) _ => read.Describes) _ {}
      (fun _ => break_not_mem_moduleLines) hstart ?_
    rintro ⟨number, _, line, following⟩ - read before rfl hline hfoll hread
    exact hread.scanLine number hline hfoll
  exact hscanned.finish _

/-- Every block of a method with a terminator is closed by one later word of its kind or
reported once at its line, and none is reported just if the words are well nested without
those that close nothing. -/
theorem unclosedBlocks_accounted (file : Path) (dialect : Dialect) (text : String) :
    let table := parseModule file dialect text
    let methods := moduleMethods text
    table.scopes.map (·.startLine) = methods.map (·.start) ∧
    (table.issues.filter (·.kind = .unclosedBlock)).map (·.line) =
      methods.flatMap (fun method => method.unclosed.map (·.block.line)) ∧
    ∀ method ∈ methods, method.terminated = true →
      let pairs := (blockRun method.words).pairs
      (pairs.map Prod.fst ++ method.unclosed).Perm (openedBlocks method.words) ∧
      (∀ pair ∈ pairs, pair.1.index < pair.2 ∧
        method.words[pair.2]? = some (.closes pair.1.block.kind)) ∧
      (pairs.map Prod.snd).Nodup ∧
      method.unclosed.length = (openedBlocks method.words).length - pairs.length ∧
      (method.unclosed = [] ↔ WellNested (keptWords method.words pairs)) := by
  intro table methods
  obtain ⟨hstarts, hlines⟩ := unclosedLines_parseModule file dialect text
  refine ⟨hstarts, hlines.trans (map_flatMap ..), fun method _ hterminated => ?_⟩
  have haccounts := accounts_blockRun method.words
  have hunclosed : method.unclosed =
      (blockRun method.words).unclosed ++ (blockRun method.words).stack.reverse := by
    rw [MethodBlocks.unclosed, hterminated, if_pos rfl]
  have hperm : ((blockRun method.words).pairs.map Prod.fst ++ method.unclosed).Perm
      (openedBlocks method.words) := by
    refine .trans ?_ haccounts.blocks
    rw [hunclosed, ← append_assoc]
    exact (reverse_perm _).append_left _
  refine ⟨hperm, haccounts.closers, haccounts.distinct, ?_, ?_⟩
  · have hlength := hperm.length_eq
    rw [length_append, length_map] at hlength
    omega
  · rw [← nesting_eq_nil_iff, haccounts.nesting, hunclosed, append_eq_nil_iff, reverse_eq_nil_iff]
    by_cases hnone : (blockRun method.words).unclosed = [] <;> simp [hnone]

end BslInsight
