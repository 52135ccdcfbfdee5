import BslInsight.Proofs.HeaderLines
import BslInsight.Proofs.MethodExtents
import Mathlib.Data.List.Infix

/-!
# Where declared names stand

The name of a method stands where it is recorded.  The tokens behind a parameter list are counted
from its end, so a variable declared there stands further to the right by what comes before.  A
parameter is looked for as a whole word, and one that is not found is given the place of its
method.
-/

namespace BslInsight

open List

variable {method : OpenMethod} {symbol : Symbol} {line : List Char} {token : Token}
  {number column skip : Nat} {visit : LineVisit} {header : Header} {lines : List (List Char)}
  {text name : String}

structure NamePlace where
  kind : SymbolKind
  name : String
  line : Nat
  column : Nat
deriving DecidableEq

def Symbol.namePlace (symbol : Symbol) : NamePlace :=
  ⟨symbol.kind, symbol.name, symbol.range.startLine, symbol.range.nameColumn⟩

def ModuleTable.declared (table : ModuleTable) : List Symbol :=
  table.symbols ++ table.scopes.flatMap fun scope => scope.params ++ scope.locals

def OpenMethod.declared (method : OpenMethod) : List Symbol :=
  method.symbol :: (method.params ++ method.locals)

def Token.variablePlace (token : Token) (line : Nat) : NamePlace :=
  ⟨.variable, token.text, line, token.column⟩

def ReadsAt (lines : List (List Char)) (word : List Char) (line column : Nat) : Prop :=
  ∃ text, lines[line]? = some text ∧ word <+: text.drop column

def SpelledAt (lines : List (List Char)) (name : List Char) (line column : Nat) : Prop :=
  ∃ word, ReadsAt lines word line column ∧ word.flatMap lowerChar = name.flatMap lowerChar

/-- The lower-case word stands in the line at a column, whatever its letter case there,
and is neither preceded nor followed by a character of a word. -/
structure IsWordAt (word line : List Char) (column : Nat) : Prop where
  nonempty : word ≠ []
  start : (line.take column).getLast?.any isWordChar = false
  spelled : ∃ found after, line.drop column = found ++ after ∧
    (found.map lowerChar = word.map fun c => [c]) ∧ after.head?.any isWordChar = false

def LineVisit.listLines (visit : LineVisit) : List (List Char) :=
  visit.line :: visit.following.take visit.extraLines

def LineVisit.ListsWord (visit : LineVisit) (name : String) : Prop :=
  ∃ index line column, visit.listLines[index]? = some line ∧
    (index = 0 → parenColumn visit.line ≤ column) ∧
      IsWordAt (name.toList.flatMap lowerChar) line column

def LineVisit.lastLine (visit : LineVisit) : List Char :=
  ((visit.line :: visit.following)[visit.extraLines]?).getD []

def LineVisit.tokenColumn (visit : LineVisit) : Nat := match visit.paramList? with
  | some list => visit.lastLine.length - list.tail.length
  | none => 0

structure IsPlaced (lines : List (List Char)) (visit : LineVisit) (place : NamePlace) : Prop where
  /-- The name of a method stands where it is recorded. -/
  method : place.kind.isMethod = true →
    place.line = visit.number ∧ ReadsAt lines place.name.toList place.line place.column
  /-- The name of a variable stands where it is recorded, counted from the end of the
  parameter list if there is one on its line. -/
  «variable» : place.kind = .variable → place.line = visit.tokenLine ∧
      ReadsAt lines place.name.toList place.line (visit.tokenColumn + place.column)
  /-- A parameter is recorded where its name stands in some letter case, if it is a word
  of its list, and else at the name of its method. -/
  parameter : place.kind = .parameter → ∃ header, visit.header? = some header ∧
    ((visit.ListsWord place.name ∧ SpelledAt lines place.name.toList place.line place.column) ∨
      ¬ visit.ListsWord place.name ∧ place.line = visit.number ∧ place.column = header.nameColumn)

def LineVisit.paramPlace (visit : LineVisit) (header : Header) (parameter : Parameter) :
    NamePlace :=
  let (line, column) := (findWordInLines? parameter.name (parenColumn visit.line) visit.number
    visit.listLines).getD (visit.number, header.nameColumn)
  ⟨.parameter, parameter.name, line, column⟩

inductive LineVisit.Declares (visit : LineVisit) (file : Path) (symbol : Symbol) : Prop
  | method {header : Header} (hhdr : visit.header? = some header)
      (hplace : symbol.namePlace = ⟨header.kind, header.name, visit.number, header.nameColumn⟩)
      (hfile : symbol.range.file = file)
      (hpars : symbol.params =
        parseParams (ParamList.read (visit.line.drop header.paramsStart) visit.following).text)
  | parameter {header : Header} (hhdr : visit.header? = some header) (parameter : Parameter)
      (hplace : symbol.namePlace = visit.paramPlace header parameter)
  | «variable» {token : Token} (htoken : token ∈ visit.lexed.1)
      (hplace : symbol.namePlace = token.variablePlace visit.tokenLine)

/-! ## Only visits declare -/

namespace ScanState

structure DeclaredOn (visited : List LineVisit) (file : Path) (state : ScanState) : Prop where
  inFile : state.table.file = file
  table : ∀ symbol ∈ state.table.declared, ∃ visit ∈ visited, visit.Declares file symbol
  current : ∀ method ∈ state.current, ∀ symbol ∈ method.declared, ∃ visit ∈ visited,
      visit.Declares file symbol

namespace DeclaredOn

variable {visited : List LineVisit} {file : Path} {state : ScanState}

lemma closeMethod (hstate : state.DeclaredOn visited file) (hcur : state.current = some method)
    (line : Nat) : (state.closeMethod line).DeclaredOn visited file := by
  have hmeth := hstate.current method hcur
  rw [closeMethod_of_current hcur]
  refine ⟨hstate.inFile, fun symbol hsym => ?_, by simp⟩
  simp only [ModuleTable.declared, mem_append, flatMap_append, flatMap_singleton,
    mem_singleton] at hsym
  rcases hsym with (hsym | rfl) | hscope | hmbr
  · exact hstate.table symbol (mem_append_left _ hsym)
  · obtain ⟨visit, hvisit, hdecs⟩ := hmeth method.symbol mem_cons_self
    refine ⟨visit, hvisit, ?_⟩
    cases hdecs with
    | method hhdr hplace hfile hpars => exact .method hhdr hplace hfile hpars
    | parameter hhdr parameter hplace => exact .parameter hhdr parameter hplace
    | «variable» htoken hplace => exact .variable htoken hplace
  · exact hstate.table symbol (mem_append_right _ hscope)
  · exact hmeth symbol (mem_cons_of_mem _ (mem_append.mpr hmbr))

section

variable {origin : Token → Prop} {line : Nat} {before after : ScanState}
  (horigin : ∀ token, origin token → ∃ visit ∈ visited, token ∈ visit.lexed.1 ∧
    visit.tokenLine = line)
include horigin

lemma move (hmove : ScanMove origin line before after) (hstate : before.DeclaredOn visited file) :
    after.DeclaredOn visited file := by
  have hdeclared {symbol : Symbol} (hstart : symbol.range.startLine = line)
      (htoken : ∃ token, origin token ∧ symbol.IsOf token) :
      ∃ visit ∈ visited, visit.Declares file symbol := by
    obtain ⟨token, htoken, hkind, hname, hcol⟩ := htoken
    obtain ⟨visit, hvisit, hmem, hline⟩ := horigin token htoken
    refine ⟨visit, hvisit, .variable hmem ?_⟩
    rw [Symbol.namePlace, hkind, hname, hstart, hcol, hline]
    rfl
  cases hmove with
  | @blocks method hcur | @assign method hcur =>
    refine ⟨hstate.inFile, hstate.table, ?_⟩
    rintro _ ⟨⟩
    exact hstate.current method hcur
  | declareLocal hcur hstart _ htoken =>
    refine ⟨hstate.inFile, hstate.table, ?_⟩
    rintro _ ⟨⟩
    have hmeth := forall_mem_concat (hstate.current _ hcur) (hdeclared hstart htoken)
    simpa [OpenMethod.declared] using hmeth
  | declareVariable _ _ hstart _ htoken =>
    refine ⟨hstate.inFile, ?_, hstate.current⟩
    have htable := forall_mem_concat hstate.table (hdeclared hstart htoken)
    simp only [ModuleTable.declared, forall_mem_append] at htable ⊢
    exact ⟨⟨htable.1.1, htable.2⟩, htable.1.2⟩
  | close hcur => exact hstate.closeMethod hcur line
  | _ => exact ⟨hstate.inFile, hstate.table, hstate.current⟩

lemma moves (hmoves : ScanMoves origin line before after)
    (hstate : before.DeclaredOn visited file) : after.DeclaredOn visited file := by
  induction hmoves with
  | refl => exact hstate
  | tail _ hmove ih => exact ih.move horigin hmove

end

variable (hstate : state.DeclaredOn visited file)
include hstate

lemma framed {after : ScanState} (hframed : state.FramedFrom after) :
    after.DeclaredOn visited file := by
  obtain ⟨reports, -, hafter⟩ := hframed
  rw [hafter]
  exact ⟨hstate.inFile, hstate.table, hstate.current⟩

lemma abandonMethod (line : Nat) : (state.abandonMethod line).DeclaredOn visited file := by
  have hmoves : ScanMoves (fun _ => False) line state (state.abandonMethod line) :=
    state.moves_abandonMethod line
  exact moves (fun _ hnone => hnone.elim) hmoves hstate

lemma beforeMethod (number : Nat) (list : ParamList) :
    (state.beforeMethod number list).DeclaredOn visited file := by
  have hended := hstate.abandonMethod (number - 1)
  unfold ScanState.beforeMethod
  simp only
  split
  · exact hended
  · exact ⟨hended.inFile, hended.table, hended.current⟩

variable (hvisit : visit ∈ visited)
include hvisit

lemma beginMethod (hstr : state.inString = false) (hhdr : visit.header? = some header) :
    (state.beginMethod visit.number visit.line header
      (ParamList.read (visit.line.drop header.paramsStart) visit.following)
      visit.following).DeclaredOn visited file := by
  let list := ParamList.read (visit.line.drop header.paramsStart) visit.following
  let before := state.beforeMethod visit.number list
  have hbef : before.DeclaredOn visited file := hstate.beforeMethod visit.number list
  have hextra : visit.extraLines = list.extraLines := visit.extraLines_of_header hhdr
  have hlexed : visit.lexed = lexLine false list.tail := visit.lexed_of_header hhdr
  have hinString : before.inString = false :=
    (inString_beforeMethod state visit.number list).trans hstr
  let method := before.headerMethod visit.number visit.line header list visit.following
    visit.lexed.1
  have hopn : { before with
      inString := visit.lexed.2, comments := [], directive := none,
      current := some method }.DeclaredOn visited file := by
    refine ⟨hbef.inFile, hbef.table, ?_⟩
    rintro _ ⟨⟩ symbol hsym
    refine ⟨visit, hvisit, ?_⟩
    rcases mem_cons.mp hsym with rfl | hparam
    · exact .method hhdr rfl hbef.inFile rfl
    · obtain ⟨parameter, -, rfl⟩ := mem_map.mp ((append_nil _) ▸ hparam)
      refine .parameter hhdr parameter ?_
      rw [LineVisit.paramPlace, LineVisit.listLines, hextra]
      rfl
  change (state.beginMethod visit.number visit.line header list
    visit.following).DeclaredOn visited file
  rw [beginMethod_eq]
  simp only [before] at hinString
  simp only [hinString, ← hlexed, ← hextra]
  refine moves (fun token htoken => ⟨visit, hvisit, htoken, rfl⟩) ?_ hopn
  exact moves_processTokens _ visit.tokenLine true fun _ h => (afterExport_suffix _).subset h

lemma scanLine (hstr : state.inString = visit.inString) :
    (state.scanLine visit.number visit.line visit.following).1.DeclaredOn visited file := by
  obtain ⟨number, _, line, following⟩ := visit
  subst hstr
  refine scanLine_cases state number line following ?_ ?_ ?_
  · intro visit _ _ _
    exact hstate.framed (framedFrom_passLine number)
  · intro header visit hstr hhdr
    exact hstate.beginMethod hvisit hstr hhdr
  · intro comments directive visit hhdr hlexed
    have hmoves := state.moves_statementLine number line fun _ h => h
    have hread : (state.statementLine number line).DeclaredOn visited file := by
      refine moves (fun token htoken => ⟨visit, hvisit, hlexed ▸ htoken, ?_⟩) hmoves hstate
      rw [LineVisit.tokenLine, LineVisit.extraLines_of_no_header hhdr]
      rfl
    exact ⟨hread.inFile, hread.table, hread.current⟩

end DeclaredOn

end ScanState

lemma exists_visit_of_mem_declared {file : Path} {dialect : Dialect}
    (hsym : symbol ∈ (parseModule file dialect text).declared) :
    ∃ visit ∈ moduleVisits text, visit.Declares file symbol := by
  let start : ScanState :=
    { table := { file, dialect, text := String.ofList (dropByteOrderMark text.toList) } }
  have hstart : start.DeclaredOn (moduleVisits text) file :=
    ⟨rfl, by simp [start, ModuleTable.declared], by simp [start]⟩
  have hscanned := ScanState.scanLines_visits
    (fun (_ : Unit) _ => ScanState.DeclaredOn (moduleVisits text) file) (fun _ _ => ()) ()
    (fun _ => break_not_mem_moduleLines) hstart fun visit hvisit _ before hstr _ _ hbef =>
      hbef.scanLine hvisit hstr
  exact ((hscanned.abandonMethod _).framed
    (ScanState.framedFrom_finishFrames _ _ _)).table symbol hsym

/-! ## Tokens -/

lemma prefix_of_mem_lexLine {inString : Bool} (htoken : token ∈ (lexLine inString line).1) :
    token.text.toList <+: line.drop token.column := by
  unfold lexLine at htoken
  split at htoken
  · cases htoken
  · next start _ =>
    obtain ⟨before, c, body, rest, htext, -, hword, hcol⟩ := exists_lexeme_of_mem_tokensFrom htoken
    rw [hcol, ← drop_drop, htext, drop_left, hword, String.toList_ofList]
    exact ⟨rest, by simp⟩

lemma tail_continued_suffix
    (first : List Char) (depth : Nat) (inQuote : Bool) (following : List (List Char)) :
    let list := ParamList.continued depth inQuote following
    list.tail <:+ ((first :: following)[list.extraLines]?).getD [] := by
  fun_induction ParamList.continued depth inQuote following generalizing first with
  | case1 | case2 => exact nil_suffix
  | case3 depth inQuote line rest _ length _ => exact drop_suffix length line
  | case4 depth inQuote line rest _ _ _ _ more ih => exact ih line

lemma LineVisit.tail_suffix {list : ParamList} (hlist : visit.paramList? = some list) :
    list.tail <:+ visit.lastLine := by
  obtain ⟨header, hhdr, rfl⟩ := Option.map_eq_some_iff.mp hlist
  rw [lastLine, extraLines_of_header hhdr]
  unfold ParamList.read
  split
  next length _ => exact (drop_suffix length _).trans (drop_suffix header.paramsStart visit.line)
  next depth inQuote _ => exact tail_continued_suffix visit.line depth inQuote visit.following

lemma LineVisit.prefix_of_mem_lexed (htoken : token ∈ visit.lexed.1) :
    token.text.toList <+: visit.lastLine.drop (visit.tokenColumn + token.column) := by
  cases hlist : visit.paramList? with
  | some list =>
    have htail := suffix_iff_eq_drop.mp (visit.tail_suffix hlist)
    rw [lexed, hlist] at htoken
    rw [tokenColumn, hlist, ← drop_drop, ← htail]
    exact prefix_of_mem_lexLine htoken
  | none =>
    rw [lexed, hlist] at htoken
    have hlast : visit.lastLine = visit.line := by simp [lastLine, extraLines, hlist]
    rw [tokenColumn, hlist, hlast, Nat.zero_add]
    simp only at htoken
    split at htoken
    · cases htoken
    · exact prefix_of_mem_lexLine htoken

lemma getElem?_listLines (hvisit : visit ∈ moduleVisits text) (index : Nat) :
    (moduleLines text)[visit.number + index]? = (visit.line :: visit.following)[index]? := by
  obtain ⟨-, hdrop⟩ := drop_of_mem_visits hvisit
  rw [Nat.sub_zero] at hdrop
  rw [← getElem?_drop, hdrop]

lemma getElem?_tokenLine (hvisit : visit ∈ moduleVisits text) :
    (moduleLines text)[visit.tokenLine]? = some visit.lastLine := by
  have hbound := Nat.lt_succ_of_le visit.extraLines_le
  rw [LineVisit.tokenLine, getElem?_listLines hvisit, LineVisit.lastLine,
    getElem?_eq_getElem hbound]
  rfl

/-! ## Words of a parameter list -/

lemma startsWithWord_iff {word text : List Char} : startsWithWord word text ↔
      ∃ found after, text = found ++ after ∧ (found.map lowerChar = word.map fun c => [c]) ∧
        after.head?.any isWordChar = false := by
  induction word generalizing text with
  | nil =>
    have hend : startsWithWord [] text = !text.head?.any isWordChar := by cases text <;> rfl
    simp only [hend, Bool.not_eq_true', map_nil, map_eq_nil_iff]
    constructor
    · intro hhead
      exact ⟨[], text, rfl, rfl, hhead⟩
    · rintro ⟨found, after, rfl, rfl, hhead⟩
      exact hhead
  | cons w word ih =>
    cases text with
    | nil =>
      simp only [startsWithWord, Bool.false_eq_true, false_iff]
      rintro ⟨found, after, htext, hfound, -⟩
      obtain ⟨rfl, rfl⟩ := append_eq_nil_iff.mp htext.symm
      cases hfound
    | cons c rest =>
      simp only [startsWithWord, Bool.and_eq_true, beq_iff_eq, ih]
      constructor
      · rintro ⟨hc, found, after, rfl, hfound, hafter⟩
        exact ⟨c :: found, after, rfl, by simp [hc, hfound], hafter⟩
      · rintro ⟨found, after, htext, hfound, hafter⟩
        cases found with
        | nil => cases hfound
        | cons d found =>
          obtain ⟨rfl, rfl⟩ := List.cons.inj htext
          obtain ⟨hd, hrest⟩ := List.cons.inj hfound
          exact ⟨hd, found, after, rfl, hrest, hafter⟩

section FindWord

variable {word : List Char} {skip : Nat}

lemma isWordAt_append_iff (hword : word ≠ []) {front text : List Char} :
    IsWordAt word (front ++ text) front.length ↔
      front.getLast?.any isWordChar = false ∧ startsWithWord word text := by
  rw [startsWithWord_iff]
  constructor
  · rintro ⟨-, hstart, hspel⟩
    rw [take_left] at hstart
    rw [drop_left] at hspel
    exact ⟨hstart, hspel⟩
  · rintro ⟨hstart, hspel⟩
    refine ⟨hword, ?_, ?_⟩
    · rwa [take_left]
    · rwa [drop_left]

lemma findWordFrom?_eq_some (hword : word ≠ []) (front : List Char) {text : List Char}
    (hfound : findWordFrom? word skip (front.getLast?.any isWordChar) front.length text =
      some column) : skip ≤ column ∧ IsWordAt word (front ++ text) column := by
  induction text generalizing front with
  | nil => cases hfound
  | cons c rest ih =>
    rw [findWordFrom?] at hfound
    split at hfound
    next hhere =>
      obtain rfl := Option.some.inj hfound
      exact ⟨hhere.1, (isWordAt_append_iff hword).mpr hhere.2⟩
    next =>
      have hlater := ih (front ++ [c])
      simp only [getLast?_concat, Option.any_some, length_append, length_singleton,
        append_assoc, singleton_append] at hlater
      exact hlater hfound

lemma findWordFrom?_eq_none (hword : word ≠ []) (front : List Char) {text : List Char}
    (hfound : findWordFrom? word skip (front.getLast?.any isWordChar) front.length text = none)
    (hskip : skip ≤ column) (hfront : front.length ≤ column) :
    ¬ IsWordAt word (front ++ text) column := by
  induction text generalizing front with
  | nil =>
    rintro ⟨-, -, found, after, hdrop, hspel, -⟩
    rw [append_nil, drop_eq_nil_of_le hfront] at hdrop
    obtain ⟨rfl, -⟩ := append_eq_nil_iff.mp hdrop.symm
    exact hword (map_eq_nil_iff.mp hspel.symm)
  | cons c rest ih =>
    rw [findWordFrom?] at hfound
    split at hfound
    next => cases hfound
    next hhere =>
      rcases hfront.eq_or_lt with rfl | hlater
      · rw [isWordAt_append_iff hword]
        exact fun hstart => hhere ⟨hskip, hstart⟩
      · have hrest := ih (front ++ [c])
        simp only [getLast?_concat, Option.any_some, length_append,
          length_singleton, append_assoc, singleton_append] at hrest
        exact hrest hfound hlater

end FindWord

lemma findWord?_eq_some (hfound : findWord? line name skip = some column) :
    skip ≤ column ∧ IsWordAt (name.toList.flatMap lowerChar) line column := by
  unfold findWord? at hfound
  simp only at hfound
  split at hfound
  next => cases hfound
  next hword => exact findWordFrom?_eq_some hword [] hfound

lemma findWord?_eq_none (hfound : findWord? line name skip = none) (hskip : skip ≤ column) :
    ¬ IsWordAt (name.toList.flatMap lowerChar) line column := by
  unfold findWord? at hfound
  simp only at hfound
  split at hfound
  next hempty => exact fun hword => hword.nonempty hempty
  next hword => exact findWordFrom?_eq_none hword [] hfound hskip (Nat.zero_le _)

lemma findWordInLines?_eq_some {place : Nat}
    (hfound : findWordInLines? name skip number lines = some (place, column)) :
    ∃ index line, place = number + index ∧ lines[index]? = some line ∧
      (index = 0 → skip ≤ column) ∧ IsWordAt (name.toList.flatMap lowerChar) line column := by
  induction lines generalizing skip number with
  | nil => cases hfound
  | cons line rest ih =>
    unfold findWordInLines? at hfound
    split at hfound
    next found hline =>
      obtain ⟨rfl, rfl⟩ := Prod.mk.inj (Option.some.inj hfound)
      obtain ⟨hskip, hword⟩ := findWord?_eq_some hline
      exact ⟨0, line, rfl, rfl, fun _ => hskip, hword⟩
    next =>
      obtain ⟨index, other, rfl, hoth, -, hword⟩ := ih hfound
      exact ⟨index + 1, other, by omega, by simpa using hoth, by simp, hword⟩

lemma findWordInLines?_eq_none (hfound : findWordInLines? name skip number lines = none)
    {index : Nat} (hline : lines[index]? = some line) (hskip : index = 0 → skip ≤ column) :
    ¬ IsWordAt (name.toList.flatMap lowerChar) line column := by
  induction lines generalizing skip number index with
  | nil => cases hline
  | cons first rest ih =>
    unfold findWordInLines? at hfound
    split at hfound
    next => cases hfound
    next hfirst =>
      cases index with
      | zero =>
        obtain rfl : first = line := by simpa using hline
        exact findWord?_eq_none hfirst (hskip rfl)
      | succ index => exact ih hfound (by simpa using hline) fun _ => Nat.zero_le _

lemma IsWordAt.spelledAt {name : List Char}
    (hword : IsWordAt (name.flatMap lowerChar) line column) (hline : lines[number]? = some line) :
    SpelledAt lines name number column := by
  obtain ⟨found, after, hdrop, hspel, -⟩ := hword.spelled
  refine ⟨found, ⟨line, hline, hdrop ▸ prefix_append found after⟩, ?_⟩
  have hjoined := congrArg List.flatten hspel
  rwa [← flatMap_def, ← flatMap_def, flatMap_singleton'] at hjoined

/-! ## The names of a module -/

/-- The place of a parameter is one where its name stands, or else the place of the
name of its method. -/
lemma paramPlace_cases (hvisit : visit ∈ moduleVisits text) (header : Header)
    (parameter : Parameter) :
    let place := visit.paramPlace header parameter
    (visit.ListsWord parameter.name ∧
        SpelledAt (moduleLines text) parameter.name.toList place.line place.column) ∨
      ¬ visit.ListsWord parameter.name ∧ place.line = visit.number ∧
        place.column = header.nameColumn := by
  unfold LineVisit.paramPlace
  cases hfound : findWordInLines? parameter.name (parenColumn visit.line) visit.number
      visit.listLines with
  | none =>
    refine .inr ⟨?_, rfl, rfl⟩
    rintro ⟨index, line, column, hline, hskip, hword⟩
    exact findWordInLines?_eq_none hfound hline hskip hword
  | some found =>
    obtain ⟨index, line, hplace, hline, hskip, hword⟩ := findWordInLines?_eq_some hfound
    refine .inl ⟨⟨index, line, found.2, hline, hskip, hword⟩, hword.spelledAt ?_⟩
    change (moduleLines text)[found.1]? = some line
    rw [hplace, getElem?_listLines hvisit]
    have hlines : visit.listLines = (visit.line :: visit.following).take (visit.extraLines + 1) :=
      rfl
    rw [hlines, getElem?_take] at hline
    split at hline
    · exact hline
    · cases hline

lemma Header.name_prefix (hhdr : Header.ofLine? line = some header) :
    header.name.toList <+: line.drop header.nameColumn := by
  obtain ⟨front, word, name, gap, after, -, rfl, rfl⟩ := Header.exists_parts hhdr
  rw [Header.ofParts, drop_left, String.toList_ofList]
  exact prefix_append _ _

lemma LineVisit.header?_eq_some (hhdr : visit.header? = some header) :
    Header.ofLine? visit.line = some header := by
  unfold header? at hhdr
  split at hhdr
  · cases hhdr
  · exact hhdr

lemma LineVisit.Declares.isPlaced {file : Path} (hvisit : visit ∈ moduleVisits text)
    (hdecs : visit.Declares file symbol) :
    IsPlaced (moduleLines text) visit symbol.namePlace := by
  cases hdecs with
  | @method header hhdr hplace =>
    have hline := header?_eq_some hhdr
    have hkind {kind : SymbolKind} (hmeth : kind.isMethod = false) : header.kind ≠ kind := by
      rintro rfl
      rw [Header.isMethod_of_ofLine? hline] at hmeth
      cases hmeth
    rw [hplace]
    exact ⟨fun _ => ⟨rfl, visit.line, getElem?_of_mem_moduleVisits hvisit,
      Header.name_prefix hline⟩, fun hvar => absurd hvar (hkind rfl),
      fun hpar => absurd hpar (hkind rfl)⟩
  | @parameter header hhdr parameter hplace =>
    rw [hplace]
    refine ⟨by simp [paramPlace, SymbolKind.isMethod], by simp [paramPlace], fun _ => ?_⟩
    exact ⟨header, hhdr, paramPlace_cases hvisit header parameter⟩
  | @«variable» token htoken hplace =>
    rw [hplace]
    refine ⟨by simp [Token.variablePlace, SymbolKind.isMethod], fun _ => ⟨rfl, ?_⟩,
      by simp [Token.variablePlace]⟩
    exact ⟨visit.lastLine, getElem?_tokenLine hvisit, prefix_of_mem_lexed htoken⟩

lemma exists_header_of_mem_symbols {file : Path} {dialect : Dialect}
    (hsym : symbol ∈ (parseModule file dialect text).symbols)
    (hmeth : symbol.kind.isMethod) :
    ∃ visit ∈ moduleVisits text, ∃ header, visit.header? = some header ∧
      symbol.namePlace = ⟨header.kind, header.name, visit.number, header.nameColumn⟩ ∧
      symbol.range.file = file ∧ symbol.params =
        parseParams (ParamList.read (visit.line.drop header.paramsStart) visit.following).text := by
  obtain ⟨visit, hvisit, hdecs⟩ := exists_visit_of_mem_declared
    (mem_append_left _ hsym : symbol ∈ (parseModule file dialect text).declared)
  have hkind : symbol.namePlace.kind.isMethod := hmeth
  cases hdecs with
  | @method header hhdr hplace hfile hpars =>
    exact ⟨visit, hvisit, header, hhdr, hplace, hfile, hpars⟩
  | parameter _ _ hplace => simp [hplace, LineVisit.paramPlace, SymbolKind.isMethod] at hkind
  | «variable» _ hplace => simp [hplace, Token.variablePlace, SymbolKind.isMethod] at hkind

/-- Every symbol, parameter and local of a module is recorded at the place where its name
stands, but for what is declared behind a parameter list and for parameters that are no
words of their list. -/
theorem parseModule_namePlaces (file : Path) (dialect : Dialect) (text : String) :
    ∀ symbol ∈ (parseModule file dialect text).declared, ∃ visit ∈ moduleVisits text,
      IsPlaced (moduleLines text) visit symbol.namePlace := by
  intro symbol hsymbol
  obtain ⟨visit, hvisit, hdeclares⟩ := exists_visit_of_mem_declared hsymbol
  exact ⟨visit, hvisit, hdeclares.isPlaced hvisit⟩

/-- The names of a method with a parameter and a local. -/
theorem parseModule_namePlaces_local :
    let file := Path.ofText "a.bsl"
    let text := "Процедура А(Б)\nВ = Б;"
    let symbol : Symbol := { name := "В", kind := .variable, range := ⟨file, 1, 1, 0⟩ }
    symbol ∈ (parseModule file .bsl text).declared ∧
      ∃ visit ∈ moduleVisits text, IsPlaced (moduleLines text) visit symbol.namePlace := by
  intro file text symbol
  have hsymbol : symbol ∈ (parseModule file .bsl text).declared := by decide +kernel
  exact ⟨hsymbol, parseModule_namePlaces file .bsl text symbol hsymbol⟩

lemma not_spelledAt_of_inits {name : List Char} (hline : lines[number]? = some line)
    (hinits : ∀ word ∈ (line.drop column).inits,
      word.flatMap lowerChar ≠ name.flatMap lowerChar) : ¬ SpelledAt lines name number column := by
  rintro ⟨word, ⟨other, hoth, hword⟩, hlower⟩
  obtain rfl := Option.some.inj (hline.symm.trans hoth)
  exact hinits word ((mem_inits _ _).mpr hword) hlower

/-- A variable behind a parameter list is recorded too far to the left, and a parameter
that is no word of its list at the name of its method. -/
theorem not_spelledAt_behind_list :
    let file := Path.ofText "a.bsl"
    let behind := "Процедура А() Перем Б; КонецПроцедуры"
    let found : Symbol := { name := "Б", kind := .variable, range := ⟨file, 0, 0, 7⟩ }
    let joined := "Процедура П(1А)"
    let missed : Symbol := { name := "А", kind := .parameter, range := ⟨file, 0, 0, 10⟩ }
    (found ∈ (parseModule file .bsl behind).declared ∧
      ¬ SpelledAt (moduleLines behind) found.name.toList 0 7 ∧
        ReadsAt (moduleLines behind) found.name.toList 0 20) ∧
      missed ∈ (parseModule file .bsl joined).declared ∧
        ¬ SpelledAt (moduleLines joined) missed.name.toList 0 10 := by
  intro file behind found joined missed
  have hbehind : (moduleLines behind)[0]? = some behind.toList := by decide +kernel
  have hjoined : (moduleLines joined)[0]? = some joined.toList := by decide +kernel
  refine ⟨⟨by decide +kernel, not_spelledAt_of_inits hbehind (by decide +kernel), ?_⟩,
    by decide +kernel, not_spelledAt_of_inits hjoined (by decide +kernel)⟩
  exact ⟨behind.toList, hbehind, by decide +kernel⟩

end BslInsight
