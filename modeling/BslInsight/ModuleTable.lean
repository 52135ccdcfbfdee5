import BslInsight.Symbol

/-!
# Module tables

What is known about one module: its symbols, the scopes of its methods, its regions, directives
and structural problems.
-/

namespace BslInsight

inductive IssueKind where
  | malformedHeader | unterminatedMethod | unexpectedTerminator | mismatchedTerminator
  | unclosedBlock | unclosedRegion | unexpectedRegionEnd
deriving DecidableEq, Repr

def IssueKind.message : IssueKind → String
  | .malformedHeader => "malformed declaration header"
  | .unterminatedMethod => "unterminated method"
  | .unexpectedTerminator => "terminator outside of a method"
  | .mismatchedTerminator => "terminator does not match declaration"
  | .unclosedBlock => "unclosed block"
  | .unclosedRegion => "unclosed region"
  | .unexpectedRegionEnd => "region end without region"

structure Issue where
  line : Nat
  kind : IssueKind
deriving DecidableEq, Repr

def Issue.message (issue : Issue) : String :=
  s!"line {issue.line + 1}: {issue.kind.message}"

structure ChainLink where
  name : String
  isCall : Bool
deriving DecidableEq, Repr

/-- An assignment to a bare name.  `valueType` is the class of a `New` expression on the right;
`valueChain` is the chain on the right, when the whole right side is one. -/
structure Assignment where
  name : String
  line : Nat
  valueType : Option String
  valueChain : List ChainLink
deriving DecidableEq, Repr

def Assignment.isTyped (assignment : Assignment) : Bool :=
  assignment.valueType.isSome || !assignment.valueChain.isEmpty

structure MethodScope where
  methodIndex : Nat
  startLine : Nat
  endLine : Nat
  params : List Symbol
  locals : List Symbol
  assignments : List Assignment
deriving DecidableEq, Repr

def MethodScope.containsLine (scope : MethodScope) (line : Nat) : Bool :=
  scope.startLine ≤ line && line ≤ scope.endLine

structure Region where
  name : String
  startLine : Nat
  endLine : Nat
deriving DecidableEq, Repr

inductive DirectiveKind where
  | compilation | preprocessor | «import»
deriving DecidableEq, Repr

structure Directive where
  kind : DirectiveKind
  line : Nat
  text : String
deriving DecidableEq, Repr

/-- Everything known about one module.  `methodIndex` maps lower-case method names to positions in
`symbols`; of methods with one name it holds the last. -/
structure ModuleTable where
  file : Path
  dialect : Dialect
  text : String
  symbols : List Symbol := []
  methodIndex : List (String × Nat) := []
  moduleVariables : List String := []
  scopes : List MethodScope := []
  moduleAssignments : List Assignment := []
  regions : List Region := []
  directives : List Directive := []
  issues : List Issue := []
deriving DecidableEq, Repr

namespace ModuleTable

def method? (table : ModuleTable) (name : String) : Option Symbol :=
  (table.methodIndex.lookup (lower name)).bind fun index => table.symbols[index]?

def moduleVariable? (table : ModuleTable) (name : String) : Option Symbol :=
  table.symbols.reverse.find? fun symbol =>
    symbol.kind == .variable && symbol.lowerName == lower name

def methods (table : ModuleTable) : List Symbol :=
  table.symbols.filter (·.kind.isMethod)

def exportedMethods (table : ModuleTable) : List Symbol :=
  table.methods.filter (·.exported)

def scopeAt? (table : ModuleTable) (line : Nat) : Option MethodScope :=
  table.scopes.find? (·.containsLine line)

def name? (table : ModuleTable) : Option String :=
  moduleName? table.file

def lines (table : ModuleTable) : List (List Char) :=
  splitLines table.text.toList

end ModuleTable

end BslInsight
