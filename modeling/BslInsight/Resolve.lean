import BslInsight.Catalog
import BslInsight.Cursor
import BslInsight.Workspace.Snapshot

/-!
# Resolving names

A bare name means, in this order: a parameter or local variable declared no later than the line, a
variable or method of the module, an exported method of another module, an entry of the catalog.  A
name after a dot is a member of the type of what stands before, which is inferred from the nearest
assignment above.
-/

namespace BslInsight

inductive Source where
  | method | module | workspace | catalog
deriving DecidableEq, Repr

namespace Source

def tag : Source → String
  | .method => "Local"
  | .module => "Module"
  | .workspace => "Workspace"
  | .catalog => "Catalog"

def rank : Source → Nat
  | .method => 0
  | .module => 1
  | .workspace => 2
  | .catalog => 3

end Source

inductive Resolution where
  | method (symbol : Symbol)
  | module (symbol : Symbol)
  | workspace (symbol : Symbol)
  | catalog (entry : Catalog.Entry)
deriving DecidableEq, Repr

namespace Resolution

def source : Resolution → Source
  | .method _ => .method
  | .module _ => .module
  | .workspace _ => .workspace
  | .catalog _ => .catalog

def symbol? : Resolution → Option Symbol
  | .method symbol | .module symbol | .workspace symbol => some symbol
  | .catalog _ => none

def entry? : Resolution → Option Catalog.Entry
  | .catalog entry => some entry
  | _ => none

def name : Resolution → String
  | .method symbol | .module symbol | .workspace symbol => symbol.name
  | .catalog entry => entry.name

def location? (resolution : Resolution) : Option FileLocation :=
  resolution.symbol?.map fun symbol =>
    ⟨symbol.range.file, symbol.range.startLine, symbol.range.nameColumn⟩

end Resolution

inductive ReceiverType where
  | catalog (name : String)
  | module (table : ModuleTable)
deriving DecidableEq, Repr

structure Resolver where
  table : ModuleTable
  workspace : Snapshot
  catalog : Catalog

def maxAssignmentHops : Nat := 8

namespace Resolver

def line? (resolver : Resolver) (line : Nat) : Option (List Char) :=
  resolver.table.lines[line]?

def visibleLocals (scope : MethodScope) (line : Nat) : List Symbol :=
  scope.locals.filter (·.range.startLine ≤ line)

def visibleSymbols (resolver : Resolver) (line : Nat) : List Symbol :=
  match resolver.table.scopeAt? line with
  | some scope => scope.params ++ visibleLocals scope line
  | none => []

def methodSymbol? (resolver : Resolver) (name : String) (line : Nat) : Option Symbol :=
  (resolver.visibleSymbols line).find? fun symbol => sameName symbol.name name

def moduleSymbol? (resolver : Resolver) (name : String) : Option Symbol :=
  resolver.table.moduleVariable? name <|> resolver.table.method? name

def workspaceSymbol? (resolver : Resolver) (name : String) : Option Symbol :=
  (resolver.workspace.exportedMethodsNamed name resolver.table.file).head?

def resolveName (resolver : Resolver) (name : String) (line : Nat) : Option Resolution :=
  (resolver.methodSymbol? name line).map .method <|>
  (resolver.moduleSymbol? name).map .module <|>
  (resolver.workspaceSymbol? name).map .workspace <|>
  (resolver.catalog.lookup? name).map .catalog

def assignmentsAt (resolver : Resolver) (line : Nat) : List Assignment :=
  match resolver.table.scopeAt? line with
  | some scope => scope.assignments
  | none => resolver.table.moduleAssignments

def lastTypedAssignment? (resolver : Resolver) (name : String) (line : Nat) : Option Assignment :=
  ((resolver.assignmentsAt line).filter fun assignment =>
    assignment.line ≤ line && assignment.isTyped && sameName assignment.name name).getLast?

def callType? (resolver : Resolver) (name : String) : Option ReceiverType :=
  if (resolver.table.method? name).isSome then none
  else (resolver.catalog.global? name).bind fun entry => entry.returnType?.map .catalog

def nameType? (resolver : Resolver) (name : String) (line : Nat) : Option ReceiverType :=
  if (resolver.methodSymbol? name line).isSome then none
  else
    ((resolver.catalog.type? name).map fun type => .catalog type.entry.name) <|>
    (resolver.workspace.moduleNamed? name).map .module <|>
    (resolver.catalog.global? name).bind fun entry => entry.returnType?.map .catalog

def memberType? (resolver : Resolver) (receiver : ReceiverType) (link : ChainLink) :
    Option ReceiverType :=
  match receiver with
  | .catalog type =>
    (resolver.catalog.member? type link.name).bind fun entry => entry.returnType?.map .catalog
  | .module _ => none

/-- The type of a chain in a line, when at most `hops` assignments may be followed. -/
def chainType? (resolver : Resolver) (hops : Nat) (chain : List ChainLink) (line : Nat) :
    Option ReceiverType :=
  match chain with
  | [] => none
  | head :: members =>
    let headType :=
      if head.isCall then resolver.callType? head.name
      else match resolver.lastTypedAssignment? head.name line with
        | none => resolver.nameType? head.name line
        | some assignment =>
          match assignment.valueType with
          | some type => some (.catalog type)
          | none =>
            match hops with
            | 0 => none
            | hops + 1 => resolver.chainType? hops assignment.valueChain assignment.line
    headType.bind fun type => members.foldlM resolver.memberType? type

def receiverType? (resolver : Resolver) (chain : List ChainLink) (line : Nat) :
    Option ReceiverType :=
  resolver.chainType? maxAssignmentHops chain line

def resolveMember (resolver : Resolver) (receiver : ReceiverType) (name : String) :
    Option Resolution :=
  match receiver with
  | .catalog type => (resolver.catalog.member? type name).map .catalog
  | .module table =>
    ((table.method? name).filter (·.exported) <|>
      (table.moduleVariable? name).filter (·.exported)).map .workspace

inductive Reference where
  | member (receiver : Option (List ChainLink)) (name : String)
  | newObject (name : String)
  | bare (name : String)
deriving DecidableEq, Repr

def referenceAt? (resolver : Resolver) (position : Position) : Option Reference := do
  let line ← resolver.line? position.line
  let word ← wordAt? line position.column
  if word.text.toList.head?.any isDecimalDigit then none
  else match memberDot? line word.start with
    | some dot => some (.member (receiverChain? line dot) word.text)
    | none =>
      if isKeyword word.text then none
      else if followsNew line word.start then some (.newObject word.text)
      else some (.bare word.text)

def resolveReference (resolver : Resolver) (line : Nat) : Reference → Option Resolution
  | .member receiver name =>
    (receiver.bind (resolver.receiverType? · line)).bind (resolver.resolveMember · name)
  | .newObject name => (resolver.catalog.class? name).map fun type => .catalog type.entry
  | .bare name => resolver.resolveName name line

def resolveAt (resolver : Resolver) (position : Position) : Option Resolution :=
  (resolver.referenceAt? position).bind (resolver.resolveReference position.line)

/-! ### Which answers rest on the reverse index -/

def nameReachesIndex (resolver : Resolver) (name : String) (line : Nat) : Bool :=
  (resolver.methodSymbol? name line).isNone && (resolver.moduleSymbol? name).isNone

def chainReachesIndex (resolver : Resolver) (hops : Nat) (chain : List ChainLink) (line : Nat) :
    Bool :=
  match chain with
  | [] => false
  | head :: _ =>
    if head.isCall then false
    else match resolver.lastTypedAssignment? head.name line with
      | none =>
        (resolver.methodSymbol? head.name line).isNone && (resolver.catalog.type? head.name).isNone
      | some assignment =>
        if assignment.valueType.isSome then false
        else match hops with
          | 0 => false
          | hops + 1 => resolver.chainReachesIndex hops assignment.valueChain assignment.line

def receiverReachesIndex (resolver : Resolver) (chain : List ChainLink) (line : Nat) : Bool :=
  resolver.chainReachesIndex maxAssignmentHops chain line

/-- The meaning of the word that touches a position is looked for in other modules. -/
def positionReachesIndex (resolver : Resolver) (position : Position) : Bool :=
  match resolver.referenceAt? position with
  | some (.member (some chain) _) => resolver.receiverReachesIndex chain position.line
  | some (.bare name) => resolver.nameReachesIndex name position.line
  | _ => false

end Resolver

end BslInsight
