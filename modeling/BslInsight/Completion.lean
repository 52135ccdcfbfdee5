import BslInsight.Resolve

/-!
# Completion

Candidates for the name being typed come in buckets, one for each source.  A bucket is sorted by
name, and no name is offered twice.
-/

namespace BslInsight

inductive CandidateKind where
  | procedure | function | variable | parameter | method | property | «class» | enum | enumValue
deriving DecidableEq, Repr

namespace CandidateKind

def tag : CandidateKind → String
  | .procedure => "Procedure"
  | .function => "Function"
  | .variable => "Variable"
  | .parameter => "Parameter"
  | .method => "Method"
  | .property => "Property"
  | .«class» => "Class"
  | .enum => "Enum"
  | .enumValue => "EnumValue"

def ofSymbol : SymbolKind → CandidateKind
  | .procedure => .procedure
  | .function => .function
  | .variable => .variable
  | .parameter => .parameter

def ofEntry : Catalog.EntryKind → CandidateKind
  | .method | .constructor => .method
  | .property => .property
  | .«class» => .«class»
  | .enum => .enum
  | .enumValue => .enumValue

end CandidateKind

structure Candidate where
  label : String
  kind : CandidateKind
  source : Source
  detail? : Option String
  documentation? : Option String
deriving DecidableEq, Repr

namespace Candidate

def symbolDetail (symbol : Symbol) (source : Source) : String :=
  let detail := match symbol.kind with
    | .procedure | .function => symbol.signatureLabel
    | .parameter => "Параметр"
    | .variable => if source = .method then "Локальная переменная" else "Переменная модуля"
  if source = .workspace then detail ++ " (" ++ symbol.file.fileName?.getD "" ++ ")" else detail

def ofSymbol (source : Source) (symbol : Symbol) : Candidate where
  label := symbol.name
  kind := .ofSymbol symbol.kind
  source := source
  detail? := symbolDetail symbol source
  documentation? := symbol.documentationText

def ofEntry (locale : Locale) (entry : Catalog.Entry) (label : String) : Candidate where
  label := label
  kind := .ofEntry entry.kind
  source := .catalog
  detail? := entry.signatureLabel locale
  documentation? := entry.documentation locale

def lowerLabel (candidate : Candidate) : String :=
  lower candidate.label

/-- Candidates are ordered by name; names that differ in letter case only by their spelling. -/
def before (a b : Candidate) : Bool :=
  (compare a.lowerLabel b.lowerLabel).then (compare a.label b.label) |>.isLE

def toJson (candidate : Candidate) : Json :=
  .obj [("label", .str candidate.label), ("kind", .str candidate.kind.tag),
    ("source", .str candidate.source.tag), ("detail", .ofOption candidate.detail?),
    ("documentation", .ofOption candidate.documentation?)]

end Candidate

/-- The candidates without those whose name is one of `seen` or of an earlier candidate. -/
def dropSeen (seen : List String) : List Candidate → List Candidate
  | [] => []
  | candidate :: rest =>
    if seen.contains candidate.lowerLabel then dropSeen seen rest
    else candidate :: dropSeen (candidate.lowerLabel :: seen) rest

def mergeBuckets (buckets : List (List Candidate)) : List Candidate :=
  dropSeen [] (buckets.flatMap (·.mergeSort Candidate.before))

/-- The name of an entry that begins with `typed`, which is in lower case.  The name in the chosen
language goes first. -/
def matchingLabel? (typed : String) (locale : Locale) (entry : Catalog.Entry) : Option String :=
  (entry.displayName locale :: entry.names).find? fun name => beginsWith typed (lower name)

def entryCandidates (typed : String) (locale : Locale) (entries : List Catalog.Entry) :
    List Candidate :=
  entries.filterMap fun entry =>
    (matchingLabel? typed locale entry).map (Candidate.ofEntry locale entry)

def symbolCandidates (typed : String) (source : Source) (symbols : List Symbol) : List Candidate :=
  (symbols.filter fun symbol => beginsWith typed symbol.lowerName).map (Candidate.ofSymbol source)

namespace Resolver

def memberCandidates (resolver : Resolver) (typed : String) (locale : Locale) :
    ReceiverType → List Candidate
  | .catalog type =>
    entryCandidates typed locale (((resolver.catalog.type? type).map (·.members)).getD [])
  | .module table => symbolCandidates typed .workspace (table.symbols.filter (·.exported))

def bareEntries (resolver : Resolver) : List Catalog.Entry :=
  resolver.catalog.globals ++ resolver.catalog.types.map (·.entry)

def buckets (resolver : Resolver) (typing : Typing) (line : Nat) (locale : Locale) :
    List (List Candidate) :=
  let typed := lower typing.typed
  match typing.trigger with
  | .newExpression =>
    [entryCandidates typed locale (resolver.catalog.classes.map (·.entry))]
  | .member chain =>
    ((chain.bind (resolver.receiverType? · line)).map
      (resolver.memberCandidates typed locale)).toList
  | .name =>
    [symbolCandidates typed .method (resolver.visibleSymbols line),
      symbolCandidates typed .module resolver.table.symbols,
      symbolCandidates typed .workspace (resolver.workspace.exportedMethods resolver.table.file),
      entryCandidates typed locale resolver.bareEntries]

def typingAt (resolver : Resolver) (position : Position) : Typing :=
  .atEnd (((resolver.line? position.line).getD []).take position.column)

def completions (resolver : Resolver) (position : Position) (locale : Locale) : List Candidate :=
  mergeBuckets (resolver.buckets (resolver.typingAt position) position.line locale)

def completionReachesIndex (resolver : Resolver) (position : Position) : Bool :=
  match (resolver.typingAt position).trigger with
  | .member (some chain) => resolver.receiverReachesIndex chain position.line
  | _ => false

end Resolver

end BslInsight
