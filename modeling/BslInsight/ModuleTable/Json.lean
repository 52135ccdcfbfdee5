import BslInsight.Json
import BslInsight.ModuleTable

/-!
# Module tables as JSON

The form in which symbols and tables are handed to other programs.
-/

namespace BslInsight

def SymbolKind.tag : SymbolKind → String
  | .procedure => "Procedure"
  | .function => "Function"
  | .variable => "Variable"
  | .parameter => "Parameter"

def Dialect.tag : Dialect → String
  | .bsl => "Bsl"
  | .oneScript => "OneScript"

def IssueKind.tag : IssueKind → String
  | .malformedHeader => "MalformedHeader"
  | .unterminatedMethod => "UnterminatedMethod"
  | .unexpectedTerminator => "UnexpectedTerminator"
  | .mismatchedTerminator => "MismatchedTerminator"
  | .unclosedBlock => "UnclosedBlock"
  | .unclosedRegion => "UnclosedRegion"
  | .unexpectedRegionEnd => "UnexpectedRegionEnd"

def DirectiveKind.tag : DirectiveKind → String
  | .compilation => "Compilation"
  | .preprocessor => "Preprocessor"
  | .«import» => "Import"

def Path.toJson (path : Path) : Json :=
  .str path.text

def Parameter.toJson (parameter : Parameter) : Json :=
  .obj [("name", .str parameter.name), ("is_by_value", .bool parameter.byValue),
    ("default_value", .ofOption parameter.default?)]

def SourceRange.toJson (range : SourceRange) : Json :=
  .obj [("file", range.file.toJson), ("start_line", .ofNat range.startLine),
    ("end_line", .ofNat range.endLine), ("name_column", .ofNat range.nameColumn)]

def Symbol.toJson (symbol : Symbol) : Json :=
  .obj [("name", .str symbol.name), ("kind", .str symbol.kind.tag),
    ("is_exported", .bool symbol.exported), ("params", .arr (symbol.params.map Parameter.toJson)),
    ("source_range", symbol.range.toJson), ("documentation", .ofOption symbol.documentation),
    ("compilation_directive", .ofOption symbol.directive), ("region", .ofOption symbol.region)]

def ChainLink.toJson (link : ChainLink) : Json :=
  .obj [("name", .str link.name), ("is_call", .bool link.isCall)]

def Assignment.toJson (assignment : Assignment) : Json :=
  .obj [("name", .str assignment.name), ("line", .ofNat assignment.line),
    ("value_type", .ofOption assignment.valueType),
    ("value_chain", .arr (assignment.valueChain.map ChainLink.toJson))]

def MethodScope.toJson (scope : MethodScope) : Json :=
  .obj [("method_index", .ofNat scope.methodIndex), ("start_line", .ofNat scope.startLine),
    ("end_line", .ofNat scope.endLine), ("params", .arr (scope.params.map Symbol.toJson)),
    ("locals", .arr (scope.locals.map Symbol.toJson)),
    ("assignments", .arr (scope.assignments.map Assignment.toJson))]

def Region.toJson (region : Region) : Json :=
  .obj [("name", .str region.name), ("start_line", .ofNat region.startLine),
    ("end_line", .ofNat region.endLine)]

def Directive.toJson (directive : Directive) : Json :=
  .obj [("kind", .str directive.kind.tag), ("line", .ofNat directive.line),
    ("text", .str directive.text)]

def Issue.toJson (issue : Issue) : Json :=
  .obj [("line", .ofNat issue.line), ("kind", .str issue.kind.tag)]

def ModuleTable.toJson (table : ModuleTable) : Json :=
  .obj [("file", table.file.toJson), ("dialect", .str table.dialect.tag),
    ("symbols", .arr (table.symbols.map Symbol.toJson)),
    ("methods_by_name", .obj (table.methodIndex.map fun (name, index) => (name, .ofNat index))),
    ("module_variables", .ofStrings table.moduleVariables),
    ("method_scopes", .arr (table.scopes.map MethodScope.toJson)),
    ("module_assignments", .arr (table.moduleAssignments.map Assignment.toJson)),
    ("regions", .arr (table.regions.map Region.toJson)),
    ("directives", .arr (table.directives.map Directive.toJson)),
    ("issues", .arr (table.issues.map Issue.toJson)),
    ("text_chars", .ofNat table.text.length)]

end BslInsight
