import BslInsight.ModuleTable
import BslInsight.Server.Location

/-!
# Diagnostics

Issues of a module as an editor shows them.  An issue marks its whole line.
-/

namespace BslInsight.Server

inductive Severity where
  | warning
  | information
deriving DecidableEq, Repr

def Severity.number : Severity → Nat
  | .warning => 2
  | .information => 3

def issueCode : IssueKind → String
  | .malformedHeader => "malformed-header"
  | .unterminatedMethod => "unterminated-method"
  | .unexpectedTerminator => "unexpected-terminator"
  | .mismatchedTerminator => "mismatched-terminator"
  | .unclosedBlock => "unclosed-block"
  | .unclosedRegion => "unclosed-region"
  | .unexpectedRegionEnd => "unexpected-region-end"

def issueSeverity : IssueKind → Severity
  | .unclosedRegion | .unexpectedRegionEnd => .information
  | _ => .warning

structure Diagnostic where
  span : Span
  kind : IssueKind
deriving DecidableEq, Repr

namespace Diagnostic

def ofIssue (lines : List (List Char)) (issue : Issue) : Diagnostic :=
  let length := ((lines[issue.line]?).map utf16Length).getD 0
  ⟨Span.ofColumns issue.line 0 length, issue.kind⟩

def toJson (diagnostic : Diagnostic) : Json :=
  .obj [("range", diagnostic.span.toJson),
    ("severity", .ofNat (issueSeverity diagnostic.kind).number),
    ("code", .str (issueCode diagnostic.kind)),
    ("source", .str "bsl-intellisense"),
    ("message", .str diagnostic.kind.message)]

end Diagnostic

def diagnostics (table : ModuleTable) : List Diagnostic :=
  table.issues.map (Diagnostic.ofIssue (splitLines table.text.toList))

end BslInsight.Server
