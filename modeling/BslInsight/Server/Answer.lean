import BslInsight.Completion
import BslInsight.Hover
import BslInsight.Indent
import BslInsight.Server.Location
import BslInsight.Signature

/-!
# Answers to an editor

Completion items, hover texts, signatures and edits in the form that the protocol gives them.
-/

namespace BslInsight.Server

def markdown (text : String) : Json :=
  .obj [("kind", .str "markdown"), ("value", .str text)]

def fiveDigits (n : Nat) : String :=
  let digits := toString n
  String.ofList (List.replicate (5 - digits.length) '0') ++ digits

def candidateNumber : CandidateKind → Nat
  | .procedure | .function => 3
  | .method => 2
  | .variable | .parameter => 6
  | .property => 10
  | .«class» => 7
  | .enum => 13
  | .enumValue => 20

structure CompletionItem where
  label : String
  kind : CandidateKind
  detail? : Option String
  documentation? : Option String
  sortText : String
deriving DecidableEq, Repr

namespace CompletionItem

def ofCandidate (candidate : Candidate) (index : Nat) : CompletionItem :=
  ⟨candidate.label, candidate.kind, candidate.detail?, candidate.documentation?, fiveDigits index⟩

def toJson (item : CompletionItem) : Json :=
  .ofPresent [("label", some (.str item.label)),
    ("kind", some (.ofNat (candidateNumber item.kind))),
    ("detail", item.detail?.map .str),
    ("documentation", item.documentation?.map markdown),
    ("sortText", some (.str item.sortText)),
    ("filterText", some (.str item.label))]

end CompletionItem

def completionItems (candidates : List Candidate) : List CompletionItem :=
  candidates.zipIdx.map fun (candidate, index) => CompletionItem.ofCandidate candidate index

def hoverJson (hover : Hover) : Json :=
  .obj [("contents", markdown hover.contents)]

def signatureJson (signature : Signature) : Json :=
  let parameter := fun (param : SignatureParameter) =>
    Json.ofPresent [("label", some (.str param.label)),
      ("documentation", param.documentation?.map .str)]
  let active := Json.ofNat signature.activeParameter
  .obj [("signatures", .arr [
      .ofPresent [("label", some (.str signature.label)),
        ("documentation", signature.documentation?.map markdown),
        ("parameters", some (.arr (signature.parameters.map parameter))),
        ("activeParameter", some active)]]),
    ("activeSignature", .ofNat 0), ("activeParameter", active)]

def editJson (edit : IndentEdit) : Json :=
  .obj [("range", (Span.ofColumns edit.line 0 edit.oldLength).toJson),
    ("newText", .str edit.newIndent)]

end BslInsight.Server
