import BslInsight.Path

/-!
# Declared symbols

Procedures, functions, variables and parameters with the place of their declaration.
-/

namespace BslInsight

inductive SymbolKind where
  | procedure | function | variable | parameter
deriving DecidableEq, Repr

namespace SymbolKind

def isMethod : SymbolKind → Bool
  | .procedure | .function => true
  | _ => false

def label : SymbolKind → String
  | .procedure => "procedure"
  | .function => "function"
  | .variable => "variable"
  | .parameter => "parameter"

end SymbolKind

structure Parameter where
  name : String
  byValue : Bool
  default? : Option String
deriving DecidableEq, Repr

namespace Parameter

def isOptional (parameter : Parameter) : Bool :=
  parameter.default?.isSome

def label (parameter : Parameter) : String :=
  (if parameter.byValue then "Знач " else "") ++ parameter.name ++
    match parameter.default? with
    | some value => " = " ++ value
    | none => ""

end Parameter

structure SourceRange where
  file : Path
  startLine : Nat
  endLine : Nat
  nameColumn : Nat
deriving DecidableEq, Repr

def SourceRange.containsLine (range : SourceRange) (line : Nat) : Bool :=
  range.startLine ≤ line && line ≤ range.endLine

structure Symbol where
  name : String
  kind : SymbolKind
  range : SourceRange
  exported : Bool := false
  params : List Parameter := []
  documentation : Option String := none
  directive : Option String := none
  region : Option String := none
deriving DecidableEq, Repr

def dropCommentMark (line : List Char) : List Char :=
  let body := match trimStart line with
    | '/' :: '/' :: rest => rest
    | rest => rest
  match body with
  | ' ' :: rest => rest
  | rest => rest

def commentText (block : String) : String :=
  String.ofList (joinWith ['\n'] ((proseLines block.toList).map dropCommentMark))

namespace Symbol

def file (symbol : Symbol) : Path :=
  symbol.range.file

def lowerName (symbol : Symbol) : String :=
  lower symbol.name

def signatureLabel (symbol : Symbol) : String :=
  if symbol.kind.isMethod then
    symbol.name ++ "(" ++ String.intercalate ", " (symbol.params.map Parameter.label) ++ ")"
  else symbol.name

def documentationText (symbol : Symbol) : Option String :=
  symbol.documentation.map commentText

end Symbol

end BslInsight
