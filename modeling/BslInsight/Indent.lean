import BslInsight.Json
import BslInsight.Keyword
import BslInsight.Text.Lines
import BslInsight.Token

/-!
# Indentation

Every line is indented by the number of blocks around it.  Lines that continue a string, blank
lines and preprocessor lines stay as they are.
-/

namespace BslInsight

structure IndentStyle where
  tabSize : Nat := 4
  insertSpaces : Bool := false
deriving DecidableEq, Repr

def IndentStyle.indent (style : IndentStyle) (depth : Nat) : List Char :=
  if style.insertSpaces then List.replicate (depth * style.tabSize) ' '
  else List.replicate depth '\t'

def Keyword.opensBlock (keyword : Keyword) : Bool :=
  [Keyword.procedure, .function, .«if», .«for», .«while», .«try»].contains keyword

def Keyword.closesBlock (keyword : Keyword) : Bool :=
  [Keyword.endProcedure, .endFunction, .endIf, .endDo, .endTry].contains keyword

def Keyword.dividesBlock (keyword : Keyword) : Bool :=
  [Keyword.«else», .elseIf, .except].contains keyword

/-- How a line changes the depth: whether it stands one level further out itself, how many blocks
it leaves open, and how many it closes that were open before. -/
structure LineShape where
  outdent : Bool := false
  opened : Nat := 0
  closed : Nat := 0
deriving DecidableEq, Repr

namespace LineShape

def addKeyword (shape : LineShape) (first : Bool) (keyword : Keyword) : LineShape :=
  if keyword.opensBlock then { shape with opened := shape.opened + 1 }
  else if keyword.closesBlock then
    let outdent := shape.outdent || first
    if 0 < shape.opened then { shape with outdent, opened := shape.opened - 1 }
    else { shape with outdent, closed := shape.closed + 1 }
  else if keyword.dividesBlock && first then { shape with outdent := true }
  else shape

/-- The keyword that a token spells.  After a dot there are no keywords. -/
def keyword? (afterDot : Bool) (token : Token) : Option Keyword :=
  if token.kind = .identifier ∧ !afterDot then Keyword.ofWord? token.text else none

def addTokens (shape : LineShape) (first afterDot : Bool) : List Token → LineShape
  | [] => shape
  | token :: rest =>
    let shape := match keyword? afterDot token with
      | some keyword => shape.addKeyword first keyword
      | none => shape
    shape.addTokens false (token.kind == .dot) rest

def ofTokens (tokens : List Token) : LineShape :=
  addTokens {} true false (tokens.takeWhile (·.kind != .comment))

def ownDepth (shape : LineShape) (depth : Nat) : Nat :=
  if shape.outdent then depth - 1 else depth

def depthAfter (shape : LineShape) (depth : Nat) : Nat :=
  depth + shape.opened - shape.closed

end LineShape

/-- What carries over from one line to the next: the number of open blocks, and whether a string
is open. -/
structure Nesting where
  depth : Nat := 0
  inString : Bool := false
deriving DecidableEq, Repr

/-- The depth that a line should have, if it may be moved at all, and the nesting after it. -/
def Nesting.step (nesting : Nesting) (line : List Char) : Option Nat × Nesting :=
  let (tokens, inString) := lexLine nesting.inString line
  let body := trimStart line
  if nesting.inString || body.isEmpty || body.head? == some '#' then
    (none, { nesting with inString })
  else
    let shape := LineShape.ofTokens tokens
    (some (shape.ownDepth nesting.depth), ⟨shape.depthAfter nesting.depth, inString⟩)

structure IndentEdit where
  line : Nat
  oldLength : Nat
  newIndent : String
deriving DecidableEq, Repr

def IndentEdit.toJson (edit : IndentEdit) : Json :=
  .obj [("line", .ofNat edit.line), ("old_len", .ofNat edit.oldLength),
    ("new_indent", .str edit.newIndent)]

def lineEdit? (style : IndentStyle) (number : Nat) (line : List Char) (depth : Nat) :
    Option IndentEdit :=
  let blanks := line.takeWhile isBlank
  let indent := style.indent depth
  if blanks = indent then none else some ⟨number, blanks.length, String.ofList indent⟩

def inLineRange (range : Option (Nat × Nat)) (line : Nat) : Bool :=
  range.all fun (first, last) => first ≤ line && line ≤ last

def editsFrom (style : IndentStyle) (range : Option (Nat × Nat)) (number : Nat)
    (nesting : Nesting) : List (List Char) → List IndentEdit
  | [] => []
  | line :: rest =>
    let (depth, nesting) := nesting.step line
    let edit := if inLineRange range number then depth.bind (lineEdit? style number line) else none
    edit.toList ++ editsFrom style range (number + 1) nesting rest

def indentEdits (style : IndentStyle) (range : Option (Nat × Nat)) (text : List Char) :
    List IndentEdit :=
  editsFrom style range 0 {} (splitLines text)

def applyToLines (number : Nat) (edits : List IndentEdit) :
    List (List Char) → List (List Char)
  | [] => []
  | line :: rest =>
    match edits with
    | [] => line :: rest
    | edit :: edits =>
      if edit.line = number then
        (edit.newIndent.toList ++ line.drop edit.oldLength) :: applyToLines (number + 1) edits rest
      else line :: applyToLines (number + 1) (edit :: edits) rest

def applyIndentEdits (text : List Char) (edits : List IndentEdit) : List Char :=
  joinWith ['\n'] (applyToLines 0 edits (splitOn '\n' text))

end BslInsight
