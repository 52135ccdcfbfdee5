import BslInsight.Keyword
import BslInsight.Symbol
import BslInsight.Text.CaseFold
import BslInsight.Token

/-!
# Method declarations

Recognition of header and terminator lines, and the reading of parameter lists, which may go over
several lines.
-/

namespace BslInsight

/-- A character that may begin the name in a header.  Folding lets the iota subscript pass for a
letter. -/
def isHeaderNameStart (c : Char) : Bool :=
  isIdentStart c || c == '\u0345'

def isHeaderNamePart (c : Char) : Bool :=
  isIdentPart c || c == '\u0345'

def afterBlanks? : List Char → Option (List Char)
  | [] => none
  | c :: rest => if isBlank c then some (trimStart rest) else none

/-- The first of the words that the text begins with up to folding, as spelled there, and the rest
of the text. -/
def afterWord? (words : List String) (text : List Char) : Option (List Char × List Char) :=
  words.findSome? fun word =>
    (afterFolded? word.toList text).map fun rest => (text.take (text.length - rest.length), rest)

/-- A declaration header found in a line.  Columns count characters; the parameter list begins in
column `paramsStart`. -/
structure Header where
  kind : SymbolKind
  name : String
  nameColumn : Nat
  paramsStart : Nat
deriving DecidableEq, Repr

/-- The header of a line that declares a method: an optional word for asynchronous methods, the
word for the kind of method, a name and an opening parenthesis. -/
def Header.ofLine? (line : List Char) : Option Header := do
  let start := trimStart line
  let start := (((afterWord? ["асинх", "async"] start).bind fun found => afterBlanks? found.2).getD
    start)
  let (word, rest) ← afterWord? ["процедура", "функция", "procedure", "function"] start
  let rest ← afterBlanks? rest
  let name := rest.takeWhile isHeaderNamePart
  if (rest.head?.map isHeaderNameStart).getD false then
    match trimStart (rest.drop name.length) with
    | '(' :: after =>
      some {
        kind := if Keyword.ofWord? (String.ofList word) = some .function then .function
          else .procedure
        name := String.ofList name
        nameColumn := line.length - rest.length
        paramsStart := line.length - after.length }
    | _ => none
  else none

def terminatorKind? (line : List Char) : Option SymbolKind := do
  let (word, rest) ← afterWord?
    ["конецпроцедуры", "конецфункции", "endprocedure", "endfunction"] (trimStart line)
  if (rest.head?.map isHeaderNamePart).getD false then none
  else match Keyword.ofWord? (String.ofList word) with
    | some .endFunction => some .function
    | some .endProcedure => some .procedure
    | _ => none

def isMethodBoundary (line : List Char) : Bool :=
  (Header.ofLine? line).isSome || (terminatorKind? line).isSome

/-- How far a parameter list goes in a piece of text: up to and including the parenthesis that
closes it, or beyond the piece. -/
inductive ListEnd where
  | closed (length : Nat)
  | «open» (depth : Nat) (inQuote : Bool)
deriving DecidableEq, Repr

def ListEnd.shift (offset : Nat) : ListEnd → ListEnd
  | .closed length => .closed (length + offset)
  | .«open» depth inQuote => .«open» depth inQuote

/-- Looks for the parenthesis that closes a list `depth` levels deep.  Every quote opens or closes
quoted text, so that a doubled quote changes nothing.  Quoted text does not count, and a comment
ends the piece. -/
def scanParamList (depth : Nat) (inQuote : Bool) : List Char → ListEnd
  | [] => .«open» depth inQuote
  | c :: rest =>
    if c = '"' then (scanParamList depth (!inQuote) rest).shift 1
    else if inQuote then (scanParamList depth true rest).shift 1
    else if c = '(' then (scanParamList (depth + 1) false rest).shift 1
    else if c = ')' then
      if depth ≤ 1 then .closed 1 else (scanParamList (depth - 1) false rest).shift 1
    else if c = '/' ∧ rest.head? = some '/' then .«open» depth false
    else (scanParamList depth false rest).shift 1

def commentStart? (inQuote : Bool) : List Char → Option Nat
  | [] => none
  | c :: rest =>
    if inQuote = false ∧ c = '/' ∧ rest.head? = some '/' then some 0
    else (commentStart? (if c = '"' then !inQuote else inQuote) rest).map (· + 1)

def beforeComment (line : List Char) : List Char :=
  match commentStart? false line with
  | some column => line.take column
  | none => line

def withoutComment (line : List Char) : List Char :=
  match commentStart? false line with
  | some column => trimEnd (line.take column)
  | none => line

def splitTopLevel (depth : Nat) (inQuote : Bool) : List Char → List (List Char)
  | [] => [[]]
  | c :: rest =>
    if c = ',' ∧ inQuote = false ∧ depth = 0 then [] :: splitTopLevel depth inQuote rest
    else
      let inQuote' := if c = '"' then !inQuote else inQuote
      let depth' :=
        if inQuote then depth
        else if c = '(' ∨ c = '[' then depth + 1
        else if c = ')' ∨ c = ']' then depth - 1
        else depth
      match splitTopLevel depth' inQuote' rest with
      | [] => [[c]]
      | piece :: pieces => (c :: piece) :: pieces

def defaultStart? (depth : Nat) (inQuote : Bool) : List Char → Option Nat
  | [] => none
  | c :: rest =>
    if c = '=' ∧ inQuote = false ∧ depth = 0 then some 0
    else
      let inQuote' := if c = '"' then !inQuote else inQuote
      let depth' :=
        if inQuote then depth
        else if c = '(' then depth + 1
        else if c = ')' then depth - 1
        else depth
      (defaultStart? depth' inQuote' rest).map (· + 1)

structure ParamHead where
  byValue : Bool := false
  name : Option String := none
  depth : Nat := 0

/-- One token of the part of a parameter before its default value.  Annotations and what stands in
their parentheses do not count. -/
def ParamHead.step (head : ParamHead) (token : Token) : ParamHead :=
  match token.kind with
  | .leftParen => { head with depth := head.depth + 1 }
  | .rightParen => { head with depth := head.depth - 1 }
  | .identifier =>
    if head.depth = 0 ∧ head.name = none then
      if Keyword.ofWord? token.text = some .val then { head with byValue := true }
      else { head with name := some token.text }
    else head
  | _ => head

def Parameter.ofPiece? (piece : List Char) : Option Parameter := do
  let (front, value?) := match defaultStart? 0 false piece with
    | some column => (piece.take column, some (trim (piece.drop (column + 1))))
    | none => (piece, none)
  let head := (lexLine false (trim front)).1.foldl ParamHead.step {}
  let name ← head.name
  return {
    name
    byValue := head.byValue
    default? := (value?.filter (· ≠ [])).map String.ofList }

def stripLineComments (text : List Char) : List Char :=
  joinWith ['\n'] ((proseLines text).map beforeComment)

def parseParams (text : List Char) : List Parameter :=
  let cleaned := stripLineComments text
  if trim cleaned = [] then []
  else (splitTopLevel 0 false cleaned).filterMap Parameter.ofPiece?

/-- A parameter list as it stands in a module: the text between the parentheses, what follows on
the closing line, how many lines after the header it takes, and whether it is closed at all. -/
structure ParamList where
  text : List Char
  tail : List Char
  extraLines : Nat
  closed : Bool

/-- The part of a parameter list on the lines after the header.  A list that is not closed ends
before the next line that begins or ends a method. -/
def ParamList.continued (depth : Nat) (inQuote : Bool) : List (List Char) → ParamList
  | [] => ⟨[], [], 0, false⟩
  | line :: rest =>
    if isMethodBoundary line then ⟨[], [], 0, false⟩
    else match scanParamList depth inQuote line with
      | .closed length => ⟨'\n' :: line.take (length - 1), line.drop length, 1, true⟩
      | .«open» depth inQuote =>
        let more := continued depth inQuote rest
        { more with text := '\n' :: line ++ more.text, extraLines := more.extraLines + 1 }

def ParamList.read (first : List Char) (following : List (List Char)) : ParamList :=
  match scanParamList 1 false first with
  | .closed length => ⟨first.take (length - 1), first.drop length, 0, true⟩
  | .«open» depth inQuote =>
    let more := continued depth inQuote following
    { more with text := first ++ more.text }

end BslInsight
