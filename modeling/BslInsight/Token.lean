import BslInsight.Text.Alphanumeric
import BslInsight.Text.Blank

/-!
# Tokens of a line

At each place of a line the longest lexeme is taken.  The only thing carried from one line to the
next is whether a string literal is still open.
-/

namespace BslInsight

inductive TokenKind where
  | identifier | directive | preprocessor | stringLiteral | openString | dateLiteral | number
  | comment | leftParen | rightParen | leftBracket | rightBracket | dot | comma | semicolon
  | assign | question | operator
deriving DecidableEq, Repr

structure Token where
  kind : TokenKind
  text : String
  column : Nat
deriving DecidableEq, Repr

def Token.isTrivia (token : Token) : Bool :=
  token.kind == .comment

def Token.isString (token : Token) : Bool :=
  token.kind == .stringLiteral || token.kind == .openString

def isIdentStart (c : Char) : Bool :=
  isLetter c || c == '_'

def isIdentPart (c : Char) : Bool :=
  isLetter c || isNumber c || c == '_'

def isSeparator (c : Char) : Bool :=
  c == ' ' || c == '\t' || c == '\x0c' || c == '\r'

def isDecimalDigit (c : Char) : Bool :=
  '0' ≤ c && c ≤ '9'

def runLength (p : Char → Bool) (cs : List Char) : Nat :=
  (cs.takeWhile p).length

/-- What follows an opening quote: whether the string is closed, and how many characters belong to
it, the closing quote included.  A doubled quote stands for a quote, and a line feed ends the part
of an open string. -/
def quotedTail : List Char → Bool × Nat
  | [] => (false, 0)
  | '"' :: '"' :: rest => ((quotedTail rest).1, (quotedTail rest).2 + 2)
  | c :: rest =>
    if c = '"' then (true, 1)
    else if c = '\n' then (false, 0)
    else ((quotedTail rest).1, (quotedTail rest).2 + 1)

/-- Where a string that an earlier line opened ends: the number of characters up to and including
the closing quote. -/
def stringEnd? : List Char → Option Nat
  | [] => none
  | '"' :: '"' :: rest => (stringEnd? rest).map (· + 2)
  | c :: rest => if c = '"' then some 1 else (stringEnd? rest).map (· + 1)

def markedIdent? (rest : List Char) : Option Nat :=
  match rest with
  | d :: _ => if isIdentStart d then some (runLength isIdentPart rest) else none
  | [] => none

/-- The lexeme that begins with `c` and goes on in `rest`: its kind, none when it is dropped, and
how many characters of `rest` belong to it. -/
def lexeme (c : Char) (rest : List Char) : Option TokenKind × Nat :=
  if isSeparator c then (none, runLength isSeparator rest)
  else if isIdentStart c then (some .identifier, runLength isIdentPart rest)
  else if isDecimalDigit c then
    let whole := runLength isDecimalDigit rest
    match rest.drop whole with
    | '.' :: after =>
      match runLength isDecimalDigit after with
      | 0 => (some .number, whole)
      | fraction => (some .number, whole + 1 + fraction)
    | _ => (some .number, whole)
  else match c with
    | '&' =>
      match markedIdent? rest with
      | some length => (some .directive, length)
      | none => (none, 0)
    | '#' =>
      match markedIdent? rest with
      | some length => (some .preprocessor, length)
      | none => (none, 0)
    | '"' =>
      match quotedTail rest with
      | (true, length) => (some .stringLiteral, length)
      | (false, length) => (some .openString, length)
    | '\'' =>
      let body := runLength (fun d => d != '\'' && d != '\n') rest
      if rest[body]? = some '\'' then (some .dateLiteral, body + 1) else (none, body)
    | '/' =>
      match rest with
      | '/' :: _ => (some .comment, runLength (· != '\n') rest)
      | _ => (some .operator, 0)
    | '<' =>
      match rest with
      | '>' :: _ | '=' :: _ => (some .operator, 1)
      | _ => (some .operator, 0)
    | '>' =>
      match rest with
      | '=' :: _ => (some .operator, 1)
      | _ => (some .operator, 0)
    | '+' | '-' | '*' | '%' => (some .operator, 0)
    | '(' => (some .leftParen, 0)
    | ')' => (some .rightParen, 0)
    | '[' => (some .leftBracket, 0)
    | ']' => (some .rightBracket, 0)
    | '.' => (some .dot, 0)
    | ',' => (some .comma, 0)
    | ';' => (some .semicolon, 0)
    | '=' => (some .assign, 0)
    | '?' => (some .question, 0)
    | _ => (none, 0)

def tokensFrom (column : Nat) : List Char → List Token
  | [] => []
  | c :: rest =>
    let (kind, extra) := lexeme c rest
    let tail := tokensFrom (column + extra + 1) (rest.drop extra)
    match kind with
    | some kind => ⟨kind, String.ofList (c :: rest.take extra), column⟩ :: tail
    | none => tail
termination_by cs => cs.length
decreasing_by
  rw [List.length_drop, List.length_cons]
  omega

/-- The tokens of a line and whether a string is open after it.  When a string is open before it,
the line up to the closing quote belongs to that string. -/
def lexLine (inString : Bool) (line : List Char) : List Token × Bool :=
  match if inString then stringEnd? line else some 0 with
  | none => ([], true)
  | some start =>
    let tokens := tokensFrom start (line.drop start)
    (tokens, tokens.any (·.kind == .openString))

end BslInsight
