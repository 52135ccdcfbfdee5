import BslInsight.Json.Reader
import BslInsight.Text.Lines

/-!
# Strings, numbers and dates of TOML

Values are represented as JSON; a date is an object with the single field `date`.
-/

namespace BslInsight.Toml

def isSpace (c : Char) : Bool :=
  c == ' ' || c == '\t'

def isPlain (c : Char) : Bool :=
  c == '\t' || (0x20 ≤ c.toNat && c.toNat != 0x7f)

def afterLineBreak? : List Char → Option (List Char)
  | '\n' :: rest => some rest
  | '\r' :: '\n' :: rest => some rest
  | _ => none

def skipSpaces (cs : List Char) : List Char :=
  cs.dropWhile isSpace

def skipLineBreak (cs : List Char) : List Char :=
  (afterLineBreak? cs).getD cs

def charOf? (code : Nat) : Option Char :=
  if code.isValidChar then some (Char.ofNat code) else none

def escaped? : Char → Option Char
  | '"' => some '"'
  | '\\' => some '\\'
  | 'b' => some '\x08'
  | 'f' => some '\x0c'
  | 'n' => some '\n'
  | 'r' => some '\r'
  | 't' => some '\t'
  | _ => none

abbrev Piece := List Char × List Char

def Piece.cons (c : Char) (piece : Piece) : Piece :=
  (c :: piece.1, piece.2)

def basicString? : List Char → Option Piece
  | [] => none
  | '"' :: rest => some ([], rest)
  | '\\' :: 'u' :: a :: b :: c :: d :: rest => do
    let char ← charOf? (← Json.hexQuad? a b c d)
    return (← basicString? rest).cons char
  | '\\' :: 'U' :: a :: b :: c :: d :: e :: f :: g :: h :: rest => do
    let char ← charOf? ((← Json.hexQuad? a b c d) * 0x10000 + (← Json.hexQuad? e f g h))
    return (← basicString? rest).cons char
  | '\\' :: e :: rest => do
    let char ← escaped? e
    return (← basicString? rest).cons char
  | c :: rest => if isPlain c && c != '\\' then (basicString? rest).map (·.cons c) else none

/-- A string over several lines after its opening double quotes.  While `trimming`, spaces and line
breaks are left out. -/
def multilineBasic? (trimming : Bool) : List Char → Option Piece
  | [] => none
  | '"' :: '"' :: '"' :: '"' :: '"' :: rest => some (['"', '"'], rest)
  | '"' :: '"' :: '"' :: '"' :: rest => some (['"'], rest)
  | '"' :: '"' :: '"' :: rest => some ([], rest)
  | '\\' :: 'u' :: a :: b :: c :: d :: rest => do
    let char ← charOf? (← Json.hexQuad? a b c d)
    return (← multilineBasic? false rest).cons char
  | '\\' :: 'U' :: a :: b :: c :: d :: e :: f :: g :: h :: rest => do
    let char ← charOf? ((← Json.hexQuad? a b c d) * 0x10000 + (← Json.hexQuad? e f g h))
    return (← multilineBasic? false rest).cons char
  | '\\' :: e :: rest =>
    match escaped? e with
    | some char => (multilineBasic? false rest).map (·.cons char)
    | none =>
      if (afterLineBreak? (skipSpaces (e :: rest))).isSome then multilineBasic? true rest else none
  | '\r' :: '\n' :: rest =>
    if trimming then multilineBasic? true rest else (multilineBasic? false rest).map (·.cons '\n')
  | c :: rest =>
    if trimming && (isSpace c || c == '\n') then multilineBasic? true rest
    else if c == '\n' || (isPlain c && c != '\\') then (multilineBasic? false rest).map (·.cons c)
    else none

def literalString? (cs : List Char) : Option Piece :=
  let body := cs.takeWhile fun c => isPlain c && c != '\''
  match cs.drop body.length with
  | '\'' :: rest => some (body, rest)
  | _ => none

def multilineLiteral? : List Char → Option Piece
  | [] => none
  | '\'' :: '\'' :: '\'' :: '\'' :: '\'' :: rest => some (['\'', '\''], rest)
  | '\'' :: '\'' :: '\'' :: '\'' :: rest => some (['\''], rest)
  | '\'' :: '\'' :: '\'' :: rest => some ([], rest)
  | '\r' :: '\n' :: rest => (multilineLiteral? rest).map (·.cons '\n')
  | c :: rest =>
    if c == '\n' || isPlain c then (multilineLiteral? rest).map (·.cons c) else none

def digits? (isDigit : Char → Bool) (cs : List Char) : Option (List Char) :=
  let runs := splitOn '_' cs
  if runs.all (fun run => !run.isEmpty && run.all isDigit) then some runs.flatten else none

def valueOf (base : Nat) (digits : List Char) : Nat :=
  digits.foldl (fun n c => n * base + (Json.hexDigit? c).getD 0) 0

def splitSign : List Char → Bool × List Char
  | '-' :: rest => (true, rest)
  | '+' :: rest => (false, rest)
  | cs => (false, cs)

def decimal? (cs : List Char) : Option (List Char) := do
  let digits ← digits? Json.isDigit cs
  if digits.length > 1 ∧ digits.head? = some '0' then none else some digits

def int64? (value : Int) : Option Json :=
  if -0x8000000000000000 ≤ value ∧ value < 0x8000000000000000 then some (.int value) else none

def integer? (cs : List Char) : Option Json :=
  match cs with
  | '0' :: 'x' :: rest => do
    int64? (valueOf 16 (← digits? (fun c => (Json.hexDigit? c).isSome) rest))
  | '0' :: 'o' :: rest => do int64? (valueOf 8 (← digits? (fun c => '0' ≤ c && c ≤ '7') rest))
  | '0' :: 'b' :: rest => do int64? (valueOf 2 (← digits? (fun c => c == '0' || c == '1') rest))
  | _ => do
    let (negative, rest) := splitSign cs
    let value : Int := valueOf 10 (← decimal? rest)
    int64? (if negative then -value else value)

def splitAtChar (p : Char → Bool) (cs : List Char) : List Char × Option (List Char) :=
  let front := cs.takeWhile (!p ·)
  match cs.drop front.length with
  | [] => (front, none)
  | _ :: rest => (front, some rest)

/-- A number with a fraction or exponent but without a sign: its digits, and the power of ten by
which they are multiplied. -/
def scientific? (cs : List Char) : Option (List Char × Int) := do
  let (mantissa, exponent?) := splitAtChar (fun c => c == 'e' || c == 'E') cs
  let (whole, fraction?) := splitAtChar (· == '.') mantissa
  if exponent?.isNone && fraction?.isNone then none
  let whole ← decimal? whole
  let fraction ← match fraction? with
    | none => some []
    | some digits => digits? Json.isDigit digits
  let power ← match exponent? with
    | none => some (0 : Int)
    | some exponent =>
      let (negative, digits) := splitSign exponent
      (digits? Json.isDigit digits).map fun digits =>
        let value : Int := valueOf 10 digits
        if negative then -value else value
  return (whole ++ fraction, power - fraction.length)

/-- The least number that double precision rounds to infinity: half a unit in the last place above
the largest finite one. -/
def infinityBound : Nat :=
  0x3fffffffffffff <<< 970

/-- A number is too large for double precision.  The position of its first digit decides that unless
it has the same position as in the bound, which has 309 digits. -/
def isTooLarge (digits : List Char) (power : Int) : Bool :=
  let digits := digits.dropWhile (· == '0')
  let position := digits.length + power
  if digits.isEmpty || position < 309 then false
  else if 309 < position then true
  else infinityBound * Nat.pow 10 (-power).toNat ≤ valueOf 10 digits * Nat.pow 10 power.toNat

/-- A number with a fraction or exponent, or one that is not finite.  A positive number must not be
too large. -/
def isFloat (cs : List Char) : Bool :=
  let (negative, body) := splitSign cs
  body == "inf".toList || body == "nan".toList ||
    match scientific? body with
    | none => false
    | some (digits, power) => negative || !isTooLarge digits power

def fixedNumber? (width low high : Nat) (cs : List Char) : Option Nat :=
  let value := valueOf 10 cs
  if cs.length = width ∧ cs.all Json.isDigit ∧ low ≤ value ∧ value ≤ high then some value else none

def daysIn (year month : Nat) : Nat :=
  if month = 2 then
    if year % 4 = 0 ∧ (year % 100 ≠ 0 ∨ year % 400 = 0) then 29 else 28
  else if month = 4 ∨ month = 6 ∨ month = 9 ∨ month = 11 then 30
  else 31

def isDate (cs : List Char) : Bool :=
  match splitOn '-' cs with
  | [year, month, day] =>
    match fixedNumber? 4 0 9999 year, fixedNumber? 2 1 12 month with
    | some year, some month => (fixedNumber? 2 1 (daysIn year month) day).isSome
    | _, _ => false
  | _ => false

def isTime (cs : List Char) : Bool :=
  match splitOn ':' cs with
  | [hour, minute, second] =>
    let (whole, fraction?) := splitAtChar (· == '.') second
    (fixedNumber? 2 0 23 hour).isSome && (fixedNumber? 2 0 59 minute).isSome &&
      (fixedNumber? 2 0 60 whole).isSome &&
      fraction?.all fun digits => !digits.isEmpty && digits.all Json.isDigit
  | _ => false

def isOffset : List Char → Bool
  | ['Z'] | ['z'] => true
  | sign :: rest =>
    (sign == '+' || sign == '-') &&
      match splitOn ':' rest with
      | [hour, minute] =>
        (fixedNumber? 2 0 23 hour).isSome && (fixedNumber? 2 0 59 minute).isSome
      | _ => false
  | [] => false

def isDateTime (cs : List Char) : Bool :=
  let date := cs.take 10
  let isMark := fun c => c == 'Z' || c == 'z' || c == '+' || c == '-'
  match cs.drop 10 with
  | [] => isDate cs || isTime cs
  | mark :: rest =>
    let time := rest.takeWhile (!isMark ·)
    let offset := rest.drop time.length
    isTime cs ||
      ((mark == 'T' || mark == 't' || mark == ' ') && isDate date && isTime time &&
        (offset.isEmpty || isOffset offset))

def isScalarChar (c : Char) : Bool :=
  c.isAlphanum || c == '+' || c == '-' || c == '.' || c == '_' || c == ':'

/-- The text of a number, date or truth value, and what follows it.  A date and a time may be
separated by a space. -/
def scalarPiece (cs : List Char) : Piece :=
  let run := cs.takeWhile isScalarChar
  let rest := cs.drop run.length
  match rest with
  | ' ' :: c :: _ =>
    if isDate run && c.isDigit then
      let time := rest.tail.takeWhile isScalarChar
      (run ++ ' ' :: time, rest.drop (time.length + 1))
    else (run, rest)
  | _ => (run, rest)

def scalar? (cs : List Char) : Option Json :=
  if cs = "true".toList then some (.bool true)
  else if cs = "false".toList then some (.bool false)
  else if isFloat cs then some (.float (String.ofList cs))
  else if isDateTime cs then some (.obj [("date", .str (String.ofList cs))])
  else integer? cs

end BslInsight.Toml
