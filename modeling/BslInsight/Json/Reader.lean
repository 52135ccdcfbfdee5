import BslInsight.Json

/-!
# Reading JSON

A text is cut into lexemes, and the lexemes drive a machine whose stack holds the containers that
are still open.  Each step consumes one lexeme, so reading always ends.
-/

namespace BslInsight.Json

inductive Lexeme where
  | openArray | closeArray | openObject | closeObject | colon | comma
  | scalar (value : Json)

def hexDigit? (c : Char) : Option Nat :=
  if '0' ≤ c ∧ c ≤ '9' then some (c.toNat - '0'.toNat)
  else if 'a' ≤ c ∧ c ≤ 'f' then some (c.toNat - 'a'.toNat + 10)
  else if 'A' ≤ c ∧ c ≤ 'F' then some (c.toNat - 'A'.toNat + 10)
  else none

def hexQuad? (a b c d : Char) : Option Nat := do
  return (((← hexDigit? a) * 16 + (← hexDigit? b)) * 16 + (← hexDigit? c)) * 16 + (← hexDigit? d)

def escaped? : Char → Option Char
  | '"' => some '"'
  | '\\' => some '\\'
  | '/' => some '/'
  | 'b' => some '\x08'
  | 'f' => some '\x0c'
  | 'n' => some '\n'
  | 'r' => some '\r'
  | 't' => some '\t'
  | _ => none

/-- The code units of a string literal after its opening quote, and how many characters it takes
up to and including the closing quote.  Characters outside the basic plane stay single units. -/
def stringUnits : List Char → Option (List Nat × Nat)
  | [] => none
  | '"' :: _ => some ([], 1)
  | '\\' :: 'u' :: a :: b :: c :: d :: rest => do
    let unit ← hexQuad? a b c d
    let (units, length) ← stringUnits rest
    return (unit :: units, length + 6)
  | '\\' :: e :: rest => do
    let c ← escaped? e
    let (units, length) ← stringUnits rest
    return (c.toNat :: units, length + 2)
  | c :: rest =>
    if c.toNat < 0x20 ∨ c = '\\' then none
    else do
      let (units, length) ← stringUnits rest
      return (c.toNat :: units, length + 1)

/-- Joins surrogate pairs; an unpaired surrogate makes the string unreadable. -/
def joinSurrogates : List Nat → Option (List Char)
  | [] => some []
  | unit :: units =>
    if 0xd800 ≤ unit ∧ unit < 0xdc00 then
      match units with
      | low :: rest =>
        if 0xdc00 ≤ low ∧ low < 0xe000 then
          (joinSurrogates rest).map
            (Char.ofNat (0x10000 + (unit - 0xd800) * 0x400 + (low - 0xdc00)) :: ·)
        else none
      | [] => none
    else if 0xdc00 ≤ unit ∧ unit < 0xe000 then none
    else (joinSurrogates units).map (Char.ofNat unit :: ·)

def decimalValue (digits : List Char) : Nat :=
  digits.foldl (fun n c => n * 10 + (c.toNat - '0'.toNat)) 0

def isDigit (c : Char) : Bool :=
  '0' ≤ c && c ≤ '9'

def number? (cs : List Char) : Option (Json × Nat) := do
  let (negative, body) := match cs with
    | '-' :: rest => (true, rest)
    | _ => (false, cs)
  let whole := body.takeWhile isDigit
  if whole.isEmpty then none
  if whole.head? = some '0' ∧ whole.length ≠ 1 then none
  let afterWhole := body.drop whole.length
  let fraction ← match afterWhole with
    | '.' :: rest =>
      match rest.takeWhile isDigit with
      | [] => none
      | digits => some (digits.length + 1)
    | _ => some 0
  let afterFraction := afterWhole.drop fraction
  let exponent ← match afterFraction with
    | e :: rest =>
      if e = 'e' ∨ e = 'E' then
        let (sign, digits) := match rest with
          | '+' :: more | '-' :: more => (1, more.takeWhile isDigit)
          | _ => (0, rest.takeWhile isDigit)
        if digits.isEmpty then none else some (1 + sign + digits.length)
      else some 0
    | [] => some 0
  let length := (if negative then 1 else 0) + whole.length + fraction + exponent
  let magnitude := decimalValue whole
  let value :=
    if fraction + exponent = 0 ∧ negative = false ∧ magnitude < 0x10000000000000000 then
      .int (Int.ofNat magnitude)
    else if fraction + exponent = 0 ∧ negative ∧ magnitude ≠ 0 ∧ magnitude ≤ 0x8000000000000000 then
      .int (-Int.ofNat magnitude)
    else .float (String.ofList (cs.take length))
  return (value, length)

def lexeme? (c : Char) (rest : List Char) : Option (Lexeme × Nat) :=
  match c with
  | '[' => some (.openArray, 0)
  | ']' => some (.closeArray, 0)
  | '{' => some (.openObject, 0)
  | '}' => some (.closeObject, 0)
  | ':' => some (.colon, 0)
  | ',' => some (.comma, 0)
  | '"' => do
    let (units, length) ← stringUnits rest
    match joinSurrogates units with
    | some value => some (.scalar (.str (String.ofList value)), length)
    | none => some (.scalar .unreadable, length)
  | 't' => if rest.take 3 = ['r', 'u', 'e'] then some (.scalar (.bool true), 3) else none
  | 'f' => if rest.take 4 = ['a', 'l', 's', 'e'] then some (.scalar (.bool false), 4) else none
  | 'n' => if rest.take 3 = ['u', 'l', 'l'] then some (.scalar .null, 3) else none
  | _ => (number? (c :: rest)).map fun (value, length) => (.scalar value, length - 1)

def isSpace (c : Char) : Bool :=
  c == ' ' || c == '\n' || c == '\t' || c == '\r'

def lexemes : List Char → Option (List Lexeme)
  | [] => some []
  | c :: rest =>
    if isSpace c then lexemes rest
    else match lexeme? c rest with
      | none => none
      | some (first, extra) => (lexemes (rest.drop extra)).map (first :: ·)
termination_by cs => cs.length
decreasing_by
  · exact Nat.lt_succ_self _
  · rw [List.length_drop, List.length_cons]
    omega

/-- A container that is still open, with its contents in reverse.  Once an object has a field with
an unreadable name, its other fields do not matter. -/
inductive Frame where
  | items (done : List Json)
  | fields (done? : Option (List (String × Json))) (key : String)

inductive Expect where
  | value | valueOrEnd | key | keyOrEnd | colon | commaOrEnd
deriving DecidableEq

/-- The machine that reads lexemes: open containers, what may come next, and the whole value once
it is complete. -/
structure Machine where
  stack : List Frame
  expect : Expect
  result : Option Json

def Machine.complete (machine : Machine) (value : Json) : Machine :=
  match machine.stack with
  | [] => ⟨[], .commaOrEnd, some value⟩
  | .items done :: stack => ⟨.items (value :: done) :: stack, .commaOrEnd, none⟩
  | .fields done? key :: stack =>
    ⟨.fields (done?.map ((key, value) :: ·)) key :: stack, .commaOrEnd, none⟩

def ofReversed : Option (List (String × Json)) → Json
  | some fields => .obj fields.reverse
  | none => .unreadable

def Machine.step (machine : Machine) (next : Lexeme) : Option Machine :=
  if machine.result.isSome then none
  else match next, machine.expect, machine.stack with
    | .scalar (.str key), .key, .fields done _ :: stack
    | .scalar (.str key), .keyOrEnd, .fields done _ :: stack =>
      some ⟨.fields done key :: stack, .colon, none⟩
    | .scalar .unreadable, .key, .fields _ _ :: stack
    | .scalar .unreadable, .keyOrEnd, .fields _ _ :: stack =>
      some ⟨.fields none "" :: stack, .colon, none⟩
    | .scalar value, .value, _ | .scalar value, .valueOrEnd, _ => some (machine.complete value)
    | .openArray, .value, stack | .openArray, .valueOrEnd, stack =>
      some ⟨.items [] :: stack, .valueOrEnd, none⟩
    | .openObject, .value, stack | .openObject, .valueOrEnd, stack =>
      some ⟨.fields (some []) "" :: stack, .keyOrEnd, none⟩
    | .closeArray, .valueOrEnd, .items done :: stack
    | .closeArray, .commaOrEnd, .items done :: stack =>
      some ((Machine.mk stack .commaOrEnd none).complete (.arr done.reverse))
    | .closeObject, .keyOrEnd, .fields done _ :: stack
    | .closeObject, .commaOrEnd, .fields done _ :: stack =>
      some ((Machine.mk stack .commaOrEnd none).complete (ofReversed done))
    | .colon, .colon, stack => some ⟨stack, .value, none⟩
    | .comma, .commaOrEnd, .items done :: stack => some ⟨.items done :: stack, .value, none⟩
    | .comma, .commaOrEnd, .fields done key :: stack => some ⟨.fields done key :: stack, .key, none⟩
    | _, _, _ => none

def parse? (text : List Char) : Option Json := do
  let input ← lexemes text
  let final ← input.foldlM Machine.step ⟨[], .value, none⟩
  final.result

def ofString? (text : String) : Option Json :=
  parse? text.toList

end BslInsight.Json
