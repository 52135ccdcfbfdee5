import BslInsight.Text.Lines

/-!
# Numeric addresses of hosts

An address of the fourth version has four bytes; the last of fewer numbers fills the remaining
bytes.  An address of the sixth version has eight units of 16 bits, of which the last two may be
written as an address of the fourth version.
-/

namespace BslInsight.IpAddress

def digitIn? (base : Nat) (c : Char) : Option Nat :=
  let value :=
    if c.isDigit then c.toNat - '0'.toNat
    else if c.isLower then c.toNat - 'a'.toNat + 10
    else if c.isUpper then c.toNat - 'A'.toNat + 10
    else base
  if value < base then some value else none

def valueIn? (base : Nat) (digits : List Char) : Option Nat := do
  let values ← digits.mapM (digitIn? base)
  return values.foldl (fun n digit => n * base + digit) 0

/-- A number in an address of the fourth version: hexadecimal after `0x`, octal after another zero,
and else decimal. -/
def number? : List Char → Option Nat
  | [] => none
  | ['0'] => some 0
  | '0' :: c :: digits =>
    if c == 'x' || c == 'X' then valueIn? 16 digits else valueIn? 8 (c :: digits)
  | digits => valueIn? 10 digits

def parts (name : List Char) : List (List Char) :=
  let pieces := splitOn '.' name
  if 1 < pieces.length && pieces.getLast? == some [] then pieces.dropLast else pieces

def endsInNumber (name : List Char) : Bool :=
  match (parts name).getLast? with
  | none => false
  | some part => (!part.isEmpty && part.all Char.isDigit) || (number? part).isSome

def fourth? (name : List Char) : Option Nat := do
  let numbers ← (parts name).mapM number?
  let last ← numbers.getLast?
  let bytes := numbers.dropLast
  if bytes.length ≤ 3 ∧ bytes.all (· < 256) ∧ last < Nat.pow 256 (4 - bytes.length) then
    let front := bytes.foldl (fun n byte => n * 256 + byte) 0
    some (front * Nat.pow 256 (4 - bytes.length) + last)
  else none

def fourthText (address : Nat) : String :=
  let byte := fun shift => toString (address / Nat.pow 256 shift % 256)
  byte 3 ++ "." ++ byte 2 ++ "." ++ byte 1 ++ "." ++ byte 0

def byte? (digits : List Char) : Option Nat := do
  let value ← valueIn? 10 digits
  if digits.isEmpty ∨ (1 < digits.length ∧ digits.head? = some '0') ∨ 255 < value then none
  else some value

def unit? (digits : List Char) : Option Nat :=
  if digits.isEmpty ∨ 4 < digits.length then none else valueIn? 16 digits

def units? (dotted : Bool) (text : List Char) : Option (List Nat) := do
  let groups := splitOn ':' text
  let last ← groups.getLast?
  if dotted && last.contains '.' then
    match ← (splitOn '.' last).mapM byte? with
    | [a, b, c, d] => return (← groups.dropLast.mapM unit?) ++ [a * 256 + b, c * 256 + d]
    | _ => none
  else groups.mapM unit?

def splitDouble? : List Char → Option (List Char × List Char)
  | [] => none
  | ':' :: ':' :: rest => some ([], rest)
  | c :: rest => (splitDouble? rest).map fun (front, back) => (c :: front, back)

def sixth? (text : List Char) : Option (List Nat) := do
  match splitDouble? text with
  | none =>
    let units ← units? true text
    if units.length = 8 then some units else none
  | some (front, back) =>
    let front ← if front.isEmpty then some [] else units? false front
    let back ← if back.isEmpty then some [] else units? true back
    if front.length + back.length < 8 then
      some (front ++ List.replicate (8 - front.length - back.length) 0 ++ back)
    else none

def leadingZeros (units : List Nat) : Nat :=
  (units.takeWhile (· == 0)).length

/-- Where the longest run of at least two zeros begins; of several, the first. -/
def longestZeros? (units : List Nat) : Option Nat :=
  let starts := List.range units.length
  let length := fun start => leadingZeros (units.drop start)
  let longest := (starts.map length).foldl max 0
  if longest < 2 then none else starts.find? fun start => length start == longest

def unitsText (units : List Nat) : String :=
  ":".intercalate (units.map fun unit => String.ofList (Nat.toDigits 16 unit))

def sixthText (units : List Nat) : String :=
  match longestZeros? units with
  | none => unitsText units
  | some start =>
    let back := units.drop start
    unitsText (units.take start) ++ "::" ++ unitsText (back.drop (leadingZeros back))

end BslInsight.IpAddress
