/-!
# UTF-8

Reading and writing of UTF-8.  A malformed sequence is the longest beginning of a well-formed one
that is found, and at least one byte.
-/

namespace BslInsight

def replacementChar : Char :=
  '�'

namespace Utf8

/-- What the first byte of a sequence says about it: how many bytes follow, the value so far, and
the least and the greatest second byte. -/
structure Lead where
  count : Nat
  value : Nat
  low : Nat := 0x80
  high : Nat := 0xbf
deriving DecidableEq, Repr

def lead? (byte : UInt8) : Option Lead :=
  let b := byte.toNat
  if b < 0x80 then some { count := 0, value := b }
  else if b < 0xc2 then none
  else if b < 0xe0 then some { count := 1, value := b - 0xc0 }
  else if b = 0xe0 then some { count := 2, value := 0, low := 0xa0 }
  else if b = 0xed then some { count := 2, value := 0xd, high := 0x9f }
  else if b < 0xf0 then some { count := 2, value := b - 0xe0 }
  else if b = 0xf0 then some { count := 3, value := 0, low := 0x90 }
  else if b < 0xf4 then some { count := 3, value := b - 0xf0 }
  else if b = 0xf4 then some { count := 3, value := 4, high := 0x8f }
  else none

/-- The bytes after the first: the value of the whole sequence, and how many bytes belong to it. -/
def continued (value low high : Nat) : Nat → List UInt8 → Option Nat × Nat
  | 0, _ => (some value, 0)
  | _ + 1, [] => (none, 0)
  | count + 1, byte :: rest =>
    if low ≤ byte.toNat ∧ byte.toNat ≤ high then
      let (whole, length) := continued (value * 64 + (byte.toNat - 0x80)) 0x80 0xbf count rest
      (whole, length + 1)
    else (none, 0)

/-- The first sequence of a text: its character, none if it is malformed, and its length without
the first byte. -/
def first (byte : UInt8) (rest : List UInt8) : Option Char × Nat :=
  match lead? byte with
  | none => (none, 0)
  | some lead =>
    let (value, length) := continued lead.value lead.low lead.high lead.count rest
    (value.map Char.ofNat, length)

def sequences : List UInt8 → List (Option Char)
  | [] => []
  | byte :: rest =>
    (first byte rest).1 :: sequences (rest.drop (first byte rest).2)
termination_by bytes => bytes.length
decreasing_by
  rw [List.length_drop, List.length_cons]
  omega

def decode? (bytes : List UInt8) : Option (List Char) :=
  (sequences bytes).mapM id

def decodeLossy (bytes : List UInt8) : List Char :=
  (sequences bytes).map (·.getD replacementChar)

def encode (text : String) : List UInt8 :=
  text.toUTF8.toList

end Utf8

end BslInsight
