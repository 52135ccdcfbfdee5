/-!
# Punycode

First come the ASCII characters of a label, then where the others have to be inserted, in the order
of their code points.  An insertion is a number in base 36 with the least digit first; a digit below
the threshold of its position ends the number, and the thresholds follow the numbers before.
-/

namespace BslInsight.Punycode

def digitChar (digit : Nat) : Char :=
  if digit < 26 then Char.ofNat ('a'.toNat + digit) else Char.ofNat ('0'.toNat + (digit - 26))

def digit? (c : Char) : Option Nat :=
  if c.isLower then some (c.toNat - 'a'.toNat)
  else if c.isUpper then some (c.toNat - 'A'.toNat)
  else if c.isDigit then some (c.toNat - '0'.toNat + 26)
  else none

/-- The threshold of a position; positions are counted in steps of 36. -/
def threshold (bias position : Nat) : Nat :=
  min 26 (max 1 (position - bias))

theorem one_le_threshold (bias position : Nat) : 1 ≤ threshold bias position := by
  unfold threshold
  omega

def biasOf (delta : Nat) (bias : Nat) : Nat :=
  if 455 < delta then biasOf (delta / 35) (bias + 36) else bias + 36 * delta / (delta + 38)
termination_by delta
decreasing_by exact Nat.div_lt_self (by omega) (by omega)

def adapt (number count : Nat) (isFirst : Bool) : Nat :=
  let delta := if isFirst then number / 700 else number / 2
  biasOf (delta + delta / count) 0

def digits (bias position number : Nat) : List Char :=
  let t := threshold bias position
  if number < t then [digitChar number]
  else digitChar (t + (number - t) % (36 - t)) ::
    digits bias (position + 36) ((number - t) / (36 - t))
termination_by number
decreasing_by
  have := one_le_threshold bias position
  have := Nat.div_le_self (number - threshold bias position) (36 - threshold bias position)
  omega

structure Encoder where
  done : Nat
  delta : Nat := 0
  bias : Nat := 72
  isFirst : Bool := true
  written : List Char := []

namespace Encoder

def pass (code : Nat) (encoder : Encoder) (c : Char) : Encoder :=
  if c.toNat < code then { encoder with delta := encoder.delta + 1 }
  else if c.toNat = code then
    { done := encoder.done + 1
      bias := adapt encoder.delta (encoder.done + 1) encoder.isFirst
      isFirst := false
      written := encoder.written ++ digits encoder.bias 36 encoder.delta }
  else encoder

/-- The encoder after the characters with each of some code points in increasing order; `next` is the
first code point that has not been counted. -/
def insertAll (text : List Char) (next : Nat) (encoder : Encoder) : List Nat → Encoder
  | [] => encoder
  | code :: codes =>
    let counted := { encoder with delta := encoder.delta + (code - next) * (encoder.done + 1) }
    let passed := text.foldl (pass code) counted
    insertAll text (code + 1) { passed with delta := passed.delta + 1 } codes

end Encoder

def isBasic (c : Char) : Bool :=
  c.toNat < 0x80

def encode (text : List Char) : List Char :=
  let basic := text.filter isBasic
  let others := ((text.filter (!isBasic ·)).map Char.toNat).mergeSort.eraseDups
  let encoder := Encoder.insertAll text 0x80 { done := basic.length } others
  (if basic.isEmpty then [] else basic ++ ['-']) ++ encoder.written

/-- What has been read: the text so far, the last place and code point, the bias, and the part of a
number that has been read with the weight and the position of the next digit. -/
structure Decoder where
  text : List Char
  place : Nat := 0
  code : Nat := 0x80
  bias : Nat := 72
  number : Nat := 0
  weight : Nat := 1
  position : Nat := 36

namespace Decoder

def insert? (decoder : Decoder) (number : Nat) : Option Decoder :=
  let count := decoder.text.length + 1
  let total := decoder.place + number
  let code := decoder.code + total / count
  let place := total % count
  if code.isValidChar then
    some { text := decoder.text.take place ++ Char.ofNat code :: decoder.text.drop place
           place := place + 1
           code
           bias := adapt number count (decoder.place = 0) }
  else none

def step? (decoder : Decoder) (c : Char) : Option Decoder := do
  let digit ← digit? c
  let t := threshold decoder.bias decoder.position
  let number := decoder.number + digit * decoder.weight
  if digit < t then decoder.insert? number
  else some { decoder with
    number, weight := decoder.weight * (36 - t), position := decoder.position + 36 }

end Decoder

def decode? (text : List Char) : Option (List Char) := do
  let tail := (text.reverse.takeWhile (· != '-')).reverse
  let basic := text.take (text.length - tail.length - 1)
  let tail := if basic.isEmpty then text else tail
  if !basic.all isBasic then none
  let decoder ← tail.foldlM Decoder.step? { text := basic }
  if decoder.position = 36 then some decoder.text else none

end BslInsight.Punycode
