import BslInsight.Text.Utf8

/-!
# UTF-16

Reading of UTF-16 in either byte order.  Surrogates without a partner and an odd byte at the end
are replaced.
-/

namespace BslInsight

inductive ByteOrder where
  | littleEndian | bigEndian
deriving DecidableEq, Repr

namespace Utf16

def unit (order : ByteOrder) (first second : UInt8) : Nat :=
  match order with
  | .littleEndian => first.toNat + 256 * second.toNat
  | .bigEndian => 256 * first.toNat + second.toNat

def units (order : ByteOrder) : List UInt8 → List Nat × Bool
  | [] => ([], false)
  | [_] => ([], true)
  | first :: second :: rest =>
    let (tail, odd) := units order rest
    (unit order first second :: tail, odd)

def isHighSurrogate (unit : Nat) : Bool :=
  0xd800 ≤ unit && unit < 0xdc00

def isLowSurrogate (unit : Nat) : Bool :=
  0xdc00 ≤ unit && unit < 0xe000

def scalar (unit : Nat) : Char :=
  if isHighSurrogate unit || isLowSurrogate unit then replacementChar else Char.ofNat unit

def paired (high low : Nat) : Char :=
  Char.ofNat (0x10000 + (high - 0xd800) * 0x400 + (low - 0xdc00))

/-- The characters of a list of code units.  `odd` tells whether a single byte follows it, which
is replaced together with an unfinished pair before it. -/
def ofUnits (odd : Bool) : List Nat → List Char
  | [] => if odd then [replacementChar] else []
  | [unit] =>
    if isHighSurrogate unit then [replacementChar]
    else scalar unit :: if odd then [replacementChar] else []
  | unit :: next :: rest =>
    if isHighSurrogate unit && isLowSurrogate next then paired unit next :: ofUnits odd rest
    else scalar unit :: ofUnits odd (next :: rest)

def decode (order : ByteOrder) (bytes : List UInt8) : List Char :=
  let (units, odd) := units order bytes
  ofUnits odd units

end Utf16

end BslInsight
