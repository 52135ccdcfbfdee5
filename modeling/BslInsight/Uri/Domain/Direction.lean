import BslInsight.Text.Mark

/-!
# Directions of characters

A domain name in which a script from right to left occurs must not look different from what it is:
each of its labels must have one direction only.
-/

namespace BslInsight.Domain

inductive Direction where
  | left | right | number | arabicNumber
  | mark
  | neutral
deriving DecidableEq, Repr

def rightRanges : List (Nat × Nat) :=
  rangesFrom 0 (tableNumbers "
  .Ni0203030AaK03020ElZ22.1cG181BM2TU.1QCvA1504N50A0408e6nHf:GAzG.B70.dR.4Z5.3cGbB.2e7.1CB.7nTFWM.43
  f4Zm.17Cm5.1o:EO2.3L.1LX8.GI".toList)

def digitRanges : List (Nat × Nat) := [
  (0x30, 0x39), (0x6f0, 0x6f9), (0x102e1, 0x102fb)]

def arabicDigitRanges : List (Nat × Nat) := [
  (0x660, 0x669), (0x66b, 0x66c), (0x10d30, 0x10d39), (0x10e60, 0x10e7e)]

def neutralRanges : List (Nat × Nat) :=
  rangesFrom 0 (tableNumbers "
  0lBcR.1UW0.7G18D3R2G.1u0.250.6W5.1v1212021.1T0.1s0B0.4L3.89180.3y0.4A7.226.7F0.433.Hr9.1f0.Al1.590
  LQ.505.2TX.Oz.2v.15.1Bz.6t.18P2.Cj2.5S.49.CN.3i5F6.49.8K4OG07062.1Z0.1T0.3Bb:1r1.11:5lRs.5H2.1c0B1
  .25X.1f0.2a3D1x3.CB1:5Lk.9E.181.BH0.11.1E4G.Ux0.8g6.910W1.5C7.66J.OhC.crS:5K50:68M.C8.CH.1Q40.31
  .1O:12f0.nJ.9H.102.100.2t.de".toList)

def leftMarks : List Nat :=
  [0xcbf, 0xcc6, 0x11a07, 0x11a08, 0x11c3f]

def direction (c : Char) : Direction :=
  let code := c.toNat
  if isNonspacing c && !leftMarks.contains code then .mark
  else if inRanges rightRanges code then .right
  else if inRanges digitRanges code then .number
  else if inRanges arabicDigitRanges code then .arabicNumber
  else if inRanges neutralRanges code then .neutral
  else .left

def isBidirectional (label : List Char) : Bool :=
  label.any fun c => direction c = .right ∨ direction c = .arabicNumber

def endsWith (allowed : List Direction) (directions : List Direction) : Bool :=
  match directions.reverse.dropWhile (· == .mark) with
  | [] => false
  | last :: _ => allowed.contains last

/-- A label has one direction only.  It begins with a letter, which gives the direction, and ends
with a letter or digit; both kinds of digits must not stand together. -/
def hasOneDirection (label : List Char) : Bool :=
  let directions := label.map direction
  match directions with
  | [] => true
  | .left :: _ =>
    directions.all [.left, .number, .neutral, .mark].contains &&
      endsWith [.left, .number] directions
  | .right :: _ =>
    directions.all [.right, .number, .arabicNumber, .neutral, .mark].contains &&
      endsWith [.right, .number, .arabicNumber] directions &&
      !(directions.contains .number && directions.contains .arabicNumber)
  | _ => false

end BslInsight.Domain
