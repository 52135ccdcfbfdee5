import BslInsight.Text.Mark
import BslInsight.Uri.Domain.Composition

/-!
# Joiners

Two invisible characters say whether the letters around them join.  In a domain name they may stand
only where they make a difference.
-/

namespace BslInsight.Domain

def dualJoiningRanges : List (Nat × Nat) :=
  rangesFrom 0 (tableNumbers "
  .PI06020245C2621a1AEJb21A02021f230J26328202021WA4E33203235.1DW.1P4302920B02330U03420H961352E:10x0P
  .1QFX20:9Ysn:6Xv4F32422B3.2M02042212030T1.5TW20.6i121.1h22GD2T33Bl021503121203060:ETQX".toList)

def leftJoiningRanges : List (Nat × Nat) := [
  (0xa872, 0xa872), (0x10acd, 0x10acd), (0x10ad7, 0x10ad7), (0x10d00, 0x10d00),
  (0x10fcb, 0x10fcb)]

def rightJoiningRanges : List (Nat × Nat) :=
  rangesFrom 0 (tableNumbers "
  .PK3202063M0f2LHd03820203120P1X05450A0202030U0C2G1502141.3D06120B022F02PC0S2203170:HBU0202144B0403
  0B0.2M02240302120O3.620.6i0.1p0X0W1.11231305160".toList)

def isTransparent (c : Char) : Bool :=
  isNonspacing c || c.toNat == 0x1e94b

def joinsNext (c : Char) : Bool :=
  inRanges dualJoiningRanges c.toNat || inRanges leftJoiningRanges c.toNat

def joinsPrevious (c : Char) : Bool :=
  inRanges dualJoiningRanges c.toNat || inRanges rightJoiningRanges c.toNat

def viramaClass : Nat :=
  9

def facesJoining (test : Char → Bool) (text : List Char) : Bool :=
  ((text.dropWhile isTransparent).head?.map test).getD false

/-- Joiners stand only where they make a difference; `before` is what stands before the text, in
reverse. -/
def joinersFit (before : List Char) : List Char → Bool
  | [] => true
  | c :: rest =>
    let afterVirama := (before.head?.map fun last => combiningClass last == viramaClass).getD false
    let fits :=
      if c == '\u200c' then
        afterVirama || (facesJoining joinsNext before && facesJoining joinsPrevious rest)
      else if c == '\u200d' then afterVirama
      else true
    fits && joinersFit (c :: before) rest

end BslInsight.Domain
