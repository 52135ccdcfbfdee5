import BslInsight.Text.CodeRange

/-!
# Numbers

The general category *number* of Unicode 16: decimal digits, letter numbers and other numerals.
-/

namespace BslInsight

def numberRanges : List (Nat × Nat) :=
  rangesFrom 0 [
  48,9,121,1,6,0,3,2,1442,9,135,9,199,9,413,9,119,9,5,5,109,9,119,9,119,9,3,5,111,12,116,9,9,6,104,
  9,105,6,8,18,110,9,97,9,119,9,71,19,269,9,71,9,720,19,882,2,240,9,7,9,23,9,301,9,129,10,166,9,7,9,
  183,9,87,9,135,9,7,9,1047,0,4,5,7,9,199,50,3,4,727,59,79,21,631,29,1386,0,778,0,26,8,15,2,344,3,
  139,9,31,7,2,14,33,9,40,14,29537,9,189,9,321,5,155,9,39,9,199,9,23,9,87,9,407,9,21271,9,494,44,13,
  56,18,1,342,26,37,3,30,0,9,0,135,4,203,9,943,7,26,6,40,8,76,4,23,5,161,1,3,15,3,45,65,8,53,1,31,2,
  76,4,105,7,25,7,42,6,331,5,49,9,7,9,279,30,159,9,43,3,113,6,135,29,129,9,61,9,145,9,8,19,252,9,
  343,9,119,9,375,9,103,9,7,19,77,11,421,18,94,9,663,9,87,28,228,9,71,9,423,9,103,20,1068,110,15554,
  9,2343,9,87,9,135,9,2,6,527,9,263,22,24154,9,1479,19,13,19,109,24,1110,49,2369,9,423,9,503,9,248,
  9,717,8,129,9,792,58,2,2,2,3,77,44,2,14,963,12,2788,9]

def isNumber (c : Char) : Bool :=
  inRanges numberRanges c.toNat

end BslInsight
