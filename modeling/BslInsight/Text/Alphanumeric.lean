import BslInsight.Text.Letter
import BslInsight.Text.Number

/-!
# Alphanumeric characters

Characters with the property *alphabetic* of Unicode 17, and numbers.  The table lists those that
are neither letters nor numbers as of Unicode 16.
-/

namespace BslInsight

def alphabeticMarkRanges : List (Nat × Nat) :=
  rangesFrom 0 [
  837,0,30,12,577,13,2,0,2,1,2,1,2,0,73,10,49,12,2,6,17,0,102,6,5,3,3,1,5,0,36,0,31,15,103,10,102,1,
  4,8,2,2,2,3,99,0,8,0,61,11,4,6,7,19,55,1,3,14,2,1,6,2,11,1,30,2,59,6,3,1,3,1,11,0,11,1,30,2,59,4,
  5,1,3,1,5,0,31,1,4,0,12,2,59,7,2,2,2,1,22,1,23,2,5,2,59,6,3,1,3,1,10,1,11,1,31,0,60,4,4,2,2,2,11,
  0,41,4,58,6,2,2,2,2,9,1,6,0,6,1,30,2,59,6,2,2,2,2,9,1,6,0,6,1,16,0,13,3,59,6,2,2,2,2,11,0,11,1,30,
  2,76,5,2,0,2,7,19,1,62,0,3,6,19,0,100,0,3,5,2,1,17,0,164,18,10,10,2,35,111,11,2,0,3,3,24,3,5,2,2,
  2,3,6,4,3,14,11,2,0,11,3,1653,1,31,1,31,1,31,1,67,18,189,1,35,0,119,11,5,8,223,4,58,9,3,19,75,1,
  12,2,50,4,49,14,61,2,31,8,3,1,58,10,51,18,413,33,1730,51,2295,31,30837,7,35,1,303,1,3,0,2,0,29,0,
  17,0,9,0,24,4,89,1,51,15,2,0,58,0,39,4,29,11,46,3,49,11,38,0,68,13,13,0,9,1,46,2,51,0,2,2,3,1,6,0,
  45,4,6,0,238,7,20276,0,2136,4,1478,25,168,2,2,1,6,3,789,3,66,0,322,1,25,2,51,2,260,2,54,13,46,1,
  12,2,46,8,10,0,62,2,37,11,19,1,58,2,49,12,15,1,93,8,3,0,7,0,3,0,158,9,24,3,59,6,3,1,3,1,11,0,11,1,
  85,8,2,0,3,0,2,3,2,1,104,12,2,2,107,17,238,6,3,6,30,1,83,14,2,0,107,10,104,13,258,12,248,5,2,1,3,
  1,4,0,2,0,143,6,3,5,5,0,29,9,43,4,2,3,19,10,47,13,201,7,200,7,2,6,84,21,2,13,123,5,4,0,2,1,2,2,2,
  0,4,0,67,4,2,1,2,3,26,43,5,9,266,3,10,1,2,0,49,6,4,2,16862,16,3442,24,3,24,124,0,2,54,8,3,94,6,
  6146,7,1290,21,98,114,11948,0,9058,6,2,16,3,6,2,1,2,4,101,0,1585,30,2,21,9,1,584,0,2025,25,7,25,7,
  25,50609,5,5987,11,21763,4297]

def isAlphanumeric (c : Char) : Bool :=
  isLetter c || isNumber c || inRanges alphabeticMarkRanges c.toNat

def isWordChar (c : Char) : Bool :=
  isAlphanumeric c || c == '_'

end BslInsight
