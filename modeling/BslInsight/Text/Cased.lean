import BslInsight.Text.CodeRange

/-!
# Cased and case-ignorable characters

The two Unicode properties that decide whether a capital sigma stands at the end of a word.
-/

namespace BslInsight

def casedRanges : List (Nat × Nat) :=
  rangesFrom 0 [
  65,25,7,25,48,0,11,0,5,0,6,22,2,30,2,194,2,3,5,207,3,34,8,1,31,4,97,0,43,3,3,1,3,3,2,0,7,0,2,2,2,
  0,2,19,2,82,2,138,9,165,2,37,10,40,2840,37,2,0,6,0,3,42,2,3,673,85,3,5,2179,10,6,42,3,2,65,191,65,
  277,3,5,3,37,3,5,3,7,2,0,2,0,2,0,2,30,3,52,2,6,2,0,4,2,2,6,4,3,3,5,5,12,6,2,2,6,117,0,14,0,17,12,
  102,0,5,0,3,9,2,0,4,4,7,0,2,0,2,0,2,3,2,5,5,0,3,3,6,4,5,0,18,31,4,1,818,51,1815,228,7,3,4,1,13,37,
  2,0,6,0,30995,45,19,29,133,101,4,3,2,76,21,5,2,2,822,42,2,13,7,79,20289,6,13,4,1034,25,7,25,1190,
  79,97,35,5,35,117,10,2,14,2,6,2,1,2,10,2,14,2,6,2,1,452,0,3,2,2,41,2,8,1222,50,14,50,94,21,11,21,
  2843,63,21857,63,33,24,3,24,25901,84,2,70,2,1,3,0,3,1,3,3,2,11,2,0,2,6,2,64,2,3,3,7,2,6,2,27,2,3,
  2,4,2,0,4,6,2,339,3,24,2,24,2,30,2,24,2,30,2,24,2,30,2,24,2,30,2,24,2,7,1845,9,2,19,7,5,262,61,
  2195,67,2029,25,7,25,7,25]

def caseIgnorableRanges : List (Nat × Nat) :=
  rangesFrom 0 [
  39,0,7,0,12,0,36,0,2,0,72,0,5,0,2,0,5,0,3,1,504,191,5,1,5,0,10,1,2,0,252,6,208,0,6,0,50,44,2,0,2,
  1,2,1,2,0,45,0,12,5,11,10,2,0,36,0,11,20,17,0,102,7,2,9,2,3,34,0,2,0,31,26,92,10,59,10,5,0,3,0,25,
  23,44,2,45,0,8,1,6,8,42,57,56,0,2,0,5,7,5,0,4,6,11,1,14,0,16,0,59,0,5,3,9,0,21,1,27,0,3,1,58,0,5,
  1,5,1,3,2,4,0,31,1,4,0,12,1,58,0,5,4,2,1,5,0,21,1,23,5,2,0,59,0,3,0,2,3,9,0,8,1,12,1,31,0,62,0,13,
  0,51,0,4,0,56,0,2,2,6,2,2,3,8,1,12,1,30,0,59,0,3,0,7,0,6,1,21,1,29,1,58,1,5,3,9,0,21,1,30,0,73,0,
  8,2,2,0,91,0,3,6,12,8,99,0,3,8,10,0,2,6,74,1,28,0,2,0,2,0,56,13,2,4,2,1,6,10,2,35,10,0,103,3,2,5,
  2,1,3,1,26,1,5,2,17,3,14,0,3,1,7,0,16,0,95,0,609,2,947,2,30,1,31,1,31,1,65,1,2,6,9,0,3,10,4,0,6,0,
  46,4,52,0,66,1,35,0,119,2,5,1,10,0,7,2,220,1,3,0,59,0,2,6,2,0,2,0,3,7,7,9,3,0,40,0,9,45,3,11,21,3,
  49,0,2,4,2,0,6,0,41,8,13,1,33,3,3,1,2,2,57,0,2,1,4,0,2,2,59,7,3,1,65,5,83,2,2,12,2,6,5,0,7,0,4,1,
  51,62,14,0,35,100,446,0,2,2,12,2,14,2,14,2,14,1,13,4,9,1,11,0,3,0,3,4,50,4,2,9,2,0,14,0,17,12,52,
  32,2956,1,114,2,126,0,16,0,97,31,48,0,470,0,37,3,4,4,6,0,94,5,94,2,28439,0,1251,5,271,0,99,3,2,9,
  2,0,29,3,81,1,15,33,79,0,24,2,103,3,4,1,9,0,4,0,5,0,26,1,6,0,152,1,27,17,14,0,39,7,26,10,47,2,49,
  0,3,3,3,1,18,0,22,1,67,5,3,1,3,1,13,0,9,0,36,0,12,0,52,0,2,2,3,1,6,1,2,0,28,0,15,1,6,1,2,0,101,4,
  10,2,122,0,3,0,5,0,20273,0,148,16,574,15,4,0,13,15,35,0,3,0,170,0,8,0,7,0,12,0,36,0,2,0,48,0,46,1,
  68,0,22,2,514,0,227,0,150,4,1030,5,2,41,2,8,583,2,2,1,6,3,41,2,5,0,166,1,574,3,39,0,27,4,2,0,316,
  1,25,0,53,5,71,10,50,3,124,0,55,14,42,0,3,1,11,2,50,3,3,1,3,0,5,0,11,0,51,2,37,4,2,7,63,0,13,1,53,
  8,11,3,3,0,96,2,3,0,2,1,7,0,3,0,158,0,4,7,22,1,58,1,4,0,38,6,4,4,71,5,14,0,2,0,2,0,15,1,86,7,3,2,
  2,0,24,0,85,5,2,0,5,1,2,1,239,3,7,1,2,1,28,1,86,7,3,0,2,1,107,0,2,0,3,5,2,0,102,0,2,0,3,3,2,4,260,
  8,2,1,257,1,2,0,5,0,145,3,3,1,5,0,33,9,41,5,3,3,9,0,10,5,3,2,47,12,2,1,199,0,2,2,2,0,202,6,2,5,2,
  0,83,21,3,6,2,1,2,1,123,5,4,0,2,1,2,6,2,0,73,1,4,0,2,0,66,0,282,1,12,1,53,4,6,0,2,0,24,0,5334,16,
  7,14,11465,11,4,2,2497,4,60,6,10,3,509,2,41,1,483,0,64,16,65,1,2,1,14,1,16381,3,2,6,2,1,3231,1,2,
  3,4701,45,3,22,545,2,10,15,3,6,31,3,149,2,1980,54,5,49,9,0,15,0,23,4,2,14,1361,6,2,16,3,6,2,1,2,4,
  6,61,34,0,161,13,369,0,62,3,508,4,255,1,244,0,3,0,8,1,6,0,10,0,465,6,110,7,2736,4,789506,0,31,95,
  129,239]

def isCased (c : Char) : Bool :=
  inRanges casedRanges c.toNat

def isCaseIgnorable (c : Char) : Bool :=
  inRanges caseIgnorableRanges c.toNat

end BslInsight
