import BslInsight.Text.Cased

/-!
# Lower case

The full lower-case mapping of Unicode.  One character maps to two, and a capital sigma takes its
final form at the end of a word.
-/

namespace BslInsight

structure LowerRun where
  first : Nat
  last : Nat
  step : Nat
  target : Nat

/-- The runs of a table that gives for each of them how far it begins behind the last code point of
the one before, how far it goes from there, its step and its target. -/
def lowerRunsFrom (last : Nat) : List Nat → List LowerRun
  | gap :: extent :: step :: target :: rest =>
    ⟨last + gap, last + gap + extent, step, target⟩ :: lowerRunsFrom (last + gap + extent) rest
  | _ => []

def lowerRuns : List LowerRun :=
  lowerRunsFrom 0 [
  65,25,1,97,102,22,1,224,2,6,1,248,34,46,2,257,4,4,2,307,3,14,2,314,3,44,2,331,2,0,1,255,1,4,2,378,
  4,0,1,595,1,2,2,387,2,0,1,596,1,0,1,392,2,1,1,598,1,0,1,396,3,0,1,477,1,0,1,601,1,0,1,603,1,0,1,
  402,2,0,1,608,1,0,1,611,2,0,1,617,1,0,1,616,1,0,1,409,4,0,1,623,1,0,1,626,2,0,1,629,1,4,2,417,2,0,
  1,640,1,0,1,424,2,0,1,643,3,0,1,429,2,0,1,648,1,0,1,432,2,1,1,650,1,2,2,436,2,0,1,658,1,0,1,441,4,
  0,1,445,8,0,1,454,1,0,1,454,2,0,1,457,1,0,1,457,2,0,1,460,1,16,2,460,3,16,2,479,3,0,1,499,1,2,2,
  499,2,0,1,405,1,0,1,447,1,38,2,505,2,0,1,414,2,16,2,547,8,0,1,11365,1,0,1,572,2,0,1,410,1,0,1,
  11366,3,0,1,578,2,0,1,384,1,0,1,649,1,0,1,652,1,8,2,583,290,2,2,881,4,0,1,887,9,0,1,1011,7,0,1,
  940,2,2,1,941,2,0,1,972,2,1,1,973,2,16,1,945,2,8,1,963,36,0,1,983,9,22,2,985,6,0,1,952,3,0,1,1016,
  2,0,1,1010,1,0,1,1019,3,2,1,891,1,15,1,1104,1,31,1,1072,49,32,2,1121,10,52,2,1163,2,0,1,1231,1,12,
  2,1218,3,94,2,1233,3,37,1,1377,2890,37,1,11520,2,0,1,11559,6,0,1,11565,723,79,1,43888,1,5,1,5112,
  2196,0,1,7306,7,42,1,4304,3,2,1,4349,321,148,2,7681,10,0,1,223,2,94,2,7841,10,7,1,7936,9,5,1,7952,
  11,7,1,7968,9,7,1,7984,9,5,1,8000,12,6,2,8017,9,7,1,8032,25,7,1,8064,9,7,1,8080,9,7,1,8096,9,1,1,
  8112,1,1,1,8048,1,0,1,8115,12,3,1,8050,1,0,1,8131,12,1,1,8144,1,1,1,8054,13,1,1,8160,1,1,1,8058,1,
  0,1,8165,12,1,1,8056,1,1,1,8060,1,0,1,8179,298,0,1,969,4,0,1,107,1,0,1,229,7,0,1,8526,46,15,1,
  8560,20,0,1,8580,819,25,1,9424,1841,47,1,11312,49,0,1,11361,2,0,1,619,1,0,1,7549,1,0,1,637,3,4,2,
  11368,2,0,1,593,1,0,1,625,1,0,1,592,1,0,1,594,2,0,1,11379,3,0,1,11382,9,1,1,575,1,98,2,11393,9,2,
  2,11500,5,0,1,11507,31054,44,2,42561,20,26,2,42625,136,12,2,42787,4,60,2,42803,11,2,2,42874,2,0,1,
  7545,1,8,2,42879,5,0,1,42892,2,0,1,613,3,2,2,42897,4,18,2,42903,2,0,1,614,1,0,1,604,1,0,1,609,1,0,
  1,620,1,0,1,618,2,0,1,670,1,0,1,647,1,0,1,669,1,0,1,43859,1,14,2,42933,2,0,1,42900,1,0,1,642,1,0,
  1,7566,1,2,2,42952,2,0,1,612,1,14,2,42957,2,0,1,411,25,0,1,42998,22316,25,1,65345,1222,39,1,66600,
  137,35,1,66776,157,10,1,66967,2,14,1,66979,2,6,1,66995,2,1,1,67003,1771,50,1,68800,158,21,1,68976,
  2875,31,1,71872,21889,31,1,93792,65,24,1,93883,31304,33,1,125218]

def lowerCode : List LowerRun → Nat → Nat
  | [], code => code
  | run :: runs, code =>
    if code < run.first then code
    else if code ≤ run.last ∧ (code - run.first) % run.step = 0 then
      run.target + (code - run.first)
    else lowerCode runs code

def lowerChar (c : Char) : List Char :=
  if c = 'İ' then ['i', '\u0307'] else [Char.ofNat (lowerCode lowerRuns c.toNat)]

def facesCased (cs : List Char) : Bool :=
  match cs.dropWhile isCaseIgnorable with
  | [] => false
  | c :: _ => isCased c

/-- Lower case of a text that stands after `before`, which is given in reverse. -/
def lowerAfter (before : List Char) : List Char → List Char
  | [] => []
  | c :: rest =>
    (if c = 'Σ' then [if facesCased before && !facesCased rest then 'ς' else 'σ']
      else lowerChar c) ++ lowerAfter (c :: before) rest

def lowerChars (cs : List Char) : List Char :=
  lowerAfter [] cs

def lower (s : String) : String :=
  String.ofList (lowerChars s.toList)

def sameName (a b : String) : Bool :=
  lower a == lower b

end BslInsight
