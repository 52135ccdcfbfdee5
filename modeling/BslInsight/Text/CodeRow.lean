import BslInsight.Text.CodeRange
import BslInsight.Text.Lines

/-!
# Rows of code points

Large tables of characters are written in a compact notation of hexadecimal numbers: `fb00:66.66`
gives two code points to `fb00`, `b9:31,6f` gives one each to `b9` and to the code point after it,
`c0-d6:e0` gives a range the range that begins with `e0`, and `100/12e:101` does the same for every
other code point.  In `1ee05+600:48,32` the targets count from `600` on, and in
`fc00*621:5B,5C` each digit of them in base 62 does from `621` on.  Letters may stand for themselves:
`1f73=έ` gives one each to `1f73` and the code points after it, `fb00|ff|fi` gives them more than one.
-/

namespace BslInsight

/-- Every `step`-th code point from `first` to `last` stands for the code points at the same distance
from those of `targets`. -/
structure CodeRow where
  first : Nat
  last : Nat
  step : Nat
  targets : List Nat
deriving DecidableEq, Repr

def hexValue (c : Char) : Nat :=
  if c.isDigit then c.toNat - '0'.toNat else c.toNat - 'a'.toNat + 10

def hexNumber (digits : List Char) : Nat :=
  digits.foldl (fun n c => n * 16 + hexValue c) 0

namespace CodeRow

def ofTargets (code : List Char) (targets : List (List Nat)) : List CodeRow :=
  targets.mapIdx fun index target =>
    ⟨hexNumber code + index, hexNumber code + index, 1, target⟩

def ofHex (word : List Char) : List CodeRow :=
  let front := word.takeWhile (· != ':')
  let (codes, base) := match splitOn '+' front with
    | [codes, base] => (codes, hexNumber base)
    | _ => (front, 0)
  let (first, last, step) := match splitOn '-' codes, splitOn '/' codes with
    | [first, last], _ => (hexNumber first, hexNumber last, 1)
    | _, [first, last] => (hexNumber first, hexNumber last, 2)
    | _, _ => (hexNumber codes, hexNumber codes, 1)
  (splitOn ',' (word.drop (front.length + 1))).mapIdx fun index targets =>
    ⟨first + index, last + index, step, (splitOn '.' targets).map (base + hexNumber ·)⟩

def ofWord (word : List Char) : List CodeRow :=
  match splitOn '|' word, splitOn '=' word, splitOn '*' word with
  | code :: target :: targets, _, _ => ofTargets code ((target :: targets).map (·.map Char.toNat))
  | _, [code, targets], _ => ofTargets code (targets.map fun target => [target.toNat])
  | _, _, [code, digits] =>
    let base := digits.takeWhile (· != ':')
    ofTargets code ((splitOn ',' (digits.drop (base.length + 1))).map
      (·.map (hexNumber base + tableDigit ·)))
  | _, _, _ => ofHex word

def words (text : String) : List (List Char) :=
  (splitOn ' ' (text.toList.map fun c => if c == '\n' then ' ' else c)).filter (!·.isEmpty)

def ofText (text : String) : List CodeRow :=
  (words text).flatMap ofWord

def image? (row : CodeRow) (code : Nat) : Option (List Char) :=
  if row.first ≤ code ∧ code ≤ row.last ∧ (code - row.first) % row.step = 0 then
    some (row.targets.map fun target => Char.ofNat (target + (code - row.first)))
  else none

end CodeRow

end BslInsight
