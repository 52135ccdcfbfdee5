/-!
# Ranges of code points

A Unicode property is a list of closed ranges in increasing order.
-/

namespace BslInsight

/-- The ranges of a table that gives for each of them how far it begins behind the last code point
of the one before, and how far it goes from there. -/
def rangesFrom (last : Nat) : List Nat → List (Nat × Nat)
  | gap :: extent :: rest =>
    (last + gap, last + gap + extent) :: rangesFrom (last + gap + extent) rest
  | _ => []

def tableDigit (c : Char) : Nat :=
  if c.isDigit then c.toNat - 48 else if c.isUpper then c.toNat - 55 else c.toNat - 61

def tableNumber (digits : List Char) : Nat :=
  digits.foldl (fun n c => n * 62 + tableDigit c) 0

/-- The numbers of a large table, written with digits and letters in base 62.  A point stands before
a number of two digits, a colon before three and a semicolon before four. -/
def tableNumbers : List Char → List Nat
  | '.' :: a :: b :: rest => tableNumber [a, b] :: tableNumbers rest
  | ':' :: a :: b :: c :: rest => tableNumber [a, b, c] :: tableNumbers rest
  | ';' :: a :: b :: c :: d :: rest => tableNumber [a, b, c, d] :: tableNumbers rest
  | c :: rest => if c.isAlphanum then tableDigit c :: tableNumbers rest else tableNumbers rest
  | [] => []

def inRanges : List (Nat × Nat) → Nat → Bool
  | [], _ => false
  | (first, last) :: rest, code =>
    if code < first then false else code ≤ last || inRanges rest code

end BslInsight
