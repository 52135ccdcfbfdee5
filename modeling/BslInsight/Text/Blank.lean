/-!
# White space

The Unicode property *white space*, and the trimming of a text by it.
-/

namespace BslInsight

def isBlank (c : Char) : Bool :=
  let code := c.toNat
  (9 ≤ code && code ≤ 13) || code == 0x20 || code == 0x85 || code == 0xa0 || code == 0x1680 ||
    (0x2000 ≤ code && code ≤ 0x200a) || code == 0x2028 || code == 0x2029 || code == 0x202f ||
    code == 0x205f || code == 0x3000

def trimStartBy (p : Char → Bool) (cs : List Char) : List Char :=
  cs.dropWhile p

def trimEndBy (p : Char → Bool) (cs : List Char) : List Char :=
  (cs.reverse.dropWhile p).reverse

def trimStart (cs : List Char) : List Char :=
  trimStartBy isBlank cs

def trimEnd (cs : List Char) : List Char :=
  trimEndBy isBlank cs

def trim (cs : List Char) : List Char :=
  trimEnd (trimStart cs)

def trimQuotes (cs : List Char) : List Char :=
  trimEndBy (· == '"') (trimStartBy (· == '"') cs)

end BslInsight
