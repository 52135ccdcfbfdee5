import BslInsight.Uri.Domain.Direction
import BslInsight.Uri.Domain.Joining
import BslInsight.Uri.Domain.Mapping
import BslInsight.Uri.Punycode

/-!
# Domain names

A domain name is sent in ASCII: its characters are prepared, and each label with characters outside
of ASCII is encoded and marked as such.  A label that is marked already must be what encoding gives.
-/

namespace BslInsight.Domain

def encodedMark : List Char :=
  "xn--".toList

def isDenied (c : Char) : Bool :=
  c.toNat ≤ 0x20 || c.toNat == 0x7f || "%#/:<>?@[\\]^|".toList.contains c

structure Label where
  shown : List Char
  sent : List Char
deriving DecidableEq, Repr

namespace Label

def maxShown : Nat := 1000

def maxEncoded : Nat := 2000

def ofText? (text : List Char) : Option Label :=
  if encodedMark.isPrefixOf text then do
    let encoded := text.drop encodedMark.length
    if maxEncoded < encoded.length then none
    let shown ← Punycode.decode? encoded
    if shown.all Punycode.isBasic || !shown.all isValid || compose shown != shown ||
        encodedMark.isPrefixOf shown then none
    else some ⟨shown, text⟩
  else if text.all Punycode.isBasic then some ⟨text, text⟩
  else if maxShown < text.length then none
  else some ⟨text, encodedMark ++ Punycode.encode text⟩

/-- A label does not begin with a mark, its joiners make a difference, and no character is denied. -/
def isWellFormed (label : Label) : Bool :=
  !((label.shown.head?.map isMark).getD false) && joinersFit [] label.shown &&
    !label.sent.any isDenied

end Label

def toAscii? (name : List Char) : Option (List Char) := do
  let mapped ← name.mapM mapChar?
  let labels ← (splitOn '.' (compose mapped.flatten)).mapM Label.ofText?
  let bidirectional := labels.any fun label => isBidirectional label.shown
  if labels.all fun label =>
      label.isWellFormed && (!bidirectional || hasOneDirection label.shown) then
    some (joinWith ['.'] (labels.map Label.sent))
  else none

end BslInsight.Domain
