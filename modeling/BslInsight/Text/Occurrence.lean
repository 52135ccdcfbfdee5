/-!
# Occurrences in a text

Whether one text begins another, stands somewhere in it, or can be had from it by leaving out
characters.
-/

namespace BslInsight

def beginsWith (head text : String) : Bool :=
  head.toList.isPrefixOf text.toList

def hasInfix (needle : List Char) : List Char → Bool
  | [] => needle.isEmpty
  | c :: rest => needle.isPrefixOf (c :: rest) || hasInfix needle rest

def occursIn (needle text : String) : Bool :=
  hasInfix needle.toList text.toList

def scatteredIn (needle text : String) : Bool :=
  needle.toList.isSublist text.toList

end BslInsight
