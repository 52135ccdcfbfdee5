import BslInsight.Text.Percent
import BslInsight.Uri.Domain
import BslInsight.Uri.IpAddress

/-!
# Hosts

The host of an address is a numeric address, a domain name, or, where the scheme does not say what
hosts are, any text.
-/

namespace BslInsight.Host

def bracketed? (text : List Char) : Option String := do
  if text.getLast? = some ']' then
    let units ← IpAddress.sixth? (text.drop 1).dropLast
    some ("[" ++ IpAddress.sixthText units ++ "]")
  else none

def special? (text : List Char) : Option String := do
  if text.head? = some '[' then bracketed? text
  else
    let name ← Domain.toAscii? (← Percent.decode? text)
    if name.isEmpty then none
    else if IpAddress.endsInNumber name then (IpAddress.fourth? name).map IpAddress.fourthText
    else some (String.ofList name)

def isForbidden (c : Char) : Bool :=
  "\x00\t\n\r #/:<>?@[\\]^|".toList.contains c

def plain? (text : List Char) : Option String :=
  if text.head? = some '[' then bracketed? text
  else if text.any isForbidden then none
  else some (String.ofList (Percent.encode Percent.inControls text))

def read? (special : Bool) (text : List Char) : Option String :=
  if special then special? text else plain? text

def split (inBrackets : Bool) : List Char → List Char × List Char
  | [] => ([], [])
  | c :: rest =>
    if c == ':' && !inBrackets then ([], c :: rest)
    else
      let (host, after) := split (c == '[' || (inBrackets && c != ']')) rest
      (c :: host, after)

end BslInsight.Host
