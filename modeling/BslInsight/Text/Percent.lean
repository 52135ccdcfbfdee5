import BslInsight.Json.Printer
import BslInsight.Json.Reader
import BslInsight.Text.Utf8

/-!
# Percent-encoding

A byte is written as a percent sign and two hexadecimal digits in upper case.  Reading leaves a
percent sign alone that no two digits follow.
-/

namespace BslInsight.Percent

def inControls (byte : UInt8) : Bool :=
  byte < 0x20 || 0x7f ≤ byte

def isOneOf (characters : String) (byte : UInt8) : Bool :=
  characters.toList.any (·.toNat == byte.toNat)

def inFragment (byte : UInt8) : Bool :=
  inControls byte || isOneOf " \"<>`" byte

def inQuery (web : Bool) (byte : UInt8) : Bool :=
  inControls byte || isOneOf " \"#<>" byte || (web && isOneOf "'" byte)

def inPath (byte : UInt8) : Bool :=
  inFragment byte || isOneOf "#?\x7b\x7d" byte

def inSegment (byte : UInt8) : Bool :=
  inPath byte || isOneOf "/%\\" byte

def inUser (byte : UInt8) : Bool :=
  inPath byte || isOneOf "/:;=@[\\]^|" byte

def triplet (byte : UInt8) : List Char :=
  ['%', (Json.hexChar (byte.toNat / 16)).toUpper, (Json.hexChar (byte.toNat % 16)).toUpper]

def encodeBytes (reserved : UInt8 → Bool) (bytes : List UInt8) : List Char :=
  bytes.flatMap fun byte => if reserved byte then triplet byte else [Char.ofNat byte.toNat]

def encode (reserved : UInt8 → Bool) (text : List Char) : List Char :=
  encodeBytes reserved (Utf8.encode (String.ofList text))

def pair? (high low : UInt8) : Option UInt8 := do
  let high ← Json.hexDigit? (Char.ofNat high.toNat)
  let low ← Json.hexDigit? (Char.ofNat low.toNat)
  return (high * 16 + low).toUInt8

def decodeBytes : List UInt8 → List UInt8
  | 0x25 :: high :: low :: rest =>
    match pair? high low with
    | some byte => byte :: decodeBytes rest
    | none => 0x25 :: decodeBytes (high :: low :: rest)
  | byte :: rest => byte :: decodeBytes rest
  | [] => []

def decode (text : List Char) : List UInt8 :=
  decodeBytes (Utf8.encode (String.ofList text))

def decode? (text : List Char) : Option (List Char) :=
  Utf8.decode? (decode text)

end BslInsight.Percent
