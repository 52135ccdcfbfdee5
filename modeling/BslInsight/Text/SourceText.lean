import BslInsight.Text.Lines
import BslInsight.Text.Utf16
import BslInsight.Text.Windows1251

/-!
# Source texts on disk

A source file with a byte order mark is in the encoding that the mark names.  Any other is UTF-8 if
it is well-formed UTF-8, and Windows-1251 if not.
-/

namespace BslInsight

def decodeMarked : List UInt8 → List Char
  | 0xff :: 0xfe :: rest => Utf16.decode .littleEndian rest
  | 0xfe :: 0xff :: rest => Utf16.decode .bigEndian rest
  | bytes =>
    match Utf8.decode? bytes, bytes with
    | some text, _ => text
    | none, 0xef :: 0xbb :: 0xbf :: rest => Utf8.decodeLossy rest
    | none, _ => Windows1251.decode bytes

def decodeSource (bytes : List UInt8) : String :=
  String.ofList (dropByteOrderMark (decodeMarked bytes))

end BslInsight
