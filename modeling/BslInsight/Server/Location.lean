import BslInsight.Symbol
import BslInsight.Uri

/-!
# Places in documents

Places as an editor sees them: a document is named by its address, and a piece of it by the
positions of its two ends.
-/

namespace BslInsight.Server

structure Span where
  start : Position
  stop : Position
deriving DecidableEq, Repr

structure Location where
  uri : Uri
  span : Span
deriving DecidableEq, Repr

def positionJson (position : Position) : Json :=
  .obj [("line", .ofNat position.line), ("character", .ofNat position.column)]

namespace Span

def ofColumns (line first last : Nat) : Span :=
  ⟨⟨line, first⟩, ⟨line, last⟩⟩

def toJson (span : Span) : Json :=
  .obj [("start", positionJson span.start), ("end", positionJson span.stop)]

end Span

namespace Location

/-- The `length` characters at a place in a file.  Only files with absolute paths have an
address. -/
def ofFile? (place : FileLocation) (length : Nat) : Option Location :=
  (Uri.ofPath? place.file).map fun uri =>
    ⟨uri, Span.ofColumns place.line place.column (place.column + length)⟩

def toJson (location : Location) : Json :=
  .obj [("uri", .str location.uri.text), ("range", location.span.toJson)]

end Location

end BslInsight.Server
