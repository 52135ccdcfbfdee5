import BslInsight.ModuleTable.Json
import BslInsight.Resolve

/-!
# Resolutions as JSON
-/

namespace BslInsight

def FileLocation.toJson (location : FileLocation) : Json :=
  .obj [("file", location.file.toJson), ("line", .ofNat location.line),
    ("column", .ofNat location.column)]

def Resolution.toJson (resolution : Resolution) : Json :=
  .obj [("source", .str resolution.source.tag),
    ("kind", .ofOption (resolution.symbol?.map (·.kind.label))), ("name", .str resolution.name),
    ("location", .orNull FileLocation.toJson resolution.location?),
    ("symbol", .orNull Symbol.toJson resolution.symbol?),
    ("entry", .orNull Catalog.Entry.toJson resolution.entry?)]

end BslInsight
