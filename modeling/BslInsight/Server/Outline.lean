import BslInsight.Server.Location

/-!
# Outlines

Declared symbols with the lines of their declarations, as an editor lists them.
-/

namespace BslInsight.Server

/-- The lines of a declaration.  Without the text of the module its last line is taken to end where
the name would end in it. -/
def symbolSpan (symbol : Symbol) (lines? : Option (List (List Char))) : Span :=
  let range := symbol.range
  let shown := range.nameColumn + symbol.name.length
  let column := ((lines?.bind (·[range.endLine]?)).map List.length).getD shown
  ⟨⟨range.startLine, 0⟩, ⟨range.endLine, column⟩⟩

def symbolNumber : SymbolKind → Nat
  | .procedure | .function => 12
  | .variable | .parameter => 13

structure OutlineItem where
  name : String
  kind : SymbolKind
  location : Location
  container? : Option String
deriving DecidableEq, Repr

namespace OutlineItem

def ofSymbol? (lines? : Option (List (List Char))) (symbol : Symbol) : Option OutlineItem :=
  (Uri.ofPath? symbol.file).map fun uri =>
    ⟨symbol.name, symbol.kind, ⟨uri, symbolSpan symbol lines?⟩, symbol.region⟩

def toJson (item : OutlineItem) : Json :=
  .ofPresent [("name", some (.str item.name)),
    ("kind", some (.ofNat (symbolNumber item.kind))),
    ("location", some item.location.toJson),
    ("containerName", item.container?.map .str)]

end OutlineItem

end BslInsight.Server
