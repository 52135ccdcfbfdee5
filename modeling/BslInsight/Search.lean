import BslInsight.ModuleTable.Json
import BslInsight.Text.Occurrence
import BslInsight.Workspace.Snapshot

/-!
# Searching symbols

A name matches a query whose characters occur in it in the same order.  Names that begin with the
query come first, then names that contain it, then all others.
-/

namespace BslInsight

/-- How well a name matches a query.  The order is from better to worse. -/
inductive MatchRank where
  | leading | inside | scattered
deriving DecidableEq, Repr

namespace MatchRank

def rank : MatchRank → Nat
  | .leading => 0
  | .inside => 1
  | .scattered => 2

def tag : MatchRank → String
  | .leading => "Prefix"
  | .inside => "Substring"
  | .scattered => "Subsequence"

end MatchRank

def matchRank? (name query : String) : Option MatchRank :=
  let name := lower name
  if beginsWith query name then some .leading
  else if occursIn query name then some .inside
  else if scatteredIn query name then some .scattered
  else none

structure SymbolMatch where
  symbol : Symbol
  rank : MatchRank
deriving DecidableEq, Repr

namespace SymbolMatch

def compare (a b : SymbolMatch) : Ordering :=
  (Ord.compare a.rank.rank b.rank.rank).then <|
  (Ord.compare a.symbol.lowerName b.symbol.lowerName).then <|
  (a.symbol.file.compare b.symbol.file).then <|
  Ord.compare a.symbol.range.startLine b.symbol.range.startLine

def toJson (found : SymbolMatch) : Json :=
  .obj [("symbol", found.symbol.toJson), ("rank", .str found.rank.tag)]

end SymbolMatch

def searchEntries (entries : List IndexedSymbol) (query : String) : List SymbolMatch :=
  let query := lower (String.ofList (trim query.toList))
  let found := entries.filterMap fun entry =>
    (matchRank? entry.symbol.name query).map fun rank => ⟨entry.symbol, rank⟩
  found.mergeSort fun a b => (a.compare b).isLE

def searchSymbols (snapshot : Snapshot) (query : String) : List SymbolMatch :=
  searchEntries snapshot.reverseIndex.entries query

end BslInsight
