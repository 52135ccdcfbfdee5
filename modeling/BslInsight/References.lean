import BslInsight.Resolve

/-!
# References

The places where a name is used.  A parameter or local variable is looked for in its method only,
every other name in all modules.  Strings and comments do not count.
-/

namespace BslInsight

def columnsOf (names : List String) (tokens : List Token) : List Nat :=
  (tokens.filter fun token =>
    token.kind == .identifier && names.any (sameName · token.text)).map (·.column)

def identifiersFrom (file : Path) (names : List String) (range : Option (Nat × Nat))
    (number : Nat) (inString : Bool) : List (List Char) → List FileLocation
  | [] => []
  | line :: rest =>
    let (tokens, inString) := lexLine inString line
    let here := range.all fun (first, last) => first ≤ number && number ≤ last
    (if here then (columnsOf names tokens).map (⟨file, number, ·⟩) else []) ++
      identifiersFrom file names range (number + 1) inString rest

def mentionsName (names : List String) (text : String) : Bool :=
  let lowered := lower text
  names.any fun name => occursIn (lower name) lowered

def scanIdentifiers (file : Path) (text : String) (names : List String)
    (range : Option (Nat × Nat)) : List FileLocation :=
  if mentionsName names text then
    identifiersFrom file names range 0 false (splitLines text.toList)
  else []

def Resolution.names : Resolution → List String
  | .catalog entry => entry.names
  | resolution => [resolution.name]

def sortLocations (locations : List FileLocation) : List FileLocation :=
  locations.mergeSort fun a b => (a.compare b).isLE

def Resolver.referencesAt (resolver : Resolver) (position : Position) : List FileLocation :=
  let table := resolver.table
  match resolver.resolveAt position with
  | none => []
  | some resolution =>
    match resolution with
    | .method _ =>
      let range := (table.scopeAt? position.line).map fun scope => (scope.startLine, scope.endLine)
      sortLocations (scanIdentifiers table.file table.text resolution.names range)
    | _ =>
      let others := resolver.workspace.tables.filter fun (file, _) => !file.same table.file
      let found := others.flatMap fun (file, other) =>
        scanIdentifiers file other.text resolution.names none
      sortLocations (found ++ scanIdentifiers table.file table.text resolution.names none)

end BslInsight
