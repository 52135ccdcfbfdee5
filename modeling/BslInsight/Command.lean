import BslInsight.Command.Arguments
import BslInsight.Command.Help
import BslInsight.Path

/-!
# Commands

What can be asked for on the command line.
-/

namespace BslInsight

inductive Task where
  | serve
  | index (root : Path) (clearCache : Bool)
  | symbols (file : Path)
  | search (root : Path) (query : String) (limit : Nat)
  | indent (file : Path) (spaces? : Option Nat) (write : Bool)
  | catalog (filter : String) (dialect : Dialect) (limit : Nat)
deriving DecidableEq, Repr

structure Command where
  task : Task
  format : OutputFormat := .text
  config? : Option Path := none
deriving DecidableEq, Repr

namespace Command

open Arguments

def formats : List (String × OutputFormat) :=
  [("text", .text), ("json", .json), ("table", .table)]

def dialects : List (String × Dialect) :=
  [("bsl", .bsl), ("oscript", .oneScript)]

def number? (text : String) : Option Nat :=
  let digits := match text.toList with
    | '+' :: rest => rest
    | digits => digits
  if digits.isEmpty || !digits.all Char.isDigit then none
  else
    let value := digits.foldl (fun n c => n * 10 + (c.toNat - '0'.toNat)) 0
    if value < 0x10000000000000000 then some value else none

def isPath (text : String) : Bool :=
  text != ""

def isText (_ : String) : Bool :=
  true

def limitSpec : Spec :=
  { name := "limit", letter? := some 'l', accepts? := some fun text => (number? text).isSome }

def dialectSpec : Spec :=
  { name := "dialect", letter? := some 'd',
    accepts? := some fun name => (dialects.lookup name).isSome }

def commonSpecs : List Spec :=
  [{ name := "verbose", letter? := some 'v' },
    { name := "format", letter? := some 'f',
      accepts? := some fun name => (formats.lookup name).isSome },
    { name := "config", letter? := some 'c', accepts? := some isPath },
    { name := "help", letter? := some 'h' }]

def taskNames : List String :=
  ["lsp", "index", "symbols", "search", "fmt", "catalog"]

def taskOf (name : String) (arguments : List String) : Except Stop (Task × Scan) := do
  let read := fun (specs : List Spec) => Scan.all (commonSpecs ++ specs)
  let limit := fun (scan : Scan) (default : Nat) => ((scan.value? "limit").bind number?).getD default
  match name with
  | "lsp" => return (.serve, ← read [] [] 0 arguments)
  | "index" =>
    let scan ← read [{ name := "clear-cache" }] [isPath] 1 arguments
    return (.index (.ofText (scan.words.headD "")) (scan.has "clear-cache"), scan)
  | "symbols" =>
    let scan ← read [] [isPath] 1 arguments
    return (.symbols (.ofText (scan.words.headD "")), scan)
  | "search" =>
    let scan ← read [limitSpec] [isPath, isText] 2 arguments
    return (.search (.ofText (scan.words.headD "")) (scan.words[1]?.getD "") (limit scan 50), scan)
  | "fmt" =>
    let scan ← read [{ name := "spaces", accepts? := limitSpec.accepts? },
      { name := "write", letter? := some 'w' }] [isPath] 1 arguments
    let style? := (scan.value? "spaces").bind number?
    return (.indent (.ofText (scan.words.headD "")) style? (scan.has "write"), scan)
  | "catalog" =>
    let scan ← read [dialectSpec, limitSpec] [isText] 0 arguments
    let dialect := ((scan.value? "dialect").bind (List.lookup · dialects)).getD .bsl
    return (.catalog (scan.words.headD "") dialect (limit scan 100), scan)
  | _ => .error .usage

/-- The command that arguments give.  An option after the name of the task counts more than the
same option before it, and asking for help more than a flaw right before the name. -/
def ofArguments (arguments : List String) : Except Stop Command := do
  let versionSpec : Spec := { name := "version", letter? := some 'V' }
  let (before, name, rest) ← Scan.upToWord (versionSpec :: commonSpecs) {} arguments
  if name = "help" then
    match rest with
    | [] => .error (.help none)
    | [topic] =>
      .error (if ("help" :: taskNames).contains topic then .help (some topic) else .usage)
    | _ => .error .usage
  else
    let (task, after) ← match taskOf name rest with
      | .error (.help _) => .error (.help (some name))
      | read => read
    if before.isFlawed then .error .usage
    let value? := fun name => after.value? name <|> before.value? name
    return { task, format := ((value? "format").bind (List.lookup · formats)).getD .text,
             config? := (value? "config").map Path.ofText }

end Command

end BslInsight
