import BslInsight.Json.Printer
import BslInsight.Text.LowerCase

/-!
# Reports

How the results of commands are written: lines, headers, tables and JSON.
-/

namespace BslInsight

inductive OutputFormat where
  | text | json | table
deriving DecidableEq, Repr

def OutputFormat.ofName? (name : String) : Option OutputFormat :=
  match lower name with
  | "text" | "txt" => some .text
  | "json" => some .json
  | "table" => some .table
  | _ => none

namespace Report

def line (text : String) : String :=
  text ++ "\n"

def header (format : OutputFormat) (text : String) : String :=
  match format with
  | .text => line "" ++ line text ++ line ("".pushn '=' text.length)
  | _ => line text

def object (pretty : Bool) (json : Json) : String :=
  line (if pretty then json.pretty else json.compact)

def pad (width : Nat) (text : String) : String :=
  text.pushn ' ' (width - text.length)

def widen (widths : List Nat) (row : List String) : List Nat :=
  match widths, row with
  | width :: widths, cell :: row => max width cell.length :: widen widths row
  | widths, _ => widths

def padRow : List Nat → List String → List String
  | width :: widths, cell :: row => pad width cell :: padRow widths row
  | _, row => row

def table (headers : List String) (rows : List (List String)) : String :=
  let widths := rows.foldl widen (headers.map String.length)
  let row := fun cells => line (String.intercalate " │ " (padRow widths cells))
  let rule := line (String.intercalate "─┼─" (widths.map ("".pushn '─')))
  row headers ++ rule ++ String.join (rows.map row)

def threeDigits (n : Nat) : String :=
  let digits := toString n
  "".pushn '0' (3 - digits.length) ++ digits

def duration (milliseconds : Nat) : String :=
  let seconds := milliseconds / 1000
  if seconds = 0 then s!"{milliseconds}ms"
  else if seconds < 60 then s!"{seconds}.{threeDigits (milliseconds % 1000)}s"
  else s!"{seconds / 60}m {seconds % 60}s"

end Report

end BslInsight
