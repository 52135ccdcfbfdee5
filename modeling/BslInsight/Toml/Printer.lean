import BslInsight.Json.Printer

/-!
# Writing TOML

Strings are written in the plainest form that can hold them.  Arrays of two or more items take a
line for each item.
-/

namespace BslInsight.Toml

/-- Length of the longest run of a character in a text that follows a run of `run`. -/
def longestRun (c : Char) (run : Nat) : List Char → Nat
  | [] => run
  | d :: rest => if d = c then longestRun c (run + 1) rest else max run (longestRun c 0 rest)

def needsCode (c : Char) : Bool :=
  (c.toNat < 0x20 && c != '\t' && c != '\n') || c.toNat == 0x7f

def upperHex (n : Nat) : Char :=
  (Json.hexChar n).toUpper

/-- A character other than the double quote in double quotes.  Over several lines line feeds stay as
they are. -/
def escapeChar (multiline : Bool) (c : Char) : List Char :=
  match c with
  | '\x08' => ['\\', 'b']
  | '\t' => ['\\', 't']
  | '\n' => if multiline then ['\n'] else ['\\', 'n']
  | '\x0c' => ['\\', 'f']
  | '\r' => ['\\', 'r']
  | '\\' => ['\\', '\\']
  | _ =>
    if needsCode c then
      ['\\', 'u', '0', '0', upperHex (c.toNat / 16), upperHex (c.toNat % 16)]
    else [c]

/-- A text in double quotes, of which `run` stand immediately before it.  Over several lines a double
quote is escaped only if two stand before it. -/
def escape (multiline : Bool) (run : Nat) : List Char → List Char
  | [] => []
  | '"' :: rest =>
    if multiline && run < 2 then '"' :: escape multiline (run + 1) rest
    else '\\' :: '"' :: escape multiline 0 rest
  | c :: rest => escapeChar multiline c ++ escape multiline 0 rest

def quote (text : String) : String :=
  let cs := text.toList
  let codes := cs.any needsCode
  let backslash := cs.contains '\\'
  let newline := cs.contains '\n'
  let doubles := longestRun '"' 0 cs
  let singles := longestRun '\'' 0 cs
  let start := if newline then "\n" else ""
  let escaped := fun multiline => String.ofList (escape multiline 0 cs)
  if !codes && !backslash && doubles = 0 && !newline then "\"" ++ escaped false ++ "\""
  else if !codes && singles = 0 && !newline then "'" ++ text ++ "'"
  else if !codes && !backslash && doubles ≤ 2 then
    "\"\"\"" ++ start ++ escaped true ++ "\"\"\""
  else if !codes && singles ≤ 2 then "'''" ++ start ++ text ++ "'''"
  else if newline then "\"\"\"" ++ start ++ escaped true ++ "\"\"\""
  else "\"" ++ escaped false ++ "\""

def stringArray : List String → String
  | [] => "[]"
  | [item] => "[" ++ quote item ++ "]"
  | items => "[\n" ++ String.join (items.map fun item => "    " ++ quote item ++ ",\n") ++ "]"

def assignment (key value : String) : String :=
  key ++ " = " ++ value ++ "\n"

end BslInsight.Toml
