import BslInsight.Toml.Document
import BslInsight.Toml.Scalar

/-!
# Reading TOML

Nested values are read with a bound on the number of steps, for which the length of the text is
always enough, and with a bound on the nesting.
-/

namespace BslInsight.Toml

def skipGaps (inComment : Bool) : List Char → List Char
  | [] => []
  | c :: rest =>
    if c == '\n' || (c == '\r' && rest.head? == some '\n') then skipGaps (inComment && c == '\r') rest
    else if inComment then
      if isPlain c then skipGaps true rest else c :: rest
    else if isSpace c then skipGaps false rest
    else if c == '#' then skipGaps true rest
    else c :: rest

def lineEnd? (cs : List Char) : Option (List Char) :=
  let rest := match skipSpaces cs with
    | '#' :: comment => comment.dropWhile isPlain
    | rest => rest
  match rest with
  | [] => some []
  | rest => afterLineBreak? rest

def isKeyChar (c : Char) : Bool :=
  c.isAlphanum || c == '-' || c == '_'

def simpleKey? : List Char → Option Piece
  | '"' :: rest => basicString? rest
  | '\'' :: rest => literalString? rest
  | cs =>
    match cs.takeWhile isKeyChar with
    | [] => none
    | key => some (key, cs.drop key.length)

def dottedKey? : Nat → List Char → Option (List String × List Char)
  | 0, _ => none
  | fuel + 1, cs => do
    let (key, rest) ← simpleKey? (skipSpaces cs)
    match skipSpaces rest with
    | '.' :: more => do
      let (keys, rest) ← dottedKey? fuel more
      return (String.ofList key :: keys, rest)
    | rest => return ([String.ofList key], rest)

def nestingLimit : Nat :=
  80

def key? (cs : List Char) : Option (List String × List Char) := do
  let (key, rest) ← dottedKey? (cs.length + 1) cs
  if key.length < nestingLimit then some (key, rest) else none

def keyBeforeValue? (cs : List Char) : Option (List String × List Char) := do
  let (key, rest) ← key? cs
  match rest with
  | '=' :: rest => return (key, skipSpaces rest)
  | _ => none

def stringValue (piece : Piece) : Json × List Char :=
  (.str (String.ofList piece.1), piece.2)

mutual

def value? (depth : Nat) : Nat → List Char → Option (Json × List Char)
  | 0, _ => none
  | fuel + 1, cs =>
    match cs with
    | '"' :: '"' :: '"' :: rest => (multilineBasic? false (skipLineBreak rest)).map stringValue
    | '"' :: rest => (basicString? rest).map stringValue
    | '\'' :: '\'' :: '\'' :: rest => (multilineLiteral? (skipLineBreak rest)).map stringValue
    | '\'' :: rest => (literalString? rest).map stringValue
    | '[' :: rest =>
      if nestingLimit ≤ depth + 1 then none
      else do
        let (items, rest) ← items? (depth + 1) fuel (skipGaps false rest)
        return (.arr items, rest)
    | '\x7b' :: rest =>
      if nestingLimit ≤ depth + 1 then none
      else match skipSpaces rest with
        | '\x7d' :: rest => some (.obj [], rest)
        | rest => do
          let (fields, rest) ← fields? (depth + 1) fuel [] rest
          return (.obj (fieldsToJson fields), rest)
    | _ => do
      let (text, rest) := scalarPiece cs
      return (← scalar? text, rest)

def items? (depth : Nat) : Nat → List Char → Option (List Json × List Char)
  | 0, _ => none
  | fuel + 1, cs =>
    match cs with
    | ']' :: rest => some ([], rest)
    | cs => do
      let (item, rest) ← value? depth fuel cs
      match skipGaps false rest with
      | ',' :: rest => do
        let (items, rest) ← items? depth fuel (skipGaps false rest)
        return (item :: items, rest)
      | ']' :: rest => return ([item], rest)
      | _ => none

def fields? (depth : Nat) : Nat → Fields → List Char → Option (Fields × List Char)
  | 0, _, _ => none
  | fuel + 1, fields, cs => do
    let (key, rest) ← keyBeforeValue? cs
    let (json, rest) ← value? depth fuel rest
    let (_, fields) ← insertValue key json .header fields
    match skipSpaces rest with
    | ',' :: rest => fields? depth fuel fields rest
    | '\x7d' :: rest => return (fields, rest)
    | _ => none

end

def headerPath? (closing : List Char) (cs : List Char) : Option (List String × List Char) := do
  let (path, rest) ← key? cs
  if closing.isPrefixOf rest then some (path, rest.drop closing.length) else none

def line? (document : Document) (cs : List Char) : Option (Document × List Char) :=
  match skipSpaces cs with
  | '[' :: '[' :: rest => do
    let (path, rest) ← headerPath? [']', ']'] rest
    return (← document.addHeader true path, ← lineEnd? rest)
  | '[' :: rest => do
    let (path, rest) ← headerPath? [']'] rest
    return (← document.addHeader false path, ← lineEnd? rest)
  | rest =>
    match lineEnd? rest with
    | some rest => some (document, rest)
    | none => do
      let (key, rest) ← keyBeforeValue? rest
      let (json, rest) ← value? 0 (2 * rest.length + 2) rest
      return (← document.addKeyValue key json, ← lineEnd? rest)

def lines? : Nat → Document → List Char → Option Document
  | _, document, [] => some document
  | 0, _, _ => none
  | fuel + 1, document, cs => do
    let (document, rest) ← line? document cs
    lines? fuel document rest

def parse? (text : String) : Option Fields := do
  let cs := dropByteOrderMark text.toList
  let document ← lines? (cs.length + 1) {} cs
  return document.fields

end BslInsight.Toml
