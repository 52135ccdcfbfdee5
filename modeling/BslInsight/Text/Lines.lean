import BslInsight.Text.Blank

/-!
# Lines and positions

A text is cut into lines at line feeds; a carriage return before the cut belongs to the line
break.  Lines and columns count from zero, and columns count characters.
-/

namespace BslInsight

def splitOn {α : Type} [DecidableEq α] (separator : α) : List α → List (List α)
  | [] => [[]]
  | c :: rest =>
    match splitOn separator rest with
    | [] => [[c]]
    | piece :: pieces =>
      if c = separator then [] :: piece :: pieces else (c :: piece) :: pieces

def dropReturn (line : List Char) : List Char :=
  if line.getLast? = some '\r' then line.dropLast else line

def splitLines (text : List Char) : List (List Char) :=
  (splitOn '\n' text).map dropReturn

/-- The lines of a block of prose: a final line break does not begin another line, and a carriage
return at the very end of the text is kept. -/
def proseLines (text : List Char) : List (List Char) :=
  let pieces := splitOn '\n' text
  let finished := pieces.dropLast.map dropReturn
  match pieces.getLast? with
  | none | some [] => finished
  | some last => finished ++ [last]

def joinWith {α : Type} (separator : List α) : List (List α) → List α
  | [] => []
  | [piece] => piece
  | piece :: pieces => piece ++ separator ++ joinWith separator pieces

def firstWord? (text : List Char) : Option (List Char) :=
  match (trimStart text).takeWhile (!isBlank ·) with
  | [] => none
  | word => some word

def utf8Width (c : Char) : Nat :=
  c.utf8Size

def utf8Length (cs : List Char) : Nat :=
  cs.foldr (fun c length => utf8Width c + length) 0

def utf16Length (cs : List Char) : Nat :=
  cs.foldr (fun c length => (if c.toNat < 0x10000 then 1 else 2) + length) 0

structure Position where
  line : Nat
  column : Nat
deriving DecidableEq, Repr

def Position.label (position : Position) : String :=
  s!"{position.line + 1}:{position.column + 1}"

def dropByteOrderMark (text : List Char) : List Char :=
  match text with
  | '\ufeff' :: rest => rest
  | _ => text

end BslInsight
