import BslInsight.Text.LowerCase

/-!
# Simple case folding

Declaration headers are recognised up to simple case folding, which identifies more characters than
lower-casing does, such as the long s and the Kelvin sign.
-/

namespace BslInsight

def foldedVariants : List (Char × Char) := [
  ('ſ', 's'), ('ᲀ', 'в'), ('ᲁ', 'д'), ('ᲂ', 'о'), ('ᲃ', 'с'), ('ᲄ', 'т'),
  ('ᲅ', 'т'), ('ᲆ', 'ъ'), ('ᲇ', 'ѣ'), ('ᲈ', 'ꙋ')]

/-- The simple case folding of a character, on the scripts in which keywords are written. -/
def foldChar (c : Char) : Char :=
  match foldedVariants.find? (·.1 == c) with
  | some (_, folded) => folded
  | none =>
    match lowerChar c with
    | [folded] => folded
    | _ => c

def afterFolded? : List Char → List Char → Option (List Char)
  | [], rest => some rest
  | _ :: _, [] => none
  | w :: word, c :: rest => if foldChar c == foldChar w then afterFolded? word rest else none

end BslInsight
