import BslInsight.Proofs.ListComments

/-!
# The end of a parameter list

A parameter list ends at the parenthesis that matches the one it begins with.  Which one this is
depends on counts only: of the quotes before a place and of the parentheses outside.  A scan can
be taken up in the next line with nothing but its depth and its quote.
-/

namespace BslInsight

open List

variable {c mark : Char} {rest text : List Char} {depth inner place : Nat} {inQuote quoted : Bool}

/-! ## Places of a text -/

/-- Quotes before a place are counted one by one, doubled ones too. -/
def quotedAt (inQuote : Bool) (text : List Char) (place : Nat) : Bool :=
  inQuote ^^ (text.take place).count '"' % 2 == 1

def CommentAt (inQuote : Bool) (text : List Char) (place : Nat) : Prop :=
  quotedAt inQuote text place = false ∧ ['/', '/'] <+: text.drop place

def IsOutside (inQuote : Bool) (text : List Char) (place : Nat) : Prop :=
  quotedAt inQuote text place = false ∧ ∀ earlier < place, ¬CommentAt inQuote text earlier

instance (inQuote : Bool) (text : List Char) : DecidablePred (CommentAt inQuote text) :=
  fun _ => inferInstanceAs (Decidable (_ ∧ _))

instance (inQuote : Bool) (text : List Char) : DecidablePred (IsOutside inQuote text) :=
  fun _ => inferInstanceAs (Decidable (_ ∧ _))

def outsideCount (mark : Char) (inQuote : Bool) (text : List Char) (place : Nat) : Nat :=
  (range place).countP fun earlier => IsOutside inQuote text earlier ∧ text[earlier]? = some mark

/-- How many parentheses are open at a place, `depth` of them from before the text. -/
def levelAt (depth : Nat) (inQuote : Bool) (text : List Char) (place : Nat) : Int :=
  depth + outsideCount '(' inQuote text place - outsideCount ')' inQuote text place

structure ClosesList (depth : Nat) (inQuote : Bool) (text : List Char) (place : Nat) : Prop where
  outside : IsOutside inQuote text place
  paren : text[place]? = some ')'
  level : levelAt depth inQuote text (place + 1) = 0

/-- The first parenthesis that closes the list, or else the level and the quote at the end of the
text.  A comment ends outside of quotes. -/
def ListEnd.Matches (depth : Nat) (inQuote : Bool) (text : List Char) : ListEnd → Prop
  | .closed length =>
    ∃ place, length = place + 1 ∧ ClosesList depth inQuote text place ∧
      ∀ earlier < place, ¬ClosesList depth inQuote text earlier
  | .«open» inner quoted =>
    (∀ place, ¬ClosesList depth inQuote text place) ∧
      1 ≤ inner ∧ (inner : Int) = levelAt depth inQuote text text.length ∧
      (quoted = true ↔
        (∀ place, ¬CommentAt inQuote text place) ∧ quotedAt inQuote text text.length = true)

/-! ## One character on -/

lemma quotedAt_zero (inQuote : Bool) (text : List Char) : quotedAt inQuote text 0 = inQuote := by
  simp [quotedAt]

lemma quotedAt_succ (inQuote : Bool) (c : Char) (rest : List Char) (place : Nat) :
    quotedAt inQuote (c :: rest) (place + 1) = quotedAt (quoteAfter inQuote c) rest place := by
  unfold quotedAt quoteAfter
  rw [take_succ_cons, count_cons]
  by_cases hquote : c = '"'
  · rcases Nat.mod_two_eq_zero_or_one ((rest.take place).count '"') with heven | hodd
    · simp [hquote, Nat.add_mod, heven]
    · simp [hquote, Nat.add_mod, hodd]
  · simp [hquote]

lemma commentAt_succ :
    CommentAt inQuote (c :: rest) (place + 1) ↔ CommentAt (quoteAfter inQuote c) rest place := by
  rw [CommentAt, quotedAt_succ, drop_succ_cons, CommentAt]

lemma isOutside_zero : IsOutside inQuote text 0 ↔ inQuote = false := by
  simp [IsOutside, quotedAt_zero]

lemma isOutside_succ : IsOutside inQuote (c :: rest) (place + 1) ↔
      ¬CommentAt inQuote (c :: rest) 0 ∧ IsOutside (quoteAfter inQuote c) rest place := by
  rw [IsOutside, IsOutside, quotedAt_succ, Nat.forall_lt_succ_left]
  simp only [commentAt_succ]
  exact and_left_comm

lemma outsideCount_succ : outsideCount mark inQuote (c :: rest) (place + 1) =
      (if CommentAt inQuote (c :: rest) 0 then 0
        else outsideCount mark (quoteAfter inQuote c) rest place) +
      if inQuote = false ∧ c = mark then 1 else 0 := by
  unfold outsideCount
  rw [range_succ_eq_map, countP_cons, countP_map]
  congr 1
  · split
    next hcom =>
      rw [countP_eq_zero]
      simp [isOutside_succ, hcom]
    next hcom => simp [Function.comp_def, isOutside_succ, hcom]
  · simp [isOutside_zero]

lemma levelAt_succ (hdepth : 1 ≤ depth) (hcom : ¬CommentAt inQuote (c :: rest) 0) :
    levelAt depth inQuote (c :: rest) (place + 1) =
      levelAt (parensAfter depth inQuote c) (quoteAfter inQuote c) rest place := by
  unfold levelAt
  rw [outsideCount_succ, outsideCount_succ, if_neg hcom, if_neg hcom]
  cases inQuote with
  | true => simp [parensAfter]
  | false =>
    by_cases hleft : c = '('
    · simp [parensAfter, hleft]
      omega
    · by_cases hright : c = ')'
      · simp [parensAfter, hright]
        omega
      · simp [parensAfter, hleft, hright]

lemma closesList_succ (hdepth : 1 ≤ depth) (hcom : ¬CommentAt inQuote (c :: rest) 0) :
    ClosesList depth inQuote (c :: rest) (place + 1) ↔
      ClosesList (parensAfter depth inQuote c) (quoteAfter inQuote c) rest place := by
  constructor
  · rintro ⟨hout, hparen, hzero⟩
    exact ⟨(isOutside_succ.mp hout).2, hparen, by rwa [levelAt_succ hdepth hcom] at hzero⟩
  · rintro ⟨hout, hparen, hzero⟩
    exact ⟨isOutside_succ.mpr ⟨hcom, hout⟩, hparen, by rwa [levelAt_succ hdepth hcom]⟩

/-! ## The whole scan -/

lemma ListEnd.Matches.cons {scanned : ListEnd} (hdepth : 1 ≤ depth)
    (hclose : ¬ClosesList depth inQuote (c :: rest) 0) (hcom : ¬CommentAt inQuote (c :: rest) 0)
    (hmatches : scanned.Matches (parensAfter depth inQuote c) (quoteAfter inQuote c) rest) :
    (scanned.shift 1).Matches depth inQuote (c :: rest) := by
  cases scanned with
  | closed length =>
    obtain ⟨place, rfl, hplace, hfirst⟩ := hmatches
    refine ⟨place + 1, rfl, (closesList_succ hdepth hcom).mpr hplace, ?_⟩
    simp only [Nat.forall_lt_succ_left, closesList_succ hdepth hcom]
    exact ⟨hclose, hfirst⟩
  | «open» inner quoted =>
    obtain ⟨hnone, hpos, hinner, hquoted⟩ := hmatches
    refine ⟨?_, hpos, ?_, ?_⟩
    · rintro (_ | place)
      · exact hclose
      · exact (closesList_succ hdepth hcom).not.mpr (hnone place)
    · rw [length_cons, levelAt_succ hdepth hcom, hinner]
    · have hcoms : (∀ place, ¬CommentAt inQuote (c :: rest) place) ↔
          ∀ place, ¬CommentAt (quoteAfter inQuote c) rest place := by
        rw [← Nat.and_forall_add_one]
        simp only [commentAt_succ, hcom, not_false_eq_true, true_and]
      rw [hquoted, hcoms, length_cons, quotedAt_succ]

lemma ListEnd.Matches.unique {first second : ListEnd} (hfirst : first.Matches depth inQuote text)
    (hsnd : second.Matches depth inQuote text) : first = second := by
  cases first with
  | closed length =>
    obtain ⟨place, rfl, hplace, hearl⟩ := hfirst
    cases second with
    | closed length =>
      obtain ⟨other, rfl, hoth, hearls⟩ := hsnd
      rcases Nat.lt_trichotomy place other with hlt | rfl | hgt
      · exact absurd hplace (hearls place hlt)
      · rfl
      · exact absurd hoth (hearl other hgt)
    | «open» inner quoted => exact absurd hplace (hsnd.1 place)
  | «open» inner quoted =>
    cases second with
    | closed length =>
      obtain ⟨place, -, hplace, -⟩ := hsnd
      exact absurd hplace (hfirst.1 place)
    | «open» others quotes =>
      obtain ⟨-, -, hinner, hquoted⟩ := hfirst
      obtain ⟨-, -, hoths, hquotes⟩ := hsnd
      rw [Int.ofNat_inj.mp (hinner.trans hoths.symm),
        Bool.eq_iff_iff.mpr (hquoted.trans hquotes.symm)]

end BslInsight
