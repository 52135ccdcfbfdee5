import BslInsight.Proofs.HeaderLines

/-!
# Lines of which some have been reworded

A module is reworded line by line.  Lines that are passed over stay as they are.
In a header the words before the name may be exchanged, and what follows the
parameter list, if that ends on the same line.  Reworded lines are read in the
same way as the lines that they come from.
-/

namespace BslInsight

open List

variable {list : ParamList} {rest others : List (List Char)} {first : List Char}

section

variable (allows : Option String → TokenKind → Prop)

/-- A header line of which the words before the name and the tokens after the
parameters have been reworded. -/
inductive RewordedHeader (header : Header) (list : ParamList) : List Char → List Char → Prop
  | mk {front other signature tail others : List Char} (hname : front.length = header.nameColumn)
      (htail : tail = if list.extraLines = 0 then list.tail else [])
      (hfront : Reworded allows none front other)
      (hafter : Reworded allows none tail others) :
      RewordedHeader header list (front ++ (signature ++ tail)) (other ++ (signature ++ others))

/-- The lines of a module from a line on, before which a string may be open, and the
lines that come of them. -/
inductive RewordedLines : Bool → List (List Char) → List (List Char) → Prop
  | nil (inString : Bool) : RewordedLines inString [] []
  | passed {line : List Char} {rest others : List (List Char)}
      (hpass : passesOver line = true) (hrest : RewordedLines false rest others) :
      RewordedLines false (line :: rest) (line :: others)
  | statements {line other : List Char} {rest others : List (List Char)}
      (hpass : passesOver line = false) (hhdr : Header.ofLine? line = none)
      (hline : Reworded allows none line other)
      (hrest : RewordedLines (lexLine false line).2 rest others) :
      RewordedLines false (line :: rest) (other :: others)
  | continued {line other : List Char} {rest others : List (List Char)}
      (hline : RewordedContinuation allows line other)
      (hrest : RewordedLines (lexLine true line).2 rest others) :
      RewordedLines true (line :: rest) (other :: others)
  | header {line other : List Char} {rest others : List (List Char)} {header : Header}
      {list : ParamList} (hhdr : Header.ofLine? line = some header)
      (hlist : ParamList.read (line.drop header.paramsStart) rest = list)
      (hline : RewordedHeader allows header list line other)
      (hrest : RewordedLines (lexLine false list.tail).2 (rest.drop list.extraLines) others) :
      RewordedLines false (line :: rest) (other :: (rest.take list.extraLines ++ others))

end

lemma Reworded.refl
    (allows : Option String → TokenKind → Prop) (previous : Option String) (text : List Char) :
    Reworded allows previous text text := by
  induction text using lexeme_induction generalizing previous with
  | nil => exact .nil previous
  | cons c body rest kind hlex ih =>
    cases kind with
    | none => exact .dropped hlex (ih previous)
    | some kind => exact .kept hlex (ih _)

/-! ## Header lines -/

section

variable {allows : Option String → TokenKind → Prop}

inductive RewordedParams (allows : Option String → TokenKind → Prop) : List Char → List Char → Prop
  | closed {params tail other : List Char}
      (hshut : ∀ after, scanParamList 1 false (params ++ after) = .closed params.length)
      (htail : Reworded allows none tail other) :
      RewordedParams allows (params ++ tail) (params ++ other)
  | unfinished {text : List Char} {depth : Nat} {inQuote : Bool}
      (hopen : scanParamList 1 false text = .«open» depth inQuote) :
      RewordedParams allows text text

lemma HeaderParts.exists_reworded
    {front word name gap other : List Char} (hparts : HeaderParts front word name gap)
    (hfront : Reworded allows none front other) :
    ∃ found, HeaderParts other found name gap ∧
      Keyword.ofWord? (String.ofList word) = Keyword.ofWord? (String.ofList found) := by
  obtain ⟨found, after, hfound, hword, hafter⟩ := hparts.isFront.exists_aligned hfront.aligned
  obtain rfl := hafter.eq_nil_iff.mp rfl
  obtain ⟨text, htext, -, hlets⟩ := hfound.exists_front
  rw [append_nil] at htext
  subst htext
  have hparen : '(' ∉ other := fun hmem => absurd (hlets _ hmem) (by decide)
  have hrest : '(' ∉ name ++ gap := fun hmem => hparts.noParen (mem_append_right _ hmem)
  refine ⟨found, ⟨hfound, hparts.nameStart, hparts.namePart, hparts.blank, ?_⟩, hword⟩
  exact fun hmem => (mem_append.mp hmem).elim hparen hrest

lemma RewordedHeader.exists_alike {header : Header} {line other : List Char}
    (hline : RewordedHeader allows header list line other)
    (hhdr : Header.ofLine? line = some header)
    (hlist : ParamList.read (line.drop header.paramsStart) rest = list) :
    ∃ found, HeadersAlike (RewordedParams allows) header found line other := by
  obtain ⟨front, word, name, gap, after, hparts, hsplit, rfl⟩ := Header.exists_parts hhdr
  rw [hsplit, drop_paramsStart] at hlist
  cases hline with
  | @mk start starts signature tail others hname htail hfront hafter =>
    obtain ⟨rfl, hsignature⟩ := append_inj hsplit hname
    obtain ⟨found, hfound, hword⟩ := hparts.exists_reworded hfront
    refine ⟨Header.ofParts starts found name gap, ?_⟩
    rw [hsplit]
    cases hscan : scanParamList 1 false after with
    | closed length =>
      have hcls := closesAt_of_scanParamList hscan
      have htails : tail = after.drop length := by
        rw [htail, ← hlist, ParamList.read_of_closed hscan]
        rfl
      have hpars : signature = name ++ (gap ++ '(' :: after.take length) := by
        apply append_cancel_right
        rw [hsignature, htails]
        simp
      have hshut (more : List Char) : scanParamList 1 false (after.take length ++ more) =
            .closed (after.take length).length := by
        rw [length_take_of_le hcls.le]
        exact hcls.closed more
      rw [htails] at hafter
      have hrew := RewordedParams.closed hshut hafter
      rw [take_append_drop] at hrew
      have hoth : starts ++ (signature ++ others) =
          starts ++ (name ++ (gap ++ '(' :: (after.take length ++ others))) := by
        rw [hpars]
        simp
      rw [hoth]
      exact .mk hparts hfound hword hrew
    | «open» depth inQuote =>
      have htails : tail = [] := by
        rw [htail, ← hlist, ParamList.read_of_open hscan]
        split
        next hextra => exact ParamList.tail_of_extraLines_eq_zero hextra
        next => rfl
      rw [htails] at hafter hsignature
      obtain rfl : others = [] := hafter.aligned.eq_nil_iff.mp rfl
      rw [hsignature]
      exact .mk hparts hfound hword (.unfinished hscan)

namespace HeadersAlike

variable {header found : Header} {line other : List Char}
  (halike : HeadersAlike (RewordedParams allows) header found line other)
include halike

lemma exists_tail (hlist : ParamList.read (line.drop header.paramsStart) rest = list)
    (hnext : list.closed = false → others.head?.all isMethodBoundary) :
    ∃ tail, Reworded allows none list.tail tail ∧
      ParamList.read (other.drop found.paramsStart) (rest.take list.extraLines ++ others) =
        { list with tail } := by
  subst hlist
  cases halike with
  | mk _ _ _ hpars =>
    rw [drop_paramsStart] at hnext ⊢
    rw [drop_paramsStart]
    cases hpars with
    | @closed params tail after hshut htail =>
      refine ⟨after, ?_, ?_⟩
      · rw [ParamList.read_of_closed (hshut tail), drop_left]
        exact htail
      · rw [ParamList.read_of_closed (hshut after), ParamList.read_of_closed (hshut tail)]
        simp [take_append_of_le_length]
    | @unfinished text depth inQuote hopen =>
      rw [ParamList.read_of_open hopen] at hnext ⊢
      refine ⟨_, Reworded.refl allows none _, ?_⟩
      rw [ParamList.read_of_open hopen]
      simp only [ParamList.continued_exchange hnext]

lemma paramLine_eq (hlist : ParamList.read (line.drop header.paramsStart) rest = list)
    (number : Nat) (word : String) :
    paramLine number line list rest word = paramLine number other list rest word := by
  unfold paramLine
  cases halike with
  | mk hparts hoths _ hpars =>
    cases hpars with
    | @closed params tail _ hshut =>
      have hextra : list.extraLines = 0 := by
        rw [← hlist, drop_paramsStart, ParamList.read_of_closed (hshut tail)]
      rw [hextra, take_zero]
      exact (fst_findWordInLines?_singleton _ _ _ _).trans
        (fst_findWordInLines?_singleton _ _ _ _).symm
    | unfinished => rw [fst_findWordInLines? (hparts.isSome_findWord?_eq hoths word _)]

end HeadersAlike

/-! ## Lines that are read in the same way -/

/-- Lines that are read in the same way, line by line, if tokens of corresponding lines
are. -/
inductive LinesAlike (alike : List Token → List Token → Prop) :
    Bool → List (List Char) → List (List Char) → Prop
  | nil (inString : Bool) : LinesAlike alike inString [] []
  | passed {line : List Char} {rest others : List (List Char)}
      (hpass : passesOver line = true) (hrest : LinesAlike alike false rest others) :
      LinesAlike alike false (line :: rest) (line :: others)
  | statements {line other : List Char} {rest others : List (List Char)}
      (hpass : passesOver line = false) (hpasses : passesOver other = false)
      (hhdr : Header.ofLine? line = none) (hhdrs : Header.ofLine? other = none)
      (hbdry : isMethodBoundary line = isMethodBoundary other)
      (hlexed : LexedAlike alike (lexLine false line) (lexLine false other))
      (hrest : LinesAlike alike (lexLine false line).2 rest others) :
      LinesAlike alike false (line :: rest) (other :: others)
  | continued {line other : List Char} {rest others : List (List Char)}
      (hlexed : LexedAlike alike (lexLine true line) (lexLine true other))
      (hrest : LinesAlike alike (lexLine true line).2 rest others) :
      LinesAlike alike true (line :: rest) (other :: others)
  | header {line other : List Char} {rest others : List (List Char)} {header found : Header}
      {list : ParamList} {allows : Option String → TokenKind → Prop}
      (hhdr : Header.ofLine? line = some header)
      (hlist : ParamList.read (line.drop header.paramsStart) rest = list)
      (halike : HeadersAlike (RewordedParams allows) header found line other)
      (hlexed : ∀ tail, Reworded allows none list.tail tail →
        LexedAlike alike (lexLine false list.tail) (lexLine false tail))
      (hrest : LinesAlike alike (lexLine false list.tail).2 (rest.drop list.extraLines) others) :
      LinesAlike alike false (line :: rest) (other :: (rest.take list.extraLines ++ others))

lemma ParamList.next_of_not_closed (hshut : (ParamList.read first rest).closed = false) :
    (ParamList.read first rest).tail = [] ∧
      (rest.drop (ParamList.read first rest).extraLines).head?.all isMethodBoundary := by
  cases hscan : scanParamList 1 false first with
  | closed length =>
    rw [read_of_closed hscan] at hshut
    cases hshut
  | «open» depth inQuote =>
    rw [read_of_open hscan] at hshut ⊢
    exact ⟨tail_of_not_closed hshut, isMethodBoundary_of_not_closed hshut⟩

namespace LinesAlike

variable {alike : List Token → List Token → Prop} {lines : List (List Char)} {inString : Bool}

lemma eq_nil (hlines : LinesAlike alike inString [] others) : others = [] := by
  cases hlines
  rfl

lemma exists_cons (hlines : LinesAlike alike inString (first :: rest) others) :
    ∃ second following, others = second :: following := by
  cases hlines <;> exact ⟨_, _, rfl⟩

lemma length_eq (hlines : LinesAlike alike inString lines others) :
    lines.length = others.length := by
  induction hlines with
  | nil => rfl
  | passed _ _ ih | statements _ _ _ _ _ _ _ ih | continued _ _ ih =>
    rw [length_cons, length_cons, ih]
  | @header _ _ rest _ _ _ list _ _ hlist _ _ _ ih =>
    have hle : list.extraLines ≤ rest.length := by
      rw [← hlist]
      exact ParamList.extraLines_read_le _ _
    rw [length_cons, length_cons, length_append, ← ih, length_take, length_drop]
    omega

lemma head_boundary (hlines : LinesAlike alike false lines others)
    (hhead : lines.head?.all isMethodBoundary) :
    others.head?.all isMethodBoundary := by
  cases hlines with
  | nil => rfl
  | passed => exact hhead
  | @statements line other rest tail _ _ _ _ hbdry =>
    change isMethodBoundary other
    rw [← hbdry]
    exact hhead
  | @header line other rest tail header found list allows hhdr hlist halike =>
    change isMethodBoundary other
    rw [isMethodBoundary, halike.ofLine?_eq]
    rfl

lemma next_boundary (hlist : ParamList.read first rest = list)
    (hrest : LinesAlike alike (lexLine false list.tail).2 (rest.drop list.extraLines) others)
    (hshut : list.closed = false) : others.head?.all isMethodBoundary := by
  subst hlist
  obtain ⟨htail, hnext⟩ := ParamList.next_of_not_closed hshut
  have hstr : (lexLine false (ParamList.read first rest).tail).2 = false := by
    rw [htail]
    exact lexLine_of_no_quote nofun
  rw [hstr] at hrest
  exact hrest.head_boundary hnext

end LinesAlike

end

end BslInsight
