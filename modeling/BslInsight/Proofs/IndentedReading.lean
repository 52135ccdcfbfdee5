import BslInsight.Proofs.IndentedParams
import BslInsight.Proofs.RewordedReading

/-!
# Reading indented lines

A comment keeps the indents of its lines, and a default value those of the lines it
goes over.  Nothing else in a state holds indents, and the scanner looks at neither.
So it goes on in the same way from a state without them, and lines that differ in
their indents are read in agreement.
-/

namespace BslInsight

open List

variable {tokens : List Token} {others list : ParamList} {header found : Header} {line : List Char}
  (text : List Char)

/-! ## Indents of comments -/

/-- The line without its indent.  A line of nothing but blanks stays, as it may be the
last one of a comment. -/
def dropMargin (line : List Char) : List Char :=
  if trimStart line = [] then line else trimStart line

def dropMargins (text : List Char) : List Char :=
  joinWith ['\n'] ((splitOn '\n' text).map dropMargin)

lemma trimStart_trimStart (line : List Char) : trimStart (trimStart line) = trimStart line :=
  trimStart_of_head (head_trimStart line)

lemma trimStart_dropMargin (line : List Char) : trimStart (dropMargin line) = trimStart line := by
  unfold dropMargin
  split
  · rfl
  · exact trimStart_trimStart line

lemma break_not_mem_dropMargin (hline : '\n' ∉ line) : '\n' ∉ dropMargin line := by
  unfold dropMargin
  split
  · exact hline
  · exact break_not_mem_trimStart hline

lemma splitOn_dropMargins :
    splitOn '\n' (dropMargins text) = (splitOn '\n' text).map dropMargin := by
  refine splitOn_joinWith ?_ (by simpa using splitOn_ne_nil '\n' text)
  rintro _ hline
  obtain ⟨line, hmem, rfl⟩ := mem_map.mp hline
  exact break_not_mem_dropMargin (break_not_mem_of_mem_splitOn hmem)

lemma dropMargins_append_break (rest : List Char) :
    dropMargins (text ++ '\n' :: rest) = dropMargins text ++ '\n' :: dropMargins rest := by
  have hne (text : List Char) : (splitOn '\n' text).map dropMargin ≠ [] := by
    simpa using splitOn_ne_nil '\n' text
  unfold dropMargins
  rw [splitOn_append_cons, map_append, joinWith_append _ (hne text) (hne rest)]
  simp

lemma dropMargins_joinWith (lines : List (List Char)) :
    dropMargins (joinWith ['\n'] lines) = joinWith ['\n'] (lines.map dropMargins) := by
  induction lines with
  | nil => rfl
  | cons line rest ih =>
    by_cases hrest : rest = []
    · subst hrest
      rfl
    · rw [joinWith_cons _ _ hrest, map_cons, joinWith_cons _ _ (by simpa using hrest), ← ih,
        append_assoc, singleton_append, dropMargins_append_break]
      simp

lemma dropMargins_of_body (hbreak : '\n' ∉ line) (hbody : trimStart line ≠ []) :
    dropMargins line = trimStart line := by
  have hlines := splitOn_joinWith (forall_mem_singleton.mpr hbreak) (by simp)
  rw [joinWith] at hlines
  rw [dropMargins, hlines, map_singleton, joinWith, dropMargin, if_neg hbody]

lemma dropCommentMark_congr {other : List Char} (hbody : trimStart line = trimStart other) :
    dropCommentMark line = dropCommentMark other := by
  unfold dropCommentMark
  rw [hbody]

lemma commentText_dropMargins :
    commentText (String.ofList (dropMargins text)) = commentText (String.ofList text) := by
  obtain ⟨lines, last, hlines⟩ := exists_splitOn_eq_concat '\n' text
  have hoths : splitOn '\n' (dropMargins text) = lines.map dropMargin ++ [dropMargin last] := by
    rw [splitOn_dropMargins, hlines, map_append, map_singleton]
  have hlast : dropMargin last = [] ↔ last = [] := by
    unfold dropMargin
    split
    · rfl
    · next hbody =>
      have hne : last ≠ [] := by
        rintro rfl
        exact hbody rfl
      simp [hbody, hne]
  have hinner : (lines.map dropMargin).map (dropCommentMark ∘ dropReturn) =
      lines.map (dropCommentMark ∘ dropReturn) := by
    rw [map_map]
    refine map_congr_left fun line _ => dropCommentMark_congr ?_
    rw [trimStart_dropReturn, trimStart_dropReturn, trimStart_dropMargin]
  have hfinal : (if dropMargin last = [] then [] else [dropMargin last]).map dropCommentMark =
      (if last = [] then [] else [last]).map dropCommentMark := by
    simp only [hlast]
    split
    · rfl
    · rw [map_singleton, map_singleton, dropCommentMark_congr (trimStart_dropMargin last)]
  simp only [commentText, String.toList_ofList, proseLines_eq hlines, proseLines_eq hoths,
    map_append, map_map, hfinal]
  rw [← hinner, map_map]
  rfl

def View.unindented : View where
  comment := dropMargins
  value value := String.ofList (dropIndents false value.toList)
  comment_joinWith := dropMargins_joinWith

/-! ## Tokens of lines with the same body -/

lemma rewordedTokens_of_unplaced {others : List Token}
    (htoks : tokens.map Token.unplaced = others.map Token.unplaced) (previous : Option String) :
    RewordedTokens (fun _ _ => False) previous tokens others := by
  induction tokens generalizing others previous with
  | nil =>
    rw [map_nil, eq_comm, map_eq_nil_iff] at htoks
    subst htoks
    exact .nil previous
  | cons token rest ih =>
    cases others with
    | nil => cases htoks
    | cons other others =>
      rw [map_cons, map_cons, List.cons.injEq] at htoks
      have hkind : token.kind = other.kind :=
        show token.unplaced.kind = other.unplaced.kind from congrArg _ htoks.1
      have htext : token.text = other.text :=
        show token.unplaced.text = other.unplaced.text from congrArg _ htoks.1
      exact .cons (Token.alike_of_text hkind htext) (.inl htext) (ih htoks.2 _)

lemma membersAlike_of_unplaced {others : List Token}
    (htoks : tokens.map Token.unplaced = others.map Token.unplaced) (line : Nat) :
    MembersAlike Eq line false tokens others := by
  have hrew := rewordedTokens_of_unplaced htoks none
  refine hrew.membersAlike (fun previous hallowed => hallowed.elim) (fun _ => rfl) ?_
  rintro assignment changed ⟨⟨token, hallowed⟩, -⟩
  exact hallowed.elim

lemma unplacedLine_congr {other : List Char} (hline : '\n' ∉ line) (hoth : '\n' ∉ other)
    (hbody : trimStart line = trimStart other) (inString : Bool) :
    unplacedLine inString line = unplacedLine inString other := by
  rw [unplacedLine_trimStart hline, unplacedLine_trimStart hoth, hbody]

/-! ## Lines with the same bodies -/

namespace ScanState

abbrev Similar (state other : ScanState) : Prop := state.Agrees Eq .unindented other

variable {state other : ScanState} (hsim : state.Similar other) {number : Nat}
  {line second : List Char} {rest following : List (List Char)}

include hsim in
lemma Similar.statementLine
    (hline : '\n' ∉ line) (hsnd : '\n' ∉ second) (hbody : trimStart line = trimStart second)
    (number : Nat) :
    (state.statementLine number line).Similar (other.statementLine number second) := by
  have hlexed := unplacedLine_congr hline hsnd hbody state.inString
  obtain ⟨htoks, hstrs⟩ := Prod.mk.inj hlexed
  exact Agrees.statementLine hsim (membersAlike_of_unplaced htoks number) hstrs

include hsim in
lemma Similar.passLine
    (hline : '\n' ∉ line) (hsnd : '\n' ∉ second) (hbody : trimStart line = trimStart second)
    (number : Nat) : (state.passLine number line).Similar (other.passLine number second) := by
  have htrim : trim line = trim second := by rw [trim, hbody, trim]
  refine Agrees.passLine hsim number htrim fun htext => ?_
  have hne : trimStart line ≠ [] := by
    intro hnil
    rw [trim, hnil] at htext
    exact htext rfl
  change dropMargins line = dropMargins second
  rw [dropMargins_of_body hline hne, dropMargins_of_body hsnd (hbody ▸ hne), hbody]

lemma openAlike_of_similar (hhdrs : HeadersAlike Eq header found line second)
    (hlists : list.Similar others) (hbds : SameBodies rest following) :
    OpenAlike .unindented number line second header found list others rest following where
  name := hhdrs.name_eq
  kind := hhdrs.kind_eq
  closed := hlists.closed
  extraLines := hlists.extraLines
  params := hlists.params_eq
  place param hparam := by
    have hlines : SameBodies (rest.take list.extraLines) (following.take list.extraLines) :=
      forall₂_take _ hbds
    have hname := isIdentStart_of_mem_parseParams hparam
    have hfound := fst_findWordInLines?_cons (hhdrs.isSome_findWord?_eq param.name)
      (fst_findWordInLines?_sameBodies hlines hname (number + 1))
    rw [paramLine, paramLine, ← hlists.extraLines, hfound]

include hsim in
lemma Similar.beginMethod (hstr : state.inString = false)
    (hhdrs : HeadersAlike Eq header found line second) (hlists : list.Similar others)
    (hbds : SameBodies rest following) (number : Nat) :
    (state.beginMethod number line header list rest).Similar
      (other.beginMethod number second found others following) := by
  refine Agrees.beginMethod hsim (openAlike_of_similar hhdrs hlists hbds) hstr ?_ ?_
  · rw [hlists.tail]
    exact membersAlike_of_unplaced rfl _
  · rw [hlists.tail]

end ScanState

end BslInsight
