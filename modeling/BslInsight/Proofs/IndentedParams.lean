import BslInsight.Proofs.HeaderLines
import BslInsight.Proofs.LineIndents

/-!
# Indented parameter lists

A parameter list may go over several lines.  The indents of these lines do not
change what it declares, apart from the blanks after line breaks inside of default
values, and they change neither where the list ends nor on which lines its
parameters are found.
-/

namespace BslInsight

open List

variable {c d : Char} {gap text line other : List Char} {lines others : List (List Char)}
  {name : String}

def Parameter.unindented (parameter : Parameter) : Parameter := { parameter with
    default? := parameter.default?.map fun value => String.ofList (dropIndents false value.toList) }

/-! ## One character -/

def quoteAfter (inQuote : Bool) (c : Char) : Bool := if c = '"' then !inQuote else inQuote

def bracketsAfter (depth : Nat) (inQuote : Bool) (c : Char) : Nat := if inQuote then depth
  else if c = '(' ∨ c = '[' then depth + 1
  else if c = ')' ∨ c = ']' then depth - 1
  else depth

def parensAfter (depth : Nat) (inQuote : Bool) (c : Char) : Nat := if inQuote then depth
  else if c = '(' then depth + 1
  else if c = ')' then depth - 1
  else depth

lemma scanParamList_cons {depth : Nat} {inQuote : Bool} {rest : List Char}
    (hclose : ¬(inQuote = false ∧ c = ')' ∧ depth ≤ 1))
    (hcom : ¬(inQuote = false ∧ c = '/' ∧ rest.head? = some '/')) :
    scanParamList depth inQuote (c :: rest) =
      (scanParamList (parensAfter depth inQuote c) (quoteAfter inQuote c) rest).shift 1 := by
  unfold parensAfter quoteAfter
  rw [scanParamList]
  cases inQuote with
  | true => by_cases hquote : c = '"' <;> simp [hquote]
  | false =>
    by_cases hquote : c = '"'
    · simp [hquote]
    · by_cases hright : c = ')'
      · have hdepth : ¬depth ≤ 1 := fun hle => hclose ⟨rfl, hright, hle⟩
        simp [hright, hdepth]
      · by_cases hleft : c = '('
        · simp [hleft]
        · have hslash : ¬(c = '/' ∧ rest.head? = some '/') := fun h => hcom ⟨rfl, h⟩
          simp [hquote, hright, hleft, hslash]

lemma ListEnd.shift_shift (scanned : ListEnd) (first second : Nat) :
    (scanned.shift first).shift second = scanned.shift (first + second) := by
  cases scanned with
  | closed length => simp only [shift, Nat.add_assoc]
  | «open» => rfl

lemma splitTopLevel_ne_nil (depth : Nat) (inQuote : Bool) (text : List Char) :
    splitTopLevel depth inQuote text ≠ [] := by
  fun_cases splitTopLevel depth inQuote text <;> simp

lemma splitTopLevel_cons {depth : Nat} {inQuote : Bool}
    (hc : ¬(c = ',' ∧ inQuote = false ∧ depth = 0)) (rest : List Char) :
    splitTopLevel depth inQuote (c :: rest) =
      (splitTopLevel (bracketsAfter depth inQuote c) (quoteAfter inQuote c) rest).modifyHead
        (c :: ·) := by
  obtain ⟨piece, pieces, hpcs⟩ := exists_cons_of_ne_nil
    (splitTopLevel_ne_nil (bracketsAfter depth inQuote c) (quoteAfter inQuote c) rest)
  rw [hpcs, modifyHead_cons]
  unfold bracketsAfter quoteAfter at hpcs
  rw [splitTopLevel, if_neg hc]
  simp only [hpcs]

/-! ## Blanks -/

lemma ne_of_isBlank (hc : isBlank c) (hd : isBlank d = false) : c ≠ d := by
  rintro rfl
  rw [hc] at hd
  cases hd

/-- A character that ends and begins nothing in a parameter list. -/
@[mk_iff]
structure PlainChar (c : Char) : Prop where
  quote : c ≠ '"'
  slash : c ≠ '/'
  leftParen : c ≠ '('
  rightParen : c ≠ ')'
  leftBracket : c ≠ '['
  rightBracket : c ≠ ']'
  comma : c ≠ ','

instance : DecidablePred PlainChar := fun c => decidable_of_iff _ (plainChar_iff c).symm

lemma plainChar_of_isBlank (hc : isBlank c) : PlainChar c := by
  constructor <;> exact ne_of_isBlank hc (by decide)

lemma PlainChar.unmarked (hplain : PlainChar c) : c ≠ '"' ∧ c ≠ '/' := ⟨hplain.quote, hplain.slash⟩

lemma PlainChar.quoteAfter_eq (hplain : PlainChar c) (inQuote : Bool) :
    quoteAfter inQuote c = inQuote :=
  if_neg hplain.quote

lemma PlainChar.bracketsAfter_eq (hplain : PlainChar c) (depth : Nat) (inQuote : Bool) :
    bracketsAfter depth inQuote c = depth := by
  simp [bracketsAfter, hplain.leftParen, hplain.leftBracket, hplain.rightParen, hplain.rightBracket]

lemma PlainChar.parensAfter_eq (hplain : PlainChar c) (depth : Nat) (inQuote : Bool) :
    parensAfter depth inQuote c = depth := by
  simp [parensAfter, hplain.leftParen, hplain.rightParen]

lemma commentStart?_plain {front : List Char} (hfront : ∀ c ∈ front, c ≠ '"' ∧ c ≠ '/')
    (inQuote : Bool) (text : List Char) :
    commentStart? inQuote (front ++ text) =
      (commentStart? inQuote text).map (· + front.length) := by
  induction front with
  | nil => simp
  | cons c front ih =>
    obtain ⟨⟨hquote, hslash⟩, hfront⟩ := forall_mem_cons.mp hfront
    rw [cons_append, commentStart?, if_neg fun h => hslash h.2.1, if_neg hquote, ih hfront,
      Option.map_map]
    rfl

section

variable {front : List Char} (hfront : ∀ c ∈ front, PlainChar c)
include hfront

lemma scanParamList_plain (depth : Nat) (inQuote : Bool) (text : List Char) :
    scanParamList depth inQuote (front ++ text) =
      (scanParamList depth inQuote text).shift front.length := by
  induction front with
  | nil => cases hscan : scanParamList depth inQuote text <;> simp [hscan, ListEnd.shift]
  | cons c front ih =>
    obtain ⟨hplain, hfront⟩ := forall_mem_cons.mp hfront
    rw [cons_append, scanParamList_cons (fun h => hplain.rightParen h.2.1)
      (fun h => hplain.slash h.2.1), hplain.parensAfter_eq, hplain.quoteAfter_eq, ih hfront,
      ListEnd.shift_shift]
    rfl

lemma splitTopLevel_plain (depth : Nat) (inQuote : Bool) (text : List Char) :
    splitTopLevel depth inQuote (front ++ text) =
      (splitTopLevel depth inQuote text).modifyHead (front ++ ·) := by
  induction front with
  | nil => cases hsplit : splitTopLevel depth inQuote text <;> simp [hsplit]
  | cons c front ih =>
    obtain ⟨hplain, hfront⟩ := forall_mem_cons.mp hfront
    rw [cons_append, splitTopLevel_cons fun h => hplain.comma h.1, hplain.quoteAfter_eq,
      hplain.bracketsAfter_eq, ih hfront, modifyHead_modifyHead]
    rfl

end

lemma splitTopLevel_blank (hgap : ∀ c ∈ gap, isBlank c) (depth : Nat) (inQuote : Bool) :
    splitTopLevel depth inQuote gap = [gap] := by
  have hsplit := splitTopLevel_plain (fun c hc => plainChar_of_isBlank (hgap c hc)) depth inQuote []
  simpa [splitTopLevel] using hsplit

lemma beforeComment_blank (hgap : ∀ c ∈ gap, isBlank c) (text : List Char) :
    beforeComment (gap ++ text) = gap ++ beforeComment text := by
  unfold beforeComment
  rw [commentStart?_plain fun c hc => (plainChar_of_isBlank (hgap c hc)).unmarked]
  cases commentStart? false text with
  | none => rfl
  | some column =>
    rw [Option.map_some, Nat.add_comm]
    exact take_length_add_append column

lemma beforeComment_prefix (line : List Char) : beforeComment line <+: line := by
  unfold beforeComment
  split
  · exact take_prefix _ _
  · exact prefix_rfl

lemma trimStart_beforeComment (line : List Char) :
    trimStart (beforeComment line) = beforeComment (trimStart line) := by
  obtain ⟨hsplit, hgap⟩ := indent_split line
  have hhead : (beforeComment (trimStart line)).head?.any isBlank = false := by
    have hline := head_trimStart line
    obtain ⟨rest, hrest⟩ := beforeComment_prefix (trimStart line)
    cases hfront : beforeComment (trimStart line) with
    | nil => rfl
    | cons c front =>
      rw [hfront] at hrest
      rw [← hrest] at hline
      exact hline
  have hcut := beforeComment_blank hgap (trimStart line)
  rw [hsplit] at hcut
  rw [hcut, trimStart_append_of_blank hgap, trimStart_of_head hhead]

/-! ## Comments in a parameter list -/

def cleanLine (line : List Char) : List Char := beforeComment (dropReturn line)

lemma trimStart_cleanLine (line : List Char) :
    trimStart (cleanLine line) = cleanLine (trimStart line) := by
  rw [cleanLine, trimStart_beforeComment, trimStart_dropReturn, cleanLine]

lemma break_not_mem_beforeComment (hline : '\n' ∉ line) : '\n' ∉ beforeComment line :=
  fun hmem => hline (( beforeComment_prefix line).mem hmem)

lemma stripLineComments_eq {last : List Char} (hlines : splitOn '\n' text = lines ++ [last]) :
    stripLineComments text =
      joinWith ['\n'] (lines.map cleanLine ++ if last = [] then [] else [beforeComment last]) := by
  rw [stripLineComments, proseLines_eq hlines, map_append, map_map]
  split <;> rfl

lemma trimLater_append (hlines : lines ≠ []) (more : List (List Char)) :
    trimLater (lines ++ more) = trimLater lines ++ more.map trimStart := by
  cases lines with
  | nil => exact absurd rfl hlines
  | cons first rest => simp [trimLater]

lemma trimLater_map
    {f : List Char → List Char} (hf : ∀ line, trimStart (f line) = f (trimStart line))
    (lines : List (List Char)) : trimLater (lines.map f) = (trimLater lines).map f := by
  cases lines with
  | nil => rfl
  | cons first rest => simp [trimLater, hf]

lemma dropIndents_stripLineComments (text : List Char) : ∃ gap, (∀ c ∈ gap, isBlank c) ∧
      dropIndents false (stripLineComments text) =
        stripLineComments (dropIndents false text) ++ gap := by
  obtain ⟨lines, last, hpcs⟩ := exists_splitOn_eq_concat '\n' text
  have hbrks : ∀ line ∈ lines ++ [last], '\n' ∉ line := by
    rw [← hpcs]
    exact fun line => break_not_mem_of_mem_splitOn
  obtain ⟨hlines, hlast⟩ := forall_mem_append.mp hbrks
  have hlast := hlast last mem_cons_self
  have hclean : ∀ line ∈ lines.map cleanLine, '\n' ∉ line := by
    rintro _ hline
    obtain ⟨line, hmem, rfl⟩ := mem_map.mp hline
    exact break_not_mem_beforeComment (break_not_mem_dropReturn (hlines line hmem))
  have hends : ∀ line ∈ (if last = [] then [] else [beforeComment last]), '\n' ∉ line := by
    split
    · exact nofun
    · exact forall_mem_singleton.mpr (break_not_mem_beforeComment hlast)
  have hdrp := dropIndents_joinWith (forall_mem_append.mpr ⟨hclean, hends⟩)
  have hoths := splitOn_dropIndents text
  rw [hpcs] at hoths
  rw [stripLineComments_eq hpcs, hdrp]
  by_cases hnil : lines = []
  · subst hnil
    refine ⟨[], nofun, ?_⟩
    have hsing : splitOn '\n' (dropIndents false text) = [] ++ [last] := hoths
    rw [stripLineComments_eq hsing, append_nil]
    split <;> rfl
  · have hsplit : trimLater (lines ++ [last]) = trimLater lines ++ [trimStart last] :=
      trimLater_append hnil _
    rw [stripLineComments_eq (hoths.trans hsplit), trimLater_append (by simpa using hnil),
      trimLater_map trimStart_cleanLine]
    by_cases hempty : last = []
    · subst hempty
      exact ⟨[], nofun, by simp [trimStart, trimStartBy]⟩
    · rw [if_neg hempty, map_singleton, trimStart_beforeComment]
      by_cases hblank : trimStart last = []
      · refine ⟨['\n'], forall_mem_singleton.mpr (by decide), ?_⟩
        have hlater : (trimLater lines).map cleanLine ≠ [] := by
          cases lines with
          | nil => exact absurd rfl hnil
          | cons first rest => simp [trimLater]
        rw [hblank, if_pos rfl, append_nil, joinWith_append _ hlater (by simp),
          show beforeComment [] = [] from rfl, joinWith, append_nil]
      · exact ⟨[], nofun, by rw [if_neg hblank, append_nil]⟩

/-! ## Pieces of a parameter list -/

def unindentPieces (atStart : Bool) : List (List Char) → List (List Char)
  | [] => []
  | first :: rest => dropIndents atStart first :: rest.map (dropIndents false)

lemma unindentPieces_false (pieces : List (List Char)) :
    unindentPieces false pieces = pieces.map (dropIndents false) := by
  cases pieces <;> rfl

lemma unindentPieces_modifyHead {atStart start : Bool} {kept : List Char}
    (hc : ∀ rest, dropIndents atStart (c :: rest) = kept ++ dropIndents start rest)
    (pieces : List (List Char)) :
    unindentPieces atStart (pieces.modifyHead (c :: ·)) =
      (unindentPieces start pieces).modifyHead (kept ++ ·) := by
  cases pieces with
  | nil => rfl
  | cons first rest => simp [unindentPieces, hc]

lemma splitTopLevel_dropIndents (depth : Nat) (inQuote : Bool) (text : List Char) (atStart : Bool) :
    splitTopLevel depth inQuote (dropIndents atStart text) =
      unindentPieces atStart (splitTopLevel depth inQuote text) := by
  induction text generalizing depth inQuote atStart with
  | nil => rfl
  | cons c rest ih =>
    by_cases hcomma : c = ',' ∧ inQuote = false ∧ depth = 0
    · have hc : isBlank c = false := by rw [hcomma.1]; decide
      rw [dropIndents_cons_of_not_blank hc, splitTopLevel, splitTopLevel, if_pos hcomma,
        if_pos hcomma, ih, unindentPieces_false]
      rfl
    obtain ⟨kept, start, hkept, hc⟩ := exists_dropIndents_cons atStart c
    rw [splitTopLevel_cons hcomma, unindentPieces_modifyHead hc, hc, ← ih]
    rcases hkept with rfl | ⟨rfl, hblank⟩
    · exact splitTopLevel_cons hcomma _
    · have hplain := plainChar_of_isBlank hblank
      rw [nil_append, hplain.quoteAfter_eq, hplain.bracketsAfter_eq]
      cases splitTopLevel depth inQuote (dropIndents start rest) <;> rfl

lemma splitTopLevel_append_blank (hgap : ∀ c ∈ gap, isBlank c) (depth : Nat)
    (inQuote : Bool) (text : List Char) :
    ∃ pieces last, splitTopLevel depth inQuote text = pieces ++ [last] ∧
      splitTopLevel depth inQuote (text ++ gap) = pieces ++ [last ++ gap] := by
  induction text generalizing depth inQuote with
  | nil => exact ⟨[], [], rfl, splitTopLevel_blank hgap depth inQuote⟩
  | cons c rest ih =>
    by_cases hcomma : c = ',' ∧ inQuote = false ∧ depth = 0
    · obtain ⟨pieces, last, hrest, hlonger⟩ := ih depth inQuote
      refine ⟨[] :: pieces, last, ?_, ?_⟩
      · rw [splitTopLevel, if_pos hcomma, hrest, cons_append]
      · rw [cons_append, splitTopLevel, if_pos hcomma, hlonger, cons_append]
    · obtain ⟨pieces, last, hrest, hlonger⟩ :=
        ih (bracketsAfter depth inQuote c) (quoteAfter inQuote c)
      rw [cons_append, splitTopLevel_cons hcomma, splitTopLevel_cons hcomma, hrest, hlonger]
      cases pieces with
      | nil => exact ⟨[], c :: last, rfl, rfl⟩
      | cons piece pieces => exact ⟨(c :: piece) :: pieces, last, rfl, rfl⟩

/-! ## One parameter -/

def cutDefault (depth : Nat) (inQuote : Bool) : List Char → List Char × Option (List Char)
  | [] => ([], none)
  | c :: rest =>
    if c = '=' ∧ inQuote = false ∧ depth = 0 then ([], some rest)
    else
      let cut := cutDefault (parensAfter depth inQuote c) (quoteAfter inQuote c) rest
      (c :: cut.1, cut.2)

lemma cutDefault_eq (depth : Nat) (inQuote : Bool) (piece : List Char) :
    cutDefault depth inQuote piece = match defaultStart? depth inQuote piece with
      | some column => (piece.take column, some (piece.drop (column + 1)))
      | none => (piece, none) := by
  induction piece generalizing depth inQuote with
  | nil => rfl
  | cons c rest ih =>
    rw [cutDefault, defaultStart?]
    split
    · rfl
    · rw [ih]
      change _ = match (defaultStart? (parensAfter depth inQuote c) (quoteAfter inQuote c)
        rest).map (· + 1) with
        | some column => ((c :: rest).take column, some ((c :: rest).drop (column + 1)))
        | none => (c :: rest, none)
      cases defaultStart? (parensAfter depth inQuote c) (quoteAfter inQuote c) rest <;> rfl

def paramHead (front : List Char) : ParamHead :=
  (lexLine false (trim front)).1.foldl ParamHead.step {}

lemma Parameter.ofPiece?_eq (piece : List Char) : Parameter.ofPiece? piece =
      let cut := cutDefault 0 false piece
      let head := paramHead cut.1
      head.name.map fun name =>
        { name
          byValue := head.byValue
          default? := ((cut.2.map trim).filter (· ≠ [])).map String.ofList } := by
  rw [cutDefault_eq]
  unfold Parameter.ofPiece? paramHead
  cases defaultStart? 0 false piece with
  | none =>
    cases hname : ((lexLine false (trim piece)).1.foldl ParamHead.step {}).name <;> simp [hname]
  | some column =>
    cases hname : ((lexLine false (trim (piece.take column))).1.foldl ParamHead.step {}).name <;>
      simp [hname]

lemma cutDefault_dropIndents (depth : Nat) (inQuote : Bool) (text : List Char) (atStart : Bool) :
    cutDefault depth inQuote (dropIndents atStart text) =
      let cut := cutDefault depth inQuote text
      (dropIndents atStart cut.1, cut.2.map (dropIndents false)) := by
  induction text generalizing depth inQuote atStart with
  | nil => rfl
  | cons c rest ih =>
    by_cases heqs : c = '=' ∧ inQuote = false ∧ depth = 0
    · have hc : isBlank c = false := by rw [heqs.1]; decide
      rw [dropIndents_cons_of_not_blank hc, cutDefault, cutDefault, if_pos heqs, if_pos heqs]
      rfl
    obtain ⟨kept, start, hkept, hc⟩ := exists_dropIndents_cons atStart c
    rw [hc, cutDefault, if_neg heqs]
    simp only [hc]
    rcases hkept with rfl | ⟨rfl, hblank⟩
    · rw [singleton_append, cutDefault, if_neg heqs, ih]
      rfl
    · have hplain := plainChar_of_isBlank hblank
      rw [nil_append, ih, hplain.quoteAfter_eq, hplain.parensAfter_eq]
      rfl

lemma cutDefault_plain {front : List Char} (hfront : ∀ c ∈ front, PlainChar c)
    (heqs : '=' ∉ front) (depth : Nat) (inQuote : Bool) (text : List Char) :
    cutDefault depth inQuote (front ++ text) =
      (front ++ (cutDefault depth inQuote text).1, (cutDefault depth inQuote text).2) := by
  induction front with
  | nil => rfl
  | cons c front ih =>
    obtain ⟨hplain, hfront⟩ := forall_mem_cons.mp hfront
    rw [mem_cons, not_or] at heqs
    rw [cons_append, cutDefault, if_neg fun h => heqs.1 h.1.symm, hplain.quoteAfter_eq,
      hplain.parensAfter_eq, ih hfront heqs.2]
    rfl

section

variable (hgap : ∀ c ∈ gap, isBlank c = true)
include hgap

lemma cutDefault_blank_append (depth : Nat) (inQuote : Bool) (text : List Char) :
    cutDefault depth inQuote (gap ++ text) =
      (gap ++ (cutDefault depth inQuote text).1, (cutDefault depth inQuote text).2) :=
  cutDefault_plain (fun c hc => plainChar_of_isBlank (hgap c hc))
    (fun hmem => absurd (hgap _ hmem) (by decide)) depth inQuote text

lemma cutDefault_append_blank (depth : Nat) (inQuote : Bool) (text : List Char) :
    cutDefault depth inQuote (text ++ gap) = match cutDefault depth inQuote text with
      | (front, some value) => (front, some (value ++ gap))
      | (front, none) => (front ++ gap, none) := by
  induction text generalizing depth inQuote with
  | nil => simpa [cutDefault] using cutDefault_blank_append hgap depth inQuote []
  | cons c rest ih =>
    rw [cons_append, cutDefault, cutDefault]
    split
    · rfl
    · rw [ih]
      rcases cutDefault (parensAfter depth inQuote c) (quoteAfter inQuote c) rest with
        ⟨front, _ | value⟩ <;> rfl

lemma trim_append_blank (text : List Char) : trim (text ++ gap) = trim text := by
  have hend (text : List Char) : trimEnd (text ++ gap) = trimEnd text := by
    unfold trimEnd trimEndBy
    rw [reverse_append, dropWhile_append_of_pos]
    exact fun c hc => hgap c (mem_reverse.mp hc)
  unfold trim
  have hstart : trimStart (text ++ gap) = trimStart text ++ gap ∨
      trimStart (text ++ gap) = [] ∧ trimStart text = [] := by
    unfold trimStart trimStartBy
    rw [dropWhile_append]
    split
    next hempty => refine .inr ⟨dropWhile_eq_nil_iff.mpr hgap, isEmpty_iff.mp hempty⟩
    next => exact .inl rfl
  rcases hstart with hkept | ⟨hlonger, hshorter⟩
  · rw [hkept, hend]
  · rw [hlonger, hshorter]

lemma Parameter.ofPiece?_append_blank (piece : List Char) :
    Parameter.ofPiece? (piece ++ gap) = Parameter.ofPiece? piece := by
  rw [Parameter.ofPiece?_eq, Parameter.ofPiece?_eq, cutDefault_append_blank hgap]
  rcases cutDefault 0 false piece with ⟨front, _ | value⟩
  · simp only [paramHead, trim_append_blank hgap]
  · simp only [Option.map_some, trim_append_blank hgap]

end

lemma foldl_step_unplaced (head : ParamHead) (tokens : List Token) :
    (tokens.map Token.unplaced).foldl ParamHead.step head = tokens.foldl ParamHead.step head := by
  rw [foldl_map]
  rfl

lemma paramHead_dropIndents (front : List Char) :
    paramHead (dropIndents false front) = paramHead front := by
  have htoks := tokensFrom_dropIndents (trim front) false 0 0
  unfold paramHead
  rw [trim_dropIndents, ← foldl_step_unplaced, ← foldl_step_unplaced _ (lexLine _ (trim front)).1]
  exact congrArg _ htoks.symm

lemma dropIndents_eq_nil_iff (htext : text.head?.any isBlank = false) :
    dropIndents false text = [] ↔ text = [] := by
  cases text with
  | nil => simp [dropIndents]
  | cons c rest =>
    have hc : isBlank c = false := htext
    simp [dropIndents_cons_of_not_blank hc]

lemma head_trim (text : List Char) : (trim text).head?.any isBlank = false := by
  have hhead := head_trimStart text
  unfold trim
  cases htext : trimStart text with
  | nil => rfl
  | cons c rest =>
    have hc : isBlank c = false := by simpa [htext] using hhead
    rw [trimEnd_cons hc]
    exact hc

lemma Parameter.ofPiece?_dropIndents (piece : List Char) :
    (Parameter.ofPiece? (dropIndents false piece)).map Parameter.unindented =
      (Parameter.ofPiece? piece).map Parameter.unindented := by
  rw [Parameter.ofPiece?_eq, Parameter.ofPiece?_eq, cutDefault_dropIndents]
  rcases cutDefault 0 false piece with ⟨front, value?⟩
  simp only [paramHead_dropIndents, Option.map_map]
  cases (paramHead front).name with
  | none => rfl
  | some name =>
    cases value? with
    | none => rfl
    | some value =>
      have hempty := dropIndents_eq_nil_iff (head_trim value)
      have hfilt {text : List Char} (htext : text ≠ []) : (some text).filter (· ≠ []) = some text :=
        Option.filter_some_pos (by simpa using htext)
      simp only [Option.map_some, Function.comp_apply, trim_dropIndents]
      by_cases hvalue : trim value = []
      · rw [hempty.mpr hvalue, hvalue]
      · rw [hfilt hvalue, hfilt (mt hempty.mp hvalue)]
        simp only [Option.map_some, Parameter.unindented, String.toList_ofList,
          dropIndents_dropIndents]

/-! ## All parameters -/

lemma isBlank_of_trim (htext : trim text = []) : ∀ c ∈ text, isBlank c := by
  have hhead := head_trimStart text
  unfold trim at htext
  cases hstart : trimStart text with
  | nil => exact dropWhile_eq_nil_iff.mp hstart
  | cons c rest =>
    have hc : isBlank c = false := by simpa [hstart] using hhead
    rw [hstart, trimEnd_cons hc] at htext
    cases htext

lemma Parameter.ofPiece?_blank {piece : List Char} (hpiece : ∀ c ∈ piece, isBlank c) :
    Parameter.ofPiece? piece = none := by
  rw [← nil_append piece, Parameter.ofPiece?_append_blank hpiece, Parameter.ofPiece?_eq]
  simp [cutDefault, paramHead, trim, trimStart, trimStartBy, trimEnd, trimEndBy, lexLine, tokensFrom]

lemma parseParams_eq (text : List Char) : parseParams text =
      (splitTopLevel 0 false (stripLineComments text)).filterMap Parameter.ofPiece? := by
  unfold parseParams
  simp only
  split
  next hblank =>
    have hgap := isBlank_of_trim hblank
    rw [splitTopLevel_blank hgap, filterMap_cons, Parameter.ofPiece?_blank hgap, filterMap_nil]
  next => rfl

lemma filterMap_ofPiece?_append_blank (hgap : ∀ c ∈ gap, isBlank c) (text : List Char) :
    (splitTopLevel 0 false (text ++ gap)).filterMap Parameter.ofPiece? =
      (splitTopLevel 0 false text).filterMap Parameter.ofPiece? := by
  obtain ⟨pieces, last, htext, hlonger⟩ := splitTopLevel_append_blank hgap 0 false text
  rw [htext, hlonger, filterMap_append, filterMap_append, filterMap_cons,
    filterMap_cons, Parameter.ofPiece?_append_blank hgap]

lemma parseParams_dropIndents (text : List Char) :
    (parseParams (dropIndents false text)).map Parameter.unindented =
      (parseParams text).map Parameter.unindented := by
  obtain ⟨gap, hgap, hstrip⟩ := dropIndents_stripLineComments text
  have hpcs (pieces : List (List Char)) :
      ((pieces.map (dropIndents false)).filterMap Parameter.ofPiece?).map Parameter.unindented =
        (pieces.filterMap Parameter.ofPiece?).map Parameter.unindented := by
    rw [filterMap_map, map_filterMap, map_filterMap]
    exact filterMap_congr fun piece _ => Parameter.ofPiece?_dropIndents piece
  rw [parseParams_eq, parseParams_eq, ← filterMap_ofPiece?_append_blank hgap, ← hstrip,
    splitTopLevel_dropIndents, unindentPieces_false, hpcs]

/-! ## Headers -/

lemma Header.exists_indented {header : Header} (hbody : trimStart line = trimStart other)
    (hhdr : Header.ofLine? line = some header) :
    ∃ found, HeadersAlike Eq header found line other := by
  obtain ⟨front, word, name, gap, after, hparts, rfl, rfl⟩ := Header.exists_parts hhdr
  have hlet := hparts.isFront.head
  have hblank := (indent_split other).2
  have hfront := trimStart_of_blank_letter hblank hlet
  have hoths : HeaderParts (other.takeWhile isBlank ++ trimStart front) word name gap := by
    refine { hparts with isFront := ?_, noParen := ?_ }
    · rw [HeaderFront, hfront]
      exact hparts.isFront
    · have hparen := hparts.noParen
      simp only [mem_append, not_or] at hparen ⊢
      refine ⟨⟨fun hmem => absurd (hblank _ hmem) (by decide), fun hmem => ?_⟩, hparen.2⟩
      exact hparen.1 ((dropWhile_suffix isBlank).mem hmem)
  have hsplit : other = other.takeWhile isBlank ++ trimStart front ++
      (name ++ (gap ++ '(' :: after)) := by
    rw [append_assoc, ← hparts.isFront.trimStart_append, hbody]
    exact takeWhile_append_dropWhile.symm
  generalize other.takeWhile isBlank ++ trimStart front = start at hsplit hoths
  subst hsplit
  exact ⟨_, .mk hparts hoths rfl rfl⟩

namespace HeadersAlike

variable {header found : Header} {line other : List Char}
  (hhdrs : HeadersAlike Eq header found line other)
include hhdrs

lemma drop_eq : line.drop header.paramsStart = other.drop found.paramsStart := by
  cases hhdrs with
  | mk _ _ _ hpars => rw [drop_paramsStart, drop_paramsStart, hpars]

lemma isSome_findWord?_eq (word : String) : (findWord? line word (parenColumn line)).isSome =
      (findWord? other word (parenColumn other)).isSome := by
  cases hhdrs with
  | mk hparts hoths _ hpars =>
    subst hpars
    exact hparts.isSome_findWord?_eq hoths word _

end HeadersAlike

lemma isMethodBoundary_congr (hbody : trimStart line = trimStart other) :
    isMethodBoundary line = isMethodBoundary other := by
  have hsome {line other : List Char} (hbody : trimStart line = trimStart other)
      (hline : (Header.ofLine? line).isSome) : (Header.ofLine? other).isSome := by
    obtain ⟨header, hhdr⟩ := Option.isSome_iff_exists.mp hline
    obtain ⟨found, hhdrs⟩ := Header.exists_indented hbody hhdr
    rw [hhdrs.ofLine?_eq, Option.isSome_some]
  have hhdrs := Bool.eq_iff_iff.mpr ⟨hsome hbody, hsome hbody.symm⟩
  rw [isMethodBoundary, isMethodBoundary, hhdrs]
  simp only [terminatorKind?, hbody]

/-! ## Where a parameter list ends -/

structure ParamList.Similar (list other : ParamList) : Prop where
  text : dropIndents false list.text = dropIndents false other.text
  tail : list.tail = other.tail
  extraLines : list.extraLines = other.extraLines
  closed : list.closed = other.closed

namespace ParamList

lemma head_text_continued (depth : Nat) (inQuote : Bool) (lines : List (List Char)) :
    (continued depth inQuote lines).text.head?.all (· == '\n') := by
  fun_cases continued depth inQuote lines <;> rfl

lemma dropIndents_continued (hline : '\n' ∉ line) {rest : List Char}
    (hrest : rest.head?.all (· == '\n')) :
    dropIndents false ('\n' :: line ++ rest) = '\n' :: trimStart line ++ dropIndents false rest := by
  rw [cons_append, dropIndents, if_pos rfl, dropIndents_line hline hrest,
    dropIndents_of_break hrest, cons_append]

lemma scanParamList_trimStart (depth : Nat) (inQuote : Bool) (line : List Char) :
    scanParamList depth inQuote line =
      (scanParamList depth inQuote (trimStart line)).shift (line.takeWhile isBlank).length := by
  obtain ⟨hsplit, hgap⟩ := indent_split line
  rw [← scanParamList_plain fun c hc => plainChar_of_isBlank (hgap c hc), hsplit]

lemma dropIndents_closingLine (hline : '\n' ∉ line) {length : Nat} (hpos : 0 < length) :
    dropIndents false ('\n' :: line.take (length + (line.takeWhile isBlank).length - 1)) =
      '\n' :: trimStart ((trimStart line).take (length - 1)) := by
  obtain ⟨hsplit, hgap⟩ := indent_split line
  have hlen : length + (line.takeWhile isBlank).length - 1 =
      (line.takeWhile isBlank).length + (length - 1) := by
    omega
  have htake : line.take ((line.takeWhile isBlank).length + (length - 1)) =
      line.takeWhile isBlank ++ (trimStart line).take (length - 1) := by
    have hcut := @take_length_add_append _ (line.takeWhile isBlank) (trimStart line) (length - 1)
    rwa [hsplit] at hcut
  have hpiece : '\n' ∉ line.take ((line.takeWhile isBlank).length + (length - 1)) :=
    fun hmem => hline (mem_of_mem_take hmem)
  rw [hlen, dropIndents, if_pos rfl, dropIndents_true_of_no_break hpiece, htake,
    trimStart_append_of_blank hgap]

lemma similar_continued (hbds : SameBodies lines others) (hlines : ∀ line ∈ lines, '\n' ∉ line)
    (hoths : ∀ line ∈ others, '\n' ∉ line) (depth : Nat) (inQuote : Bool) :
    (continued depth inQuote lines).Similar (continued depth inQuote others) := by
  induction hbds generalizing depth inQuote with
  | nil => exact ⟨rfl, rfl, rfl, rfl⟩
  | @cons line other rest following hbody _ ih =>
    obtain ⟨hline, hrest⟩ := forall_mem_cons.mp hlines
    obtain ⟨hoth, hfoll⟩ := forall_mem_cons.mp hoths
    rw [continued, continued, isMethodBoundary_congr hbody]
    split
    · exact ⟨rfl, rfl, rfl, rfl⟩
    rw [scanParamList_trimStart depth inQuote line, scanParamList_trimStart depth inQuote other,
      ← hbody]
    cases hend : scanParamList depth inQuote (trimStart line) with
    | closed length =>
      have hpos := (closesAt_of_scanParamList hend).pos
      have hdrop (line : List Char) : line.drop (length + (line.takeWhile isBlank).length) =
            (trimStart line).drop length := by
        rw [Nat.add_comm, ← drop_drop]
        exact congrArg (List.drop length) (drop_length_takeWhile isBlank line)
      exact
        { text := by
            simp only [ListEnd.shift, dropIndents_closingLine hline hpos,
              dropIndents_closingLine hoth hpos, hbody]
          tail := by simp only [ListEnd.shift, hdrop, hbody]
          extraLines := rfl
          closed := rfl }
    | «open» depth inQuote =>
      have hmore := ih hrest hfoll depth inQuote
      exact
        { text := by
            simp only [ListEnd.shift,
              dropIndents_continued hline (head_text_continued depth inQuote rest),
              dropIndents_continued hoth (head_text_continued depth inQuote following),
              hbody, hmore.text]
          tail := hmore.tail
          extraLines := congrArg (· + 1) hmore.extraLines
          closed := hmore.closed }

lemma similar_read {first : List Char} (hfirst : '\n' ∉ first) (hbds : SameBodies lines others)
    (hlines : ∀ line ∈ lines, '\n' ∉ line) (hoths : ∀ line ∈ others, '\n' ∉ line) :
    (read first lines).Similar (read first others) := by
  cases hscan : scanParamList 1 false first with
  | closed length =>
    rw [read_of_closed hscan, read_of_closed hscan]
    exact ⟨rfl, rfl, rfl, rfl⟩
  | «open» depth inQuote =>
    have hmore := similar_continued hbds hlines hoths depth inQuote
    rw [read_of_open hscan, read_of_open hscan]
    refine { hmore with text := ?_ }
    simp only [dropIndents_append_kept hfirst, hmore.text]

lemma Similar.params_eq {list other : ParamList} (hsim : list.Similar other) :
    (parseParams list.text).map Parameter.unindented =
      (parseParams other.text).map Parameter.unindented := by
  rw [← parseParams_dropIndents, hsim.text, parseParams_dropIndents]

end ParamList

/-! ## Where a parameter is found -/

lemma not_isBlank_ofNat_lowerCode (hc : isBlank c = false) :
    isBlank (Char.ofNat (lowerCode lowerRuns c.toNat)) = false := by
  have hruns : ∀ run ∈ lowerRuns, ∀ code ∈ blankCodes,
      ¬(run.target ≤ code ∧ code ≤ run.target + (run.last - run.first)) := by
    decide +kernel
  have hzero : (0 : Nat) ∉ blankCodes := by decide
  rcases lowerCode_eq_or lowerRuns c.toNat with hsame | ⟨run, hrun, hfirst, hlast, hcode⟩
  · rwa [hsame, Char.ofNat_toNat]
  · rw [Bool.eq_false_iff]
    intro hblank
    have hmem := mem_blankCodes hblank
    rcases toNat_ofNat_or (lowerCode lowerRuns c.toNat) with htoNat | htoNat
    · rw [htoNat, hcode] at hmem
      exact hruns run hrun _ hmem ⟨by omega, by omega⟩
    · rw [htoNat] at hmem
      exact hzero hmem

lemma exists_lowerChar_cons (hc : isBlank c = false) :
    ∃ d rest, lowerChar c = d :: rest ∧ isBlank d = false := by
  by_cases hdotted : c = 'İ'
  · subst hdotted
    exact ⟨'i', ['\u0307'], rfl, rfl⟩
  · exact ⟨_, [], lowerChar_eq hdotted, not_isBlank_ofNat_lowerCode hc⟩

lemma startsWithWord_blank (hc : isBlank c) (hd : isBlank d = false)
    (word text : List Char) : startsWithWord (d :: word) (c :: text) = false := by
  have hlower := of_isBlank (p := fun c => lowerChar c == [c]) (by decide +kernel) hc
  have hne := ne_of_isBlank hc hd
  simp [startsWithWord, beq_iff_eq.mp hlower, hne]

lemma isSome_findWordFrom?_blank (hgap : ∀ c ∈ gap, isBlank c) (hd : isBlank d = false)
    (word text : List Char) (column : Nat) :
    (findWordFrom? (d :: word) 0 false column (gap ++ text)).isSome =
      (findWordFrom? (d :: word) 0 false 0 text).isSome := by
  induction gap generalizing column with
  | nil => exact isSome_findWordFrom? (Nat.zero_le _) (Nat.zero_le _) _ _ _
  | cons c gap ih =>
    obtain ⟨hc, hgap⟩ := forall_mem_cons.mp hgap
    have hword : isWordChar c = false := by
      have hnot := of_isBlank (p := fun c => !isWordChar c) (by decide +kernel) hc
      simpa using hnot
    rw [cons_append, findWordFrom?, startsWithWord_blank hc hd, if_neg (by simp), hword]
    exact ih hgap (column + 1)

lemma isSome_findWord?_congr (hbody : trimStart line = trimStart other)
    (hname : name.toList.head?.any isIdentStart) :
    (findWord? line name 0).isSome = (findWord? other name 0).isSome := by
  obtain ⟨c, rest, hchars⟩ : ∃ c rest, name.toList = c :: rest := by
    cases hchars : name.toList with
    | nil => simp [hchars] at hname
    | cons c rest => exact ⟨c, rest, rfl⟩
  have hc : isBlank c = false := by
    rw [hchars] at hname
    exact not_isBlank_of_isIdentStart hname
  obtain ⟨d, tail, hlower, hd⟩ := exists_lowerChar_cons hc
  have hneedle : name.toList.flatMap lowerChar = d :: (tail ++ rest.flatMap lowerChar) := by
    rw [hchars, flatMap_cons, hlower, cons_append]
  have htrim (line : List Char) : (findWord? line name 0).isSome =
      (findWordFrom? (d :: (tail ++ rest.flatMap lowerChar)) 0 false 0 (trimStart line)).isSome := by
    obtain ⟨hsplit, hgap⟩ := indent_split line
    have hskip := isSome_findWordFrom?_blank hgap hd (tail ++ rest.flatMap lowerChar)
      (trimStart line) 0
    rw [hsplit] at hskip
    simp only [findWord?, hneedle, cons_ne_nil, if_false, hskip]
  rw [htrim, htrim, hbody]

lemma fst_findWordInLines?_sameBodies (hbds : SameBodies lines others)
    (hname : name.toList.head?.any isIdentStart) (number : Nat) :
    (findWordInLines? name 0 number lines).map Prod.fst =
      (findWordInLines? name 0 number others).map Prod.fst := by
  induction hbds generalizing number with
  | nil => rfl
  | cons hbody _ ih =>
    exact fst_findWordInLines?_cons (isSome_findWord?_congr hbody hname) (ih (number + 1))

/-! ## Names of parameters -/

lemma isIdentStart_of_mem_tokensFrom {column : Nat} {token : Token}
    (htoken : token ∈ tokensFrom column text) (hkind : token.kind = .identifier) :
    token.text.toList.head?.any isIdentStart := by
  obtain ⟨before, c, body, rest, -, hlex, htext, -⟩ := exists_lexeme_of_mem_tokensFrom htoken
  have hhead := (fitsLexeme c (body ++ rest)).head token.kind (by rw [hlex])
  rw [hkind] at hhead
  simpa [htext, TokenKind.beginsWith] using hhead

lemma isIdentStart_of_foldl_step {tokens : List Token}
    (htoks : ∀ token ∈ tokens, token.kind = .identifier →
      token.text.toList.head?.any isIdentStart) {head : ParamHead}
    (hhead : ∀ name, head.name = some name → name.toList.head?.any isIdentStart)
    (hname : (tokens.foldl ParamHead.step head).name = some name) :
    name.toList.head?.any isIdentStart := by
  induction tokens generalizing head with
  | nil => exact hhead name hname
  | cons token rest ih =>
    obtain ⟨htoken, hrest⟩ := forall_mem_cons.mp htoks
    refine ih hrest (fun found hfound => ?_) hname
    unfold ParamHead.step at hfound
    split at hfound
    next => exact hhead found hfound
    next => exact hhead found hfound
    next hkind =>
      split at hfound
      · split at hfound
        · exact hhead found hfound
        · rw [← Option.some.inj hfound]
          exact htoken hkind
      · exact hhead found hfound
    next => exact hhead found hfound

lemma isIdentStart_of_mem_parseParams {param : Parameter} (hparam : param ∈ parseParams text) :
    param.name.toList.head?.any isIdentStart := by
  rw [parseParams_eq] at hparam
  obtain ⟨piece, -, hpiece⟩ := mem_filterMap.mp hparam
  rw [Parameter.ofPiece?_eq] at hpiece
  obtain ⟨name, hname, rfl⟩ := Option.map_eq_some_iff.mp hpiece
  refine isIdentStart_of_foldl_step (fun token htoken => ?_) (by simp) hname
  exact isIdentStart_of_mem_tokensFrom htoken

end BslInsight
