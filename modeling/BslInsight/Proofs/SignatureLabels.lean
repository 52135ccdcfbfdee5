import BslInsight.Proofs.IndentedParams
import Mathlib.Algebra.Group.Nat.Even
import Mathlib.Data.List.Infix

/-!
# Reading a signature back

The label of a method is written as a header is.  As long as the parentheses, brackets and quotes
of its default values close, and no comma or comment mark stands outside of them, a header with
the label declares the same parameters again.
-/

namespace BslInsight

open List

variable {c : Char} {gap : List Char}

/-- A word that the lexer takes for one identifier. -/
structure IsIdentifier (word : List Char) : Prop where
  start : word.head?.any isIdentStart = true
  part : ∀ c ∈ word, isIdentPart c = true

/-- The characters outside of quotes, if `inQuote` says whether the text begins in
quotes. -/
def unquoted (inQuote : Bool) : List Char → List Char
  | [] => []
  | c :: rest =>
    if c = '"' then unquoted (!inQuote) rest
    else if inQuote then unquoted inQuote rest
    else c :: unquoted inQuote rest

/-- After `depth` opening marks the text never closes more than has been opened, and
closes everything in the end. -/
structure IsBalanced (depth : Nat) (opening closing : Char) (text : List Char) : Prop where
  beginnings : ∀ front, front <+: text → front.count closing ≤ depth + front.count opening
  whole : text.count closing = depth + text.count opening

/-- After `depth` opening marks no comma stands outside of parentheses and brackets. -/
def CommasInside (depth : Nat) (text : List Char) : Prop := ∀ front, front ++ [','] <+: text →
    front.count ')' + front.count ']' < depth + front.count '(' + front.count '['

@[mk_iff] structure IsDefaultText (value : List Char) : Prop where
  nonempty : value ≠ []
  trimmed : trim value = value
  oneLine : '\n' ∉ value
  quotes : Even (value.count '"')
  parens : IsBalanced 0 '(' ')' (unquoted false value)
  brackets : IsBalanced 0 '[' ']' (unquoted false value)
  commas : CommasInside 0 (unquoted false value)
  comments : ∀ front, front ++ ['/', '/'] <+: value → ¬ Even (front.count '"')

structure Parameter.IsDeclarable (parameter : Parameter) : Prop where
  name : IsIdentifier parameter.name.toList
  notVal : Keyword.ofWord? parameter.name ≠ some .val
  default : ∀ value ∈ parameter.default?, IsDefaultText value.toList

instance (word : List Char) : Decidable (IsIdentifier word) :=
  decidable_of_iff (word.head?.any isIdentStart = true ∧ word.all isIdentPart = true) (by
    rw [all_eq_true]
    exact ⟨fun hword => ⟨hword.1, hword.2⟩, fun hword => ⟨hword.start, hword.part⟩⟩)

instance (depth : Nat) (opening closing : Char) (text : List Char) :
    Decidable (IsBalanced depth opening closing text) :=
  decidable_of_iff ((∀ front ∈ text.inits, front.count closing ≤ depth + front.count opening) ∧
      text.count closing = depth + text.count opening) (by
    simp only [mem_inits]
    exact ⟨fun htext => ⟨htext.1, htext.2⟩, fun htext => ⟨htext.beginnings, htext.whole⟩⟩)

/-- Whether a statement holds for all beginnings before a given text. -/
def decidableBefore (p : List Char → Prop) [DecidablePred p] (mark text : List Char) :
    Decidable (∀ front, front ++ mark <+: text → p front) :=
  decidable_of_iff (∀ front ∈ text.inits, front ++ mark <+: text → p front) (by
    simp only [mem_inits]
    constructor
    · intro hall front hfront
      exact hall front ((prefix_append front mark).trans hfront) hfront
    · intro hall front _ hfront
      exact hall front hfront)

instance (depth : Nat) (text : List Char) : Decidable (CommasInside depth text) :=
  decidableBefore _ [','] text

instance (value : List Char) : Decidable (IsDefaultText value) :=
  have := decidableBefore (fun front => ¬ Even (front.count '"')) ['/', '/'] value
  decidable_of_iff _ (isDefaultText_iff value).symm

/-! ## Texts that close what they open -/

def CommentFree (inQuote : Bool) (text : List Char) : Prop :=
  ∀ front, front ++ ['/', '/'] <+: text → ¬ Even (front.count '"' + inQuote.toNat)

instance (inQuote : Bool) (text : List Char) : Decidable (CommentFree inQuote text) :=
  decidableBefore _ ['/', '/'] text

def outside (inQuote : Bool) (c : Char) : List Char := if c = '"' ∨ inQuote = true then [] else [c]

section

variable {depth : Nat} {inQuote : Bool} {text rest : List Char}

lemma unquoted_cons (inQuote : Bool) (c : Char) (text : List Char) :
    unquoted inQuote (c :: text) = outside inQuote c ++ unquoted (quoteAfter inQuote c) text := by
  by_cases hc : c = '"'
  · simp [unquoted, outside, quoteAfter, hc]
  · cases inQuote <;> simp [unquoted, outside, quoteAfter, hc]

lemma even_quotes_cons (inQuote : Bool) (c : Char) (text : List Char) :
    Even ((c :: text).count '"' + inQuote.toNat) ↔
      Even (text.count '"' + (quoteAfter inQuote c).toNat) := by
  by_cases hc : c = '"'
  · subst hc
    cases inQuote <;> simp [quoteAfter, Nat.even_add_one, parity_simps]
  · simp [quoteAfter, hc]

lemma CommentFree.tail (hfree : CommentFree inQuote (c :: text)) :
    CommentFree (quoteAfter inQuote c) text := by
  intro front hfront
  rw [← even_quotes_cons]
  exact hfree (c :: front) (cons_prefix_cons.mpr ⟨rfl, hfront⟩)

lemma CommentFree.head?_ne (hfree : CommentFree inQuote (c :: text)) (hquote : inQuote = false)
    (hc : c = '/') : text.head? ≠ some '/' := by
  subst hquote hc
  intro hslash
  obtain ⟨more, rfl⟩ := head?_eq_some_iff.mp hslash
  exact hfree [] (by simp) (by simp)

lemma head?_append_ne (htext : text.head? ≠ some '/') (hrest : rest.head? ≠ some '/') :
    (text ++ rest).head? ≠ some '/' := by
  cases text with
  | nil => exact hrest
  | cons c tail => exact htext

lemma IsBalanced.eq_zero {opening closing : Char}
    (hbalanced : IsBalanced depth opening closing []) : depth = 0 := by
  simpa using hbalanced.whole.symm

lemma IsBalanced.drop {opening closing : Char} (front : List Char)
    (hbalanced : IsBalanced depth opening closing (front ++ rest)) {inner : Nat}
    (hinner : depth + front.count opening = inner + front.count closing) :
    IsBalanced inner opening closing rest := by
  obtain ⟨hbeginnings, hwhole⟩ := hbalanced
  constructor
  · intro more hmore
    have hlonger := hbeginnings _ ((prefix_append_right_inj front).mpr hmore)
    rw [count_append, count_append] at hlonger
    omega
  · rw [count_append, count_append] at hwhole
    omega

lemma IsBalanced.parensAfter (hparens : IsBalanced depth '(' ')' (unquoted inQuote (c :: rest))) :
    depth + (outside inQuote c).count '(' =
        parensAfter depth inQuote c + (outside inQuote c).count ')' ∧
      IsBalanced (parensAfter depth inQuote c) '(' ')' (unquoted (quoteAfter inQuote c) rest) := by
  rw [unquoted_cons] at hparens
  have hfirst := hparens.beginnings _ (prefix_append (outside inQuote c) _)
  have hdepth : depth + (outside inQuote c).count '(' =
      BslInsight.parensAfter depth inQuote c + (outside inQuote c).count ')' := by
    cases inQuote with
    | true => simp [outside, BslInsight.parensAfter]
    | false =>
      unfold outside BslInsight.parensAfter at *
      grind
  exact ⟨hdepth, hparens.drop _ hdepth⟩

/-- The text closes as many parentheses as are open before it, and the quotes if they
are open, and has no comment mark outside of quotes. -/
structure IsGroup (depth : Nat) (inQuote : Bool) (text : List Char) : Prop where
  quotes : Even (text.count '"' + inQuote.toNat)
  parens : IsBalanced depth '(' ')' (unquoted inQuote text)
  comments : CommentFree inQuote text

namespace IsGroup

lemma tail (hgroup : IsGroup depth inQuote (c :: text)) :
    IsGroup (parensAfter depth inQuote c) (quoteAfter inQuote c) text :=
  ⟨(even_quotes_cons inQuote c text).mp hgroup.quotes, hgroup.parens.parensAfter.2,
    hgroup.comments.tail⟩

lemma of_nil (hgroup : IsGroup depth inQuote []) : depth = 0 ∧ inQuote = false := by
  have hquotes := hgroup.quotes
  refine ⟨hgroup.parens.eq_zero, ?_⟩
  cases inQuote with
  | false => rfl
  | true => simp at hquotes

lemma not_comment (hgroup : IsGroup depth inQuote (c :: text)) (hrest : rest.head? ≠ some '/') :
    ¬(inQuote = false ∧ c = '/' ∧ (text ++ rest).head? = some '/') :=
  fun h => head?_append_ne (hgroup.comments.head?_ne h.1 h.2.1) hrest h.2.2

variable (hgroup : IsGroup depth inQuote text) (hrest : rest.head? ≠ some '/')
include hgroup hrest

lemma scanParamList_append {outer : Nat} (houter : 0 < outer) :
    scanParamList (outer + depth) inQuote (text ++ rest) =
      (scanParamList outer false rest).shift text.length := by
  induction text generalizing depth inQuote with
  | nil =>
    obtain ⟨rfl, rfl⟩ := hgroup.of_nil
    cases hscan : scanParamList outer false rest <;> simp [hscan, ListEnd.shift]
  | cons c text ih =>
    have hafter := hgroup.parens.parensAfter.1
    have hclose : ¬(inQuote = false ∧ c = ')' ∧ outer + depth ≤ 1) := by
      rintro ⟨rfl, rfl, hle⟩
      simp [outside, parensAfter] at hafter
      omega
    have hdepth : parensAfter (outer + depth) inQuote c = outer + parensAfter depth inQuote c := by
      unfold outside parensAfter at *
      grind
    rw [cons_append, scanParamList_cons hclose (hgroup.not_comment hrest), hdepth,
      ih hgroup.tail, ListEnd.shift_shift]
    rfl

lemma commentStart?_append :
    commentStart? inQuote (text ++ rest) = (commentStart? false rest).map (· + text.length) := by
  induction text generalizing depth inQuote with
  | nil =>
    obtain ⟨-, rfl⟩ := hgroup.of_nil
    simp
  | cons c text ih =>
    have hlater : commentStart? (if c = '"' then !inQuote else inQuote) (text ++ rest) = _ :=
      ih hgroup.tail
    rw [cons_append, commentStart?, if_neg (hgroup.not_comment hrest), hlater, Option.map_map]
    rfl

end IsGroup

/-- After `depth` opening marks the text closes what is open, and no comma in it
stands outside. -/
structure IsPiece (depth : Nat) (inQuote : Bool) (text : List Char) : Prop where
  quotes : Even (text.count '"' + inQuote.toNat)
  beginnings : ∀ front, front <+: unquoted inQuote text →
    front.count ')' + front.count ']' ≤ depth + front.count '(' + front.count '['
  whole : (unquoted inQuote text).count ')' + (unquoted inQuote text).count ']' =
    depth + (unquoted inQuote text).count '(' + (unquoted inQuote text).count '['
  commas : CommasInside depth (unquoted inQuote text)

lemma IsPiece.tail (hpiece : IsPiece depth inQuote (c :: text)) :
    ¬(c = ',' ∧ inQuote = false ∧ depth = 0) ∧
      IsPiece (bracketsAfter depth inQuote c) (quoteAfter inQuote c) text := by
  obtain ⟨hquotes, hbeginnings, hwhole, hcoms⟩ := hpiece
  rw [unquoted_cons] at hbeginnings hwhole hcoms
  have hfirst := hbeginnings _ (prefix_append (outside inQuote c) _)
  have hdepth : depth + (outside inQuote c).count '(' + (outside inQuote c).count '[' =
      bracketsAfter depth inQuote c + (outside inQuote c).count ')' +
        (outside inQuote c).count ']' := by
    unfold outside bracketsAfter at *
    grind
  have hlonger {front : List Char} (hfront : front <+: unquoted (quoteAfter inQuote c) text) :=
    (prefix_append_right_inj (outside inQuote c)).mpr hfront
  simp only [count_append] at hwhole
  refine ⟨?_, (even_quotes_cons inQuote c text).mp hquotes, fun front hfront => ?_, by omega,
    fun front hfront => ?_⟩
  · rintro ⟨rfl, rfl, rfl⟩
    simpa using hcoms [] (by simp [outside])
  · have hcounts := hbeginnings _ (hlonger hfront)
    simp only [count_append] at hcounts
    omega
  · have hfronts := hlonger hfront
    rw [← append_assoc] at hfronts
    have hcounts := hcoms _ hfronts
    simp only [count_append] at hcounts
    omega

lemma IsPiece.splitTopLevel_append (hpiece : IsPiece depth inQuote text) (rest : List Char) :
    splitTopLevel depth inQuote (text ++ rest) =
      (splitTopLevel 0 false rest).modifyHead (text ++ ·) := by
  induction text generalizing depth inQuote with
  | nil =>
    have hquotes := hpiece.quotes
    obtain rfl : depth = 0 := by simpa [unquoted] using hpiece.whole.symm
    cases inQuote with
    | false => cases hsplit : splitTopLevel 0 false rest <;> simp [hsplit]
    | true => simp at hquotes
  | cons c text ih =>
    obtain ⟨hcomma, htail⟩ := hpiece.tail
    rw [cons_append, splitTopLevel_cons hcomma, ih htail]
    cases splitTopLevel 0 false rest <;> rfl

end

/-! ## What the readers of a parameter list pass over -/

structure IsPassed (text : List Char) : Prop where
  scan : ∀ rest, rest.head? ≠ some '/' →
    scanParamList 1 false (text ++ rest) = (scanParamList 1 false rest).shift text.length
  comment : ∀ rest, rest.head? ≠ some '/' →
    commentStart? false (text ++ rest) = (commentStart? false rest).map (· + text.length)
  split : ∀ rest, splitTopLevel 0 false (text ++ rest) =
    (splitTopLevel 0 false rest).modifyHead (text ++ ·)

lemma isPassed_of_closed {text : List Char} (hgroup : IsGroup 0 false text)
    (hpiece : IsPiece 0 false text) : IsPassed text where
  scan _ hrest := hgroup.scanParamList_append hrest Nat.one_pos
  comment _ hrest := hgroup.commentStart?_append hrest
  split := hpiece.splitTopLevel_append

lemma IsDefaultText.isPassed {value : List Char} (hvalue : IsDefaultText value) :
    IsPassed value := by
  have hquotes : Even (value.count '"' + false.toNat) := hvalue.quotes
  have hcomments : CommentFree false value := hvalue.comments
  refine isPassed_of_closed ⟨hquotes, hvalue.parens, hcomments⟩
    ⟨hquotes, fun front hfront => ?_, ?_, hvalue.commas⟩
  · have hparens := hvalue.parens.beginnings front hfront
    have hbrackets := hvalue.brackets.beginnings front hfront
    omega
  · have hparens := hvalue.parens.whole
    have hbrackets := hvalue.brackets.whole
    omega

lemma IsPassed.plain_append {front text : List Char} (hfront : ∀ c ∈ front, PlainChar c)
    (htext : IsPassed text) : IsPassed (front ++ text) where
  scan rest hrest := by
    rw [append_assoc, scanParamList_plain hfront, htext.scan rest hrest,
      ListEnd.shift_shift, length_append, Nat.add_comm]
  comment rest hrest := by
    rw [append_assoc, commentStart?_plain fun c hc => (hfront c hc).unmarked,
      htext.comment rest hrest, Option.map_map]
    simp [Function.comp_def, Nat.add_assoc, Nat.add_comm front.length]
  split rest := by
    rw [append_assoc, splitTopLevel_plain hfront, htext.split, modifyHead_modifyHead]
    simp [Function.comp_def]

lemma isPassed_nil : IsPassed [] where
  scan rest _ := by cases hscan : scanParamList 1 false rest <;> simp [hscan, ListEnd.shift]
  comment rest _ := by simp
  split rest := by cases hsplit : splitTopLevel 0 false rest <;> simp [hsplit]

/-! ## One parameter -/

lemma plainChar_of_isIdentPart (hc : isIdentPart c) : PlainChar c ∧ c ≠ '=' := by
  refine ⟨?_, ?_⟩
  · constructor <;> (rintro rfl; revert hc; decide)
  · rintro rfl
    revert hc
    decide

lemma tokensFrom_identifier {word : List Char} (hword : IsIdentifier word) (rest : List Char)
    (hrest : rest.head?.any isIdentPart = false) (column : Nat) :
    tokensFrom column (word ++ rest) =
      ⟨.identifier, String.ofList word, column⟩ :: tokensFrom (column + word.length) rest := by
  obtain ⟨hstart, hpart⟩ := hword
  cases word with
  | nil => cases hstart
  | cons c body =>
    have hlen := runLength_append_eq_iff.mpr ⟨fun d hd => hpart d (mem_cons_of_mem _ hd), hrest⟩
    have hlex : lexeme c (body ++ rest) = (some .identifier, body.length) := by
      rw [lexeme_identifier hstart, hlen]
    rw [cons_append, tokensFrom_append hlex]
    rfl

lemma isBlank_of_mem_space : ∀ c ∈ [' '], isBlank c := forall_mem_singleton.mpr (by decide)

lemma trim_blank_append (hgap : ∀ c ∈ gap, isBlank c) (text : List Char) :
    trim (gap ++ text) = trim text := by
  rw [trim, trimStart_append_of_blank hgap]
  rfl

lemma trim_eq_self {text : List Char} (hhead : text.head?.any isBlank = false)
    (hlast : text.getLast?.any isBlank = false) : trim text = text := by
  have hend : trimEnd text = (trimStart text.reverse).reverse := rfl
  rw [trim, trimStart_of_head hhead, hend, trimStart_of_head (by rwa [head?_reverse]),
    reverse_reverse]

lemma isIdentifier_val : IsIdentifier "Знач".toList := by
  decide +kernel

def Parameter.front (parameter : Parameter) : List Char :=
  (if parameter.byValue then "Знач ".toList else []) ++ parameter.name.toList

def Parameter.back (parameter : Parameter) : List Char := match parameter.default? with
  | some value => " = ".toList ++ value.toList
  | none => []

lemma Parameter.toList_label (parameter : Parameter) :
    parameter.label.toList = parameter.front ++ parameter.back := by
  unfold label front back
  rw [String.toList_append, String.toList_append]
  congr 1
  · split <;> simp
  · cases parameter.default? <;> simp

namespace Parameter.IsDeclarable

variable {parameter : Parameter} (hdecl : parameter.IsDeclarable)
include hdecl

lemma plainChar_front : ∀ c ∈ parameter.front, PlainChar c ∧ c ≠ '=' := by
  have hmark : "Знач ".toList = "Знач".toList ++ [' '] := rfl
  intro c hc
  rcases mem_append.mp hc with hval | hname
  · split at hval
    · rw [hmark] at hval
      rcases mem_append.mp hval with hword | hspace
      · exact plainChar_of_isIdentPart (isIdentifier_val.part c hword)
      · have hblank := isBlank_of_mem_space c hspace
        exact ⟨plainChar_of_isBlank hblank, ne_of_isBlank hblank (by decide)⟩
    · cases hval
  · exact plainChar_of_isIdentPart (hdecl.name.part c hname)

lemma isPassed_label : IsPassed parameter.label.toList := by
  have hback : IsPassed parameter.back := by
    unfold back
    split
    next value hvalue =>
      have hplain : " = ".toList.all fun c => decide (PlainChar c) := by decide
      exact .plain_append (fun c hc => of_decide_eq_true (all_eq_true.mp hplain c hc))
        (hdecl.default value hvalue).isPassed
    next => exact isPassed_nil
  rw [toList_label]
  exact .plain_append (fun c hc => (hdecl.plainChar_front c hc).1) hback

lemma break_notMem_label : '\n' ∉ parameter.label.toList := by
  rw [toList_label, front, back]
  simp only [mem_append, not_or]
  refine ⟨⟨?_, fun hname => ?_⟩, ?_⟩
  · split <;> decide
  · have hpart := hdecl.name.part _ hname
    revert hpart
    decide
  · split
    next value hvalue =>
      have hline := (hdecl.default value hvalue).oneLine
      simpa using hline
    next => simp

lemma foldl_step_front : (lexLine false parameter.front).1.foldl ParamHead.step {} =
      { byValue := parameter.byValue, name := some parameter.name } := by
  have hname (column : Nat) :
      tokensFrom column parameter.name.toList = [⟨.identifier, parameter.name, column⟩] := by
    have htoks := tokensFrom_identifier hdecl.name [] rfl column
    rwa [append_nil, String.ofList_toList, tokensFrom] at htoks
  have hnotVal := hdecl.notVal
  change (tokensFrom 0 parameter.front).foldl ParamHead.step {} = _
  unfold front
  cases parameter.byValue with
  | false => simp [hname, ParamHead.step, hnotVal]
  | true =>
    have hkw : Keyword.ofWord? "Знач" = some .val := by decide +kernel
    have hblank : lexeme ' ' ([] ++ parameter.name.toList) = (none, 0) := by
      have hrun : runLength isSeparator parameter.name.toList = 0 := by
        have hstart := hdecl.name.start
        rw [runLength_eq_zero_iff]
        cases htext : parameter.name.toList with
        | nil => rfl
        | cons c rest =>
          rw [htext] at hstart
          exact not_isSeparator_of_isIdentStart hstart
      simp [lexeme, isSeparator, hrun]
    have hspaced : tokensFrom 4 (' ' :: parameter.name.toList) =
        [⟨.identifier, parameter.name, 5⟩] := by
      have hspace := tokensFrom_append hblank 4
      rwa [hname] at hspace
    have htoks := tokensFrom_identifier isIdentifier_val (' ' :: parameter.name.toList) rfl 0
    have hfirst : tokensFrom 0 ("Знач ".toList ++ parameter.name.toList) =
        [⟨.identifier, "Знач", 0⟩, ⟨.identifier, parameter.name, 5⟩] :=
      htoks.trans (congrArg _ hspaced)
    simp only [if_true, hfirst]
    simp [ParamHead.step, hnotVal, hkw]

lemma trim_front : trim parameter.front = parameter.front := by
  have hstart := hdecl.name.start
  apply trim_eq_self
  · unfold front
    split
    · rfl
    · exact head_not_isBlank hstart
  · have hne : parameter.name.toList ≠ [] := by
      intro hnil
      rw [hnil] at hstart
      cases hstart
    have hlast := hdecl.name.part _ (getLast_mem hne)
    rw [front, getLast?_append_of_ne_nil _ hne, getLast?_eq_some_getLast hne]
    exact not_isBlank_of_isHeaderNamePart (isHeaderNamePart_of_isIdentPart hlast)

lemma ofPiece?_label (hgap : ∀ c ∈ gap, isBlank c) :
    ofPiece? (gap ++ parameter.label.toList) = some parameter := by
  have hblank := isBlank_of_mem_space
  have hhead (after : List Char) (hafter : ∀ c ∈ after, isBlank c) :
      paramHead (gap ++ (parameter.front ++ after)) =
        { byValue := parameter.byValue, name := some parameter.name } := by
    rw [paramHead, trim_blank_append hgap, trim_append_blank hafter, hdecl.trim_front]
    exact hdecl.foldl_step_front
  have hcut : cutDefault 0 false (gap ++ parameter.label.toList) =
      (gap ++ (parameter.front ++ (cutDefault 0 false parameter.back).1),
        (cutDefault 0 false parameter.back).2) := by
    rw [toList_label, cutDefault_blank_append hgap,
      cutDefault_plain (fun c hc => (hdecl.plainChar_front c hc).1)
        (fun hmem => (hdecl.plainChar_front _ hmem).2 rfl)]
  rw [ofPiece?_eq, hcut]
  obtain ⟨name, byValue, default?⟩ := parameter
  cases default? with
  | none =>
    have hback : cutDefault 0 false (back ⟨name, byValue, none⟩) = ([], none) := rfl
    simp only [hback, hhead [] (by simp), Option.map_some, Option.map_none, Option.filter_none]
  | some value =>
    have hvalue := hdecl.default value rfl
    have hback : cutDefault 0 false (back ⟨name, byValue, some value⟩) =
        ([' '], some (' ' :: value.toList)) := by
      simp [back, cutDefault, parensAfter, quoteAfter]
    have htrim : trim (' ' :: value.toList) = value.toList :=
      (trim_blank_append hblank value.toList).trans hvalue.trimmed
    have hkept : (some value.toList).filter (· ≠ []) = some value.toList :=
      Option.filter_some_pos (by simpa using hvalue.nonempty)
    simp only [hback, hhead [' '] hblank, Option.map_some, htrim, hkept, String.ofList_toList]

end Parameter.IsDeclarable

/-! ## All parameters -/

def paramText (params : List Parameter) : List Char :=
  joinWith [',', ' '] (params.map fun parameter => parameter.label.toList)

lemma paramText_singleton (parameter : Parameter) :
    paramText [parameter] = parameter.label.toList := rfl

lemma paramText_cons (parameter : Parameter) {rest : List Parameter} (hrest : rest ≠ []) :
    paramText (parameter :: rest) = parameter.label.toList ++ ',' :: ([' '] ++ paramText rest) := by
  rw [paramText, map_cons, joinWith_cons _ _ (by simpa using hrest), append_assoc]
  rfl

section ParamText

variable {params : List Parameter} (hpars : ∀ parameter ∈ params, parameter.IsDeclarable)
include hpars

lemma scanParamList_paramText (after : List Char) :
    scanParamList 1 false (paramText params ++ ')' :: after) =
      .closed ((paramText params).length + 1) := by
  induction params with
  | nil => rfl
  | cons parameter rest ih =>
    obtain ⟨hpar, hrest⟩ := forall_mem_cons.mp hpars
    by_cases hnil : rest = []
    · subst hnil
      rw [paramText_singleton, hpar.isPassed_label.scan _ (by simp)]
      simp [scanParamList, ListEnd.shift, Nat.add_comm]
    · rw [paramText_cons _ hnil, append_assoc, hpar.isPassed_label.scan _ (by simp)]
      simp [scanParamList, ih hrest, ListEnd.shift]
      omega

lemma commentStart?_paramText : commentStart? false (paramText params) = none := by
  induction params with
  | nil => rfl
  | cons parameter rest ih =>
    obtain ⟨hpar, hrest⟩ := forall_mem_cons.mp hpars
    have hlabel := hpar.isPassed_label
    by_cases hnil : rest = []
    · subst hnil
      rw [paramText_singleton, ← append_nil parameter.label.toList, hlabel.comment _ (by simp)]
      rfl
    · rw [paramText_cons _ hnil, hlabel.comment _ (by simp)]
      simp [commentStart?, ih hrest]

lemma filterMap_splitTopLevel (hne : params ≠ []) (hgap : ∀ c ∈ gap, isBlank c) :
    (splitTopLevel 0 false (gap ++ paramText params)).filterMap Parameter.ofPiece? = params := by
  have hcomma (text : List Char) :
      splitTopLevel 0 false (',' :: text) = [] :: splitTopLevel 0 false text := by
    simp [splitTopLevel]
  induction params generalizing gap with
  | nil => exact absurd rfl hne
  | cons parameter rest ih =>
    obtain ⟨hpar, hrest⟩ := forall_mem_cons.mp hpars
    have hlabel := hpar.isPassed_label.plain_append fun c hc => plainChar_of_isBlank (hgap c hc)
    have hpiece := hpar.ofPiece?_label hgap
    by_cases hnil : rest = []
    · subst hnil
      rw [paramText_singleton, ← append_nil (gap ++ _), hlabel.split]
      simp [splitTopLevel, hpiece]
    · rw [paramText_cons _ hnil, ← append_assoc, hlabel.split, hcomma,
        modifyHead_cons, append_nil, filterMap_cons_some hpiece,
        ih hrest hnil isBlank_of_mem_space]

lemma break_notMem_paramText : '\n' ∉ paramText params := by
  intro hmem
  rcases mem_of_mem_joinWith hmem with hsep | ⟨label, hlabel, hbreak⟩
  · revert hsep
    decide
  · obtain ⟨parameter, hpar, rfl⟩ := mem_map.mp hlabel
    exact (hpars parameter hpar).break_notMem_label hbreak

lemma parseParams_paramText : parseParams (paramText params) = params := by
  have hlines : splitOn '\n' (paramText params) = [] ++ [paramText params] :=
    splitOn_joinWith (forall_mem_singleton.mpr (break_notMem_paramText hpars)) (cons_ne_nil _ _)
  have hstrip : stripLineComments (paramText params) = paramText params := by
    rw [stripLineComments_eq hlines, beforeComment, commentStart?_paramText hpars]
    split
    next hnil => rw [hnil]; rfl
    next => rfl
  rw [parseParams_eq, hstrip]
  have hgap : ∀ c ∈ ([] : List Char), isBlank c := by simp
  by_cases hne : params = []
  · subst hne
    change [[]].filterMap Parameter.ofPiece? = []
    rw [filterMap_cons_none (Parameter.ofPiece?_blank hgap), filterMap_nil]
  · exact filterMap_splitTopLevel hpars hne hgap

end ParamText

/-! ## The module with a label -/

def procedureFront : List Char := "Процедура ".toList

def headerLine (name : List Char) (params : List Parameter) : List Char :=
  procedureFront ++ (name ++ ([] ++ '(' :: (paramText params ++ [')'])))

def terminatorLine : List Char := "КонецПроцедуры".toList

lemma headerParts_headerLine {name : List Char} (hname : IsIdentifier name) :
    HeaderParts procedureFront "Процедура".toList name [] := by
  have hword : SpacedWord methodWords "Процедура".toList procedureFront [] :=
    ⟨⟨"процедура", by decide +kernel, by decide +kernel⟩,
      ⟨[' '], by simp, isBlank_of_mem_space, rfl⟩, rfl⟩
  refine ⟨⟨procedureFront, .inl rfl, hword⟩, ?_, ?_, by simp, ?_⟩
  · have hstart := hname.start
    cases name with
    | nil => cases hstart
    | cons c rest =>
      have hc : isIdentStart c := hstart
      simp [isHeaderNameStart, hc]
  · exact fun c hc => isHeaderNamePart_of_isIdentPart (hname.part c hc)
  · have hfront : '(' ∉ procedureFront := by decide
    simp only [append_nil, mem_append, not_or]
    exact ⟨hfront, fun hmem => (plainChar_of_isIdentPart (hname.part _ hmem)).1.leftParen rfl⟩

variable {name : List Char} {params : List Parameter}

lemma splitLines_headerLine
    (hname : IsIdentifier name) (hpars : ∀ parameter ∈ params, parameter.IsDeclarable) :
    splitLines (headerLine name params ++ '\n' :: terminatorLine) =
      [headerLine name params, terminatorLine] := by
  have hhdr : '\n' ∉ headerLine name params := by
    have hfront : '\n' ∉ procedureFront := by decide
    have hbreak : '\n' ∉ name := by
      intro hmem
      have hpart := hname.part _ hmem
      revert hpart
      decide
    have hlist := break_notMem_paramText hpars
    simp only [headerLine, mem_append, mem_cons, not_or]
    exact ⟨hfront, hbreak, by simp, by decide, hlist, by decide, by simp⟩
  have hterm : '\n' ∉ terminatorLine := by decide
  have hlast : (headerLine name params).getLast? = some ')' := by
    simp only [headerLine, ← append_assoc, ← cons_append, getLast?_concat]
  have hret : dropReturn (headerLine name params) = headerLine name params := by
    rw [dropReturn, hlast]
    rfl
  have hline {line : List Char} (hline : '\n' ∉ line) : splitOn '\n' line = [line] :=
    splitOn_joinWith (forall_mem_singleton.mpr hline) (cons_ne_nil _ _)
  rw [splitLines, splitOn_append_cons, hline hhdr, hline hterm]
  change [dropReturn (headerLine name params), terminatorLine] = _
  rw [hret]

def declaredMethod
    (file : Path) (name : List Char) (params : List Parameter) (paramSymbols : List Symbol) :
    OpenMethod where
  symbol := {
    name := String.ofList name
    kind := .procedure
    range := ⟨file, 0, 0, 10⟩
    params }
  params := paramSymbols

lemma scanLine_headerLine
    (hname : IsIdentifier name) (hpars : ∀ parameter ∈ params, parameter.IsDeclarable)
    (table : ModuleTable) (following : List (List Char)) :
    ∃ paramSymbols, ScanState.scanLine { table } 0 (headerLine name params) following =
      ({ table, current := some (declaredMethod table.file name params paramSymbols) }, 0) := by
  have hhdr : Header.ofLine? (headerLine name params) = _ :=
    Header.ofLine?_of_parts (headerParts_headerLine hname) _
  have hlist : ParamList.read (paramText params ++ [')']) following =
      ⟨paramText params, [], 0, true⟩ := by
    rw [ParamList.read_of_closed (scanParamList_paramText hpars [])]
    simp
  have htext : (headerLine name params).drop
      (Header.ofParts procedureFront "Процедура".toList name []).paramsStart =
        paramText params ++ [')'] := drop_paramsStart _ _ _ _ _
  have hlexed : lexLine false [] = ([], false) := by simp [lexLine, tokensFrom]
  have hkw : Keyword.ofWord? "Процедура" ≠ some .function := by decide +kernel
  have hfront : procedureFront.length = 10 := rfl
  rw [ScanState.scanLine_of_header 0 following rfl hhdr, htext, hlist, ScanState.beginMethod_eq]
  simp [ScanState.beforeMethod, ScanState.abandonMethod, hlexed, ScanState.afterExport,
    ScanState.leadsWithExport, ScanState.processTokens, ScanState.headerMethod,
    parseParams_paramText hpars, Header.ofParts, hkw, hfront, ScanState.range,
    ScanState.commentBlock, ScanState.currentRegion, declaredMethod]

lemma scanLine_terminatorLine
    (table : ModuleTable) (method : OpenMethod) (hkind : method.symbol.kind = .procedure)
    (hblocs : method.blocks = []) :
    ScanState.scanLine { table, current := some method } 1 terminatorLine [] =
      (ScanState.closeMethod { table, current := some method } 1, 0) := by
  have hpass : passesOver terminatorLine = false := by decide +kernel
  have hhdr : Header.ofLine? terminatorLine = none := by decide +kernel
  have hlexed : lexLine false terminatorLine = ([⟨.identifier, "КонецПроцедуры", 0⟩], false) := by
    decide +kernel
  have hkw : Keyword.ofWord? "КонецПроцедуры" = some .endProcedure := by decide +kernel
  have hstatement : ScanState.statementLine { table, current := some method } 1 terminatorLine =
      ScanState.closeMethod { table, current := some method } 1 := by
    simp [ScanState.statementLine, hlexed, ScanState.processTokens, hkw, ScanState.keyword,
      ScanState.terminate, hkind, hblocs, ScanState.addIssues]
  rw [ScanState.scanLine_of_statements 1 [] rfl hpass hhdr, hstatement]
  rfl

lemma toList_declaration {symbol : Symbol} (hkind : symbol.kind = .procedure) :
    ("Процедура " ++ symbol.signatureLabel ++ "\nКонецПроцедуры").toList =
      headerLine symbol.name.toList symbol.params ++ '\n' :: terminatorLine := by
  have hfront : "Процедура ".toList = procedureFront := rfl
  have hopening : "(".toList = ['('] := rfl
  have hcl : ")".toList = [')'] := rfl
  have hend : "\nКонецПроцедуры".toList = '\n' :: terminatorLine := by decide +kernel
  have hmeth : symbol.kind.isMethod := by rw [hkind]; rfl
  have hlist : (String.intercalate ", " (symbol.params.map Parameter.label)).toList =
      paramText symbol.params := by
    rw [String.toList_intercalate, map_map, paramText, joinWith_eq_intercalate]
    rfl
  rw [Symbol.signatureLabel, if_pos hmeth]
  simp only [String.toList_append, hlist, hfront, hopening, hcl, hend, headerLine,
    append_assoc, nil_append, cons_append]

lemma finish_closeMethod (table : ModuleTable) (method : OpenMethod) (line lastLine : Nat) :
    let finished := (ScanState.closeMethod { table, current := some method } line).finish lastLine
    finished.symbols = table.symbols ++ [{ method.symbol with
          range := { method.symbol.range with
            endLine := max line method.symbol.range.startLine } }] ∧
      finished.issues = table.issues :=
  ⟨rfl, rfl⟩

lemma dropByteOrderMark_headerLine (name : List Char) (params : List Parameter) (more : List Char) :
    dropByteOrderMark (headerLine name params ++ more) = headerLine name params ++ more := by
  have hfront : procedureFront = 'П' :: procedureFront.tail := rfl
  rw [headerLine, hfront]
  rfl

/-- A procedure that is declared with its label is read back with its name and its
parameters, and nothing else is found. -/
theorem parseModule_signatureLabel
    (file : Path) (dialect : Dialect) {symbol : Symbol} (hkind : symbol.kind = .procedure)
    (hname : IsIdentifier symbol.name.toList)
    (hparams : ∀ parameter ∈ symbol.params, parameter.IsDeclarable) :
    let table := parseModule file dialect
      ("Процедура " ++ symbol.signatureLabel ++ "\nКонецПроцедуры")
    table.symbols =
        [{ name := symbol.name
           kind := .procedure
           range := ⟨file, 0, 1, 10⟩
           params := symbol.params }] ∧
      table.issues = [] := by
  let chars := headerLine symbol.name.toList symbol.params ++ '\n' :: terminatorLine
  let start : ModuleTable := { file, dialect, text := String.ofList chars }
  obtain ⟨paramSymbols, hheader⟩ := scanLine_headerLine hname hparams start [terminatorLine]
  let method := declaredMethod file symbol.name.toList symbol.params paramSymbols
  have hterminator := scanLine_terminatorLine start method rfl rfl
  have hscan : ScanState.scanLines { table := start } 0
      [headerLine symbol.name.toList symbol.params, terminatorLine] =
        ScanState.closeMethod { table := start, current := some method } 1 := by
    rw [ScanState.scanLines, hheader]
    change ScanState.scanLines { table := start, current := some method } 1 [terminatorLine] = _
    rw [ScanState.scanLines, hterminator]
    exact ScanState.scanLines.eq_1 _ _
  have hparse : parseModule file dialect
      ("Процедура " ++ symbol.signatureLabel ++ "\nКонецПроцедуры") =
        (ScanState.scanLines { table := start } 0
          [headerLine symbol.name.toList symbol.params, terminatorLine]).finish 1 := by
    rw [parseModule, toList_declaration hkind, dropByteOrderMark_headerLine,
      splitLines_headerLine hname hparams]
    rfl
  obtain ⟨hsymbols, hissues⟩ := finish_closeMethod start method 1 1
  intro table
  simp only [table, hparse, hscan]
  refine ⟨hsymbols.trans ?_, hissues⟩
  simp [start, method, declaredMethod]

/-- Default values with calls, indices, doubled quotes and marks in strings. -/
theorem parseModule_signatureLabel_nested :
    let file := Path.ofText "a.bsl"
    let params : List Parameter :=
      [⟨"А", false, some "Ф(\"a, \"\"б)\", В[1, 2]) / 2"⟩, ⟨"Если", true, some "\"//\""⟩]
    let symbol : Symbol := { name := "П", kind := .procedure, range := ⟨file, 0, 0, 0⟩, params }
    let table := parseModule file .bsl
      ("Процедура " ++ symbol.signatureLabel ++ "\nКонецПроцедуры")
    (IsIdentifier symbol.name.toList ∧ ∀ parameter ∈ params, parameter.IsDeclarable) ∧
      table.symbols = [{ symbol with range := ⟨file, 0, 1, 10⟩ }] ∧ table.issues = [] := by
  intro file params symbol table
  have hname : IsIdentifier symbol.name.toList := by decide +kernel
  have hparams : ∀ parameter ∈ params, parameter.IsDeclarable := by
    simp only [params, forall_mem_cons]
    exact ⟨⟨by decide +kernel, by decide +kernel, by decide +kernel⟩,
      ⟨by decide +kernel, by decide +kernel, by decide +kernel⟩, by simp⟩
  exact ⟨⟨hname, hparams⟩, parseModule_signatureLabel file .bsl rfl hname hparams⟩

end BslInsight
