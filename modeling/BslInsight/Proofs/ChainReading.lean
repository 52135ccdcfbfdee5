import BslInsight.Proofs.CursorWords
import BslInsight.Proofs.RewordedReading
import BslInsight.Proofs.SignatureLabels

/-!
# The two readers of chains

A chain of names and calls is read in two ways.  On the right side of an assignment
it is read forwards, token by token, and before a dot it is read backwards, character
by character.  Both pass over the arguments of a call up to the other parenthesis,
and both find the same links.
-/

namespace BslInsight

open List

variable {depth : Nat} {inQuote : Bool} {rest : List Char} {c : Char} {kind : TokenKind}
  {parts : List ChainPart}

/-- A text on one line that can stand between the parentheses of a call. -/
@[mk_iff] structure IsArgumentText (text : List Char) : Prop where
  oneLine : '\n' ∉ text
  noDates : '\'' ∉ text
  quotes : Even (text.count '"')
  parens : IsBalanced 0 '(' ')' (unquoted false text)
  comments : ∀ front, front ++ ['/', '/'] <+: text → ¬ Even (front.count '"')

/-- A name with its arguments, if it is called, and the blanks around it and before the
arguments. -/
structure ChainPart where
  lead : List Char := []
  name : List Char
  gap : List Char := []
  arguments? : Option (List Char) := none
  trail : List Char := []

namespace ChainPart

def call (part : ChainPart) : List Char := match part.arguments? with
  | some arguments => '(' :: (arguments ++ [')'])
  | none => []

def text (part : ChainPart) : List Char :=
  part.lead ++ (part.name ++ (part.gap ++ (part.call ++ part.trail)))

def link (part : ChainPart) : ChainLink := ⟨String.ofList part.name, part.arguments?.isSome⟩

structure IsPlain (part : ChainPart) : Prop where
  name : IsIdentifier part.name
  notKeyword : isKeyword (String.ofList part.name) = false
  blanks : ∀ c ∈ part.lead ++ part.gap ++ part.trail, c ∈ [' ', '\t']
  arguments : ∀ arguments ∈ part.arguments?, IsArgumentText arguments

end ChainPart

instance (text : List Char) : Decidable (IsArgumentText text) :=
  have := decidableBefore (fun front => ¬ Even (front.count '"')) ['/', '/'] text
  decidable_of_iff _ (isArgumentText_iff text).symm

def chainText (parts : List ChainPart) : List Char := joinWith ['.'] (parts.map ChainPart.text)

/-! ## Forwards -/

lemma IsArgumentText.isGroup {text : List Char} (htext : IsArgumentText text) :
    IsGroup 0 false text :=
  ⟨htext.quotes, htext.parens, htext.comments⟩

lemma IsGroup.quotedTail {text : List Char} (hgroup : IsGroup depth true text)
    (hbreak : '\n' ∉ text) {after : List Char} (hafter : after.head?.any (· == '"') = false) :
    ∃ body rest, text = body ++ rest ∧ quotedTail (text ++ after) = (true, body.length) ∧
      IsGroup depth false rest := by
  induction text using quotedTail.induct with
  | case1 => cases hgroup.of_nil.2
  | case2 rest ih =>
    simp only [mem_cons, not_or] at hbreak
    obtain ⟨body, tail, rfl, htail, hrest⟩ := ih hgroup.tail.tail hbreak.2.2
    refine ⟨'"' :: '"' :: body, tail, rfl, ?_, hrest⟩
    simp only [cons_append, BslInsight.quotedTail]
    rw [htail]
    rfl
  | case3 rest hsing =>
    refine ⟨['"'], rest, rfl, ?_, hgroup.tail⟩
    rw [cons_append, quotedTail_closing]
    · rfl
    · cases rest with
      | nil => exact hafter
      | cons d tail =>
        have hd : d ≠ '"' := fun h => hsing tail rfl (h ▸ rfl)
        simpa using hd
  | case4 rest _ => simp at hbreak
  | case5 c rest _ hquote hfeed ih =>
    simp only [mem_cons, not_or] at hbreak
    have hrest := hgroup.tail
    rw [quoteAfter, if_neg hquote] at hrest
    obtain ⟨body, tail, rfl, htail, hshut⟩ := ih hrest hbreak.2
    refine ⟨c :: body, tail, rfl, ?_, hshut⟩
    rw [cons_append, quotedTail_cons hquote hfeed, htail]
    rfl

lemma IsGroup.of_append {body : List Char} (hbody : ∀ c ∈ body, c ∉ ['"', '(', ')'])
    (hgroup : IsGroup depth false (body ++ rest)) : IsGroup depth false rest := by
  induction body with
  | nil => exact hgroup
  | cons c body ih =>
    obtain ⟨hc, hbody⟩ := forall_mem_cons.mp hbody
    simp only [mem_cons, not_mem_nil, or_false, not_or] at hc
    have hrest := hgroup.tail
    simp only [parensAfter, quoteAfter, hc, if_false, Bool.false_eq_true] at hrest
    exact ih hbody hrest

lemma tokensFrom_mark (hc : ∀ rest, lexeme c rest = (some kind, 0)) (rest : List Char)
    (column : Nat) :
    tokensFrom column (c :: rest) =
      ⟨kind, String.ofList [c], column⟩ :: tokensFrom (column + 1) rest := by
  rw [tokensFrom, hc]
  rfl

lemma lexeme_leftParen (rest : List Char) : lexeme '(' rest = (some .leftParen, 0) := rfl

lemma lexeme_rightParen (rest : List Char) : lexeme ')' rest = (some .rightParen, 0) := rfl

lemma lexeme_ne_paren (hc : c ∉ ['(', ')']) (rest : List Char) :
    (lexeme c rest).1 ≠ some .leftParen ∧ (lexeme c rest).1 ≠ some .rightParen := by
  simp only [mem_cons, not_mem_nil, or_false, not_or] at hc
  by_cases hident : isIdentStart c
  · simp [lexeme_identifier hident]
  by_cases hdigit : isDecimalDigit c
  · simp [lexeme_number hdigit]
  unfold lexeme
  simp only [hident, hdigit, if_false, Bool.false_eq_true]
  split
  · simp
  split
  case h_1 | h_2 => split <;> simp
  case h_3 | h_4 | h_5 | h_7 => split <;> simp
  case h_6 => split <;> simp
  case h_12 => exact absurd rfl hc.1
  case h_13 => exact absurd rfl hc.2
  all_goals simp

lemma exists_lexeme_of_plain (hc : c ∉ ['"', '(', ')']) (hdate : c ≠ '\'')
    (hslash : c = '/' → rest.head? ≠ some '/') (after : List Char) :
    ∃ body tail, rest = body ++ tail ∧ (∀ d ∈ body, d ∉ ['"', '(', ')']) ∧
      ∃ kind, lexeme c (body ++ (tail ++ ')' :: after)) = (kind, body.length) := by
  by_cases hcom : c = '/'
  · subst hcom
    refine ⟨[], rest, rfl, by simp, some .operator, ?_⟩
    have hhead : (rest ++ ')' :: after).head? ≠ some '/' := head?_append_ne (hslash rfl) (by simp)
    rw [nil_append, lexeme_slash, if_neg hhead, length_nil]
  have houter {d : Char} (hd : isOuter d) :
      d ∉ (rest ++ ')' :: after).take (lexeme c (rest ++ ')' :: after)).2 := by
    refine not_mem_lexeme hd ?_ _
    simp only [mem_cons, not_mem_nil, or_false, not_or] at hc ⊢
    exact ⟨hc.1, hdate, hcom⟩
  have hshort : (lexeme c (rest ++ ')' :: after)).2 ≤ rest.length := by
    by_contra hlong
    have hparen : isOuter ')' := by decide +kernel
    refine houter hparen ?_
    rw [take_append, mem_append]
    obtain ⟨extra, hextra⟩ := Nat.exists_eq_add_of_lt (Nat.lt_of_not_le hlong)
    have hleft : (lexeme c (rest ++ ')' :: after)).2 - rest.length = extra + 1 := by omega
    rw [hleft]
    exact .inr mem_cons_self
  refine ⟨rest.take (lexeme c (rest ++ ')' :: after)).2,
    rest.drop (lexeme c (rest ++ ')' :: after)).2,
    (take_append_drop _ _).symm, ?_, (lexeme c (rest ++ ')' :: after)).1, ?_⟩
  · intro d hd hmark
    have hmem := mem_append_left
      (List.take ((lexeme c (rest ++ ')' :: after)).2 - rest.length) (')' :: after)) hd
    rw [← take_append] at hmem
    refine houter ?_ hmem
    simp only [mem_cons, not_mem_nil, or_false] at hmark
    rcases hmark with rfl | rfl | rfl <;> decide +kernel
  · rw [← append_assoc, take_append_drop, length_take_of_le hshort]

lemma afterCall?_tokensFrom {text : List Char} (hgroup : IsGroup depth false text)
    (hbreak : '\n' ∉ text) (hdate : '\'' ∉ text) (after : List Char) (column : Nat) :
    afterCall? depth (tokensFrom column (text ++ ')' :: after)) =
      some (tokensFrom (column + text.length + 1) after) := by
  induction hlen : text.length using Nat.strong_induction_on generalizing depth text column with
  | _ length ih =>
    subst hlen
    -- The text without a lexeme at its beginning.
    have hlater {outer : Nat} {c : Char} (body : List Char) {rest : List Char}
        (htext : text = c :: (body ++ rest)) (hrest : IsGroup outer false rest) :
        afterCall? outer (tokensFrom (column + body.length + 1) (rest ++ ')' :: after)) =
          some (tokensFrom (column + text.length + 1) after) := by
      subst htext
      simp only [mem_cons, mem_append, not_or] at hbreak hdate
      have hcol : column + (c :: (body ++ rest)).length + 1 =
          column + body.length + 1 + rest.length + 1 := by
        simp only [length_cons, length_append]
        omega
      rw [hcol]
      refine ih rest.length ?_ hrest hbreak.2.2 hdate.2.2 _ rfl
      simp only [length_cons, length_append]
      omega
    -- A lexeme that is no parenthesis.
    have hstep {c : Char} {body rest : List Char} {kind : Option TokenKind}
        (htext : text = c :: (body ++ rest)) (hc : c ∉ ['(', ')'])
        (hlex : lexeme c (body ++ (rest ++ ')' :: after)) = (kind, body.length))
        (hrest : IsGroup depth false rest) :
        afterCall? depth (tokensFrom column (text ++ ')' :: after)) =
          some (tokensFrom (column + text.length + 1) after) := by
      have hkinds := lexeme_ne_paren hc (body ++ (rest ++ ')' :: after))
      rw [hlex] at hkinds
      rw [← hlater body htext hrest, htext, cons_append, append_assoc, tokensFrom_append hlex]
      cases kind with
      | none => rfl
      | some kind =>
        simp only [ne_eq, Option.some.injEq] at hkinds
        simp [afterCall?, hkinds]
    cases text with
    | nil =>
      obtain ⟨rfl, -⟩ := hgroup.of_nil
      rw [nil_append, tokensFrom_mark lexeme_rightParen]
      rfl
    | cons c text =>
      have hrest := hgroup.tail
      by_cases hquote : c = '"'
      · subst hquote
        have hparen : (')' :: after).head?.any (· == '"') = false := rfl
        obtain ⟨body, rest, rfl, htail, hshut⟩ :=
          hrest.quotedTail (not_mem_of_not_mem_cons hbreak) hparen
        rw [append_assoc, ← lexeme_eq_stringLiteral_iff] at htail
        exact hstep rfl (by decide) htail hshut
      rw [quoteAfter, if_neg hquote] at hrest
      by_cases hopen : c = '('
      · subst hopen
        rw [cons_append, tokensFrom_mark lexeme_leftParen]
        exact hlater [] rfl hrest
      by_cases hclose : c = ')'
      · subst hclose
        have hdepth : depth = depth - 1 + 1 := hgroup.parens.parensAfter.1
        rw [cons_append, tokensFrom_mark lexeme_rightParen, hdepth]
        exact hlater [] rfl hrest
      have hkept : parensAfter depth false c = depth := by simp [parensAfter, hopen, hclose]
      obtain ⟨body, tail, rfl, hbody, kind, hlex⟩ :=
        exists_lexeme_of_plain (by simp [hquote, hopen, hclose])
          (ne_of_not_mem_cons hdate).symm (hgroup.comments.head?_ne rfl) after
      rw [hkept] at hrest
      exact hstep rfl (by simp [hopen, hclose]) hlex (hrest.of_append hbody)

lemma any_head_append {p : Char → Bool} {gap text : List Char} (hgap : ∀ c ∈ gap, p c = false)
    (htext : text.head?.any p = false) : (gap ++ text).head?.any p = false := by
  cases gap with
  | nil => exact htext
  | cons c gap => exact hgap c mem_cons_self

def chainMarks : List (Char × TokenKind) := [('.', .dot), (';', .semicolon)]

lemma of_chainMark (hmark : (c, kind) ∈ chainMarks) :
    isIdentPart c = false ∧ kind ≠ .leftParen ∧ ∀ rest, lexeme c rest = (some kind, 0) := by
  simp only [chainMarks, mem_cons, Prod.mk.injEq, not_mem_nil, or_false] at hmark
  obtain ⟨rfl, rfl⟩ | ⟨rfl, rfl⟩ := hmark
  · exact ⟨by decide +kernel, by decide, fun _ => rfl⟩
  · exact ⟨by decide +kernel, by decide, fun _ => rfl⟩

namespace ChainPart

variable {part : ChainPart} (hpart : part.IsPlain)

include hpart

lemma IsPlain.separators : ∀ c ∈ part.lead ++ part.gap ++ part.trail, isSeparator c := by
  intro c hc
  have hblank := hpart.blanks c hc
  simp only [mem_cons, not_mem_nil, or_false] at hblank
  rcases hblank with rfl | rfl <;> rfl

lemma callTail?_call (hmark : (c, kind) ∈ chainMarks) (rest : List Char) (column : Nat) :
    callTail? (tokensFrom column (part.call ++ (part.trail ++ c :: rest))) =
      some (tokensFrom (column + part.call.length + part.trail.length) (c :: rest),
        part.arguments?.isSome) := by
  have htrail : ∀ c ∈ part.trail, isSeparator c :=
    fun c hc => hpart.separators c (mem_append_right _ hc)
  cases hargs : part.arguments? with
  | none =>
    obtain ⟨-, hkind, hlex⟩ := of_chainMark hmark
    simp only [call, hargs, nil_append, length_nil, Nat.add_zero]
    rw [tokensFrom_separators htrail, tokensFrom_mark hlex, callTail?, if_neg hkind]
    rfl
  | some arguments =>
    have htext := hpart.arguments arguments hargs
    simp only [call, hargs, cons_append, append_assoc, nil_append]
    rw [tokensFrom_mark lexeme_leftParen, callTail?, if_pos rfl,
      afterCall?_tokensFrom htext.isGroup htext.oneLine htext.noDates, tokensFrom_separators htrail]
    simp only [Option.map_some, length_cons, length_append, length_nil, Option.isSome_some]
    congr 3
    omega

lemma chainLinks?_text (hmark : (c, kind) ∈ chainMarks) (rest : List Char) (column : Nat) :
    chainLinks? (tokensFrom column (part.text ++ c :: rest)) = chainTail? (String.ofList part.name)
        (tokensFrom (column + part.text.length) (c :: rest), part.arguments?.isSome) := by
  have hblks (c : Char) (hc : c ∈ part.lead ∨ c ∈ part.gap ∨ c ∈ part.trail) : isSeparator c :=
    hpart.separators c (by simpa only [mem_append, or_assoc] using hc)
  have hblank (c : Char) (hc : c ∈ part.gap ∨ c ∈ part.trail) : isIdentPart c = false :=
    not_isIdentPart_of_isBlank (isBlank_of_isSeparator (hblks c (.inr hc)))
  have hend : (part.gap ++ (part.call ++ (part.trail ++ c :: rest))).head?.any isIdentPart =
      false := by
    refine any_head_append (fun c hc => hblank c (.inl hc)) ?_
    unfold call
    cases part.arguments? with
    | none =>
      rw [nil_append]
      exact any_head_append (fun c hc => hblank c (.inr hc)) (of_chainMark hmark).1
    | some arguments =>
      have hparen : isIdentPart '(' = false := by decide +kernel
      exact hparen
  have hlen : column + part.text.length = column + part.lead.length + part.name.length +
      part.gap.length + part.call.length + part.trail.length := by
    simp only [text, length_append]
    omega
  rw [hlen]
  simp only [text, append_assoc]
  rw [tokensFrom_separators fun c hc => hblks c (.inl hc),
    tokensFrom_identifier hpart.name _ hend, chainLinks?_cons, if_pos ⟨rfl, hpart.notKeyword⟩,
    tokensFrom_separators fun c hc => hblks c (.inr (.inl hc)), callTail?_call hpart hmark]
  rfl

end ChainPart

lemma chainText_cons (part : ChainPart) (hparts : parts ≠ []) :
    chainText (part :: parts) = part.text ++ '.' :: chainText parts := by
  rw [chainText, map_cons, joinWith_cons _ _ (by simpa using hparts)]
  simp [chainText]

lemma chainLinks?_chainText (hparts : parts ≠ []) (hplain : ∀ part ∈ parts, part.IsPlain)
    (column : Nat) :
    chainLinks? (tokensFrom column (chainText parts ++ [';'])) =
      some (parts.map ChainPart.link) := by
  induction parts generalizing column with
  | nil => exact absurd rfl hparts
  | cons part parts ih =>
    obtain ⟨hpart, hplain⟩ := forall_mem_cons.mp hplain
    by_cases hlast : parts = []
    · subst hlast
      have hmark : (';', TokenKind.semicolon) ∈ chainMarks := by simp [chainMarks]
      have hlinks := ChainPart.chainLinks?_text hpart hmark [] column
      rw [tokensFrom_mark (of_chainMark hmark).2.2] at hlinks
      exact hlinks
    · have hmark : ('.', TokenKind.dot) ∈ chainMarks := by simp [chainMarks]
      rw [chainText_cons part hlast, append_assoc, cons_append,
        ChainPart.chainLinks?_text hpart hmark, tokensFrom_mark (of_chainMark hmark).2.2]
      simp only [chainTail?, if_true, ih hlast hplain]
      rfl

/-! ## Backwards -/

lemma IsGroup.beforeGroup?_reverse {text : List Char} (hgroup : IsGroup depth inQuote text)
    (left : List Char) :
    beforeGroup? 1 false (text.reverse ++ left) = beforeGroup? (depth + 1) inQuote left := by
  induction text generalizing depth inQuote left with
  | nil =>
    obtain ⟨rfl, rfl⟩ := hgroup.of_nil
    rfl
  | cons c text ih =>
    have hdepth := hgroup.parens.parensAfter.1
    rw [reverse_cons, append_assoc, ih hgroup.tail, singleton_append, beforeGroup?]
    unfold outside parensAfter quoteAfter at *
    grind

namespace ChainPart

variable {part : ChainPart} (hpart : part.IsPlain)

include hpart

lemma IsPlain.reverse_name : ∃ c rest, part.name.reverse = c :: rest ∧ isIdentPart c := by
  cases hname : part.name.reverse with
  | nil =>
    have hstart := hpart.name.start
    rw [reverse_eq_nil_iff.mp hname] at hstart
    cases hstart
  | cons c rest =>
    refine ⟨c, rest, rfl, hpart.name.part c ?_⟩
    rw [← mem_reverse, hname]
    exact mem_cons_self

lemma callBefore?_reverse (left : List Char) : callBefore? (part.trail.reverse ++
        (part.call.reverse ++ (part.gap.reverse ++ (part.name.reverse ++ left)))) =
      some (part.arguments?.isSome, part.name.reverse ++ left) := by
  have hblks (c : Char) (hc : c ∈ part.lead ∨ c ∈ part.gap ∨ c ∈ part.trail) : isBlank c :=
    isBlank_of_isSeparator (hpart.separators c (by simpa only [mem_append, or_assoc] using hc))
  have htrail : ∀ c ∈ part.trail.reverse, isBlank c :=
    fun c hc => hblks c (.inr (.inr (mem_reverse.mp hc)))
  have hgap : ∀ c ∈ part.gap.reverse, isBlank c :=
    fun c hc => hblks c (.inr (.inl (mem_reverse.mp hc)))
  obtain ⟨c, rest, hname, hc⟩ := hpart.reverse_name
  have hnonblank : isBlank c = false := by
    by_contra hblank
    rw [Bool.not_eq_false] at hblank
    rw [not_isIdentPart_of_isBlank hblank] at hc
    cases hc
  have htrim : trimStart (part.gap.reverse ++ (part.name.reverse ++ left)) =
      part.name.reverse ++ left := by
    rw [trimStart_append_of_blank hgap, hname]
    exact trimStart_of_head hnonblank
  rw [callBefore?, trimStart_append_of_blank htrail]
  cases hargs : part.arguments? with
  | none =>
    have hparen : c ≠ ')' := (plainChar_of_isIdentPart hc).1.rightParen
    simp only [call, hargs, reverse_nil, nil_append, htrim]
    rw [hname, cons_append]
    split
    next hhead => exact absurd (List.cons.inj hhead).1 hparen
    next => rfl
  | some arguments =>
    have hgroup := (hpart.arguments arguments hargs).isGroup
    have htext : part.call.reverse ++ (part.gap.reverse ++ (part.name.reverse ++ left)) =
        ')' :: (arguments.reverse ++ '(' :: (part.gap.reverse ++ (part.name.reverse ++ left))) := by
      simp [call, hargs]
    have hparen (text : List Char) : trimStart (')' :: text) = ')' :: text :=
      trimStart_of_head (show isBlank ')' = false by decide)
    rw [htext, hparen]
    simp only [hgroup.beforeGroup?_reverse]
    rw [beforeGroup?, if_neg (by decide), if_neg (by decide), if_neg (by decide), if_pos rfl,
      if_pos (by decide), Option.map_some, htrim]
    rfl

lemma linkBefore?_reverse {left : List Char} (hleft : left.head?.any isWordChar = false) :
    linkBefore? (part.text.reverse ++ left) = some (part.link, part.lead.reverse ++ left) := by
  have hword : ∀ c ∈ part.name.reverse, isWordChar c := by
    intro c hc
    have hident := hpart.name.part c (mem_reverse.mp hc)
    simp only [isIdentPart, Bool.or_eq_true] at hident
    simp only [isWordChar, isAlphanumeric, Bool.or_eq_true]
    exact hident.imp_left .inl
  have hlead : (part.lead.reverse ++ left).head?.any isWordChar = false := by
    refine any_head_append (fun c hc => ?_) hleft
    have hblank := hpart.blanks c (by simp [mem_reverse.mp hc])
    simp only [mem_cons, not_mem_nil, or_false] at hblank
    rcases hblank with rfl | rfl <;> decide +kernel
  have htext : part.text.reverse ++ left = part.trail.reverse ++ (part.call.reverse ++
      (part.gap.reverse ++ (part.name.reverse ++ (part.lead.reverse ++ left)))) := by
    simp [text]
  have hwordBefore := wordBefore_append (by simpa using hword) hlead
  have hdrop := dropWhile_append_of_head hword hlead
  rw [htext, linkBefore?, callBefore?_reverse hpart]
  simp only [hwordBefore, hdrop]
  have hstart := hpart.name.start
  unfold link
  cases hname : part.name with
  | nil =>
    rw [hname] at hstart
    cases hstart
  | cons c rest =>
    rw [hname] at hstart
    simp [not_isDecimalDigit_of_isIdentStart hstart]

end ChainPart

lemma chainBefore?_eq (done : List ChainLink) (left : List Char) :
    chainBefore? done left = (linkBefore? left).bind fun found =>
      match trimStart found.2 with
      | '.' :: more => chainBefore? (found.1 :: done) more
      | _ => some (found.1 :: done) := by
  rw [chainBefore?]
  split
  next hlink => rw [hlink]; rfl
  next link rest hlink =>
      rw [hlink, Option.bind_some]
      split
      next hmore => simp only [hmore]
      next hoth =>
          split
          next more hmore => exact absurd hmore (hoth more)
          next => rfl

lemma chainBefore?_chainText (hparts : parts ≠ []) (hplain : ∀ part ∈ parts, part.IsPlain)
    (done : List ChainLink) :
    chainBefore? done (chainText parts).reverse = some (parts.map ChainPart.link ++ done) := by
  induction parts using reverseRecOn generalizing done with
  | nil => exact absurd rfl hparts
  | append_singleton parts part ih =>
    obtain ⟨hplain, hpart⟩ := forall_mem_append.mp hplain
    have hpart := forall_mem_singleton.mp hpart
    have hlead : ∀ c ∈ part.lead.reverse, isBlank c := fun c hc =>
      isBlank_of_isSeparator (hpart.separators c (by simp [mem_reverse.mp hc]))
    by_cases hfirst : parts = []
    · subst hfirst
      have htrim : trimStart (part.lead.reverse ++ []) = [] := by
        rw [trimStart_append_of_blank hlead]
        rfl
      have hstart : ([] : List Char).head?.any isWordChar = false := rfl
      have hlink := ChainPart.linkBefore?_reverse hpart hstart
      rw [append_nil] at hlink
      have htext : chainText ([] ++ [part]) = part.text := rfl
      rw [htext, chainBefore?_eq, hlink, Option.bind_some]
      simp only [htrim]
      rfl
    · have htext : (chainText (parts ++ [part])).reverse =
          part.text.reverse ++ '.' :: (chainText parts).reverse := by
        rw [chainText, map_append, joinWith_append _ (by simpa using hfirst) (by simp)]
        simp [chainText, joinWith]
      have htrim : trimStart (part.lead.reverse ++ '.' :: (chainText parts).reverse) =
          '.' :: (chainText parts).reverse := by
        rw [trimStart_append_of_blank hlead]
        exact trimStart_of_head (show isBlank '.' = false by decide)
      have hdot : ('.' :: (chainText parts).reverse).head?.any isWordChar = false :=
        show isWordChar '.' = false by decide +kernel
      rw [htext, chainBefore?_eq, ChainPart.linkBefore?_reverse hpart hdot, Option.bind_some]
      simp only [htrim]
      rw [ih hfirst hplain, map_append, append_assoc]
      rfl

/-- **Both readers find the links of a chain.**  The chain is more than a bare name; on the
right side of an assignment the statement ends after it, and before the cursor a dot
stands after it. -/
theorem chainReaders_agree
    {parts : List ChainPart} (hparts : parts ≠ []) (hplain : ∀ part ∈ parts, part.IsPlain)
    (hbare : ∀ part, parts = [part] → part.arguments?.isSome = true) :
    valueChain (lexLine false (chainText parts ++ [';'])).1 = parts.map ChainPart.link ∧
      receiverChain? (chainText parts ++ ['.']) (chainText parts).length =
        some (parts.map ChainPart.link) := by
  constructor
  · have htokens : (lexLine false (chainText parts ++ [';'])).1 =
        tokensFrom 0 (chainText parts ++ [';']) := rfl
    rw [htokens, valueChain, chainLinks?_chainText hparts hplain]
    obtain _ | ⟨part, _ | ⟨next, parts⟩⟩ := parts
    · exact absurd rfl hparts
    · have hcall : part.link.isCall = true := hbare part rfl
      simp [hcall]
    · rfl
  · have hdot : (chainText parts ++ ['.'])[(chainText parts).length]? = some '.' := by simp
    have hleft : leftOf (chainText parts ++ ['.']) (chainText parts).length =
        (chainText parts).reverse := by
      rw [leftOf, take_left]
    rw [receiverChain?, if_pos hdot, hleft, chainBefore?_chainText hparts hplain, append_nil]

/-- A call in a call, and a string with parentheses, dots and doubled quotes. -/
theorem chainReaders_agree_nested :
    let parts : List ChainPart := [{ lead := [' '], name := "Запрос".toList, trail := ['\t'] },
        { name := "Найти".toList, gap := [' '],
          arguments? := some "\"a).\"\"(//\", Мин(1.5, б / 2)".toList },
        { name := "Код1".toList }]
    (∀ part ∈ parts, part.IsPlain) ∧
      chainText parts = " Запрос\t.Найти (\"a).\"\"(//\", Мин(1.5, б / 2)).Код1".toList ∧
      valueChain (lexLine false (chainText parts ++ [';'])).1 =
        [⟨"Запрос", false⟩, ⟨"Найти", true⟩, ⟨"Код1", false⟩] ∧
      receiverChain? (chainText parts ++ ['.']) (chainText parts).length =
        some [⟨"Запрос", false⟩, ⟨"Найти", true⟩, ⟨"Код1", false⟩] := by
  intro parts
  have hplain : ∀ part ∈ parts, part.IsPlain := by
    simp only [parts, forall_mem_cons]
    exact ⟨⟨by decide +kernel, by decide +kernel, by simp, by simp⟩,
      ⟨by decide +kernel, by decide +kernel, by simp, by decide +kernel⟩,
      ⟨by decide +kernel, by decide +kernel, by simp, by simp⟩, by simp⟩
  exact ⟨hplain, by decide +kernel, chainReaders_agree (by simp [parts]) hplain (by simp [parts])⟩

end BslInsight
