import BslInsight.Proofs.Rewording

/-!
# Headers and terminators of aligned lines

Aligned lines are read in the same way: both are passed over or both are not,
and both begin or end a method or neither does.
-/

namespace BslInsight

open List

variable {c : Char} {body rest line word other : List Char} {kind : TokenKind}

/-! ## Blanks -/

def blankCodes : List Nat :=
  [9, 10, 11, 12, 13, 0x20, 0x85, 0xa0, 0x1680, 0x2000, 0x2001, 0x2002, 0x2003, 0x2004, 0x2005,
    0x2006, 0x2007, 0x2008, 0x2009, 0x200a, 0x2028, 0x2029, 0x202f, 0x205f, 0x3000]

lemma mem_blankCodes (hc : isBlank c) : c.toNat ∈ blankCodes := by
  simp only [isBlank, Bool.or_eq_true, Bool.and_eq_true, decide_eq_true_eq, beq_iff_eq] at hc
  simp only [blankCodes, mem_cons, not_mem_nil, or_false]
  omega

lemma of_isBlank {p : Char → Bool} (hcodes : ∀ code ∈ blankCodes, p (Char.ofNat code))
    (hc : isBlank c) : p c := by
  have hp := hcodes c.toNat (mem_blankCodes hc)
  rwa [Char.ofNat_toNat] at hp

lemma isBlank_of_isSeparator (hc : isSeparator c) : isBlank c := by
  simp only [isSeparator, Bool.or_eq_true, beq_iff_eq] at hc
  rcases hc with ((rfl | rfl) | rfl) | rfl <;> decide

lemma not_isIdentPart_of_isBlank (hc : isBlank c) : isIdentPart c = false := by
  have hnot := of_isBlank (p := fun c => !isIdentPart c) (by decide +kernel) hc
  simpa using hnot

lemma not_isBlank_of_isIdentStart (hc : isIdentStart c) : isBlank c = false := by
  rw [Bool.eq_false_iff]
  intro hblank
  have hpart := isIdentPart_of_isIdentStart hc
  rw [not_isIdentPart_of_isBlank hblank] at hpart
  cases hpart

lemma lexeme_blank (hc : isBlank c) (rest : List Char) :
    lexeme c rest = (none, if isSeparator c then runLength isSeparator rest else 0) := by
  by_cases hsep : isSeparator c
  · simp [lexeme, hsep]
  · have hident : isIdentStart c = false := by
      have hnot := of_isBlank (p := fun c => !isIdentStart c) (by decide +kernel) hc
      simpa using hnot
    have hdigit : isDecimalDigit c = false := by
      have hnot := of_isBlank (p := fun c => !isDecimalDigit c) (by decide +kernel) hc
      simpa using hnot
    have hsym : c ∉ symbolChars := by
      have hnot := of_isBlank (p := fun c => !symbolChars.contains c) (by decide +kernel) hc
      simpa using hnot
    rw [if_neg hsep]
    exact lexeme_of_not_symbol (by simpa using hsep) hident hdigit hsym rest

lemma blank_of_lexeme {kind : Option TokenKind}
    (hlex : lexeme c (body ++ rest) = (kind, body.length)) (hc : isBlank c) :
    kind = none ∧ ∀ d ∈ c :: body, isBlank d := by
  rw [lexeme_blank hc, Prod.mk.injEq] at hlex
  refine ⟨hlex.1.symm, forall_mem_cons.mpr ⟨hc, ?_⟩⟩
  split at hlex
  next =>
    have hrun := (runLength_append_eq_iff.mp hlex.2).1
    exact fun d hd => isBlank_of_isSeparator (hrun d hd)
  next =>
    rw [length_eq_zero_iff.mp hlex.2.symm]
    exact nofun

namespace Aligned

variable {text other : List Char}

lemma trimStart (halgn : Aligned text other) : Aligned (trimStart text) (trimStart other) := by
  induction halgn with
  | nil => exact .nil
  | @dropped c body rest others hlex hoth hrest ih =>
    by_cases hc : isBlank c
    · obtain ⟨-, hblank⟩ := blank_of_lexeme hlex hc
      rw [← cons_append, ← cons_append, trimStart_append_of_blank hblank,
        trimStart_append_of_blank hblank]
      exact ih
    · have hhead (tail : List Char) : (c :: tail).head?.any isBlank = false := by
        simpa using hc
      rw [trimStart_of_head (hhead _), trimStart_of_head (hhead _)]
      exact .dropped hlex hoth hrest
  | token hlex hoth hsense hrest =>
    have hhead {d : Char} {word tail : List Char} {kind : TokenKind}
        (hd : lexeme d (word ++ tail) = (some kind, word.length)) :
        (d :: (word ++ tail)).head?.any isBlank = false := by
      rw [head?_cons, Option.any_some, Bool.eq_false_iff]
      intro hblank
      cases (blank_of_lexeme hd hblank).1
    rw [trimStart_of_head (hhead hlex), trimStart_of_head (hhead hoth)]
    exact .token hlex hoth hsense hrest

end Aligned

lemma lexeme_slash_iff {length : Nat} (hlex : lexeme '/' rest = (some kind, length)) :
    rest.head? = some '/' ↔ kind = .comment := by
  rw [lexeme_slash] at hlex
  split at hlex
  next hcom =>
    obtain ⟨rfl, -⟩ : TokenKind.comment = kind ∧ _ := by simpa using hlex
    simpa using hcom
  next hoperator =>
    obtain ⟨rfl, -⟩ : TokenKind.operator = kind ∧ _ := by simpa using hlex
    simpa using hoperator

lemma Aligned.passesOver_eq (halgn : Aligned line other) : passesOver line = passesOver other := by
  have htrim := halgn.trimStart
  generalize hline : BslInsight.trimStart line = text at htrim
  generalize hoth : BslInsight.trimStart other = others at htrim
  cases htrim with
  | nil => rw [passesOver, passesOver, hline, hoth]
  | @dropped c body rest tail hlex =>
    rw [Bool.eq_iff_iff, passesOver_iff_of_cons hline, passesOver_iff_of_cons hoth]
    have hslash : c ≠ '/' := by
      rintro rfl
      rw [lexeme_slash] at hlex
      split at hlex <;> cases hlex
    simp [hslash]
  | @token c d body word rest tail kind hlex hlexemes hsense =>
    rw [Bool.eq_iff_iff, passesOver_iff_of_cons hline, passesOver_iff_of_cons hoth]
    rcases head_of_sameSense hlex hlexemes hsense with rfl | ⟨hc, hd⟩
    · have hslash : c = '/' ∧ (body ++ rest).head? = some '/' ↔
          c = '/' ∧ (word ++ tail).head? = some '/' := by
        refine and_congr_right ?_
        rintro rfl
        rw [lexeme_slash_iff hlex, lexeme_slash_iff hlexemes]
      rw [hslash]
    · have hne {e f : Char} (he : isIdentStart e) (hf : isIdentStart f = false) : e ≠ f :=
        bne_iff_ne.mp (bne_of_isIdentStart he hf)
      simp [hne hc (f := '&') (by decide), hne hc (f := '#') (by decide),
        hne hc (f := '/') (by decide), hne hd (f := '&') (by decide),
        hne hd (f := '#') (by decide), hne hd (f := '/') (by decide)]

/-! ## Words of aligned lines -/

lemma SameSense.ofWord?_eq (hsense : SameSense .identifier word other) :
    Keyword.ofWord? (String.ofList word) = Keyword.ofWord? (String.ofList other) := by
  cases hsense with
  | refl => rfl
  | keyword hword hoth => rw [hword, hoth]
  | content hkind => simp at hkind

lemma lexeme_word (hword : ∀ d ∈ c :: body, isLetter d)
    (hrest : rest.head?.any isIdentPart = false) :
    lexeme c (body ++ rest) = (some .identifier, body.length) := by
  have hstart (d : Char) (hd : d ∈ c :: body) : isIdentStart d :=
    isIdentStart_of_isLetter (hword d hd)
  rw [lexeme_identifier (hstart c mem_cons_self), Prod.mk.injEq, runLength_append_eq_iff]
  exact ⟨rfl, fun d hd => isIdentPart_of_isIdentStart (hstart d (mem_cons_of_mem _ hd)), hrest⟩

lemma Aligned.exists_word (hne : word ≠ []) (hword : ∀ c ∈ word, isLetter c)
    (hrest : rest.head?.any isIdentPart = false) (halgn : Aligned (word ++ rest) other) :
    ∃ found after, other = found ++ after ∧ SameSense .identifier word found ∧
      Aligned rest after := by
  obtain _ | ⟨c, body⟩ := word
  · exact absurd rfl hne
  have hidf := lexeme_word hword hrest
  rw [cons_append] at halgn
  generalize htext : body ++ rest = text at halgn
  cases halgn with
  | dropped hlex =>
    rw [← htext, hidf] at hlex
    cases hlex
  | @token _ d part tail after others kind hlex hoth hsense hafter =>
    rw [← htext, hidf, Prod.mk.injEq, Option.some.injEq] at hlex
    obtain ⟨rfl, hsame⟩ := hlex
    obtain ⟨rfl, rfl⟩ := append_inj htext hsame
    exact ⟨d :: tail, others, rfl, hsense, hafter⟩

def HoldsAllSpellings (words : List String) : Prop :=
  ∀ spelling ∈ Keyword.spellings, spelling.1 ∈ words →
    ∀ other ∈ Keyword.spellings, other.2 = spelling.2 → other.1 ∈ words

instance (words : List String) : Decidable (HoldsAllSpellings words) :=
  inferInstanceAs (Decidable (∀ _ ∈ _, _))

structure KeywordSet (words : List String) : Prop where
  spelled : ∀ word ∈ words, word.toList ≠ [] ∧ ∀ c ∈ word.toList, isKeywordLetter c = true
  complete : HoldsAllSpellings words

lemma keywordSet_methodWords : KeywordSet methodWords := ⟨spelled_methodWords, by decide +kernel⟩

lemma keywordSet_asyncWords : KeywordSet asyncWords := ⟨spelled_asyncWords, by decide +kernel⟩

lemma keywordSet_terminatorWords : KeywordSet terminatorWords :=
  ⟨spelled_terminatorWords, by decide +kernel⟩

lemma folded_of_keywordLetters (hword : ∀ c ∈ word, isKeywordLetter c) : folded word = word :=
  (map_congr_left fun c hc => foldChar_of_isKeywordLetter (hword c hc)).trans (map_id' word)

section

variable {words : List String} (hwords : KeywordSet words)
include hwords

lemma KeywordSet.isWordOf (hword : IsWordOf words word)
    (hsense : SameSense .identifier word other) : IsWordOf words other := by
  cases hsense with
  | refl => exact hword
  | content hkind => simp at hkind
  | @keyword _ _ keyword hkw hoth =>
    obtain ⟨spelling, hspelling, hfolded⟩ := hword
    have hlets := (hwords.spelled spelling hspelling).2
    rw [folded_of_keywordLetters hlets] at hfolded
    have hmem := (folded_of_ofWord? hkw).1
    rw [hfolded, String.ofList_toList] at hmem
    have hoths := (folded_of_ofWord? hoth).1
    have hfound : String.ofList (folded other) ∈ words :=
      hwords.complete _ hmem hspelling _ hoths rfl
    refine ⟨_, hfound, ?_⟩
    rw [folded_of_keywordLetters (hwords.spelled _ hfound).2, String.toList_ofList]

lemma SpacedWord.exists_aligned {text : List Char} (hspaced : SpacedWord words word text rest)
    (halgn : Aligned text other) :
    ∃ found after, SpacedWord words found other after ∧ SameSense .identifier word found ∧
      Aligned rest after := by
  obtain ⟨gap, hgapne, hgap, rfl⟩ := hspaced.split
  obtain ⟨hne, hlets⟩ := isLetter_of_isWordOf hwords.spelled hspaced.isWord
  obtain _ | ⟨c, blanks⟩ := gap
  · exact absurd rfl hgapne
  have hc : isBlank c := hgap c mem_cons_self
  have hend : (c :: blanks ++ rest).head?.any isIdentPart = false := not_isIdentPart_of_isBlank hc
  obtain ⟨found, tail, rfl, hsense, htail⟩ := halgn.exists_word hne hlets hend
  have hrest := htail.trimStart
  rw [trimStart_append_of_blank hgap, trimStart_of_head hspaced.head] at hrest
  refine ⟨found, trimStart tail, ⟨hwords.isWordOf hspaced.isWord hsense, ?_, head_trimStart tail⟩,
    hsense, hrest⟩
  have hhead : tail.head?.any isBlank := by
    rw [← htail.headsAlike.any_head fun _ => not_isBlank_of_isIdentStart]
    exact hc
  refine ⟨tail.takeWhile isBlank, ?_, fun d hd => mem_takeWhile_imp hd, ?_⟩
  · obtain _ | ⟨d, more⟩ := tail
    · cases hhead
    · have hd : isBlank d := hhead
      simp [hd]
  · exact congrArg (found ++ ·) takeWhile_append_dropWhile.symm

end

lemma HeaderFront.exists_aligned (hfront : HeaderFront line word rest)
    (halgn : Aligned line other) :
    ∃ found after, HeaderFront other found after ∧
      Keyword.ofWord? (String.ofList word) = Keyword.ofWord? (String.ofList found) ∧
        Aligned rest after := by
  have htrim := halgn.trimStart
  obtain ⟨start, rfl | ⟨mark, hmark⟩, hmeth⟩ := hfront
  · obtain ⟨found, after, hfound, hsense, hafter⟩ :=
      hmeth.exists_aligned keywordSet_methodWords htrim
    exact ⟨found, after, ⟨_, .inl rfl, hfound⟩, hsense.ofWord?_eq, hafter⟩
  · obtain ⟨sign, begin, hsign, -, hbegin⟩ := hmark.exists_aligned keywordSet_asyncWords htrim
    obtain ⟨found, after, hfound, hsense, hafter⟩ :=
      hmeth.exists_aligned keywordSet_methodWords hbegin
    exact ⟨found, after, ⟨begin, .inr ⟨sign, hsign⟩, hfound⟩, hsense.ofWord?_eq, hafter⟩

/-! ## Headers and terminators of aligned lines -/

def opensParams (text : List Char) : Bool :=
  (trimStart (text.dropWhile isHeaderNamePart)).head?.any (· == '(')

lemma isSome_header_iff : (Header.ofLine? line).isSome ↔
      ∃ word rest, HeaderFront line word rest ∧ rest.head?.any isHeaderNameStart ∧
        opensParams rest := by
  rw [Option.isSome_iff_exists]
  constructor
  · rintro ⟨header, hhdr⟩
    obtain ⟨word, rest, after, hfront, hstart, hafter, -⟩ := Header.ofLine?_eq_some_iff.mp hhdr
    refine ⟨word, rest, hfront, hstart, ?_⟩
    rw [opensParams, hafter]
    rfl
  · rintro ⟨word, rest, hfront, hstart, hopens⟩
    unfold opensParams at hopens
    cases htail : trimStart (rest.dropWhile isHeaderNamePart) with
    | nil =>
      rw [htail] at hopens
      cases hopens
    | cons c after =>
      rw [htail] at hopens
      obtain rfl : c = '(' := by simpa using hopens
      exact ⟨_, Header.ofLine?_eq_some_iff.mpr ⟨word, rest, after, hfront, hstart, htail, rfl⟩⟩

lemma isHeaderNamePart_of_isIdentPart (hc : isIdentPart c) : isHeaderNamePart c := by
  simp [isHeaderNamePart, hc]

lemma not_isIdentPart_of_wordEnd (hend : rest.head?.any isHeaderNamePart = false) :
    rest.head?.any isIdentPart = false := by
  rw [Bool.eq_false_iff] at hend ⊢
  intro hpart
  obtain _ | ⟨c, tail⟩ := rest
  · cases hpart
  · exact hend (isHeaderNamePart_of_isIdentPart hpart)

namespace Aligned

variable {text other : List Char}

lemma opens_eq_of_trimStart (halgn : Aligned text other) (shared : List Char) :
    (BslInsight.trimStart (shared ++ text)).head?.any (· == '(') =
      (BslInsight.trimStart (shared ++ other)).head?.any (· == '(') := by
  unfold BslInsight.trimStart trimStartBy
  rw [dropWhile_append, dropWhile_append]
  split
  · exact halgn.trimStart.startsAlike.any_head_eq (by decide)
  · next hshared =>
      generalize shared.dropWhile isBlank = kept at hshared
      cases kept with
      | nil => exact absurd rfl hshared
      | cons c rest => rfl

lemma opensParams_append
    (halgn : Aligned text other) (hopens : opensParams text = opensParams other)
    (shared : List Char) : opensParams (shared ++ text) = opensParams (shared ++ other) := by
  unfold opensParams
  rw [dropWhile_append, dropWhile_append]
  split
  · exact hopens
  · exact halgn.opens_eq_of_trimStart _

lemma opensParams_of_identifier (hlex : lexeme c (body ++ rest) = (some .identifier, body.length)) :
    opensParams (c :: (body ++ rest)) = opensParams rest := by
  have hc : isIdentStart c := (fitsLexeme c (body ++ rest)).head .identifier (by rw [hlex])
  rw [lexeme_identifier hc, Prod.mk.injEq, runLength_append_eq_iff] at hlex
  have hname : ∀ d ∈ c :: body, isHeaderNamePart d := by
    refine forall_mem_cons.mpr ⟨?_, fun d hd => ?_⟩
    · exact isHeaderNamePart_of_isIdentPart (isIdentPart_of_isIdentStart hc)
    · exact isHeaderNamePart_of_isIdentPart (hlex.2.1 d hd)
  unfold opensParams
  rw [← cons_append, dropWhile_append_of_pos hname]

lemma opensParams_of_content (hkind : kind = .stringLiteral ∨ kind = .openString ∨ kind = .comment)
    (hc : kind.beginsWith c) (rest : List Char) : opensParams (c :: rest) = false := by
  have hcases : c = '"' ∨ c = '/' := by
    rcases hkind with rfl | rfl | rfl
    · exact .inl (beq_iff_eq.mp hc)
    · exact .inl (beq_iff_eq.mp hc)
    · exact .inr (beq_iff_eq.mp hc)
  have hhead (d : Char) (hname : isHeaderNamePart d = false) (hblank : isBlank d = false)
      (hparen : (d == '(') = false) : opensParams (d :: rest) = false := by
    have hstart : (d :: rest).head?.any isBlank = false := hblank
    unfold opensParams
    rw [dropWhile_cons_of_neg (by simp [hname]), trimStart_of_head hstart]
    exact hparen
  rcases hcases with rfl | rfl
  · exact hhead '"' (by decide) (by decide) (by decide)
  · exact hhead '/' (by decide) (by decide) (by decide)

variable (halgn : Aligned text other)
include halgn

lemma opensParams_eq : opensParams text = opensParams other := by
  induction halgn with
  | nil => rfl
  | dropped _ _ hrest ih => exact hrest.opensParams_append ih (_ :: _)
  | token hlex hoth hsense hrest ih =>
    cases hsense with
    | refl => exact hrest.opensParams_append ih (_ :: _)
    | keyword =>
      rw [opensParams_of_identifier hlex, opensParams_of_identifier hoth]
      exact ih
    | content hkind =>
      rw [opensParams_of_content hkind ((fitsLexeme _ _).head _ (by rw [hlex])),
        opensParams_of_content hkind ((fitsLexeme _ _).head _ (by rw [hoth]))]

lemma isSome_header (hhdr : (Header.ofLine? text).isSome) : (Header.ofLine? other).isSome := by
  obtain ⟨word, rest, hfront, hstart, hopens⟩ := isSome_header_iff.mp hhdr
  obtain ⟨found, after, hfound, -, hafter⟩ := hfront.exists_aligned halgn
  have hlets (c : Char) (hc : isIdentStart c) : isHeaderNameStart c := by
    simp [isHeaderNameStart, hc]
  refine isSome_header_iff.mpr ⟨found, after, hfound, ?_, ?_⟩
  · rw [← hafter.headsAlike.any_head hlets, hstart]
  · rw [← hafter.opensParams_eq, hopens]

lemma isSome_terminator (hterm : (terminatorKind? text).isSome) :
    (terminatorKind? other).isSome := by
  obtain ⟨word, rest, hword, htext, hend, hkw⟩ := isSome_terminatorKind?_iff.mp hterm
  obtain ⟨hne, hlets⟩ := isLetter_of_isWordOf spelled_terminatorWords hword
  have hpart := not_isIdentPart_of_wordEnd hend
  have htrim := halgn.trimStart
  rw [htext] at htrim
  obtain ⟨found, after, hoth, hsense, hafter⟩ := htrim.exists_word hne hlets hpart
  have hparts (c : Char) (hc : isIdentStart c) : isHeaderNamePart c :=
    isHeaderNamePart_of_isIdentPart (isIdentPart_of_isIdentStart hc)
  rw [isSome_terminatorKind?_iff]
  refine ⟨found, after, keywordSet_terminatorWords.isWordOf hword hsense, hoth, ?_, ?_⟩
  · rw [← hafter.headsAlike.any_head hparts, hend]
  · rwa [← hsense.ofWord?_eq]

lemma header_isSome_eq : (Header.ofLine? text).isSome = (Header.ofLine? other).isSome :=
  Bool.eq_iff_iff.mpr ⟨halgn.isSome_header, halgn.symm.isSome_header⟩

lemma isMethodBoundary_eq : isMethodBoundary text = isMethodBoundary other := by
  unfold isMethodBoundary
  have hterminators : (terminatorKind? text).isSome = (terminatorKind? other).isSome :=
    Bool.eq_iff_iff.mpr ⟨halgn.isSome_terminator, halgn.symm.isSome_terminator⟩
  rw [halgn.header_isSome_eq, hterminators]

end Aligned

end BslInsight
