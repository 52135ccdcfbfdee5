import BslInsight.Declaration
import BslInsight.Proofs.Lexemes

/-!
# The grammar of headers and terminators

Headers and terminators are recognised up to case folding, keywords up to lower
case.  The two agree on keywords: what lower-cases to a keyword folds to the
same spelling, and both consist of letters only.  So a header can be described
by the words and blanks that it begins with.
-/

namespace BslInsight

open List

variable {c d : Char} {text word rest found line : List Char} {words : List String}

/-! ## Letters of keywords -/

def isKeywordLetter (c : Char) : Bool := ('a' ≤ c && c ≤ 'z') || ('а' ≤ c && c ≤ 'я')

lemma isKeywordLetter_iff : isKeywordLetter c ↔
      (0x61 ≤ c.toNat ∧ c.toNat ≤ 0x7a) ∨ (0x430 ≤ c.toNat ∧ c.toNat ≤ 0x44f) := by
  simp only [isKeywordLetter, Bool.or_eq_true, Bool.and_eq_true, decide_eq_true_eq, Char.le_def]
  exact Iff.rfl

def keywordCodes : List Nat := range' 0x41 26 ++ range' 0x61 26 ++ range' 0x410 64 ++ [0x212a]

lemma inRanges_keywordCodes : ∀ code ∈ keywordCodes, inRanges letterRanges code := by
  decide +kernel

lemma lowerCode_eq_or (runs : List LowerRun) (code : Nat) : lowerCode runs code = code ∨
      ∃ run ∈ runs, run.first ≤ code ∧ code ≤ run.last ∧
        lowerCode runs code = run.target + (code - run.first) := by
  fun_induction lowerCode runs code with
  | case1 | case2 => exact .inl rfl
  | case3 run runs code hfirst hlast => exact .inr ⟨run, mem_cons_self, by omega, hlast.1, rfl⟩
  | case4 run runs code _ _ ih =>
    rcases ih with hsame | ⟨other, hoth, hbounds⟩
    · exact .inl hsame
    · exact .inr ⟨other, mem_cons_of_mem _ hoth, hbounds⟩

def LowerRun.ReachesKeywords (run : LowerRun) : Prop :=
  (run.target ≤ 0x7a ∧ 0x61 ≤ run.target + (run.last - run.first)) ∨
    (run.target ≤ 0x44f ∧ 0x430 ≤ run.target + (run.last - run.first))

instance (run : LowerRun) : Decidable run.ReachesKeywords := inferInstanceAs (Decidable (_ ∨ _))

lemma lowerRuns_reaching : ∀ run ∈ lowerRuns, run.ReachesKeywords →
      ∀ code ∈ range' run.first (run.last + 1 - run.first), code ∈ keywordCodes := by
  decide +kernel

lemma isLetter_of_lowerCode {code : Nat} (hcode : lowerCode lowerRuns c.toNat = code)
    (hlet : (0x61 ≤ code ∧ code ≤ 0x7a) ∨ (0x430 ≤ code ∧ code ≤ 0x44f)) :
    isLetter c := by
  apply inRanges_keywordCodes
  rcases lowerCode_eq_or lowerRuns c.toNat with hsame | ⟨run, hrun, hfirst, hlast, htgt⟩
  · rw [hcode] at hsame
    subst hsame
    simp only [keywordCodes, mem_append, mem_range'_1, mem_singleton]
    omega
  · apply lowerRuns_reaching run hrun
    · unfold LowerRun.ReachesKeywords
      omega
    · rw [mem_range'_1]
      omega

/-! ## Folding -/

def folded (word : List Char) : List Char := word.map foldChar

lemma isLetter_foldedVariants : ∀ variant ∈ foldedVariants, isLetter variant.1 := by
  decide +kernel

lemma lowerChar_eq (hc : c ≠ 'İ') : lowerChar c = [Char.ofNat (lowerCode lowerRuns c.toNat)] :=
  if_neg hc

lemma toNat_ofNat_or (code : Nat) :
    (Char.ofNat code).toNat = code ∨ (Char.ofNat code).toNat = 0 := by
  unfold Char.ofNat
  by_cases hvalid : code.isValidChar
  · rw [dif_pos hvalid]
    exact .inl rfl
  · rw [dif_neg hvalid]
    exact .inr rfl

lemma isLetter_of_lowerChar (hlower : lowerChar c = [d]) (hd : isKeywordLetter d) : isLetter c := by
  by_cases hc : c = 'İ'
  · rw [hc]
    decide +kernel
  · rw [lowerChar_eq hc, List.cons.injEq] at hlower
    rw [← hlower.1, isKeywordLetter_iff] at hd
    apply isLetter_of_lowerCode rfl
    have hcode := toNat_ofNat_or (lowerCode lowerRuns c.toNat)
    omega

lemma isLetter_of_foldChar (hc : isKeywordLetter (foldChar c)) : isLetter c := by
  unfold foldChar at hc
  split at hc
  next variant other hvariant =>
    have hmem := mem_of_find?_eq_some hvariant
    have hname := find?_some hvariant
    rw [← beq_iff_eq.mp hname]
    exact isLetter_foldedVariants _ hmem
  next =>
    split at hc
    next d hlower => exact isLetter_of_lowerChar hlower hc
    next hlower =>
      by_cases hdotted : c = 'İ'
      · rw [hdotted]
        decide +kernel
      · exact absurd (lowerChar_eq hdotted) (hlower _)

lemma foldChar_of_isKeywordLetter (hc : isKeywordLetter c) : foldChar c = c := by
  have hcodes : ∀ code ∈ range' 0x61 26 ++ range' 0x430 32,
      foldChar (Char.ofNat code) = Char.ofNat code := by
    decide +kernel
  rw [isKeywordLetter_iff] at hc
  rw [← Char.ofNat_toNat c]
  apply hcodes
  simp only [mem_append, mem_range'_1]
  omega

lemma foldChar_of_lowerChar (hlower : lowerChar c = [d]) (hd : isKeywordLetter d) :
    foldChar c = d := by
  have hvariants : ∀ variant ∈ foldedVariants,
      (lowerChar variant.1).any isKeywordLetter = false := by
    decide +kernel
  unfold foldChar
  split
  next variant other hvariant =>
    have hmem := mem_of_find?_eq_some hvariant
    have hname := find?_some hvariant
    have hnot := hvariants _ hmem
    rw [beq_iff_eq.mp hname, hlower, any_cons, hd] at hnot
    cases hnot
  next => rw [hlower]

lemma folded_of_lowerAfter {before : List Char}
    (hlets : ∀ d ∈ lowerAfter before text, isKeywordLetter d) :
    folded text = lowerAfter before text ∧ ∀ c ∈ text, isLetter c := by
  induction text generalizing before with
  | nil => exact ⟨rfl, nofun⟩
  | cons c rest ih =>
    rw [lowerAfter, forall_mem_append] at hlets
    obtain ⟨hfirst, hrest⟩ := hlets
    obtain ⟨hfolded, hall⟩ := ih hrest
    have hsigma : c ≠ 'Σ' := by
      rintro rfl
      rw [if_pos rfl] at hfirst
      have hlower := forall_mem_singleton.mp hfirst
      split at hlower <;> exact absurd hlower (by decide)
    rw [if_neg hsigma] at hfirst
    have hdotted : c ≠ 'İ' := by
      rintro rfl
      exact absurd (hfirst '\u0307' (by decide)) (by decide)
    rw [lowerChar_eq hdotted, forall_mem_singleton] at hfirst
    refine ⟨?_, forall_mem_cons.mpr ⟨?_, hall⟩⟩
    · rw [lowerAfter, if_neg hsigma, lowerChar_eq hdotted, ← hfolded]
      exact congrArg (· :: folded rest) (foldChar_of_lowerChar (lowerChar_eq hdotted) hfirst)
    · exact isLetter_of_lowerChar (lowerChar_eq hdotted) hfirst

lemma isKeywordLetter_spellings : ∀ spelling ∈ Keyword.spellings, spelling.1 ≠ "" ∧
      ∀ c ∈ spelling.1.toList, isKeywordLetter c := by
  have hspel : ∀ spelling ∈ Keyword.spellings, spelling.1 ≠ "" ∧
      spelling.1.toList.all isKeywordLetter := by
    decide +kernel
  simpa only [all_eq_true] using hspel

lemma folded_of_ofWord? {keyword : Keyword}
    (hword : Keyword.ofWord? (String.ofList word) = some keyword) :
    (String.ofList (folded word), keyword) ∈ Keyword.spellings ∧
      word ≠ [] ∧ ∀ c ∈ word, isLetter c := by
  have hmem : (lower (String.ofList word), keyword) ∈ Keyword.spellings := by
    obtain ⟨before, after, hsplit, -⟩ := lookup_eq_some_iff.mp hword
    rw [hsplit]
    exact mem_append_right _ mem_cons_self
  obtain ⟨hempty, hlets⟩ := isKeywordLetter_spellings _ hmem
  have hlower : (lower (String.ofList word)).toList = lowerAfter [] word := by
    simp [lower, lowerChars]
  rw [hlower] at hlets
  obtain ⟨hfolded, hall⟩ := folded_of_lowerAfter hlets
  refine ⟨?_, ?_, hall⟩
  · rw [hfolded]
    simpa [lower, lowerChars] using hmem
  · rintro rfl
    exact hempty rfl


/-! ## Words at the beginning of a text -/

lemma afterFolded?_eq_some_iff : afterFolded? word text = some rest ↔
      ∃ found, text = found ++ rest ∧ folded found = folded word := by
  fun_induction afterFolded? word text with
  | case1 text =>
    constructor
    · rintro ⟨⟩
      exact ⟨[], rfl, rfl⟩
    · rintro ⟨found, rfl, hfound⟩
      rw [map_eq_nil_iff.mp hfound]
      rfl
  | case2 w word =>
    constructor
    · nofun
    · rintro ⟨found, htext, hfound⟩
      rw [(append_eq_nil_iff.mp htext.symm).1] at hfound
      cases hfound
  | case3 w word c text hc ih =>
    rw [ih]
    constructor
    · rintro ⟨found, rfl, hfound⟩
      refine ⟨c :: found, rfl, ?_⟩
      simp only [folded, map_cons] at hfound ⊢
      rw [beq_iff_eq.mp hc, hfound]
    · rintro ⟨_ | ⟨d, found⟩, htext, hfound⟩
      · cases hfound
      · obtain ⟨rfl, rfl⟩ := List.cons.inj htext
        exact ⟨found, rfl, (List.cons.inj hfound).2⟩
  | case4 w word c text hc =>
    constructor
    · nofun
    · rintro ⟨_ | ⟨d, found⟩, htext, hfound⟩
      · cases hfound
      · obtain ⟨rfl, rfl⟩ := List.cons.inj htext
        exact absurd (beq_iff_eq.mpr (List.cons.inj hfound).1) hc

def Apart (first second : List Char) : Prop :=
  ¬folded first <+: folded second ∧ ¬folded second <+: folded first

instance (first second : List Char) : Decidable (Apart first second) :=
  inferInstanceAs (Decidable (_ ∧ _))

lemma afterFolded?_of_apart (hapart : Apart word found) (rest : List Char) :
    afterFolded? word (found ++ rest) = none := by
  rw [Option.eq_none_iff_forall_ne_some]
  intro tail htail
  obtain ⟨start, htext, hstart⟩ := afterFolded?_eq_some_iff.mp htail
  have hboth : start <+: found ∨ found <+: start :=
    prefix_or_prefix_of_prefix ⟨tail, htext.symm⟩ ⟨rest, rfl⟩
  rcases hboth with hshort | hlong
  · exact hapart.1 (hstart ▸ hshort.map foldChar)
  · exact hapart.2 (hstart ▸ hlong.map foldChar)

def IsWordOf (words : List String) (found : List Char) : Prop :=
  ∃ word ∈ words, folded found = folded word.toList

lemma isWordOf_of_afterWord? (hfound : afterWord? words text = some (found, rest)) :
    IsWordOf words found ∧ text = found ++ rest := by
  obtain ⟨word, hword, hafter⟩ := exists_of_findSome?_eq_some hfound
  obtain ⟨tail, htail, heq⟩ := Option.map_eq_some_iff.mp hafter
  obtain ⟨start, rfl, hstart⟩ := afterFolded?_eq_some_iff.mp htail
  obtain ⟨rfl, rfl⟩ : start = found ∧ tail = rest := by simpa using heq
  exact ⟨⟨word, hword, hstart⟩, rfl⟩

lemma afterWord?_append
    (hwords : words.Pairwise fun first second => Apart first.toList second.toList)
    (hfound : IsWordOf words found) (rest : List Char) :
    afterWord? words (found ++ rest) = some (found, rest) := by
  unfold afterWord?
  induction words with
  | nil => obtain ⟨word, hword, -⟩ := hfound; cases hword
  | cons first words ih =>
    obtain ⟨word, hword, hfolded⟩ := hfound
    rw [findSome?_cons]
    rcases mem_cons.mp hword with rfl | hlater
    · rw [afterFolded?_eq_some_iff.mpr ⟨found, rfl, hfolded⟩]
      simp
    · have hapart : Apart first.toList found := by
        have hfirst := rel_of_pairwise_cons hwords hlater
        unfold Apart at hfirst ⊢
        rwa [hfolded]
      rw [afterFolded?_of_apart hapart]
      exact ih hwords.of_cons ⟨word, hlater, hfolded⟩

lemma afterWord?_of_apart (hapart : ∀ word ∈ words, Apart word.toList found) (rest : List Char) :
    afterWord? words (found ++ rest) = none := by
  rw [afterWord?, findSome?_eq_none_iff]
  intro word hword
  rw [afterFolded?_of_apart (hapart word hword), Option.map_none]

lemma isLetter_of_isWordOf
    (hwords : ∀ word ∈ words, word.toList ≠ [] ∧ ∀ c ∈ word.toList, isKeywordLetter c)
    (hfound : IsWordOf words found) : found ≠ [] ∧ ∀ c ∈ found, isLetter c := by
  obtain ⟨word, hword, hfolded⟩ := hfound
  obtain ⟨hne, hlets⟩ := hwords word hword
  have hsame : folded found = word.toList := by
    rw [hfolded]
    exact (map_congr_left fun c hc => foldChar_of_isKeywordLetter (hlets c hc)).trans (map_id' _)
  refine ⟨?_, fun c hc => isLetter_of_foldChar (hlets _ ?_)⟩
  · rintro rfl
    exact hne hsame.symm
  · rw [← hsame]
    exact mem_map_of_mem hc

/-! ## Blanks -/

lemma any_head_dropWhile (p : Char → Bool) (text : List Char) :
    (text.dropWhile p).head?.any p = false := by
  have hhead := head?_dropWhile_not p text
  cases htext : text.dropWhile p with
  | nil => rfl
  | cons c rest =>
    rw [htext] at hhead
    simpa using hhead

lemma takeWhile_append_of_head {p : Char → Bool} (hword : ∀ c ∈ word, p c)
    (hrest : rest.head?.any p = false) : (word ++ rest).takeWhile p = word := by
  rw [takeWhile_append_of_pos hword]
  cases rest with
  | nil => simp
  | cons c rest =>
    have hc : p c = false := hrest
    simp [hc]

lemma dropWhile_append_of_head {p : Char → Bool} (hword : ∀ c ∈ word, p c)
    (hrest : rest.head?.any p = false) : (word ++ rest).dropWhile p = rest := by
  rw [dropWhile_append_of_pos hword]
  cases rest with
  | nil => rfl
  | cons c rest =>
    have hc : p c = false := hrest
    simp [hc]

lemma head_trimStart (text : List Char) : (trimStart text).head?.any isBlank = false :=
  any_head_dropWhile isBlank text

lemma trimStart_of_head (htext : text.head?.any isBlank = false) : trimStart text = text := by
  cases text with
  | nil => rfl
  | cons c rest =>
    have hc : isBlank c = false := htext
    simp [trimStart, trimStartBy, hc]

lemma trimStart_append_of_blank {gap : List Char} (hgap : ∀ c ∈ gap, isBlank c) (rest : List Char) :
    trimStart (gap ++ rest) = trimStart rest := by
  exact dropWhile_append_of_pos hgap

lemma afterBlanks?_eq_some_iff : afterBlanks? text = some rest ↔
      (∃ gap, gap ≠ [] ∧ (∀ c ∈ gap, isBlank c) ∧ text = gap ++ rest) ∧
        rest.head?.any isBlank = false := by
  constructor
  · intro hrest
    fun_cases afterBlanks? text with
    | case1 => cases hrest
    | case2 c text hc =>
      obtain rfl : trimStart text = rest := by simpa [afterBlanks?, hc] using hrest
      refine ⟨⟨c :: text.takeWhile isBlank, by simp, ?_, ?_⟩, head_trimStart text⟩
      · exact forall_mem_cons.mpr ⟨hc, fun d hd => mem_takeWhile_imp hd⟩
      · exact congrArg (c :: ·) takeWhile_append_dropWhile.symm
    | case3 c text hc => simp [afterBlanks?, hc] at hrest
  · rintro ⟨⟨gap, hne, hgap, rfl⟩, hhead⟩
    obtain _ | ⟨c, gap⟩ := gap
    · exact absurd rfl hne
    · obtain ⟨hc, hgap⟩ := forall_mem_cons.mp hgap
      rw [cons_append, afterBlanks?, if_pos hc, trimStart_append_of_blank hgap,
        trimStart_of_head hhead]

/-! ## Headers -/

def methodWords : List String := ["процедура", "функция", "procedure", "function"]

def asyncWords : List String := ["асинх", "async"]

structure SpacedWord (words : List String) (word text rest : List Char) : Prop where
  isWord : IsWordOf words word
  split : ∃ gap, gap ≠ [] ∧ (∀ c ∈ gap, isBlank c = true) ∧ text = word ++ (gap ++ rest)
  head : rest.head?.any isBlank = false

/-- The line up to the name of the method that it declares: the optional word for
asynchronous methods and the word for the kind of method. -/
def HeaderFront (line word rest : List Char) : Prop := ∃ start,
    (start = trimStart line ∨ ∃ mark, SpacedWord asyncWords mark (trimStart line) start) ∧
      SpacedWord methodWords word start rest

lemma spacedWord_iff
    (hwords : words.Pairwise fun first second => Apart first.toList second.toList) :
    SpacedWord words word text rest ↔
      ∃ after, afterWord? words text = some (word, after) ∧ afterBlanks? after = some rest := by
  constructor
  · rintro ⟨hword, ⟨gap, hne, hgap, rfl⟩, hhead⟩
    exact ⟨gap ++ rest, afterWord?_append hwords hword _,
      afterBlanks?_eq_some_iff.mpr ⟨⟨gap, hne, hgap, rfl⟩, hhead⟩⟩
  · rintro ⟨after, hword, hblks⟩
    obtain ⟨hfound, rfl⟩ := isWordOf_of_afterWord? hword
    obtain ⟨⟨gap, hne, hgap, rfl⟩, hhead⟩ := afterBlanks?_eq_some_iff.mp hblks
    exact ⟨hfound, ⟨gap, hne, hgap, rfl⟩, hhead⟩

lemma apart_of_isWordOf {others : List String}
    (hapart : ∀ word ∈ words, ∀ other ∈ others, Apart word.toList other.toList)
    (hfound : IsWordOf others found) : ∀ word ∈ words, Apart word.toList found := by
  obtain ⟨other, hoth, hfolded⟩ := hfound
  intro word hword
  have hwords := hapart word hword other hoth
  unfold Apart at hwords ⊢
  rwa [hfolded]

lemma headerFront_iff : HeaderFront line word rest ↔ ∃ after, afterWord? methodWords
            (((afterWord? asyncWords (trimStart line)).bind fun found =>
              afterBlanks? found.2).getD (trimStart line)) = some (word, after) ∧
          afterBlanks? after = some rest := by
  have hmethods : methodWords.Pairwise fun first second => Apart first.toList second.toList := by
    decide +kernel
  have hasyncs : asyncWords.Pairwise fun first second => Apart first.toList second.toList := by
    decide +kernel
  have hapart : ∀ word ∈ asyncWords, ∀ other ∈ methodWords, Apart word.toList other.toList := by
    decide +kernel
  rw [← spacedWord_iff hmethods]
  constructor
  · rintro ⟨start, rfl | ⟨mark, hmark⟩, hmeth⟩
    · obtain ⟨gap, -, -, htext⟩ := hmeth.split
      have hnone : afterWord? asyncWords (trimStart line) = none := by
        rw [htext]
        exact afterWord?_of_apart (apart_of_isWordOf hapart hmeth.isWord) _
      rwa [hnone]
    · obtain ⟨after, hword, hblks⟩ := (spacedWord_iff hasyncs).mp hmark
      rw [hword, Option.bind_some, hblks]
      exact hmeth
  · intro hmeth
    refine ⟨_, ?_, hmeth⟩
    cases hword : afterWord? asyncWords (trimStart line) with
    | none => exact .inl rfl
    | some found =>
      cases hblks : afterBlanks? found.2 with
      | none => exact .inl (by simp [hblks])
      | some start =>
        refine .inr ⟨found.1, (spacedWord_iff hasyncs).mpr ⟨found.2, hword, ?_⟩⟩
        simp [hblks]

lemma drop_length_takeWhile (p : Char → Bool) (text : List Char) :
    text.drop (text.takeWhile p).length = text.dropWhile p := by
  induction text with
  | nil => rfl
  | cons c rest ih =>
    by_cases hc : p c
    · simp [hc, ih]
    · simp [hc]

lemma Header.ofLine?_eq_some_iff {header : Header} : Header.ofLine? line = some header ↔
      ∃ word rest after, HeaderFront line word rest ∧
        rest.head?.any isHeaderNameStart ∧
        trimStart (rest.dropWhile isHeaderNamePart) = '(' :: after ∧
        header =
          { kind := if Keyword.ofWord? (String.ofList word) = some .function then .function
              else .procedure
            name := String.ofList (rest.takeWhile isHeaderNamePart)
            nameColumn := line.length - rest.length
            paramsStart := line.length - after.length } := by
  have hstart (rest : List Char) :
      (rest.head?.map isHeaderNameStart).getD false = rest.head?.any isHeaderNameStart := by
    cases rest <;> rfl
  unfold Header.ofLine?
  simp only [Option.bind_eq_bind, Option.bind_eq_some_iff, Prod.exists, drop_length_takeWhile,
    hstart]
  constructor
  · rintro ⟨word, blanks, hword, rest, hblks, hname⟩
    have hfront : HeaderFront line word rest := headerFront_iff.mpr ⟨blanks, hword, hblks⟩
    split at hname
    next hhead =>
      split at hname
      next after hafter => exact ⟨word, rest, after, hfront, hhead, hafter, by simpa using hname.symm⟩
      next => cases hname
    next => cases hname
  · rintro ⟨word, rest, after, hfront, hhead, hafter, rfl⟩
    obtain ⟨blanks, hword, hblks⟩ := headerFront_iff.mp hfront
    refine ⟨word, blanks, hword, rest, hblks, ?_⟩
    rw [if_pos hhead, hafter]
    rfl

def terminatorWords : List String :=
  ["конецпроцедуры", "конецфункции", "endprocedure", "endfunction"]

lemma isSome_terminatorKind?_iff : (terminatorKind? line).isSome ↔
      ∃ word rest, IsWordOf terminatorWords word ∧ trimStart line = word ++ rest ∧
        rest.head?.any isHeaderNamePart = false ∧
        (Keyword.ofWord? (String.ofList word) = some .endFunction ∨
          Keyword.ofWord? (String.ofList word) = some .endProcedure) := by
  have hwords : terminatorWords.Pairwise fun first second => Apart first.toList second.toList := by
    decide +kernel
  have hpart (rest : List Char) :
      (rest.head?.map isHeaderNamePart).getD false = rest.head?.any isHeaderNamePart := by
    cases rest <;> rfl
  rw [Option.isSome_iff_exists]
  unfold terminatorKind?
  simp only [Option.bind_eq_bind, Option.bind_eq_some_iff, Prod.exists, hpart]
  constructor
  · rintro ⟨kind, word, rest, hword, hkind⟩
    obtain ⟨hfound, hline⟩ := isWordOf_of_afterWord? hword
    split at hkind
    next => cases hkind
    next hhead =>
      refine ⟨word, rest, hfound, hline, by simpa using hhead, ?_⟩
      split at hkind
      next hfunction => exact .inl hfunction
      next hprocedure => exact .inr hprocedure
      next => cases hkind
  · rintro ⟨word, rest, hfound, hline, hhead, hend⟩
    have hword : afterWord? terminatorWords (trimStart line) = some (word, rest) := by
      rw [hline]
      exact afterWord?_append hwords hfound rest
    rcases hend with hfunction | hprocedure
    · exact ⟨.function, word, rest, hword, by simp [hhead, hfunction]⟩
    · exact ⟨.procedure, word, rest, hword, by simp [hhead, hprocedure]⟩

/-! ## The first letter of a line -/

lemma isIdentStart_of_isLetter (hc : isLetter c) : isIdentStart c := by
  simp [isIdentStart, hc]

lemma exists_letter_of_isWordOf
    (hwords : ∀ word ∈ words, word.toList ≠ [] ∧ ∀ c ∈ word.toList, isKeywordLetter c)
    (hfound : IsWordOf words found) (rest : List Char) :
    (found ++ rest).head?.any isIdentStart := by
  obtain ⟨hne, hlets⟩ := isLetter_of_isWordOf hwords hfound
  obtain _ | ⟨c, tail⟩ := found
  · exact absurd rfl hne
  · exact isIdentStart_of_isLetter (hlets c mem_cons_self)

lemma spelled_of_all (hwords : ∀ word ∈ words, word.toList ≠ [] ∧ word.toList.all isKeywordLetter) :
    ∀ word ∈ words, word.toList ≠ [] ∧ ∀ c ∈ word.toList, isKeywordLetter c := by
  simpa only [all_eq_true] using hwords

lemma spelled_methodWords :
    ∀ word ∈ methodWords, word.toList ≠ [] ∧ ∀ c ∈ word.toList, isKeywordLetter c :=
  spelled_of_all (by decide +kernel)

lemma spelled_asyncWords :
    ∀ word ∈ asyncWords, word.toList ≠ [] ∧ ∀ c ∈ word.toList, isKeywordLetter c :=
  spelled_of_all (by decide +kernel)

lemma spelled_terminatorWords : ∀ word ∈ terminatorWords, word.toList ≠ [] ∧
      ∀ c ∈ word.toList, isKeywordLetter c :=
  spelled_of_all (by decide +kernel)

lemma HeaderFront.head (hfront : HeaderFront line word rest) :
    (trimStart line).head?.any isIdentStart := by
  obtain ⟨start, rfl | ⟨mark, hmark⟩, hmeth⟩ := hfront
  · obtain ⟨gap, -, -, htext⟩ := hmeth.split
    rw [htext]
    exact exists_letter_of_isWordOf spelled_methodWords hmeth.isWord _
  · obtain ⟨gap, -, -, htext⟩ := hmark.split
    rw [htext]
    exact exists_letter_of_isWordOf spelled_asyncWords hmark.isWord _

lemma head_of_isMethodBoundary (hline : isMethodBoundary line) :
    (trimStart line).head?.any isIdentStart := by
  unfold isMethodBoundary at hline
  rcases Bool.or_eq_true_iff.mp hline with hhdr | hterm
  · obtain ⟨header, hhdr⟩ := Option.isSome_iff_exists.mp hhdr
    obtain ⟨word, rest, after, hfront, -⟩ := Header.ofLine?_eq_some_iff.mp hhdr
    exact hfront.head
  · obtain ⟨word, rest, hfound, htext, -⟩ := isSome_terminatorKind?_iff.mp hterm
    rw [htext]
    exact exists_letter_of_isWordOf spelled_terminatorWords hfound _

end BslInsight
