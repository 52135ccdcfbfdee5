import BslInsight.Proofs.AlignedLines

/-!
# The parts of a header line

A header line consists of the words before the name, the name, blanks, and the
parameter list behind its parenthesis.  Each part can be exchanged without the
others being read differently.
-/

namespace BslInsight

open List

variable {text gap rest front line first other : List Char} {word : String} {c : Char}
  {length skip column place : Nat} {others : List (List Char)}

/-! ## The words before the name -/

lemma head_not_isBlank (htext : text.head?.any isIdentStart) : text.head?.any isBlank = false := by
  obtain _ | ⟨c, rest⟩ := text
  · cases htext
  · exact not_isBlank_of_isIdentStart htext

lemma trimStart_of_blank_letter (hgap : ∀ c ∈ gap, isBlank c)
    (htext : text.head?.any isIdentStart) : trimStart (gap ++ text) = text := by
  rw [trimStart_append_of_blank hgap, trimStart_of_head (head_not_isBlank htext)]

lemma SpacedWord.append {words : List String} {word : List Char}
    (hspaced : SpacedWord words word text rest) {more : List Char}
    (hmore : (rest ++ more).head?.any isBlank = false) :
    SpacedWord words word (text ++ more) (rest ++ more) := by
  obtain ⟨gap, hne, hgap, rfl⟩ := hspaced.split
  exact ⟨hspaced.isWord, ⟨gap, hne, hgap, by simp⟩, hmore⟩

lemma HeaderFront.trimStart_append {word : List Char} (hfront : HeaderFront front word [])
    (rest : List Char) : trimStart (front ++ rest) = trimStart front ++ rest := by
  have hhead := hfront.head
  unfold trimStart trimStartBy at hhead ⊢
  rw [dropWhile_append, if_neg]
  intro hempty
  rw [isEmpty_iff.mp hempty] at hhead
  cases hhead

lemma HeaderFront.append {word : List Char} (hfront : HeaderFront front word [])
    (hrest : rest.head?.any isBlank = false) : HeaderFront (front ++ rest) word rest := by
  have hspaced {words : List String} {found text after : List Char}
      (hfound : SpacedWord words found text after)
      (hafter : (after ++ rest).head?.any isBlank = false) :
      SpacedWord words found (text ++ rest) (after ++ rest) :=
    hfound.append hafter
  have htrim := hfront.trimStart_append rest
  obtain ⟨start, hstart, hmeth⟩ := hfront
  refine ⟨start ++ rest, ?_, hspaced hmeth hrest⟩
  rw [htrim]
  rcases hstart with rfl | ⟨mark, hmark⟩
  · exact .inl rfl
  · refine .inr ⟨mark, hspaced hmark ?_⟩
    obtain ⟨gap, -, -, rfl⟩ := hmeth.split
    have hhead := hmark.head
    have hne := (isLetter_of_isWordOf spelled_methodWords hmeth.isWord).1
    obtain _ | ⟨c, tail⟩ := word
    · exact absurd rfl hne
    · exact hhead

lemma HeaderFront.exists_front {word : List Char} (hfront : HeaderFront line word rest) :
    ∃ front, line = front ++ rest ∧ HeaderFront front word [] ∧
      ∀ c ∈ front, isBlank c ∨ isLetter c := by
  have hline : line = line.takeWhile isBlank ++ trimStart line := takeWhile_append_dropWhile.symm
  have hblank : ∀ c ∈ line.takeWhile isBlank, isBlank c := fun c hc => mem_takeWhile_imp hc
  generalize line.takeWhile isBlank = blanks at hline hblank
  obtain ⟨start, hstart, hmeth⟩ := hfront
  obtain ⟨gap, hgapne, hgap, rfl⟩ := hmeth.split
  have hlets := (isLetter_of_isWordOf spelled_methodWords hmeth.isWord).2
  have hword : SpacedWord methodWords word (word ++ gap) [] :=
    ⟨hmeth.isWord, ⟨gap, hgapne, hgap, by simp⟩, rfl⟩
  rcases hstart with hstart | ⟨mark, hmark⟩
  · refine ⟨blanks ++ (word ++ gap), ?_, ⟨word ++ gap, .inl ?_, hword⟩, ?_⟩
    · rw [hline, ← hstart]
      simp
    · rw [trimStart_of_blank_letter hblank
        (exists_letter_of_isWordOf spelled_methodWords hmeth.isWord _)]
    · simp only [forall_mem_append]
      exact ⟨fun c hc => .inl (hblank c hc), fun c hc => .inr (hlets c hc),
        fun c hc => .inl (hgap c hc)⟩
  · obtain ⟨space, hspacene, hspace, hstart⟩ := hmark.split
    have hmarks := (isLetter_of_isWordOf spelled_asyncWords hmark.isWord).2
    refine ⟨blanks ++ (mark ++ (space ++ (word ++ gap))), ?_,
      ⟨word ++ gap, .inr ⟨mark, hmark.isWord, ⟨space, hspacene, hspace, ?_⟩, ?_⟩, hword⟩, ?_⟩
    · rw [hline, hstart]
      simp
    · rw [trimStart_of_blank_letter hblank
        (exists_letter_of_isWordOf spelled_asyncWords hmark.isWord _)]
    · exact head_not_isBlank (exists_letter_of_isWordOf spelled_methodWords hmeth.isWord gap)
    · simp only [forall_mem_append]
      exact ⟨fun c hc => .inl (hblank c hc), fun c hc => .inr (hmarks c hc),
        fun c hc => .inl (hspace c hc), fun c hc => .inr (hlets c hc),
        fun c hc => .inl (hgap c hc)⟩

/-! ## The name -/

structure HeaderParts (front word name gap : List Char) : Prop where
  isFront : HeaderFront front word []
  nameStart : name.head?.any isHeaderNameStart = true
  namePart : ∀ c ∈ name, isHeaderNamePart c = true
  blank : ∀ c ∈ gap, isBlank c = true
  noParen : '(' ∉ front ++ (name ++ gap)

def Header.ofParts (front word name gap : List Char) : Header where
  kind := if Keyword.ofWord? (String.ofList word) = some .function then .function else .procedure
  name := String.ofList name
  nameColumn := front.length
  paramsStart := front.length + name.length + gap.length + 1

lemma not_isHeaderNamePart_of_isBlank (hc : isBlank c) : isHeaderNamePart c = false := by
  have hnot := of_isBlank (p := fun c => !isHeaderNamePart c) (by decide +kernel) hc
  simpa using hnot

lemma not_isBlank_of_isHeaderNamePart (hc : isHeaderNamePart c) : isBlank c = false := by
  rw [Bool.eq_false_iff]
  intro hblank
  rw [not_isHeaderNamePart_of_isBlank hblank] at hc
  cases hc

lemma Header.ofLine?_of_parts {word name : List Char} (hparts : HeaderParts front word name gap)
    (after : List Char) :
    Header.ofLine? (front ++ (name ++ (gap ++ '(' :: after))) =
      some (Header.ofParts front word name gap) := by
  have hend : (gap ++ '(' :: after).head?.any isHeaderNamePart = false := by
    have hgap := hparts.blank
    obtain _ | ⟨c, blanks⟩ := gap
    · rfl
    · exact not_isHeaderNamePart_of_isBlank (hgap c mem_cons_self)
  have hhead : (name ++ (gap ++ '(' :: after)).head? = name.head? := by
    have hstart := hparts.nameStart
    obtain _ | ⟨c, more⟩ := name
    · cases hstart
    · rfl
  have hrest : (name ++ (gap ++ '(' :: after)).head?.any isBlank = false := by
    have hstart := hparts.nameStart
    have hname := hparts.namePart
    obtain _ | ⟨c, more⟩ := name
    · cases hstart
    · exact not_isBlank_of_isHeaderNamePart (hname c mem_cons_self)
  refine Header.ofLine?_eq_some_iff.mpr
    ⟨word, name ++ (gap ++ '(' :: after), after, hparts.isFront.append hrest, ?_, ?_, ?_⟩
  · rw [hhead]
    exact hparts.nameStart
  · rw [dropWhile_append_of_head hparts.namePart hend, trimStart_append_of_blank hparts.blank]
    exact trimStart_of_head rfl
  · rw [takeWhile_append_of_head hparts.namePart hend]
    simp only [Header.ofParts, length_append, length_cons]
    congr 1 <;> omega

lemma Header.exists_parts {header : Header} (hhdr : Header.ofLine? line = some header) :
    ∃ front word name gap after, HeaderParts front word name gap ∧
      line = front ++ (name ++ (gap ++ '(' :: after)) ∧
        header = Header.ofParts front word name gap := by
  obtain ⟨word, rest, after, hfront, hstart, hafter, -⟩ := Header.ofLine?_eq_some_iff.mp hhdr
  obtain ⟨front, rfl, hword, hlets⟩ := hfront.exists_front
  let name := rest.takeWhile isHeaderNamePart
  let gap := (rest.dropWhile isHeaderNamePart).takeWhile isBlank
  have hname : ∀ c ∈ name, isHeaderNamePart c := fun c hc => mem_takeWhile_imp hc
  have hgap : ∀ c ∈ gap, isBlank c := fun c hc => mem_takeWhile_imp hc
  have hrest : rest = name ++ (gap ++ '(' :: after) := by
    calc
      rest = name ++ rest.dropWhile isHeaderNamePart := takeWhile_append_dropWhile.symm
      _ = name ++ (gap ++ trimStart (rest.dropWhile isHeaderNamePart)) :=
        congrArg (name ++ ·) takeWhile_append_dropWhile.symm
      _ = name ++ (gap ++ '(' :: after) := by rw [hafter]
  have hnamestart : name.head?.any isHeaderNameStart := by
    obtain _ | ⟨c, more⟩ := rest
    · cases hstart
    · have hc : isHeaderNameStart c := hstart
      have hpart : isHeaderNamePart c := by
        simp only [isHeaderNameStart, Bool.or_eq_true] at hc
        rcases hc with hident | hiota
        · exact isHeaderNamePart_of_isIdentPart (isIdentPart_of_isIdentStart hident)
        · simp [isHeaderNamePart, hiota]
      simp [name, hpart, hc]
  have hparen : '(' ∉ front ++ (name ++ gap) := by
    simp only [mem_append, not_or]
    refine ⟨fun hmem => ?_, fun hmem => ?_, fun hmem => ?_⟩
    · exact absurd (hlets _ hmem) (by decide)
    · exact absurd (hname _ hmem) (by decide)
    · exact absurd (hgap _ hmem) (by decide)
  have hparts : HeaderParts front word name gap := ⟨hword, hnamestart, hname, hgap, hparen⟩
  refine ⟨front, word, name, gap, after, hparts, by rw [← hrest], ?_⟩
  rw [hrest, Header.ofLine?_of_parts hparts] at hhdr
  exact (Option.some.inj hhdr).symm

lemma drop_paramsStart (front word name gap after : List Char) :
    (front ++ (name ++ (gap ++ '(' :: after))).drop (Header.ofParts front word name gap).paramsStart =
      after := by
  have hsplit : front ++ (name ++ (gap ++ '(' :: after)) =
      (front ++ (name ++ (gap ++ ['(']))) ++ after := by
    simp
  rw [hsplit]
  refine drop_left' ?_
  simp only [Header.ofParts, length_append, length_singleton]
  omega

/-! ## The parameter list -/

lemma ListEnd.shift_eq_closed {scanned : ListEnd} (hshift : scanned.shift 1 = .closed length) :
    ∃ shorter, scanned = .closed shorter ∧ length = shorter + 1 := by
  cases scanned with
  | closed shorter => exact ⟨shorter, rfl, by simpa [ListEnd.shift, eq_comm] using hshift⟩
  | «open» => cases hshift

structure ClosesAt (depth : Nat) (inQuote : Bool) (text : List Char) (length : Nat) : Prop where
  pos : 0 < length
  le : length ≤ text.length
  closed : ∀ other, scanParamList depth inQuote (text.take length ++ other) = .closed length

lemma ClosesAt.cons {depth inner : Nat} {inQuote quoted : Bool}
    (hstep : ∀ tail : List Char, tail.head? = rest.head? →
      scanParamList depth inQuote (c :: tail) = (scanParamList inner quoted tail).shift 1)
    (hcls : ClosesAt inner quoted rest length) :
    ClosesAt depth inQuote (c :: rest) (length + 1) := by
  obtain ⟨hpos, hle, hshut⟩ := hcls
  refine ⟨Nat.succ_pos length, Nat.succ_le_succ hle, fun other => ?_⟩
  have hhead : (rest.take length ++ other).head? = rest.head? := by
    obtain _ | ⟨d, tail⟩ := rest
    · exact absurd (Nat.lt_of_lt_of_le hpos hle) (Nat.lt_irrefl 0)
    · obtain ⟨n, rfl⟩ := Nat.exists_eq_succ_of_ne_zero (Nat.ne_of_gt hpos)
      rfl
  rw [take_succ_cons, cons_append, hstep _ hhead, hshut other]
  rfl

lemma closesAt_of_scanParamList {depth : Nat} {inQuote : Bool}
    (hshut : scanParamList depth inQuote text = .closed length) :
    ClosesAt depth inQuote text length := by
  induction text generalizing depth inQuote length with
  | nil => cases hshut
  | cons c rest ih =>
    have hcons {inner : Nat} {quoted : Bool}
        (hshift : (scanParamList inner quoted rest).shift 1 = .closed length)
        (hstep : ∀ tail : List Char, tail.head? = rest.head? →
          scanParamList depth inQuote (c :: tail) = (scanParamList inner quoted tail).shift 1) :
        ClosesAt depth inQuote (c :: rest) length := by
      obtain ⟨shorter, hshorter, rfl⟩ := ListEnd.shift_eq_closed hshift
      exact (ih hshorter).cons hstep
    unfold scanParamList at hshut
    split_ifs at hshut with hquote hins hopen hclose hlast hcom
    · exact hcons hshut fun tail _ => by rw [scanParamList, if_pos hquote]
    · exact hcons hshut fun tail _ => by rw [scanParamList, if_neg hquote, if_pos hins]
    · exact hcons hshut fun tail _ => by
        rw [scanParamList, if_neg hquote, if_neg hins, if_pos hopen]
    · cases hshut
      refine ⟨Nat.one_pos, by simp, fun other => ?_⟩
      simp [scanParamList, hins, hclose, hlast]
    · exact hcons hshut fun tail _ => by
        rw [scanParamList, if_neg hquote, if_neg hins, if_neg hopen, if_pos hclose, if_neg hlast]
    · exact hcons hshut fun tail htail => by
        rw [scanParamList, htail, if_neg hquote, if_neg hins, if_neg hopen, if_neg hclose,
          if_neg hcom]

namespace ParamList

variable {depth : Nat} {inQuote : Bool} {following : List (List Char)}

lemma read_of_closed (hscan : scanParamList 1 false first = .closed length)
    (following : List (List Char)) :
    read first following = ⟨first.take (length - 1), first.drop length, 0, true⟩ := by
  rw [read, hscan]

lemma read_of_open (hscan : scanParamList 1 false first = .«open» depth inQuote)
    (following : List (List Char)) :
    read first following =
      let more := continued depth inQuote following
      { more with text := first ++ more.text } := by
  rw [read, hscan]

lemma tail_of_extraLines_eq_zero (hextra : (continued depth inQuote following).extraLines = 0) :
    (continued depth inQuote following).tail = [] := by
  fun_induction continued depth inQuote following with
  | case1 | case2 => rfl
  | case3 | case4 => cases hextra

lemma tail_of_not_closed (hshut : (continued depth inQuote following).closed = false) :
    (continued depth inQuote following).tail = [] := by
  fun_induction continued depth inQuote following with
  | case1 | case2 => rfl
  | case3 => cases hshut
  | case4 depth inQuote line rest _ _ _ _ more ih => exact ih hshut

lemma isMethodBoundary_of_not_closed (hshut : (continued depth inQuote following).closed = false) :
    (following.drop (continued depth inQuote following).extraLines).head?.all
      isMethodBoundary := by
  fun_induction continued depth inQuote following with
  | case1 => rfl
  | case2 depth inQuote line rest hbdry => exact hbdry
  | case3 => cases hshut
  | case4 depth inQuote line rest _ _ _ _ more ih => exact ih hshut

/-- What comes after the last line of a list may be exchanged, as long as the list
still ends there. -/
lemma continued_exchange (hnext : (continued depth inQuote following).closed = false →
      others.head?.all isMethodBoundary) :
    continued depth inQuote
        (following.take (continued depth inQuote following).extraLines ++ others) =
      continued depth inQuote following := by
  have hend (depth : Nat) (inQuote : Bool) (hhead : others.head?.all isMethodBoundary) :
      continued depth inQuote others = ⟨[], [], 0, false⟩ := by
    obtain _ | ⟨line, rest⟩ := others
    · rfl
    · have hline : isMethodBoundary line := hhead
      rw [continued, if_pos hline]
  fun_induction continued depth inQuote following with
  | case1 depth inQuote | case2 depth inQuote line rest hbdry =>
    exact hend depth inQuote (hnext rfl)
  | case3 depth inQuote line rest hbdry length hscan =>
    change continued depth inQuote (line :: others) = _
    rw [continued, if_neg hbdry, hscan]
  | case4 depth inQuote line rest hbdry inner quoted hscan more ih =>
    change continued depth inQuote (line :: (rest.take more.extraLines ++ others)) = _
    have hmore : continued inner quoted (rest.take more.extraLines ++ others) = more := ih hnext
    rw [continued, if_neg hbdry, hscan]
    simp only [hmore]

end ParamList

/-! ## Where a parameter is found -/

lemma findWordFrom?_append {word : List Char} {before : Bool} {last : Char}
    (hskip : column + front.length < skip) :
    findWordFrom? word skip before column (front ++ last :: text) =
      findWordFrom? word skip (isWordChar last) (column + front.length + 1) text := by
  induction front generalizing before column with
  | nil =>
    have hlater : ¬skip ≤ column := by
      rw [length_nil] at hskip
      omega
    rw [nil_append, findWordFrom?, if_neg fun h => hlater h.1]
    rfl
  | cons c rest ih =>
    rw [length_cons] at hskip
    have hlater : ¬skip ≤ column := by omega
    rw [cons_append, findWordFrom?, if_neg fun h => hlater h.1, ih (by omega), length_cons]
    congr 1
    omega

lemma isSome_findWordFrom? {other : Nat} (hskip : skip ≤ column) (hoth : other ≤ place)
    (word : List Char) (before : Bool) (text : List Char) :
    (findWordFrom? word skip before column text).isSome =
      (findWordFrom? word other before place text).isSome := by
  induction text generalizing before column place with
  | nil => rfl
  | cons c rest ih =>
    rw [findWordFrom?, findWordFrom?]
    simp only [hskip, hoth, true_and]
    split
    · rfl
    · exact ih (by omega) (by omega) _

def parenColumn (line : List Char) : Nat :=
  if line.contains '(' then runLength (· != '(') line else 0

lemma parenColumn_append (hfront : '(' ∉ front) (after : List Char) :
    parenColumn (front ++ '(' :: after) = front.length := by
  have hcontains : (front ++ '(' :: after).contains '(' := by simp
  rw [parenColumn, if_pos hcontains]
  refine runLength_append_cons (fun c hc => ?_) (by decide) after
  rw [bne_iff_ne]
  rintro rfl
  exact hfront hc

lemma isSome_findWord?_eq {lead after : List Char} (hlead : lead ≠ [])
    (hfront : '(' ∉ front ++ lead) (hoth : '(' ∉ other ++ lead) (word : String) :
    (findWord? (front ++ lead ++ '(' :: after) word
        (parenColumn (front ++ lead ++ '(' :: after))).isSome =
      (findWord? (other ++ lead ++ '(' :: after) word
        (parenColumn (other ++ lead ++ '(' :: after))).isSome := by
  rw [parenColumn_append hfront, parenColumn_append hoth]
  obtain ⟨most, last, rfl⟩ := eq_nil_or_concat lead |>.resolve_left hlead
  unfold findWord?
  simp only [concat_eq_append]
  split
  · rfl
  · have hsplit (text : List Char) : text ++ (most ++ [last]) ++ '(' :: after =
        (text ++ most) ++ last :: '(' :: after := by
      simp
    have hlen (text : List Char) :
        (text ++ (most ++ [last])).length = (text ++ most).length + 1 := by
      simp only [length_append, length_singleton]
      omega
    rw [hsplit, hsplit, hlen, hlen, findWordFrom?_append (by omega),
      findWordFrom?_append (by omega)]
    exact isSome_findWordFrom? (by omega) (by omega) _ _ _

lemma HeaderParts.isSome_findWord?_eq
    {kind found name : List Char} (hparts : HeaderParts front kind name gap)
    (hoths : HeaderParts other found name gap) (word : String) (after : List Char) :
    let line (front : List Char) := front ++ (name ++ (gap ++ '(' :: after))
    (findWord? (line front) word (parenColumn (line front))).isSome =
      (findWord? (line other) word (parenColumn (line other))).isSome := by
  have hlead : name ++ gap ≠ [] := by
    have hstart := hparts.nameStart
    obtain _ | ⟨c, more⟩ := name
    · cases hstart
    · simp
  have hsplit (first : List Char) :
      first ++ (name ++ (gap ++ '(' :: after)) = first ++ (name ++ gap) ++ '(' :: after := by
    simp
  simp only [hsplit]
  exact BslInsight.isSome_findWord?_eq hlead hparts.noParen hoths.noParen word

lemma fst_findWordInLines?_cons {rest : List (List Char)} {number : Nat}
    (hline : (findWord? line word skip).isSome = (findWord? other word place).isSome)
    (hrest : (findWordInLines? word 0 (number + 1) rest).map Prod.fst =
      (findWordInLines? word 0 (number + 1) others).map Prod.fst) :
    (findWordInLines? word skip number (line :: rest)).map Prod.fst =
      (findWordInLines? word place number (other :: others)).map Prod.fst := by
  rw [findWordInLines?, findWordInLines?]
  cases hfirst : findWord? line word skip with
  | some column =>
    rw [hfirst, Option.isSome_some, eq_comm, Option.isSome_iff_exists] at hline
    obtain ⟨found, hfound⟩ := hline
    rw [hfound]
    rfl
  | none =>
    rw [hfirst, Option.isSome_none, eq_comm, Option.isSome_eq_false_iff,
      Option.isNone_iff_eq_none] at hline
    rw [hline]
    exact hrest

lemma fst_findWordInLines?
    (hline : (findWord? line word skip).isSome = (findWord? other word place).isSome) (number : Nat)
    (rest : List (List Char)) :
    (findWordInLines? word skip number (line :: rest)).map Prod.fst =
      (findWordInLines? word place number (other :: rest)).map Prod.fst :=
  fst_findWordInLines?_cons hline rfl

lemma fst_findWordInLines?_singleton (word : String) (skip number : Nat) (line : List Char) :
    ((findWordInLines? word skip number [line]).map Prod.fst).getD number = number := by
  unfold findWordInLines?
  split
  · rfl
  · rfl

def paramLine
    (number : Nat) (line : List Char) (list : ParamList) (rest : List (List Char)) (name : String) :
    Nat :=
  ((findWordInLines? name (parenColumn line) number
    (line :: rest.take list.extraLines)).map Prod.fst).getD number

/-! ## Two headers of one method -/

/-- Header lines that declare the same method, with texts after the parenthesis that
are alike. -/
inductive HeadersAlike (alike : List Char → List Char → Prop) :
    Header → Header → List Char → List Char → Prop
  | mk {front other word found name gap text after : List Char}
      (hparts : HeaderParts front word name gap) (hoths : HeaderParts other found name gap)
      (hword : Keyword.ofWord? (String.ofList word) = Keyword.ofWord? (String.ofList found))
      (hpars : alike text after) :
      HeadersAlike alike (Header.ofParts front word name gap)
        (Header.ofParts other found name gap) (front ++ (name ++ (gap ++ '(' :: text)))
        (other ++ (name ++ (gap ++ '(' :: after)))

namespace HeadersAlike

variable {alike : List Char → List Char → Prop} {header found : Header}
  (halike : HeadersAlike alike header found line other)
include halike

lemma ofLine?_eq : Header.ofLine? other = some found := by
  cases halike with
  | mk _ hoths => exact Header.ofLine?_of_parts hoths _

lemma kind_eq : header.kind = found.kind := by
  cases halike with
  | mk _ _ hword => simp only [Header.ofParts, hword]

lemma name_eq : header.name = found.name := by
  cases halike with
  | mk => rfl

end HeadersAlike

end BslInsight
