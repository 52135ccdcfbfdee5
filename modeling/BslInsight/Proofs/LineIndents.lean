import BslInsight.Proofs.AlignedLines
import Mathlib.Data.List.Forall2
import Mathlib.Data.List.Induction

/-!
# Indents of lines

A lexeme never goes over a line break, and blanks at the beginning of a line are dropped.  So the
tokens of a text stay the same, apart from their columns, without the indents of its lines.
-/

namespace BslInsight

open List

variable {d c : Char} {line text rest body : List Char} {atStart : Bool} {lines : List (List Char)}

lemma indent_split (line : List Char) : line.takeWhile isBlank ++ trimStart line = line ∧
      ∀ c ∈ line.takeWhile isBlank, isBlank c :=
  ⟨takeWhile_append_dropWhile, fun _ hc => mem_takeWhile_imp hc⟩

/-! ## Lexemes and line breaks -/

/-- A character that stands only at the beginning of lexemes, and inside of strings, dates and
comments. -/
def isOuter (d : Char) : Bool :=
  !(isSeparator d || isIdentPart d || isDecimalDigit d || d == '.' || d == '>' || d == '=')

lemma not_mem_run {p : Char → Bool} (hp : p d = false) (text : List Char) :
    d ∉ text.take (runLength p text) := by
  unfold runLength
  rw [← prefix_iff_eq_take.mp ( takeWhile_prefix p)]
  intro hmem
  rw [mem_takeWhile_imp hmem] at hp
  cases hp

lemma not_mem_fraction (hdigit : isDecimalDigit d = false) (hpoint : d ≠ '.') (text : List Char) :
    d ∉ text.take (fractionLength text) := by
  fun_cases fractionLength text with
  | case1 | case3 => simp
  | case2 digits _ =>
    rw [take_succ_cons, mem_cons, not_or]
    exact ⟨hpoint, not_mem_run hdigit digits⟩

lemma not_mem_lexeme (hd : isOuter d) (hc : c ∉ ['"', '\'', '/']) (rest : List Char) :
    d ∉ rest.take (lexeme c rest).2 := by
  simp only [isOuter, Bool.not_eq_true', Bool.or_eq_false_iff, beq_eq_false_iff_ne] at hd
  obtain ⟨⟨⟨⟨⟨hsep, hpart⟩, hnum⟩, hpoint⟩, hgreater⟩, heqs⟩ := hd
  simp only [mem_cons, not_mem_nil, or_false, not_or] at hc
  by_cases hident : isIdentStart c
  · rw [lexeme_identifier hident]
    exact not_mem_run hpart rest
  by_cases hdigit : isDecimalDigit c
  · rw [lexeme_number hdigit, take_add, mem_append, not_or]
    exact ⟨not_mem_run hnum rest, not_mem_fraction hnum hpoint _⟩
  unfold lexeme
  simp only [hident, hdigit, if_false, Bool.false_eq_true]
  split
  · exact not_mem_run hsep rest
  split
  case h_1 | h_2 =>
    rw [markedIdent?_eq]
    cases rest.head?.any isIdentStart with
    | true => exact not_mem_run hpart rest
    | false => simp
  case h_3 => exact absurd rfl hc.1
  case h_4 => exact absurd rfl hc.2.1
  case h_5 => exact absurd rfl hc.2.2
  case h_6 | h_7 => split <;> simp [hgreater, heqs]
  all_goals simp

lemma break_not_mem_quoted (text : List Char) : '\n' ∉ text.take (quotedTail text).2 := by
  fun_induction quotedTail text with
  | case1 | case3 | case4 => simp
  | case2 rest ih => simpa using ih
  | case5 c rest _ _ hbreak ih => simpa [hbreak, eq_comm] using ih

lemma break_not_mem_lexeme (c : Char) (rest : List Char) : '\n' ∉ rest.take (lexeme c rest).2 := by
  by_cases hc : c ∈ ['"', '\'', '/']
  · simp only [mem_cons, not_mem_nil, or_false] at hc
    rcases hc with rfl | rfl | rfl
    · rw [lexeme_quote]
      exact break_not_mem_quoted rest
    · have hbody : '\n' ∉ rest.take (runLength (fun d => d != '\'' && d != '\n') rest) :=
        not_mem_run (by decide) rest
      unfold lexeme
      rw [if_neg (by decide), if_neg (by decide), if_neg (by decide)]
      simp only
      split
      next hshut => simpa [take_add_one, hshut] using hbody
      next => exact hbody
    · rw [lexeme_slash]
      split
      · exact not_mem_run (by decide) rest
      · simp
  · exact not_mem_lexeme (by decide) hc rest

/-! ## Dropping indents -/

/-- The text without the blanks at the beginning of its lines.  Those of its first line are
dropped only if it begins at the start of a line. -/
def dropIndents (atStart : Bool) : List Char → List Char
  | [] => []
  | c :: rest =>
    if c = '\n' then '\n' :: dropIndents true rest
    else if atStart && isBlank c then dropIndents true rest
    else c :: dropIndents false rest

lemma exists_dropIndents_cons (atStart : Bool) (c : Char) :
    ∃ kept start, (kept = [c] ∨ kept = [] ∧ isBlank c) ∧
      ∀ rest, dropIndents atStart (c :: rest) = kept ++ dropIndents start rest := by
  by_cases hbreak : c = '\n'
  · exact ⟨[c], true, .inl rfl, fun rest => by simp [dropIndents, hbreak]⟩
  by_cases hskip : (atStart && isBlank c)
  · exact ⟨[], true, .inr ⟨rfl, (Bool.and_eq_true_iff.mp hskip).2⟩,
      fun rest => by rw [dropIndents, if_neg hbreak, if_pos hskip, nil_append]⟩
  · exact ⟨[c], false, .inl rfl,
      fun rest => by rw [dropIndents, if_neg hbreak, if_neg hskip, singleton_append]⟩

lemma break_not_mem_trimStart (hline : '\n' ∉ line) : '\n' ∉ trimStart line :=
  fun hmem => hline ((dropWhile_suffix isBlank).mem hmem)

lemma dropIndents_append_blank {gap : List Char} (hgap : ∀ c ∈ gap, isBlank c) (hbreak : '\n' ∉ gap)
    (rest : List Char) : dropIndents true (gap ++ rest) = dropIndents true rest := by
  induction gap with
  | nil => rfl
  | cons c gap ih =>
    obtain ⟨hc, hgap⟩ := forall_mem_cons.mp hgap
    simp only [mem_cons, not_or] at hbreak
    rw [cons_append, dropIndents, if_neg (Ne.symm hbreak.1), if_pos (by simpa using hc)]
    exact ih hgap hbreak.2

lemma dropIndents_append_kept (hbreak : '\n' ∉ text) (rest : List Char) :
    dropIndents false (text ++ rest) = text ++ dropIndents false rest := by
  induction text with
  | nil => rfl
  | cons c text ih =>
    simp only [mem_cons, not_or] at hbreak
    rw [cons_append, dropIndents, if_neg (Ne.symm hbreak.1), if_neg (by simp),
      ih hbreak.2, cons_append]

lemma dropIndents_cons_kept (hbreak : c ≠ '\n') (hkept : (atStart && isBlank c) = false)
    (rest : List Char) : dropIndents atStart (c :: rest) = c :: dropIndents false rest := by
  rw [dropIndents, if_neg hbreak, if_neg (by simp [hkept])]

lemma dropIndents_false_of_no_break (hbreak : '\n' ∉ line) : dropIndents false line = line := by
  have hline := dropIndents_append_kept hbreak []
  simpa [dropIndents] using hline

lemma dropIndents_of_break (hrest : rest.head?.all (· == '\n')) :
    dropIndents false rest = dropIndents true rest := by
  cases rest with
  | nil => rfl
  | cons c rest =>
    obtain rfl : c = '\n' := by simpa using hrest
    rfl

lemma dropIndents_line (hbreak : '\n' ∉ line) (hrest : rest.head?.all (· == '\n')) :
    dropIndents true (line ++ rest) = trimStart line ++ dropIndents true rest := by
  have hsplit := (indent_split line).1
  have hgap : '\n' ∉ line.takeWhile isBlank :=
    fun hmem => hbreak (( takeWhile_prefix isBlank).mem hmem)
  have hbody := break_not_mem_trimStart hbreak
  have hhead := head_trimStart line
  have hblank := dropIndents_append_blank (fun c hc => mem_takeWhile_imp hc) hgap
    (trimStart line ++ rest)
  rw [← append_assoc, hsplit] at hblank
  rw [hblank]
  cases hline : trimStart line with
  | nil => rfl
  | cons c body =>
    rw [hline, mem_cons, not_or] at hbody
    have hc : isBlank c = false := by simpa [hline] using hhead
    rw [cons_append, dropIndents_cons_kept (Ne.symm hbody.1) (by simp [hc]),
      dropIndents_append_kept hbody.2, dropIndents_of_break hrest, cons_append]

lemma dropIndents_true_of_no_break (hbreak : '\n' ∉ line) :
    dropIndents true line = trimStart line := by
  have hline : dropIndents true (line ++ []) = trimStart line ++ dropIndents true [] :=
    dropIndents_line hbreak rfl
  simpa [dropIndents] using hline

/-! ## Carriage returns -/

lemma dropReturn_append (front : List Char) (hbody : body ≠ []) :
    dropReturn (front ++ body) = front ++ dropReturn body := by
  have hlast : (front ++ body).getLast? = body.getLast? := by
    rw [getLast?_append, getLast?_eq_some_getLast hbody, Option.some_or]
  unfold dropReturn
  rw [hlast, dropLast_append_of_ne_nil hbody]
  split <;> rfl

lemma break_not_mem_dropReturn (hline : '\n' ∉ line) : '\n' ∉ dropReturn line := by
  unfold dropReturn
  split
  · exact fun hmem => hline ((dropLast_sublist line).mem hmem)
  · exact hline

lemma head_dropReturn (hc : c ≠ '\r') (rest : List Char) :
    (dropReturn (c :: rest)).head? = some c := by
  cases rest with
  | nil => simp [dropReturn, hc]
  | cons next rest =>
    rw [← singleton_append, dropReturn_append _ (by simp)]
    rfl

lemma trimStart_dropReturn (line : List Char) :
    trimStart (dropReturn line) = dropReturn (trimStart line) := by
  obtain ⟨hsplit, hgap⟩ := indent_split line
  cases hbody : trimStart line with
  | nil =>
    rw [hbody, append_nil] at hsplit
    rw [hsplit] at hgap
    refine dropWhile_eq_nil_iff.mpr fun c hc => hgap c ?_
    unfold dropReturn at hc
    split at hc
    · exact (dropLast_sublist line).mem hc
    · exact hc
  | cons c body =>
    have hc : isBlank c = false := by simpa [hbody] using head_trimStart line
    have hret : c ≠ '\r' := by
      rintro rfl
      cases hc
    have hkept := head_dropReturn hret body
    rw [hbody] at hsplit
    rw [← hsplit, dropReturn_append _ (by simp), trimStart_append_of_blank hgap,
      trimStart_of_head (by simp [hkept, hc])]

lemma trimStart_ne_nil_of_dropReturn (hbody : trimStart (dropReturn line) ≠ []) :
    trimStart line ≠ [] := by
  intro hnil
  rw [trimStart_dropReturn, hnil] at hbody
  exact hbody rfl

/-! ## Indents of several lines -/

lemma dropIndents_append (text : List Char) (atStart : Bool) : ∃ other, ∀ rest,
      dropIndents atStart (text ++ rest) = dropIndents atStart text ++ dropIndents other rest := by
  induction text generalizing atStart with
  | nil => exact ⟨atStart, fun rest => rfl⟩
  | cons c text ih =>
    obtain ⟨kept, start, -, hc⟩ := exists_dropIndents_cons atStart c
    obtain ⟨other, htext⟩ := ih start
    exact ⟨other, fun rest => by rw [cons_append, hc, hc, htext, append_assoc]⟩

lemma isBlank_of_mem_dropIndents (hblank : ∀ c ∈ text, isBlank c)
    (hc : c ∈ dropIndents atStart text) : isBlank c := by
  have hmem : c ∈ text := by
    fun_induction dropIndents atStart text with
    | case1 => exact hc
    | case2 | case3 | case4 => grind
  exact hblank c hmem

lemma dropIndents_cons_of_not_blank (hc : isBlank c = false) (atStart : Bool) (rest : List Char) :
    dropIndents atStart (c :: rest) = c :: dropIndents false rest :=
  dropIndents_cons_kept (by rintro rfl; cases hc) (by simp [hc]) rest

lemma dropIndents_dropIndents (text : List Char) (atStart : Bool) :
    dropIndents atStart (dropIndents atStart text) = dropIndents atStart text := by
  fun_induction dropIndents atStart text with
  | case1 => rfl
  | case2 atStart rest ih => rw [dropIndents, if_pos rfl, ih]
  | case3 atStart c rest _ hskip ih =>
    obtain ⟨rfl, -⟩ : atStart ∧ isBlank c := by simpa using hskip
    exact ih
  | case4 atStart c rest hbreak hskip ih => rw [dropIndents, if_neg hbreak, if_neg hskip, ih]

lemma trimStart_dropIndents (text : List Char) (atStart : Bool) :
    trimStart (dropIndents atStart text) = dropIndents false (trimStart text) := by
  obtain ⟨hsplit, hgap⟩ := indent_split text
  have hhead := head_trimStart text
  obtain ⟨other, happend⟩ := dropIndents_append (text.takeWhile isBlank) atStart
  have hdrp := happend (trimStart text)
  rw [hsplit] at hdrp
  rw [hdrp, trimStart_append_of_blank fun c hc => isBlank_of_mem_dropIndents hgap hc]
  cases hbody : trimStart text with
  | nil => rfl
  | cons c body =>
    have hc : isBlank c = false := by simpa [hbody] using hhead
    rw [dropIndents_cons_of_not_blank hc, dropIndents_cons_of_not_blank hc,
      trimStart_of_head (by simpa using hc)]

lemma trimEnd_concat (text : List Char) (c : Char) :
    trimEnd (text ++ [c]) = if isBlank c then trimEnd text else text ++ [c] := by
  unfold trimEnd trimEndBy
  cases hc : isBlank c <;> simp [hc]

lemma trimEnd_dropIndents (text : List Char) :
    trimEnd (dropIndents false text) = dropIndents false (trimEnd text) := by
  induction text using reverseRecOn with
  | nil => rfl
  | append_singleton text c ih =>
    obtain ⟨other, happend⟩ := dropIndents_append text false
    rw [happend, trimEnd_concat]
    cases hc : isBlank c with
    | false =>
      rw [dropIndents_cons_of_not_blank hc, dropIndents, trimEnd_concat, hc]
      simp only [Bool.false_eq_true, if_false]
      rw [happend, dropIndents_cons_of_not_blank hc, dropIndents]
    | true =>
      obtain ⟨kept, start, hkept, hlast⟩ := exists_dropIndents_cons other c
      rw [if_pos rfl, ← ih, hlast, dropIndents, append_nil]
      rcases hkept with rfl | ⟨rfl, -⟩
      · rw [trimEnd_concat, hc, if_pos rfl]
      · rw [append_nil]

lemma trim_dropIndents (text : List Char) :
    trim (dropIndents false text) = dropIndents false (trim text) := by
  rw [trim, trimStart_dropIndents, trimEnd_dropIndents, trim]

def trimLater : List (List Char) → List (List Char)
  | [] => []
  | first :: rest => first :: rest.map trimStart

lemma dropIndents_joinLines (hlines : ∀ line ∈ lines, '\n' ∉ line) :
    dropIndents true (joinWith ['\n'] lines) = joinWith ['\n'] (lines.map trimStart) := by
  induction lines with
  | nil => rfl
  | cons line rest ih =>
    obtain ⟨hline, hrest⟩ := forall_mem_cons.mp hlines
    by_cases hnil : rest = []
    · subst hnil
      exact dropIndents_true_of_no_break hline
    · rw [joinWith_cons _ _ hnil, map_cons, joinWith_cons _ _ (by simpa using hnil),
        append_assoc, dropIndents_line hline rfl, singleton_append, dropIndents,
        if_pos rfl, ih hrest]
      simp

lemma dropIndents_joinWith (hlines : ∀ line ∈ lines, '\n' ∉ line) :
    dropIndents false (joinWith ['\n'] lines) = joinWith ['\n'] (trimLater lines) := by
  cases lines with
  | nil => rfl
  | cons line rest =>
    obtain ⟨hline, hrest⟩ := forall_mem_cons.mp hlines
    by_cases hnil : rest = []
    · subst hnil
      exact dropIndents_false_of_no_break hline
    · rw [trimLater, joinWith_cons _ _ hnil, joinWith_cons _ _ (by simpa using hnil),
        append_assoc, dropIndents_append_kept hline, singleton_append, dropIndents,
        if_pos rfl, dropIndents_joinLines hrest]
      simp

lemma break_not_mem_of_mem_splitOn (hline : line ∈ splitOn '\n' text) : '\n' ∉ line :=
  fun hmem => (mem_of_mem_splitOn hline hmem).2 rfl

lemma splitOn_dropIndents (text : List Char) :
    splitOn '\n' (dropIndents false text) = trimLater (splitOn '\n' text) := by
  have hlines : ∀ line ∈ splitOn '\n' text, '\n' ∉ line := fun line => break_not_mem_of_mem_splitOn
  have hdrp := dropIndents_joinWith hlines
  rw [joinWith_splitOn] at hdrp
  rw [hdrp]
  cases hpcs : splitOn '\n' text with
  | nil => exact absurd hpcs (splitOn_ne_nil _ _)
  | cons first rest =>
    rw [hpcs, forall_mem_cons] at hlines
    refine splitOn_joinWith ?_ (by simp [trimLater])
    refine forall_mem_cons.mpr ⟨hlines.1, ?_⟩
    rintro _ hline
    obtain ⟨line, hmem, rfl⟩ := mem_map.mp hline
    exact break_not_mem_trimStart (hlines.2 line hmem)

/-! ## Tokens without their columns -/

def Token.unplaced (token : Token) : Token := { token with column := 0 }

lemma tokensFrom_unplaced_append {kind : Option TokenKind}
    (hlex : lexeme c (body ++ rest) = (kind, body.length)) (column : Nat) :
    (tokensFrom column (c :: (body ++ rest))).map Token.unplaced =
      (kind.map fun kind => (⟨kind, String.ofList (c :: body), 0⟩ : Token)).toList ++
        (tokensFrom (column + body.length + 1) rest).map Token.unplaced := by
  rw [tokensFrom_append hlex, map_append]
  cases kind <;> rfl

lemma startsAlike_dropIndents (text : List Char) : StartsAlike text (dropIndents false text) := by
  have hhead (rest : List Char) : rest.head? = (dropIndents false rest).head? := by
    cases rest with
    | nil => rfl
    | cons c rest =>
      rw [dropIndents]
      split
      next hbreak => rw [hbreak, head?_cons, head?_cons]
      next => simp
  refine ⟨.inl (hhead text), fun hpoint => ?_⟩
  obtain ⟨rest, rfl⟩ := head?_eq_some_iff.mp hpoint
  rw [dropIndents_cons_kept (by decide) (by decide), tail_cons, tail_cons, ← hhead]

lemma tokensFrom_dropIndents (text : List Char) (atStart : Bool) (column place : Nat) :
    (tokensFrom column text).map Token.unplaced =
      (tokensFrom place (dropIndents atStart text)).map Token.unplaced := by
  induction text using lexeme_induction generalizing atStart column place with
  | nil => simp [dropIndents, tokensFrom]
  | cons c body rest kind hlex ih =>
    have hbody : '\n' ∉ body := by
      have hmem := break_not_mem_lexeme c (body ++ rest)
      rwa [hlex, take_left] at hmem
    rw [tokensFrom_unplaced_append hlex]
    by_cases hbreak : c = '\n'
    · subst hbreak
      have hdrp (tail : List Char) : lexeme '\n' ([] ++ tail) = (none, 0) := rfl
      rw [← nil_append (body ++ rest), hdrp, Prod.mk.injEq] at hlex
      obtain ⟨rfl, hlen⟩ := hlex
      obtain rfl := length_eq_zero_iff.mp hlen.symm
      have hoth := tokensFrom_unplaced_append (hdrp (dropIndents true rest)) place
      rw [nil_append] at hoth
      rw [nil_append, dropIndents, if_pos rfl, hoth, ih true]
    cases hskip : atStart && isBlank c with
    | true =>
      obtain ⟨rfl, hblank⟩ : atStart ∧ isBlank c := by simpa using hskip
      obtain ⟨rfl, hgap⟩ := blank_of_lexeme hlex hblank
      have hbrks : '\n' ∉ c :: body := by simp [Ne.symm hbreak, hbody]
      rw [← cons_append, dropIndents_append_blank hgap hbrks]
      exact ih true _ _
    | false =>
      have hoth := lexeme_append hlex (startsAlike_dropIndents rest)
      rw [dropIndents_cons_kept hbreak hskip, dropIndents_append_kept hbody,
        tokensFrom_unplaced_append hoth, ih false]

/-! ## Lines that differ in their indents -/

/-- Each line differs from the other one in nothing but its indent. -/
abbrev SameBodies (lines others : List (List Char)) : Prop :=
  Forall₂ (fun line other => trimStart line = trimStart other) lines others

lemma SameBodies.exists_of_mem {others : List (List Char)} (hbds : SameBodies lines others)
    {other : List Char} (hoth : other ∈ others) :
    ∃ line ∈ lines, trimStart line = trimStart other := by
  induction hbds with
  | nil => cases hoth
  | cons hbody _ ih =>
    rcases mem_cons.mp hoth with rfl | hlater
    · exact ⟨_, mem_cons_self, hbody⟩
    · obtain ⟨line, hline, hsame⟩ := ih hlater
      exact ⟨line, mem_cons_of_mem _ hline, hsame⟩

lemma tokensFrom_unplaced (text : List Char) (column place : Nat) :
    (tokensFrom column text).map Token.unplaced = (tokensFrom place text).map Token.unplaced := by
  rw [tokensFrom_dropIndents text true column 0, tokensFrom_dropIndents text true place 0]

lemma any_openString_unplaced (tokens : List Token) :
    (tokens.map Token.unplaced).any (·.kind == .openString) =
      tokens.any (·.kind == .openString) := by
  rw [any_map]
  rfl

def unplacedLine (inString : Bool) (line : List Char) : List Token × Bool :=
  ((lexLine inString line).1.map Token.unplaced, (lexLine inString line).2)

lemma unplacedLine_of_tokens {start column : Nat} {inString : Bool}
    (hstart : (if inString then stringEnd? line else some 0) = some start)
    (hrest : (tokensFrom start (line.drop start)).map Token.unplaced =
      (tokensFrom column rest).map Token.unplaced) :
    unplacedLine inString line =
      let tokens := (tokensFrom column rest).map Token.unplaced
      (tokens, tokens.any (·.kind == .openString)) := by
  unfold unplacedLine lexLine
  simp only [hstart, ← hrest, any_openString_unplaced]

lemma unplacedLine_trimStart (hbreak : '\n' ∉ line) (inString : Bool) :
    unplacedLine inString line = unplacedLine inString (trimStart line) := by
  cases inString with
  | false =>
    have htoks := tokensFrom_dropIndents line true 0 0
    rw [dropIndents_true_of_no_break hbreak] at htoks
    have hstart (line : List Char) : (if false then stringEnd? line else some 0) = some 0 := rfl
    rw [unplacedLine_of_tokens (hstart line) htoks,
      unplacedLine_of_tokens (hstart (trimStart line)) rfl, drop_zero]
  | true =>
    have hsplit := (indent_split line).1
    have hquote : '"' ∉ line.takeWhile isBlank := fun hmem =>
      absurd (mem_takeWhile_imp hmem) (by decide)
    have hend := stringEnd?_plain hquote (trimStart line)
    rw [hsplit] at hend
    cases hfound : stringEnd? (trimStart line) with
    | none =>
      rw [hfound] at hend
      simp [unplacedLine, lexLine, hend, hfound]
    | some start =>
      rw [hfound] at hend
      have hdrop : line.drop (start + (line.takeWhile isBlank).length) =
          (trimStart line).drop start := by
        rw [Nat.add_comm, ← drop_drop]
        exact congrArg (List.drop start) (drop_length_takeWhile isBlank line)
      rw [unplacedLine_of_tokens (by simpa using hend) (tokensFrom_unplaced _ _ start),
        unplacedLine_of_tokens (by simpa using hfound) rfl, hdrop]

end BslInsight
