import BslInsight.Token
import Mathlib.Data.List.TakeWhile

/-!
# Lexemes and what follows them

How long a lexeme is depends on very little of what follows: the next character, and after a
number and a dot the one after that.  So it stays what it is when the text after it is exchanged
for one that starts alike.
-/

namespace BslInsight

open List

variable {c d : Char} {first second run text rest body other : List Char} {value closed : Bool}
  {length : Nat} {p : Char → Bool}

/-! ## Character classes -/

lemma isIdentPart_of_isIdentStart (hc : isIdentStart c) : isIdentPart c := by
  unfold isIdentStart at hc
  unfold isIdentPart
  rcases Bool.or_eq_true_iff.mp hc with hlet | hunderscore
  · simp [hlet]
  · simp [hunderscore]

lemma not_isIdentStart_of_lt (hc : c.toNat < 0x41) : isIdentStart c = false := by
  have hlet : isLetter c = false := by
    obtain ⟨rest, hranges⟩ : ∃ rest, letterRanges = (0x41, 0x5a) :: rest := ⟨_, rfl⟩
    rw [isLetter, hranges, inRanges, if_pos hc]
  have hne : c ≠ '_' := by
    rintro rfl
    revert hc
    decide
  simp [isIdentStart, hlet, hne]

lemma toNat_of_isDecimalDigit (hc : isDecimalDigit c) : 0x30 ≤ c.toNat ∧ c.toNat ≤ 0x39 := by
  simp only [isDecimalDigit, Bool.and_eq_true, decide_eq_true_eq, Char.le_def] at hc
  exact hc

lemma not_isDecimalDigit_of_isIdentStart (hc : isIdentStart c) : isDecimalDigit c = false := by
  rw [Bool.eq_false_iff]
  intro hdigit
  have hcode := toNat_of_isDecimalDigit hdigit
  rw [not_isIdentStart_of_lt (by omega)] at hc
  cases hc

lemma not_isSeparator_of {p : Char → Bool} (hp : [' ', '\t', '\x0c', '\r'].any p = false)
    (hc : p c) : isSeparator c = false := by
  rw [Bool.eq_false_iff]
  intro hsep
  exact any_eq_false.mp hp c (by simpa [isSeparator, or_assoc] using hsep) hc

lemma not_isSeparator_of_isIdentStart (hc : isIdentStart c) : isSeparator c = false :=
  not_isSeparator_of (by decide) hc

lemma not_isSeparator_of_isDecimalDigit (hc : isDecimalDigit c) : isSeparator c = false :=
  not_isSeparator_of (by decide) hc

lemma bne_of_isIdentStart (hc : isIdentStart c) (hd : isIdentStart d = false) : (c != d) := by
  rw [bne_iff_ne]
  rintro rfl
  rw [hd] at hc
  cases hc

/-! ## Texts that start alike -/

def HeadsAlike (first second : List Char) : Prop := first.head? = second.head? ∨
    first.head?.any isIdentStart = true ∧ second.head?.any isIdentStart = true

lemma HeadsAlike.any_head (halike : HeadsAlike first second)
    (hlets : ∀ c, isIdentStart c → p c = value) :
    first.head?.any p = second.head?.any p := by
  have hvalue {text : List Char} (htext : text.head?.any isIdentStart) :
      text.head?.any p = value := by
    cases text with
    | nil => cases htext
    | cons c rest => exact hlets c htext
  rcases halike with hsame | ⟨hfirst, hsnd⟩
  · rw [hsame]
  · rw [hvalue hfirst, hvalue hsnd]

structure StartsAlike (first second : List Char) : Prop where
  head : HeadsAlike first second
  fraction : first.head? = some '.' →
      first.tail.head?.any isDecimalDigit = second.tail.head?.any isDecimalDigit

lemma StartsAlike.any_head (halike : StartsAlike first second)
    (hlets : ∀ c, isIdentStart c → p c = value) :
    first.head?.any p = second.head?.any p :=
  halike.head.any_head hlets

lemma StartsAlike.any_head_eq (halike : StartsAlike first second) (hd : isIdentStart d = false) :
    first.head?.any (· == d) = second.head?.any (· == d) := by
  have hlets (c : Char) (hc : isIdentStart c) : (c == d) = false := by
    rw [beq_eq_false_iff_ne]
    rintro rfl
    rw [hd] at hc
    cases hc
  exact halike.any_head hlets

/-! ## Runs -/

lemma runLength_append_eq_iff {after : List Char} : runLength p (run ++ after) = run.length ↔
      (∀ c ∈ run, p c) ∧ after.head?.any p = false := by
  unfold runLength
  induction run with
  | nil =>
    cases after with
    | nil => simp
    | cons c rest => cases hc : p c <;> simp [hc]
  | cons c run ih =>
    cases hc : p c with
    | false => simp [hc]
    | true => simp [hc, ih]

lemma runLength_le (p : Char → Bool) (text : List Char) : runLength p text ≤ text.length :=
  (takeWhile_sublist p).length_le

lemma runLength_eq_zero_iff : runLength p text = 0 ↔ text.head?.any p = false := by
  have hrun := @runLength_append_eq_iff [] p text
  simpa using hrun

lemma runLength_append_of_all (hrun : ∀ c ∈ run, p c) (after : List Char) :
    runLength p (run ++ after) = run.length + runLength p after := by
  simp [runLength, takeWhile_append_of_pos hrun]

lemma runLength_append_cons (hrun : ∀ c ∈ run, p c) (hd : p d = false) (after : List Char) :
    runLength p (run ++ d :: after) = run.length :=
  runLength_append_eq_iff.mpr ⟨hrun, hd⟩

/-! ## Strings -/

/-- A character that would go on a string that has ended, closed or at the end of
the line. -/
def extendsQuoted (closed : Bool) (c : Char) : Bool := if closed then c == '"' else c != '\n'

lemma quotedTail_closing (hrest : rest.head?.any (· == '"') = false) :
    quotedTail ('"' :: rest) = (true, 1) := by
  rw [quotedTail.eq_3]
  · simp
  · rintro tail - rfl
    cases hrest

lemma quotedTail_cons (hquote : c ≠ '"') (hbreak : c ≠ '\n') (rest : List Char) :
    quotedTail (c :: rest) = ((quotedTail rest).1, (quotedTail rest).2 + 1) := by
  rw [quotedTail.eq_3]
  · simp [hquote, hbreak]
  · intro tail hc
    exact absurd hc hquote

lemma quotedTail_break (rest : List Char) : quotedTail ('\n' :: rest) = (false, 0) := by
  rw [quotedTail.eq_3]
  · simp
  · intro tail hc
    cases hc

lemma quotedTail_eq_zero_iff : quotedTail text = (closed, 0) ↔
      closed = false ∧ text.head?.any (extendsQuoted false) = false := by
  unfold extendsQuoted
  fun_cases quotedTail text <;> cases closed <;> simp_all

lemma quotedTail_append {after : List Char}
    (hbody : quotedTail (body ++ after) = (closed, body.length)) :
    after.head?.any (extendsQuoted closed) = false ∧
      ∀ other : List Char, other.head?.any (extendsQuoted closed) = false →
        quotedTail (body ++ other) = (closed, body.length) := by
  induction body using quotedTail.induct with
  | case1 =>
    obtain ⟨rfl, hafter⟩ := quotedTail_eq_zero_iff.mp hbody
    exact ⟨hafter, fun other hoth => quotedTail_eq_zero_iff.mpr ⟨rfl, hoth⟩⟩
  | case2 rest ih =>
    have hrest : quotedTail (rest ++ after) = (closed, rest.length) := by
      simpa [quotedTail, Prod.ext_iff] using hbody
    obtain ⟨hafter, hoths⟩ := ih hrest
    refine ⟨hafter, fun other hoth => ?_⟩
    simp [quotedTail, hoths other hoth]
  | case3 rest hsing =>
    -- A single quote closes the string, so that nothing of it is left.
    have hhead : (rest ++ after).head?.any (· == '"') = false := by
      rw [Bool.eq_false_iff]
      intro hquote
      cases rest with
      | nil =>
        obtain _ | ⟨c, tail⟩ := after
        · cases hquote
        · obtain rfl : c = '"' := by simpa using hquote
          simp [quotedTail] at hbody
      | cons c tail =>
        obtain rfl : c = '"' := by simpa using hquote
        exact hsing tail rfl rfl
    rw [cons_append, quotedTail_closing hhead] at hbody
    obtain ⟨rfl, rfl⟩ : closed ∧ rest = [] := by
      simpa [eq_comm] using hbody
    exact ⟨hhead, fun other hoth => quotedTail_closing hoth⟩
  | case4 rest =>
    rw [cons_append, quotedTail_break] at hbody
    simp at hbody
  | case5 c rest _ hquote hbreak ih =>
    rw [cons_append, quotedTail_cons hquote hbreak] at hbody
    have hrest : quotedTail (rest ++ after) = (closed, rest.length) := by
      simpa [Prod.ext_iff] using hbody
    obtain ⟨hafter, hoths⟩ := ih hrest
    refine ⟨hafter, fun other hoth => ?_⟩
    rw [cons_append, quotedTail_cons hquote hbreak, hoths other hoth]
    rfl

lemma quotedTail_plain (hquote : '"' ∉ body) (hbreak : '\n' ∉ body) (after : List Char) :
    quotedTail (body ++ after) = ((quotedTail after).1, (quotedTail after).2 + body.length) := by
  induction body with
  | nil => rfl
  | cons c rest ih =>
    simp only [mem_cons, not_or] at hquote hbreak
    rw [cons_append, quotedTail_cons (Ne.symm hquote.1) (Ne.symm hbreak.1), ih hquote.2 hbreak.2]
    rfl

lemma quotedTail_le (text : List Char) : (quotedTail text).2 ≤ text.length := by
  fun_induction quotedTail text <;> simp_all

/-! ## Single lexemes -/

lemma lexeme_identifier (hc : isIdentStart c) (rest : List Char) :
    lexeme c rest = (some .identifier, runLength isIdentPart rest) := by
  simp [lexeme, hc, not_isSeparator_of_isIdentStart hc]

def fractionLength : List Char → Nat
  | '.' :: digits =>
    if runLength isDecimalDigit digits = 0 then 0 else runLength isDecimalDigit digits + 1
  | _ => 0

lemma lexeme_number (hc : isDecimalDigit c) (rest : List Char) :
    lexeme c rest = (some .number, runLength isDecimalDigit rest +
      fractionLength (rest.drop (runLength isDecimalDigit rest))) := by
  have hident : isIdentStart c = false :=
    not_isIdentStart_of_lt (by have := toNat_of_isDecimalDigit hc; omega)
  unfold lexeme
  simp only [not_isSeparator_of_isDecimalDigit hc, hident, hc, Bool.false_eq_true, if_false,
    if_true]
  split
  next after hdrop =>
    rw [hdrop, fractionLength]
    split
    next hzero => simp [hzero]
    next hzero => rw [if_neg hzero, Nat.add_assoc, Nat.add_comm 1]
  next hdrop => rw [fractionLength.eq_2 _ hdrop, Nat.add_zero]

lemma markedIdent?_eq (rest : List Char) : markedIdent? rest =
      if rest.head?.any isIdentStart then some (runLength isIdentPart rest) else none := by
  cases rest <;> rfl

lemma lexeme_quote (rest : List Char) : lexeme '"' rest =
      (some (if (quotedTail rest).1 then .stringLiteral else .openString),
        (quotedTail rest).2) := by
  unfold lexeme
  rw [if_neg (by decide), if_neg (by decide), if_neg (by decide)]
  obtain ⟨closed, length⟩ := quotedTail rest
  cases closed <;> rfl

lemma lexeme_eq_stringLiteral_iff :
    lexeme '"' rest = (some .stringLiteral, length) ↔ quotedTail rest = (true, length) := by
  rw [lexeme_quote]
  obtain ⟨closed, tail⟩ := quotedTail rest
  cases closed <;> simp

lemma lexeme_eq_openString_iff :
    lexeme '"' rest = (some .openString, length) ↔ quotedTail rest = (false, length) := by
  rw [lexeme_quote]
  obtain ⟨closed, tail⟩ := quotedTail rest
  cases closed <;> simp

lemma lexeme_slash (rest : List Char) : lexeme '/' rest =
      if rest.head? = some '/' then (some .comment, runLength (· != '\n') rest)
      else (some .operator, 0) := by
  obtain _ | ⟨c, tail⟩ := rest
  · rfl
  · by_cases hc : c = '/'
    · subst hc
      rfl
    · unfold lexeme
      rw [if_neg (by decide), if_neg (by decide), if_neg (by decide)]
      simp [hc]

lemma lexeme_less (rest : List Char) : lexeme '<' rest =
      (some .operator, if rest.head? = some '>' ∨ rest.head? = some '=' then 1 else 0) := by
  obtain _ | ⟨c, tail⟩ := rest
  · rfl
  · unfold lexeme
    rw [if_neg (by decide), if_neg (by decide), if_neg (by decide)]
    by_cases hgreater : c = '>'
    · simp [hgreater]
    · by_cases heqs : c = '='
      · simp [heqs]
      · simp [hgreater, heqs]

lemma lexeme_greater (rest : List Char) :
    lexeme '>' rest = (some .operator, if rest.head? = some '=' then 1 else 0) := by
  obtain _ | ⟨c, tail⟩ := rest
  · rfl
  · unfold lexeme
    rw [if_neg (by decide), if_neg (by decide), if_neg (by decide)]
    by_cases heqs : c = '='
    · simp [heqs]
    · simp [heqs]

lemma fractionLength_le (text : List Char) : fractionLength text ≤ text.length := by
  fun_cases fractionLength text with
  | case1 | case3 => exact Nat.zero_le _
  | case2 digits _ => exact Nat.succ_le_succ (runLength_le _ _)

def symbolChars : List Char :=
  ['&', '#', '"', '\'', '/', '<', '>', '+', '-', '*', '%', '(', ')', '[', ']', '.', ',', ';',
    '=', '?']

lemma lexeme_of_not_symbol (hsep : isSeparator c = false) (hident : isIdentStart c = false)
    (hdigit : isDecimalDigit c = false) (hsym : c ∉ symbolChars) (rest : List Char) :
    lexeme c rest = (none, 0) := by
  simp only [symbolChars, mem_cons, not_mem_nil, or_false, not_or] at hsym
  simp [lexeme, hsep, hident, hdigit, hsym]

lemma fractionLength_eq_zero_iff : fractionLength text = 0 ↔
      (text.head? = some '.' → text.tail.head?.any isDecimalDigit = false) := by
  fun_cases fractionLength text with
  | case1 digits hzero | case2 digits hzero => simpa [runLength_eq_zero_iff] using hzero
  | case3 text hpoint =>
    have hhead : text.head? ≠ some '.' := by
      intro hhead
      obtain ⟨rest, rfl⟩ := head?_eq_some_iff.mp hhead
      exact hpoint rest rfl
    simp [hhead]

lemma fractionLength_cons_eq_succ_iff {n : Nat} : fractionLength (d :: text) = n + 1 ↔
      d = '.' ∧ n ≠ 0 ∧ runLength isDecimalDigit text = n := by
  by_cases hd : d = '.'
  · subst hd
    rw [fractionLength]
    split <;> grind
  · rw [fractionLength.eq_2 _ (by simp [hd])]
    simp [hd]

/-! ## What follows a lexeme -/

/-- No lexeme that ends before the one text goes on into the other. -/
structure EndsAlike (after other : List Char) : Prop where
  head : ∀ {p : Char → Bool} {value : Bool}, (∀ c, isIdentStart c = true → p c = value) →
    after.head?.any p = false → other.head?.any p = false
  fraction : fractionLength after = 0 → fractionLength other = 0

lemma StartsAlike.endsAlike {after : List Char} (halike : StartsAlike after other) :
    EndsAlike after other where
  head hlets hafter := by rwa [← halike.any_head hlets]
  fraction hafter := by
    rw [fractionLength_eq_zero_iff] at hafter ⊢
    intro hoth
    have hpoint : after.head? = some '.' := by
      rcases halike.head with hsame | ⟨-, hlet⟩
      · rw [hsame, hoth]
      · rw [hoth] at hlet
        exact absurd hlet (by decide)
    rw [← halike.fraction hpoint]
    exact hafter hpoint

lemma endsAlike_append (other rest : List Char) : EndsAlike (other ++ rest) other := by
  refine ⟨fun {p _} _ hafter => ?_, fun hafter => ?_⟩
  · cases other with
    | nil => rfl
    | cons c tail => exact hafter
  · rw [fractionLength_eq_zero_iff] at hafter ⊢
    obtain _ | ⟨c, _ | ⟨d, tail⟩⟩ := other
    · simp
    · simp
    · exact hafter

lemma StartsAlike.any_extendsQuoted {after : List Char} (halike : StartsAlike after other)
    (closed : Bool) :
    after.head?.any (extendsQuoted closed) = other.head?.any (extendsQuoted closed) := by
  cases closed with
  | true => exact halike.any_head_eq (by decide)
  | false =>
    have hlets (c : Char) (hc : isIdentStart c) : extendsQuoted false c :=
      bne_of_isIdentStart hc (by decide)
    exact halike.any_head hlets

section

variable {body after other : List Char} {kind : Option TokenKind} (halike : EndsAlike after other)
include halike

lemma EndsAlike.any_head_eq (hd : isIdentStart d = false)
    (hafter : after.head?.any (· == d) = false) : other.head?.any (· == d) = false := by
  have hlets (c : Char) (hc : isIdentStart c) : (c == d) = false := by
    rw [beq_eq_false_iff_ne]
    rintro rfl
    rw [hd] at hc
    cases hc
  exact halike.head hlets hafter

lemma EndsAlike.head?_ne (hd : isIdentStart d = false) (hafter : after.head? ≠ some d) :
    other.head? ≠ some d := by
  have hany (text : List Char) : text.head? ≠ some d ↔ text.head?.any (· == d) = false := by
    cases text <;> simp
  rw [hany] at hafter ⊢
  exact halike.any_head_eq hd hafter

lemma EndsAlike.runLength_append (hlets : ∀ c, isIdentStart c → p c = value)
    (hlen : runLength p (body ++ after) = body.length) :
    runLength p (body ++ other) = body.length := by
  rw [runLength_append_eq_iff] at hlen ⊢
  exact ⟨hlen.1, halike.head hlets hlen.2⟩

lemma lexeme_append_number (hc : isDecimalDigit c)
    (hbody : lexeme c (body ++ after) = (kind, body.length)) :
    lexeme c (body ++ other) = (kind, body.length) := by
  rw [lexeme_number hc] at hbody ⊢
  obtain ⟨rfl, hlen⟩ := Prod.mk.inj hbody
  congr 1
  have hdigit := halike.head fun _ hlet => not_isDecimalDigit_of_isIdentStart hlet
  have hsplit := takeWhile_append_dropWhile (p := isDecimalDigit) (l := body)
  have hwhole : ∀ c ∈ body.takeWhile isDecimalDigit, isDecimalDigit c :=
    fun c hc => mem_takeWhile_imp hc
  cases hrest : body.dropWhile isDecimalDigit with
  | nil =>
    -- The number has no fraction, so none may begin after it.
    rw [hrest, append_nil] at hsplit
    rw [hsplit] at hwhole
    rw [runLength_append_of_all hwhole] at hlen ⊢
    have hafter : runLength isDecimalDigit after = 0 := by omega
    have hoth : runLength isDecimalDigit other = 0 := by
      rw [runLength_eq_zero_iff] at hafter ⊢
      exact hdigit hafter
    rw [hafter, Nat.add_zero, drop_left] at hlen
    have hfraction := halike.fraction (by omega)
    rw [hoth, Nat.add_zero, drop_left, hfraction, Nat.add_zero]
  | cons d fraction =>
    have hd : isDecimalDigit d = false := by
      have hhead := head?_dropWhile_not isDecimalDigit body
      rw [hrest] at hhead
      simpa using hhead
    rw [hrest] at hsplit
    rw [← hsplit] at hlen ⊢
    simp only [append_assoc, cons_append, runLength_append_cons hwhole hd,
      drop_left, length_append, length_cons, Nat.add_left_cancel_iff,
      fractionLength_cons_eq_succ_iff, runLength_append_eq_iff] at hlen ⊢
    exact ⟨hlen.1, hlen.2.1, hlen.2.2.1, hdigit hlen.2.2.2⟩

lemma lexeme_append_marked {marked : TokenKind} (hc : ∀ rest, lexeme c rest =
      match markedIdent? rest with
      | some length => (some marked, length)
      | none => (none, 0)) (hbody : lexeme c (body ++ after) = (kind, body.length)) :
    lexeme c (body ++ other) = (kind, body.length) := by
  rw [hc, markedIdent?_eq] at hbody ⊢
  cases body with
  | nil =>
    have hnone : after.head?.any isIdentStart = false := by
      rw [Bool.eq_false_iff]
      intro hstart
      rw [nil_append, if_pos hstart] at hbody
      have hend := runLength_eq_zero_iff.mp (Prod.mk.inj hbody).2
      cases after with
      | nil => cases hstart
      | cons d rest =>
        exact Bool.false_ne_true (hend.symm.trans (isIdentPart_of_isIdentStart hstart))
    have hoth := halike.head (fun _ hlet => hlet) hnone
    rw [nil_append, hnone] at hbody
    rw [nil_append, hoth]
    exact hbody
  | cons d rest =>
    rw [cons_append, head?_cons] at hbody ⊢
    cases hstart : (some d).any isIdentStart with
    | false =>
      rw [hstart] at hbody
      exact hbody
    | true =>
      rw [hstart] at hbody
      obtain ⟨rfl, hlen⟩ := Prod.mk.inj hbody
      rw [← cons_append] at hlen
      have hrun := halike.runLength_append (fun _ => isIdentPart_of_isIdentStart) hlen
      exact congrArg (Prod.mk (some marked)) hrun

lemma lexeme_append_quote (hbody : lexeme '"' (body ++ after) = (kind, body.length)) :
    lexeme '"' (body ++ other) = (kind, body.length) := by
  rw [lexeme_quote] at hbody
  obtain ⟨rfl, hlen⟩ := Prod.mk.inj hbody
  generalize hshut : (quotedTail (body ++ after)).1 = closed
  obtain ⟨hafter, hoths⟩ := quotedTail_append (Prod.ext hshut hlen)
  have hoth : other.head?.any (extendsQuoted closed) = false := by
    cases closed with
    | true => exact halike.any_head_eq (by decide) hafter
    | false => exact halike.head (fun _ hc => bne_of_isIdentStart hc (by decide)) hafter
  rw [lexeme_quote, hoths other hoth]

lemma lexeme_append_apostrophe (hbody : lexeme '\'' (body ++ after) = (kind, body.length)) :
    lexeme '\'' (body ++ other) = (kind, body.length) := by
  let inside (d : Char) : Bool := d != '\'' && d != '\n'
  have hlex (rest : List Char) : lexeme '\'' rest = if rest[runLength inside rest]? = some '\'' then
        (some .dateLiteral, runLength inside rest + 1)
      else (none, runLength inside rest) := rfl
  rw [hlex] at hbody ⊢
  split at hbody
  next hshut =>
    obtain ⟨rfl, hlen⟩ := Prod.mk.inj hbody
    obtain rfl | ⟨run, last, rfl⟩ := body.eq_nil_or_concat
    · cases hlen
    · rw [concat_eq_append, append_assoc, singleton_append] at hshut hlen ⊢
      have hrun : runLength inside (run ++ last :: after) = run.length := by
        simpa using hlen
      have hlast : last = '\'' := by simpa [hrun] using hshut
      have hoth : runLength inside (run ++ last :: other) = run.length := by
        rw [runLength_append_eq_iff] at hrun ⊢
        exact hrun
      rw [hoth]
      simp [hlast]
  next hopen =>
    obtain ⟨rfl, hlen⟩ := Prod.mk.inj hbody
    have hins (c : Char) (hc : isIdentStart c) : inside c := by
      simp only [inside, bne_of_isIdentStart hc (d := '\'') (by decide),
        bne_of_isIdentStart hc (d := '\n') (by decide), Bool.and_self]
    have hoth := halike.runLength_append hins hlen
    have hat (rest : List Char) : (body ++ rest)[body.length]? = rest.head? := by
      rw [getElem?_append_right (Nat.le_refl _), Nat.sub_self, head?_eq_getElem?]
    rw [hlen, hat] at hopen
    rw [hoth, hat, if_neg (halike.head?_ne (by decide) hopen)]

lemma lexeme_append_slash (hbody : lexeme '/' (body ++ after) = (kind, body.length)) :
    lexeme '/' (body ++ other) = (kind, body.length) := by
  rw [lexeme_slash] at hbody ⊢
  cases body with
  | nil =>
    have hnot : after.head? ≠ some '/' := by
      intro hslash
      rw [nil_append, if_pos hslash] at hbody
      have hend := runLength_eq_zero_iff.mp (Prod.mk.inj hbody).2
      simp [hslash] at hend
    rw [nil_append, if_neg hnot] at hbody
    rw [nil_append, if_neg (halike.head?_ne (by decide) hnot)]
    exact hbody
  | cons d rest =>
    rw [cons_append, head?_cons] at hbody ⊢
    split at hbody
    next hslash =>
      obtain ⟨rfl, hlen⟩ := Prod.mk.inj hbody
      rw [← cons_append] at hlen
      have hrun := halike.runLength_append (fun c hc => bne_of_isIdentStart hc (by decide)) hlen
      rw [if_pos hslash]
      exact congrArg (Prod.mk (some TokenKind.comment)) hrun
    next hslash =>
      rw [if_neg hslash]
      exact hbody

/-- A lexeme stays the same if what follows it is exchanged for a text that does not go on
with it. -/
lemma lexeme_append_of_endsAlike (hbody : lexeme c (body ++ after) = (kind, body.length)) :
    lexeme c (body ++ other) = (kind, body.length) := by
  by_cases hsep : isSeparator c
  · simp only [lexeme, hsep, if_true, Prod.mk.injEq] at hbody ⊢
    exact ⟨hbody.1, halike.runLength_append (fun _ => not_isSeparator_of_isIdentStart) hbody.2⟩
  by_cases hident : isIdentStart c
  · rw [lexeme_identifier hident, Prod.mk.injEq] at hbody ⊢
    exact ⟨hbody.1, halike.runLength_append (fun _ => isIdentPart_of_isIdentStart) hbody.2⟩
  by_cases hdigit : isDecimalDigit c
  · exact lexeme_append_number halike hdigit hbody
  have hwhole := hbody
  unfold lexeme at hbody
  simp only [hsep, hident, hdigit, if_false, Bool.false_eq_true] at hbody
  split at hbody
  case h_1 | h_2 => exact lexeme_append_marked halike (fun _ => rfl) hwhole
  case h_3 => exact lexeme_append_quote halike hwhole
  case h_4 => exact lexeme_append_apostrophe halike hwhole
  case h_5 => exact lexeme_append_slash halike hwhole
  case h_6 =>
    rw [lexeme_less] at hwhole ⊢
    cases body with
    | nil =>
      have hnot : after.head? ≠ some '>' ∧ after.head? ≠ some '=' := by
        simpa using (Prod.mk.inj hwhole).2
      have hgreater := halike.head?_ne (by decide) hnot.1
      have heqs := halike.head?_ne (by decide) hnot.2
      simpa [hnot, hgreater, heqs] using hwhole
    | cons => exact hwhole
  case h_7 =>
    rw [lexeme_greater] at hwhole ⊢
    cases body with
    | nil =>
      have hnot : after.head? ≠ some '=' := by simpa using (Prod.mk.inj hwhole).2
      have heqs := halike.head?_ne (by decide) hnot
      simpa [hnot, heqs] using hwhole
    | cons => exact hwhole
  case h_21 =>
    unfold lexeme
    simp only [hsep, hident, hdigit, if_false, Bool.false_eq_true]
    exact hbody
  all_goals exact hbody

end

lemma lexeme_append {after : List Char} {kind : Option TokenKind}
    (hbody : lexeme c (body ++ after) = (kind, body.length)) (halike : StartsAlike after other) :
    lexeme c (body ++ other) = (kind, body.length) :=
  lexeme_append_of_endsAlike halike.endsAlike hbody

/-! ## Cutting a text into lexemes -/

/-- The first character of a lexeme tells identifiers, strings and comments. -/
def TokenKind.beginsWith (kind : TokenKind) (c : Char) : Bool := match kind with
  | .identifier => isIdentStart c
  | .stringLiteral | .openString => c == '"'
  | .comment => c == '/'
  | _ => !isIdentStart c

structure FitsLexeme (c : Char) (rest : List Char) (found : Option TokenKind × Nat) : Prop where
  length : found.2 ≤ rest.length
  head : ∀ kind, found.1 = some kind → kind.beginsWith c = true

lemma FitsLexeme.dropped (hlen : length ≤ rest.length) : FitsLexeme c rest (none, length) :=
  ⟨hlen, nofun⟩

lemma FitsLexeme.token {kind : TokenKind} (hlen : length ≤ rest.length)
    (hhead : kind.beginsWith c) : FitsLexeme c rest (some kind, length) := by
  refine ⟨hlen, ?_⟩
  rintro other ⟨⟩
  exact hhead

lemma fitsLexeme (c : Char) (rest : List Char) : FitsLexeme c rest (lexeme c rest) := by
  by_cases hident : isIdentStart c
  · rw [lexeme_identifier hident]
    exact .token (runLength_le _ _) hident
  by_cases hdigit : isDecimalDigit c
  · have hwhole := runLength_le isDecimalDigit rest
    have hfraction := fractionLength_le (rest.drop (runLength isDecimalDigit rest))
    rw [length_drop] at hfraction
    rw [lexeme_number hdigit]
    exact .token (by omega) (by simpa [TokenKind.beginsWith] using hident)
  unfold lexeme
  simp only [hident, hdigit, if_false, Bool.false_eq_true]
  split
  · exact .dropped (runLength_le _ _)
  split
  case h_1 | h_2 =>
    rw [markedIdent?_eq]
    cases rest.head?.any isIdentStart with
    | true => exact .token (runLength_le _ _) rfl
    | false => exact .dropped (Nat.zero_le _)
  case h_3 =>
    have hlen := quotedTail_le rest
    split
    next htail => exact .token (by simpa [htail] using hlen) rfl
    next htail => exact .token (by simpa [htail] using hlen) rfl
  case h_4 =>
    split
    next hshut => 
      refine .token ?_ rfl
      exact (List.getElem?_eq_some_iff.mp hshut).1
    next => exact .dropped (runLength_le _ _)
  case h_5 =>
    split
    next => exact .token (runLength_le _ _) rfl
    next => exact .token (Nat.zero_le _) rfl
  case h_6 =>
    split
    next => exact .token (by simp) rfl
    next => exact .token (by simp) rfl
    next => exact .token (Nat.zero_le _) rfl
  case h_7 =>
    split
    next => exact .token (by simp) rfl
    next => exact .token (Nat.zero_le _) rfl
  case h_21 => exact .dropped (Nat.zero_le _)
  all_goals exact .token (Nat.zero_le _) rfl

/-- Nothing is left of a line after a comment or an open string. -/
lemma rest_eq_nil_of_lexeme {kind : TokenKind}
    (hlex : lexeme c (body ++ rest) = (some kind, body.length))
    (hkind : kind = .openString ∨ kind = .comment) (hbreak : '\n' ∉ rest) : rest = [] := by
  have hhead := (fitsLexeme c (body ++ rest)).head kind (by rw [hlex])
  have hend : rest.head?.any (· != '\n') = false := by
    rcases hkind with rfl | rfl
    · obtain rfl : c = '"' := beq_iff_eq.mp hhead
      exact (quotedTail_append (lexeme_eq_openString_iff.mp hlex)).1
    · obtain rfl : c = '/' := beq_iff_eq.mp hhead
      rw [lexeme_slash] at hlex
      split at hlex
      · exact (runLength_append_eq_iff.mp (Prod.mk.inj hlex).2).2
      · cases hlex
  cases rest with
  | nil => rfl
  | cons d tail =>
    obtain rfl : d = '\n' := by simpa using hend
    simp at hbreak

@[elab_as_elim]
lemma lexeme_induction {motive : List Char → Prop} (nil : motive [])
    (cons : ∀ (c : Char) (body rest : List Char) (kind : Option TokenKind),
      lexeme c (body ++ rest) = (kind, body.length) → motive rest → motive (c :: (body ++ rest)))
    (text : List Char) : motive text := by
  induction hlen : text.length using Nat.strong_induction_on generalizing text with
  | _ n ih =>
    cases text with
    | nil => exact nil
    | cons c rest =>
      have hle := (fitsLexeme c rest).length
      have hbody := length_take_of_le hle
      have hstep := cons c (rest.take (lexeme c rest).2) (rest.drop (lexeme c rest).2)
        (lexeme c rest).1
      rw [take_append_drop, hbody] at hstep
      refine hstep rfl (ih _ ?_ _ rfl)
      rw [length_drop, ← hlen, length_cons]
      omega

lemma tokensFrom_append {kind : Option TokenKind}
    (hlex : lexeme c (body ++ rest) = (kind, body.length)) (column : Nat) :
    tokensFrom column (c :: (body ++ rest)) =
      (kind.map fun kind => (⟨kind, String.ofList (c :: body), column⟩ : Token)).toList ++
        tokensFrom (column + body.length + 1) rest := by
  rw [tokensFrom, hlex]
  simp only [take_left, drop_left]
  cases kind <;> rfl

lemma tokensFrom_separator (hc : isSeparator c) (rest : List Char) (column : Nat) :
    tokensFrom column (c :: rest) = tokensFrom (column + 1) rest := by
  have hlex {d : Char} (hd : isSeparator d) {run other : List Char}
      (hrun : runLength isSeparator (run ++ other) = run.length) :
      lexeme d (run ++ other) = (none, run.length) := by
    simp [lexeme, hd, hrun]
  have hsplit := takeWhile_append_dropWhile (p := isSeparator) (l := rest)
  generalize hrun : rest.takeWhile isSeparator = run at hsplit
  generalize rest.dropWhile isSeparator = other at hsplit
  have hlen : runLength isSeparator rest = run.length := by rw [runLength, hrun]
  subst hsplit
  rw [tokensFrom_append (hlex hc hlen)]
  cases run with
  | nil => rfl
  | cons d run =>
    have hd : isSeparator d := mem_takeWhile_imp (hrun ▸ mem_cons_self)
    have hinner : runLength isSeparator (run ++ other) = run.length := by
      rw [runLength_append_eq_iff] at hlen ⊢
      exact ⟨fun e he => hlen.1 e (mem_cons_of_mem _ he), hlen.2⟩
    have hcol : column + (d :: run).length + 1 = column + 1 + run.length + 1 := by
      rw [length_cons]
      omega
    rw [cons_append, tokensFrom_append (hlex hd hinner), hcol]
    rfl

lemma tokensFrom_separators
    {gap : List Char} (hgap : ∀ c ∈ gap, isSeparator c) (rest : List Char) (column : Nat) :
    tokensFrom column (gap ++ rest) = tokensFrom (column + gap.length) rest := by
  induction gap generalizing column with
  | nil => rfl
  | cons c gap ih =>
    obtain ⟨hc, hgap⟩ := forall_mem_cons.mp hgap
    rw [cons_append, tokensFrom_separator hc, ih hgap, length_cons]
    congr 1
    omega

lemma exists_lexeme_of_mem_tokensFrom {column : Nat} {token : Token}
    (htoken : token ∈ tokensFrom column text) :
    ∃ before c body rest, text = before ++ c :: (body ++ rest) ∧
      lexeme c (body ++ rest) = (some token.kind, body.length) ∧
        token.text = String.ofList (c :: body) ∧ token.column = column + before.length := by
  induction text using lexeme_induction generalizing column with
  | nil =>
    rw [tokensFrom] at htoken
    cases htoken
  | cons c body rest kind hlex ih =>
    rw [tokensFrom_append hlex, mem_append, Option.mem_toList] at htoken
    rcases htoken with hfirst | hlater
    · obtain ⟨found, rfl, rfl⟩ := Option.map_eq_some_iff.mp hfirst
      exact ⟨[], c, body, rest, rfl, hlex, rfl, rfl⟩
    · obtain ⟨before, d, tail, others, rfl, hfound, htext, hcol⟩ := ih hlater
      refine ⟨c :: (body ++ before), d, tail, others, by simp, hfound, htext, ?_⟩
      rw [hcol, length_cons, length_append]
      omega

lemma le_column_of_mem_tokensFrom {column : Nat} {token : Token}
    (htoken : token ∈ tokensFrom column text) : column ≤ token.column := by
  obtain ⟨before, -, -, -, -, -, -, hcol⟩ := exists_lexeme_of_mem_tokensFrom htoken
  omega

lemma tokensFrom_ordered (text : List Char) (column : Nat) :
    (tokensFrom column text).Pairwise fun token next =>
      token.column + token.text.length ≤ next.column := by
  induction text using lexeme_induction generalizing column with
  | nil =>
    rw [tokensFrom]
    exact .nil
  | cons c body rest kind hlex ih =>
    rw [tokensFrom_append hlex]
    cases kind with
    | none => exact ih _
    | some kind =>
      refine .cons (fun next hnext => ?_) (ih _)
      have hle := le_column_of_mem_tokensFrom hnext
      simp only [String.length_ofList, length_cons]
      omega

end BslInsight
