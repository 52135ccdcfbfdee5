import BslInsight.Proofs.RewordedReading

/-!
# Renamed members

A word that follows a dot is renamed.  The lexemes around it stay what they were.  So
does the line as a whole, because what stands before the dot decides whether a line is
passed over, and whether it begins or ends a method.
-/

namespace BslInsight

open List

variable {c : Char} {length : Nat} {body line rest : List Char}

section

variable (permits : String → String → Prop)

/-- A text and the text that comes of it when words after dots are renamed.  A dot may
stand before the text. -/
inductive Renamed : Bool → List Char → List Char → Prop
  | nil (afterDot : Bool) : Renamed afterDot [] []
  | dropped {afterDot : Bool} {c : Char} {body rest other : List Char}
      (hlex : lexeme c (body ++ rest) = (none, body.length))
      (hrest : Renamed afterDot rest other) :
      Renamed afterDot (c :: (body ++ rest)) (c :: (body ++ other))
  | kept {afterDot : Bool} {c : Char} {body rest other : List Char} {kind : TokenKind}
      (hlex : lexeme c (body ++ rest) = (some kind, body.length))
      (hrest : Renamed (kind == .dot) rest other) :
      Renamed afterDot (c :: (body ++ rest)) (c :: (body ++ other))
  | member {c d : Char} {body tail rest other : List Char}
      (hlex : lexeme c (body ++ rest) = (some .identifier, body.length))
      (hstart : isIdentStart d = true) (hpart : ∀ e ∈ tail, isIdentPart e = true)
      (hpermits : permits (String.ofList (c :: body)) (String.ofList (d :: tail)))
      (hrest : Renamed false rest other) :
      Renamed true (c :: (body ++ rest)) (d :: (tail ++ other))

inductive RenamedContinuation : List Char → List Char → Prop
  | inside {line : List Char} (hend : stringEnd? line = none) : RenamedContinuation line line
  | closing {content rest others : List Char}
      (hend : stringEnd? (content ++ '"' :: rest) = some (content.length + 1))
      (hrest : Renamed permits false rest others) :
      RenamedContinuation (content ++ '"' :: rest) (content ++ '"' :: others)

inductive RenamedTokens : Bool → List Token → List Token → Prop
  | nil (afterDot : Bool) : RenamedTokens afterDot [] []
  | cons {afterDot : Bool} {token other : Token} {rest others : List Token}
      (hkind : token.kind = other.kind) (htext : token.text = other.text)
      (hdot : token.kind = .dot → Keyword.ofWord? token.text = none)
      (hrest : RenamedTokens (token.kind == .dot) rest others) :
      RenamedTokens afterDot (token :: rest) (other :: others)
  | member {member renamed : Token} {rest others : List Token}
      (hmbr : member.kind = .identifier) (hren : renamed.kind = .identifier)
      (hpermits : permits member.text renamed.text) (hrest : RenamedTokens false rest others) :
      RenamedTokens true (member :: rest) (renamed :: others)

end

variable {permits : String → String → Prop} {afterDot : Bool} {text other : List Char}

/-! ## Lexing a renamed text -/

lemma isIdentStart_of_lexeme (hlex : lexeme c rest = (some .identifier, length)) : isIdentStart c :=
  (fitsLexeme c rest).head .identifier (by rw [hlex])

namespace Renamed

lemma headsAlike (hren : Renamed permits afterDot text other) : HeadsAlike text other := by
  cases hren with
  | nil | dropped | kept => exact .inl rfl
  | member hlex hstart => exact .inr ⟨isIdentStart_of_lexeme hlex, hstart⟩

lemma startsAlike (hren : Renamed permits afterDot text other) : StartsAlike text other := by
  refine ⟨hren.headsAlike, fun hpoint => ?_⟩
  cases hren with
  | nil => rfl
  | dropped hlex =>
    obtain rfl := Option.some.inj hpoint
    cases hlex
  | @kept _ c body rest others kind hlex hrest =>
    obtain rfl := Option.some.inj hpoint
    have hdot : (some TokenKind.dot, 0) = (some kind, body.length) := hlex
    obtain ⟨-, hlen⟩ : TokenKind.dot = kind ∧ 0 = body.length := by simpa using hdot
    obtain rfl := length_eq_zero_iff.mp hlen.symm
    exact hrest.headsAlike.any_head fun _ => not_isDecimalDigit_of_isIdentStart
  | member hlex =>
    obtain rfl := Option.some.inj hpoint
    exact absurd (isIdentStart_of_lexeme hlex) (by decide)

lemma refl (afterDot : Bool) (text : List Char) : Renamed permits afterDot text text := by
  induction text using lexeme_induction generalizing afterDot with
  | nil => exact .nil afterDot
  | cons c body rest kind hlex ih =>
    cases kind with
    | none => exact .dropped hlex (ih afterDot)
    | some kind => exact .kept hlex (ih _)

end Renamed

lemma lexeme_renamed {d : Char} {tail : List Char}
    (hlex : lexeme c (body ++ rest) = (some .identifier, body.length))
    (hstart : isIdentStart d) (hpart : ∀ e ∈ tail, isIdentPart e)
    (halike : StartsAlike rest other) :
    lexeme d (tail ++ other) = (some .identifier, tail.length) := by
  rw [lexeme_identifier (isIdentStart_of_lexeme hlex), Prod.mk.injEq,
    runLength_append_eq_iff] at hlex
  rw [lexeme_identifier hstart, Prod.mk.injEq, runLength_append_eq_iff]
  refine ⟨rfl, hpart, ?_⟩
  rw [← halike.any_head fun _ => isIdentPart_of_isIdentStart]
  exact hlex.2.2

lemma eq_of_lexeme_dot (hlex : lexeme c rest = (some .dot, length)) : c = '.' := by
  revert hlex
  fun_cases lexeme c rest <;> simp_all

lemma ofWord?_of_lexeme_dot (hlex : lexeme c (body ++ rest) = (some .dot, body.length)) :
    Keyword.ofWord? (String.ofList (c :: body)) = none := by
  obtain rfl := eq_of_lexeme_dot hlex
  exact ofWord?_of_not_isLetter (by decide) body

lemma Renamed.tokens (hren : Renamed permits afterDot text other) (column place : Nat) :
    RenamedTokens permits afterDot (tokensFrom column text) (tokensFrom place other) := by
  induction hren generalizing column place with
  | nil afterDot =>
    rw [tokensFrom, tokensFrom]
    exact .nil afterDot
  | dropped hlex hrest ih =>
    rw [tokensFrom_append hlex, tokensFrom_append (lexeme_append hlex hrest.startsAlike)]
    exact ih _ _
  | kept hlex hrest ih =>
    rw [tokensFrom_append hlex, tokensFrom_append (lexeme_append hlex hrest.startsAlike)]
    refine .cons rfl rfl ?_ (ih _ _)
    rintro rfl
    exact ofWord?_of_lexeme_dot hlex
  | member hlex hstart hpart hpermits hrest ih =>
    rw [tokensFrom_append hlex,
      tokensFrom_append (lexeme_renamed hlex hstart hpart hrest.startsAlike)]
    exact .member rfl rfl hpermits (ih _ _)

lemma RenamedTokens.any_kind
    {tokens others : List Token} (htoks : RenamedTokens permits afterDot tokens others)
    (p : TokenKind → Bool) : tokens.any (p ·.kind) = others.any (p ·.kind) := by
  induction htoks with
  | nil => rfl
  | cons hkind _ _ _ ih => rw [any_cons, any_cons, hkind, ih]
  | member hmbr hren _ _ ih => rw [any_cons, any_cons, hmbr, hren, ih]

lemma Renamed.lexLine (hline : Renamed permits false line other) :
    LexedAlike (RenamedTokens permits false) (lexLine false line) (lexLine false other) := by
  have htoks := hline.tokens 0 0
  exact ⟨htoks, htoks.any_kind (· == .openString)⟩

lemma RenamedContinuation.lexLine (hline : RenamedContinuation permits line other) :
    LexedAlike (RenamedTokens permits false) (lexLine true line) (lexLine true other) := by
  cases hline with
  | inside hend =>
    refine ⟨?_, rfl⟩
    simp only [BslInsight.lexLine, if_true, hend]
    exact .nil false
  | @closing content rest others hend hrest =>
    obtain ⟨hhead, hoths⟩ := stringEnd?_append hend
    rw [hrest.startsAlike.any_head_eq (by decide)] at hhead
    have htoks := hrest.tokens (content.length + 1) (content.length + 1)
    rw [lexLine_of_stringEnd? hend, lexLine_of_stringEnd? (hoths others hhead)]
    exact ⟨htoks, htoks.any_kind (· == .openString)⟩

/-! ## What stands before a dot -/

lemma Renamed.eq_or_split (hren : Renamed permits false text other) : text = other ∨
      ∃ shared rest others, text = shared ++ '.' :: rest ∧ other = shared ++ '.' :: others := by
  generalize hflag : false = afterDot at hren
  induction hren with
  | nil => exact .inl rfl
  | @dropped afterDot c body rest others _ _ ih =>
    rcases ih hflag with rfl | ⟨shared, tail, tails, rfl, rfl⟩
    · exact .inl rfl
    · exact .inr ⟨c :: (body ++ shared), tail, tails, by simp, by simp⟩
  | @kept afterDot c body rest others kind hlex _ ih =>
    by_cases hkind : kind = .dot
    · subst hkind
      obtain rfl := eq_of_lexeme_dot hlex
      exact .inr ⟨[], _, _, rfl, rfl⟩
    · rcases ih (by simpa using hkind) with rfl | ⟨shared, tail, tails, rfl, rfl⟩
      · exact .inl rfl
      · exact .inr ⟨c :: (body ++ shared), tail, tails, by simp, by simp⟩
  | member => cases hflag

section

variable (shared rest others : List Char)

lemma trimStart_append_dot :
    trimStart (shared ++ '.' :: rest) = trimStart shared ++ '.' :: rest := by
  induction shared with
  | nil => exact trimStart_of_head rfl
  | cons c shared ih =>
    cases hc : isBlank c with
    | true =>
      have hblank : ∀ d ∈ [c], isBlank d := forall_mem_singleton.mpr hc
      have hfirst := trimStart_append_of_blank hblank (shared ++ '.' :: rest)
      have hshared := trimStart_append_of_blank hblank shared
      rw [singleton_append] at hfirst hshared
      rw [cons_append, hfirst, hshared, ih]
    | false =>
      have hhead (text : List Char) : (c :: text).head?.any isBlank = false := hc
      rw [cons_append, trimStart_of_head (hhead _), trimStart_of_head (hhead _)]
      rfl

lemma passesOver_append_dot :
    passesOver (shared ++ '.' :: rest) = passesOver (shared ++ '.' :: others) := by
  rw [Bool.eq_iff_iff]
  have htrim := trimStart_append_dot shared
  cases hshared : trimStart shared with
  | nil =>
    simp only [hshared, nil_append] at htrim
    rw [passesOver_iff_of_cons (htrim rest), passesOver_iff_of_cons (htrim others)]
    simp
  | cons c tail =>
    simp only [hshared, cons_append] at htrim
    rw [passesOver_iff_of_cons (htrim rest), passesOver_iff_of_cons (htrim others)]
    cases tail <;> simp

variable {shared rest}

lemma isSome_header_append_dot (hhdr : (Header.ofLine? (shared ++ '.' :: rest)).isSome) :
    (Header.ofLine? (shared ++ '.' :: others)).isSome := by
  obtain ⟨header, hhdr⟩ := Option.isSome_iff_exists.mp hhdr
  obtain ⟨front, word, name, gap, after, hparts, hsplit, -⟩ := Header.exists_parts hhdr
  have hdot : '.' ∉ front ++ (name ++ gap) := by
    obtain ⟨text, htext, -, hlets⟩ := hparts.isFront.exists_front
    rw [append_nil] at htext
    subst htext
    simp only [mem_append, not_or]
    refine ⟨fun hmem => ?_, fun hmem => ?_, fun hmem => ?_⟩
    · exact absurd (hlets _ hmem) (by decide)
    · exact absurd (hparts.namePart _ hmem) (by decide)
    · exact absurd (hparts.blank _ hmem) (by decide)
  have hsame : shared ++ '.' :: rest = front ++ (name ++ gap) ++ '(' :: after := by
    rw [hsplit]
    simp
  rcases append_eq_append_iff.mp hsame with ⟨more, hfront, hmore⟩ | ⟨more, hshared, hmore⟩
  · obtain _ | ⟨c, more⟩ := more
    · cases hmore
    · obtain ⟨rfl, -⟩ := List.cons.inj hmore
      exact absurd (by simp [hfront]) hdot
  · obtain _ | ⟨c, more⟩ := more
    · cases hmore
    · obtain ⟨rfl, -⟩ := List.cons.inj hmore
      have hline : shared ++ '.' :: others =
          front ++ (name ++ (gap ++ '(' :: (more ++ '.' :: others))) := by
        rw [hshared]
        simp
      rw [hline, Header.ofLine?_of_parts hparts]
      rfl

lemma isSome_terminator_append_dot (hterm : (terminatorKind? (shared ++ '.' :: rest)).isSome) :
    (terminatorKind? (shared ++ '.' :: others)).isSome := by
  obtain ⟨word, tail, hword, htext, hend, hkw⟩ := isSome_terminatorKind?_iff.mp hterm
  have hlets := (isLetter_of_isWordOf spelled_terminatorWords hword).2
  rw [trimStart_append_dot] at htext
  have hsplit : ∃ more, trimStart shared = word ++ more ∧ tail = more ++ '.' :: rest := by
    rcases append_eq_append_iff.mp htext with ⟨more, hfound, hmore⟩ | hsplit
    · obtain _ | ⟨c, more⟩ := more
      · exact ⟨[], by simpa using hfound.symm, hmore.symm⟩
      · obtain ⟨rfl, -⟩ := List.cons.inj hmore
        exact absurd (hlets '.' (by simp [hfound])) (by decide)
    · exact hsplit
  obtain ⟨more, hshared, rfl⟩ := hsplit
  refine isSome_terminatorKind?_iff.mpr ⟨word, more ++ '.' :: others, hword, ?_, ?_, hkw⟩
  · rw [trimStart_append_dot, hshared, append_assoc]
  · obtain _ | ⟨c, more⟩ := more
    · rfl
    · exact hend

end

namespace Renamed

variable (hren : Renamed permits false text other)
include hren

lemma passesOver_eq : passesOver text = passesOver other := by
  rcases hren.eq_or_split with rfl | ⟨shared, rest, others, rfl, rfl⟩
  · rfl
  · exact passesOver_append_dot shared rest others

lemma header_isSome_eq : (Header.ofLine? text).isSome = (Header.ofLine? other).isSome := by
  rcases hren.eq_or_split with rfl | ⟨shared, rest, others, rfl, rfl⟩
  · rfl
  · exact Bool.eq_iff_iff.mpr ⟨isSome_header_append_dot _, isSome_header_append_dot _⟩

lemma no_header (hhdr : Header.ofLine? text = none) : Header.ofLine? other = none := by
  have hsome := hren.header_isSome_eq
  rw [hhdr, Option.isSome_none, eq_comm, Option.isSome_eq_false_iff] at hsome
  exact Option.isNone_iff_eq_none.mp hsome

lemma isMethodBoundary_eq : isMethodBoundary text = isMethodBoundary other := by
  have hhdr := hren.header_isSome_eq
  rcases hren.eq_or_split with rfl | ⟨shared, rest, others, rfl, rfl⟩
  · rfl
  · have hterm : (terminatorKind? (shared ++ '.' :: rest)).isSome =
        (terminatorKind? (shared ++ '.' :: others)).isSome :=
      Bool.eq_iff_iff.mpr ⟨isSome_terminator_append_dot _, isSome_terminator_append_dot _⟩
    rw [isMethodBoundary, isMethodBoundary, hhdr, hterm]

end Renamed

end BslInsight
