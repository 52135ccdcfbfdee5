import BslInsight.Proofs.LineVisits

/-!
# Texts that differ in some lexemes

A text is reworded by exchanging lexemes of it: a keyword for another spelling of
it, a string or a comment for one with another content.  The lexemes around stay
what they were, so the tokens of the two texts correspond.
-/

namespace BslInsight

open List

variable {kind : TokenKind} {word body rest content line other : List Char} {c : Char}
  {allows : Option String → TokenKind → Prop}

/-! ## Exchanged lexemes -/

/-- What a lexeme of a kind may be exchanged for. -/
inductive Exchange : TokenKind → List Char → List Char → Prop
  | keyword {word other : List Char} {keyword : Keyword}
      (hword : Keyword.ofWord? (String.ofList word) = some keyword)
      (hoth : Keyword.ofWord? (String.ofList other) = some keyword) :
      Exchange .identifier word other
  | stringLiteral (word : List Char) {content : List Char} (hquote : '"' ∉ content)
      (hbreak : '\n' ∉ content) :
      Exchange .stringLiteral word ('"' :: (content ++ ['"']))
  | openString (word : List Char) {content : List Char} (hquote : '"' ∉ content)
      (hbreak : '\n' ∉ content) :
      Exchange .openString word ('"' :: content)
  | comment (word : List Char) {content : List Char} (hbreak : '\n' ∉ content) :
      Exchange .comment word ('/' :: '/' :: content)

/-- Tokens that spell the same keyword or the same name, or no word at all. -/
structure Token.Alike (token other : Token) : Prop where
  kind : token.kind = other.kind
  keyword : Keyword.ofWord? token.text = Keyword.ofWord? other.text
  name : token.kind = .identifier → isKeyword token.text = false → token.text = other.text

lemma Token.alike_of_text
    {token other : Token} (hkind : token.kind = other.kind) (htext : token.text = other.text) :
    token.Alike other :=
  ⟨hkind, by rw [htext], fun _ _ => htext⟩

section

variable (allows : Option String → TokenKind → Prop)

/-- A text and the text that comes of it when some lexemes are exchanged.  Whether a
lexeme may be exchanged depends on its kind and on the token before it. -/
inductive Reworded : Option String → List Char → List Char → Prop
  | nil (previous : Option String) : Reworded previous [] []
  | dropped {previous : Option String} {c : Char} {body rest other : List Char}
      (hlex : lexeme c (body ++ rest) = (none, body.length))
      (hrest : Reworded previous rest other) :
      Reworded previous (c :: (body ++ rest)) (c :: (body ++ other))
  | kept {previous : Option String} {c : Char} {body rest other : List Char}
      {kind : TokenKind} (hlex : lexeme c (body ++ rest) = (some kind, body.length))
      (hrest : Reworded (some (String.ofList (c :: body))) rest other) :
      Reworded previous (c :: (body ++ rest)) (c :: (body ++ other))
  | exchanged {previous : Option String} {c : Char} {body rest other word : List Char}
      {kind : TokenKind} (hlex : lexeme c (body ++ rest) = (some kind, body.length))
      (hallw : allows previous kind) (hexch : Exchange kind (c :: body) word)
      (hrest : Reworded (some (String.ofList (c :: body))) rest other) :
      Reworded previous (c :: (body ++ rest)) (word ++ other)

inductive RewordedTokens : Option String → List Token → List Token → Prop
  | nil (previous : Option String) : RewordedTokens previous [] []
  | cons {previous : Option String} {token other : Token} {rest others : List Token}
      (halike : token.Alike other)
      (htext : token.text = other.text ∨ allows previous token.kind)
      (hrest : RewordedTokens (some token.text) rest others) :
      RewordedTokens previous (token :: rest) (other :: others)

end

/-! ## Aligned texts -/

/-- Lexemes that stand for the same keyword, or whose text does not matter. -/
inductive SameSense : TokenKind → List Char → List Char → Prop
  | refl (kind : TokenKind) (word : List Char) : SameSense kind word word
  | keyword {word other : List Char} {keyword : Keyword}
      (hword : Keyword.ofWord? (String.ofList word) = some keyword)
      (hoth : Keyword.ofWord? (String.ofList other) = some keyword) :
      SameSense .identifier word other
  | content {kind : TokenKind}
      (hkind : kind = .stringLiteral ∨ kind = .openString ∨ kind = .comment)
      (word other : List Char) : SameSense kind word other

lemma SameSense.symm (hsense : SameSense kind word other) : SameSense kind other word := by
  cases hsense with
  | refl => exact .refl kind word
  | keyword hword hoth => exact .keyword hoth hword
  | content hkind => exact .content hkind other word

lemma Exchange.sameSense (hexch : Exchange kind word other) : SameSense kind word other := by
  cases hexch with
  | keyword hword hoth => exact .keyword hword hoth
  | stringLiteral => exact .content (.inl rfl) _ _
  | openString => exact .content (.inr (.inl rfl)) _ _
  | comment => exact .content (.inr (.inr rfl)) _ _

/-- Texts whose lexemes correspond to each other one by one. -/
inductive Aligned : List Char → List Char → Prop
  | nil : Aligned [] []
  | dropped {c : Char} {body rest other : List Char}
      (hlex : lexeme c (body ++ rest) = (none, body.length))
      (hoth : lexeme c (body ++ other) = (none, body.length))
      (hrest : Aligned rest other) :
      Aligned (c :: (body ++ rest)) (c :: (body ++ other))
  | token {c d : Char} {body tail rest other : List Char} {kind : TokenKind}
      (hlex : lexeme c (body ++ rest) = (some kind, body.length))
      (hoth : lexeme d (tail ++ other) = (some kind, tail.length))
      (hsense : SameSense kind (c :: body) (d :: tail)) (hrest : Aligned rest other) :
      Aligned (c :: (body ++ rest)) (d :: (tail ++ other))

namespace Aligned

variable {text other : List Char}

lemma symm (halgn : Aligned text other) : Aligned other text := by
  induction halgn with
  | nil => exact .nil
  | dropped hlex hoth _ ih => exact .dropped hoth hlex ih
  | token hlex hoth hsense _ ih => exact .token hoth hlex hsense.symm ih

lemma eq_nil_iff (halgn : Aligned text other) : text = [] ↔ other = [] := by
  cases halgn <;> simp

lemma head_of_sameSense {d : Char} {tail others : List Char}
    (hlex : lexeme c rest = (some kind, body.length))
    (hoth : lexeme d others = (some kind, tail.length))
    (hsense : SameSense kind (c :: body) (d :: tail)) :
    c = d ∨ isIdentStart c ∧ isIdentStart d := by
  have hc : kind.beginsWith c := (fitsLexeme c rest).head kind (by rw [hlex])
  have hd : kind.beginsWith d := (fitsLexeme d others).head kind (by rw [hoth])
  cases hsense with
  | refl => exact .inl rfl
  | keyword => exact .inr ⟨hc, hd⟩
  | content hkind =>
    rcases hkind with rfl | rfl | rfl
    · exact .inl ((beq_iff_eq.mp hc).trans (beq_iff_eq.mp hd).symm)
    · exact .inl ((beq_iff_eq.mp hc).trans (beq_iff_eq.mp hd).symm)
    · exact .inl ((beq_iff_eq.mp hc).trans (beq_iff_eq.mp hd).symm)

lemma headsAlike (halgn : Aligned text other) : HeadsAlike text other := by
  cases halgn with
  | nil | dropped => exact .inl rfl
  | token hlex hoth hsense =>
    rcases head_of_sameSense hlex hoth hsense with rfl | hlets
    · exact .inl rfl
    · exact .inr hlets

lemma startsAlike (halgn : Aligned text other) : StartsAlike text other := by
  refine ⟨halgn.headsAlike, fun hpoint => ?_⟩
  cases halgn with
  | nil => rfl
  | dropped hlex =>
    obtain rfl := Option.some.inj hpoint
    cases hlex
  | @token c d body tail rest others kind hlex hoth hsense hrest =>
    obtain rfl := Option.some.inj hpoint
    have hdot : (some TokenKind.dot, 0) = (some kind, body.length) := hlex
    obtain ⟨rfl, hlen⟩ : TokenKind.dot = kind ∧ 0 = body.length := by simpa using hdot
    obtain rfl := length_eq_zero_iff.mp hlen.symm
    cases hsense with
    | refl => exact hrest.headsAlike.any_head fun _ => not_isDecimalDigit_of_isIdentStart
    | content hkind => simp at hkind

end Aligned

/-! ## Lexing a reworded text -/

lemma Exchange.lexeme (hexch : Exchange kind (c :: body) word)
    (hlex : lexeme c (body ++ rest) = (some kind, body.length)) (halike : StartsAlike rest other) :
    ∃ d tail, word = d :: tail ∧ lexeme d (tail ++ other) = (some kind, tail.length) := by
  have hc : kind.beginsWith c := (fitsLexeme c (body ++ rest)).head kind (by rw [hlex])
  cases hexch with
  | keyword hword hoth =>
    obtain ⟨-, hne, hlets⟩ := folded_of_ofWord? hoth
    obtain _ | ⟨d, tail⟩ := word
    · exact absurd rfl hne
    obtain ⟨hd, htail⟩ := forall_mem_cons.mp hlets
    rw [lexeme_identifier hc, Prod.mk.injEq, runLength_append_eq_iff] at hlex
    refine ⟨d, tail, rfl, ?_⟩
    rw [lexeme_identifier (isIdentStart_of_isLetter hd), Prod.mk.injEq,
      runLength_append_eq_iff, ← halike.any_head fun _ => isIdentPart_of_isIdentStart]
    refine ⟨rfl, fun e he => ?_, hlex.2.2⟩
    exact isIdentPart_of_isIdentStart (isIdentStart_of_isLetter (htail e he))
  | @stringLiteral _ content hquote hbreak =>
    obtain rfl : c = '"' := beq_iff_eq.mp hc
    refine ⟨'"', content ++ ['"'], rfl, lexeme_eq_stringLiteral_iff.mpr ?_⟩
    obtain ⟨hrest, -⟩ := quotedTail_append (lexeme_eq_stringLiteral_iff.mp hlex)
    rw [halike.any_extendsQuoted true] at hrest
    rw [append_assoc, singleton_append, quotedTail_plain hquote hbreak,
      quotedTail_closing hrest, length_append, length_singleton, Nat.add_comm]
  | @openString _ content hquote hbreak =>
    obtain rfl : c = '"' := beq_iff_eq.mp hc
    refine ⟨'"', content, rfl, lexeme_eq_openString_iff.mpr ?_⟩
    obtain ⟨hrest, -⟩ := quotedTail_append (lexeme_eq_openString_iff.mp hlex)
    rw [halike.any_extendsQuoted false] at hrest
    rw [quotedTail_plain hquote hbreak, quotedTail_eq_zero_iff.mpr ⟨rfl, hrest⟩, Nat.zero_add]
  | @comment _ content hbreak =>
    obtain rfl : c = '/' := beq_iff_eq.mp hc
    refine ⟨'/', '/' :: content, rfl, ?_⟩
    rw [lexeme_slash] at hlex ⊢
    split at hlex
    next =>
      have hlets (d : Char) (hd : isIdentStart d) : (d != '\n') :=
        bne_of_isIdentStart hd (by decide)
      rw [Prod.mk.injEq, runLength_append_eq_iff, halike.any_head hlets] at hlex
      have hrun : runLength (· != '\n') ('/' :: content ++ other) = ('/' :: content).length := by
        rw [runLength_append_eq_iff]
        refine ⟨forall_mem_cons.mpr ⟨rfl, fun d hd => ?_⟩, hlex.2.2⟩
        exact bne_iff_ne.mpr fun heq => hbreak (heq ▸ hd)
      rw [cons_append, head?_cons, if_pos rfl, ← cons_append, hrun]
    next => cases hlex

lemma ofWord?_of_not_isLetter (hc : isLetter c = false) (body : List Char) :
    Keyword.ofWord? (String.ofList (c :: body)) = none := by
  rw [Option.eq_none_iff_forall_ne_some]
  intro keyword hkw
  have hlet := (folded_of_ofWord? hkw).2.2 c mem_cons_self
  rw [hc] at hlet
  cases hlet

lemma Exchange.alike (hexch : Exchange kind (c :: body) word) (hc : kind.beginsWith c)
    (column place : Nat) :
    Token.Alike ⟨kind, String.ofList (c :: body), column⟩ ⟨kind, String.ofList word, place⟩ := by
  have hcontent {d e : Char} {first second : List Char} {found : TokenKind}
      (hd : isLetter d = false) (he : isLetter e = false) (hfound : found ≠ .identifier) :
      Token.Alike ⟨found, String.ofList (d :: first), column⟩
        ⟨found, String.ofList (e :: second), place⟩ := by
    refine ⟨rfl, ?_, fun hkind => absurd hkind hfound⟩
    rw [ofWord?_of_not_isLetter hd, ofWord?_of_not_isLetter he]
  cases hexch with
  | keyword hword hoth =>
    refine ⟨rfl, ?_, fun _ hname => ?_⟩
    · rw [hword, hoth]
    · rw [isKeyword, hword] at hname
      cases hname
  | stringLiteral | openString =>
    obtain rfl : c = '"' := beq_iff_eq.mp hc
    exact hcontent (by decide) (by decide) (by decide)
  | comment =>
    obtain rfl : c = '/' := beq_iff_eq.mp hc
    exact hcontent (by decide) (by decide) (by decide)

namespace Reworded

variable {allows : Option String → TokenKind → Prop} {previous : Option String}
  {text other : List Char}

lemma aligned (hrew : Reworded allows previous text other) : Aligned text other := by
  induction hrew with
  | nil => exact .nil
  | dropped hlex _ ih => exact .dropped hlex (lexeme_append hlex ih.startsAlike) ih
  | kept hlex _ ih => exact .token hlex (lexeme_append hlex ih.startsAlike) (.refl _ _) ih
  | exchanged hlex _ hexch _ ih =>
    obtain ⟨d, tail, rfl, hoth⟩ := hexch.lexeme hlex ih.startsAlike
    exact .token hlex hoth hexch.sameSense ih

lemma tokens (hrew : Reworded allows previous text other) (column place : Nat) :
    RewordedTokens allows previous (tokensFrom column text) (tokensFrom place other) := by
  induction hrew generalizing column place with
  | nil =>
    rw [tokensFrom, tokensFrom]
    exact .nil _
  | dropped hlex hrest ih =>
    rw [tokensFrom_append hlex, tokensFrom_append (lexeme_append hlex hrest.aligned.startsAlike)]
    exact ih _ _
  | kept hlex hrest ih =>
    rw [tokensFrom_append hlex, tokensFrom_append (lexeme_append hlex hrest.aligned.startsAlike)]
    exact .cons (Token.alike_of_text rfl rfl) (.inl rfl) (ih _ _)
  | exchanged hlex hallw hexch hrest ih =>
    obtain ⟨d, tail, rfl, hoth⟩ := hexch.lexeme hlex hrest.aligned.startsAlike
    have hhead := (fitsLexeme _ _).head _ (congrArg Prod.fst hlex)
    rw [tokensFrom_append hlex, cons_append, tokensFrom_append hoth]
    exact .cons (hexch.alike hhead _ _) (.inr hallw) (ih _ _)

end Reworded

lemma RewordedTokens.any_kind {previous : Option String} {tokens others : List Token}
    (htoks : RewordedTokens allows previous tokens others) (p : TokenKind → Bool) :
    tokens.any (p ·.kind) = others.any (p ·.kind) := by
  induction htoks with
  | nil => rfl
  | cons halike _ _ ih => rw [any_cons, any_cons, halike.kind, ih]

/-! ## Strings that go on -/

lemma stringEnd?_closing (hrest : rest.head?.any (· == '"') = false) :
    stringEnd? ('"' :: rest) = some 1 := by
  rw [stringEnd?.eq_3]
  · simp
  · rintro tail - rfl
    cases hrest

lemma stringEnd?_cons (hc : c ≠ '"') (rest : List Char) :
    stringEnd? (c :: rest) = (stringEnd? rest).map (· + 1) := by
  rw [stringEnd?.eq_3]
  · simp [hc]
  · intro tail hquote
    exact absurd hquote hc

lemma stringEnd?_plain (hquote : '"' ∉ content) (after : List Char) :
    stringEnd? (content ++ after) = (stringEnd? after).map (· + content.length) := by
  induction content with
  | nil => simp
  | cons c rest ih =>
    simp only [mem_cons, not_or] at hquote
    rw [cons_append, stringEnd?_cons (Ne.symm hquote.1), ih hquote.2, Option.map_map]
    rfl

lemma stringEnd?_ne_zero (text : List Char) : stringEnd? text ≠ some 0 := by
  fun_cases stringEnd? text <;> simp_all

lemma stringEnd?_append (hend : stringEnd? (content ++ '"' :: rest) = some (content.length + 1)) :
    rest.head?.any (· == '"') = false ∧ ∀ others : List Char, others.head?.any (· == '"') = false →
        stringEnd? (content ++ '"' :: others) = some (content.length + 1) := by
  induction content using stringEnd?.induct with
  | case1 =>
    refine ⟨?_, fun others hoths => stringEnd?_closing hoths⟩
    rw [Bool.eq_false_iff]
    intro hquote
    obtain _ | ⟨c, tail⟩ := rest
    · cases hquote
    · obtain rfl : c = '"' := by simpa using hquote
      simp [stringEnd?] at hend
  | case2 content ih =>
    have hrest : stringEnd? (content ++ '"' :: rest) = some (content.length + 1) := by
      simpa [stringEnd?] using hend
    obtain ⟨hhead, hoths⟩ := ih hrest
    refine ⟨hhead, fun others hsnd => ?_⟩
    simp [stringEnd?, hoths others hsnd]
  | case3 content hsing =>
    -- A quote that is not doubled closes the string before the one that should.
    obtain _ | ⟨d, tail⟩ := content
    · have hzero : stringEnd? rest = some 0 := by simpa [stringEnd?] using hend
      exact absurd hzero (stringEnd?_ne_zero rest)
    · have hd : d ≠ '"' := fun heq => hsing tail rfl (heq ▸ rfl)
      rw [cons_append, stringEnd?_closing (by simpa using hd)] at hend
      simp at hend
  | case4 c content _ hc ih =>
    rw [cons_append, stringEnd?_cons hc] at hend
    have hrest : stringEnd? (content ++ '"' :: rest) = some (content.length + 1) := by
      simpa using hend
    obtain ⟨hhead, hoths⟩ := ih hrest
    refine ⟨hhead, fun others hsnd => ?_⟩
    rw [cons_append, stringEnd?_cons hc, hoths others hsnd]
    rfl

section

variable (allows : Option String → TokenKind → Prop)

/-- The content of a string that an earlier line opened, and what it may be exchanged
for. -/
def RewordedContent (content other : List Char) : Prop :=
  other = content ∨ allows none .openString ∧ '"' ∉ other

inductive RewordedContinuation : List Char → List Char → Prop
  | inside {line other : List Char} (hend : stringEnd? line = none)
      (hcontent : RewordedContent allows line other) :
      RewordedContinuation line other
  | closing {content other rest others : List Char}
      (hend : stringEnd? (content ++ '"' :: rest) = some (content.length + 1))
      (hcontent : RewordedContent allows content other)
      (hrest : Reworded allows none rest others) :
      RewordedContinuation (content ++ '"' :: rest) (other ++ '"' :: others)

end

structure LexedAlike
    (alike : List Token → List Token → Prop) (lexed other : List Token × Bool) : Prop where
  tokens : alike lexed.1 other.1
  inString : lexed.2 = other.2

lemma Reworded.lexLine (hrew : Reworded allows none line other) :
    LexedAlike (RewordedTokens allows none) (lexLine false line) (lexLine false other) := by
  have htoks := hrew.tokens 0 0
  exact ⟨htoks, htoks.any_kind (· == .openString)⟩

lemma lexLine_of_stringEnd?
    (hend : stringEnd? (content ++ '"' :: rest) = some (content.length + 1)) :
    lexLine true (content ++ '"' :: rest) =
      let tokens := tokensFrom (content.length + 1) rest
      (tokens, tokens.any (·.kind == .openString)) := by
  have hdrop : (content ++ '"' :: rest).drop (content.length + 1) = rest := by simp
  simp only [lexLine, if_true, hend, hdrop]

lemma RewordedContinuation.lexLine (hrew : RewordedContinuation allows line other) :
    LexedAlike (RewordedTokens allows none) (lexLine true line) (lexLine true other) := by
  cases hrew with
  | inside hend hcontent =>
    have hoth : stringEnd? other = none := by
      rcases hcontent with rfl | ⟨-, hquote⟩
      · exact hend
      · have hplain := stringEnd?_plain hquote []
        rwa [append_nil] at hplain
    simp only [BslInsight.lexLine, if_true, hend, hoth]
    exact ⟨.nil _, rfl⟩
  | @closing content others rest tail hend hcontent hrest =>
    obtain ⟨hhead, hoths⟩ := stringEnd?_append hend
    rw [hrest.aligned.startsAlike.any_head_eq (by decide)] at hhead
    have hoth : stringEnd? (others ++ '"' :: tail) = some (others.length + 1) := by
      rcases hcontent with rfl | ⟨-, hquote⟩
      · exact hoths tail hhead
      · rw [stringEnd?_plain hquote, stringEnd?_closing hhead, Option.map_some, Nat.add_comm]
    have htoks := hrest.tokens (content.length + 1) (others.length + 1)
    rw [lexLine_of_stringEnd? hend, lexLine_of_stringEnd? hoth]
    exact ⟨htoks, htoks.any_kind (· == .openString)⟩

end BslInsight
