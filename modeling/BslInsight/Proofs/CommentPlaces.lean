import BslInsight.Proofs.ListComments
import BslInsight.Proofs.TokenPlaces

/-!
# The places of comments

The comment of a line is looked for by its tokens, in a directive or a parameter, and in the scan
for the end of a parameter list.  Doubled quotes are taken together by the first only.  All find
the same comment in lines with no apostrophe, which begins a date for the first.
-/

namespace BslInsight

open List

variable {c : Char} {body rest line text : List Char} {column depth : Nat} {inQuote : Bool}

/-! ## Comments among lexemes -/

lemma commentStart?_quote (inQuote : Bool) (rest : List Char) :
    commentStart? inQuote ('"' :: rest) = (commentStart? (!inQuote) rest).map (· + 1) := by
  simp [commentStart?]

lemma commentStart?_true (hbreak : '\n' ∉ text) : commentStart? true text =
      if (quotedTail text).1 then
        (commentStart? false (text.drop (quotedTail text).2)).map (· + (quotedTail text).2)
      else none := by
  induction text using quotedTail.induct with
  | case1 => rfl
  | case2 rest ih =>
    simp only [mem_cons, not_or] at hbreak
    rw [commentStart?_quote, commentStart?_quote, Bool.not_not, ih hbreak.2.2, quotedTail]
    split <;> simp [Function.comp_def, Nat.add_assoc]
  | case3 rest hsing => simp [commentStart?_quote, quotedTail.eq_3 _ _ hsing]
  | case4 rest _ => simp at hbreak
  | case5 c rest _ hquote hfeed ih =>
    simp only [mem_cons, not_or] at hbreak
    rw [commentStart?, quotedTail_cons hquote hfeed, if_neg (by simp), if_neg hquote, ih hbreak.2]
    split <;> simp [Function.comp_def, Nat.add_assoc]

lemma commentStart?_lexeme {kind : Option TokenKind} (hdate : c ≠ '\'')
    (hbreak : '\n' ∉ body ++ rest) (hlex : lexeme c (body ++ rest) = (kind, body.length)) :
    commentStart? false (c :: (body ++ rest)) = if kind = some .comment then some 0
      else (commentStart? false rest).map (· + (body.length + 1)) := by
  by_cases hquote : c = '"'
  · subst hquote
    rw [lexeme_quote] at hlex
    obtain ⟨rfl, hlen⟩ := Prod.mk.inj hlex
    rw [commentStart?_quote, Bool.not_false, commentStart?_true hbreak]
    cases hshut : (quotedTail (body ++ rest)).1 with
    | true => simp [hlen, Function.comp_def, Nat.add_assoc]
    | false =>
      have hopen : lexeme '"' (body ++ rest) = (some .openString, body.length) :=
        lexeme_eq_openString_iff.mpr (Prod.ext hshut hlen)
      obtain rfl := rest_eq_nil_of_lexeme hopen (.inl rfl) fun h => hbreak (mem_append_right _ h)
      rfl
  by_cases hslash : c = '/'
  · subst hslash
    rw [lexeme_slash] at hlex
    split at hlex
    next hcom =>
      obtain ⟨rfl, -⟩ := Prod.mk.inj hlex
      simp [commentStart?, hcom]
    next hcom =>
      obtain ⟨rfl, hlen⟩ := Prod.mk.inj hlex
      obtain rfl := length_eq_zero_iff.mp hlen.symm
      simp_all [commentStart?]
  · have hkind : kind ≠ some .comment := by
      rintro rfl
      exact hslash (beq_iff_eq.mp ((fitsLexeme c (body ++ rest)).head .comment (by rw [hlex])))
    have hbody (d : Char) (hd : isOuter d) : d ∉ body := by
      have hmem := not_mem_lexeme hd (c := c) (by simp [hquote, hdate, hslash]) (body ++ rest)
      rwa [hlex, take_left] at hmem
    have hplain : ∀ d ∈ c :: body, d ≠ '"' ∧ d ≠ '/' :=
      forall_mem_cons.mpr ⟨⟨hquote, hslash⟩, fun d hd =>
        ⟨ne_of_mem_of_not_mem hd (hbody '"' (by decide)),
          ne_of_mem_of_not_mem hd (hbody '/' (by decide))⟩⟩
    rw [if_neg hkind, ← cons_append, commentStart?_plain hplain]
    rfl

lemma commentStart?_eq_some_iff (hbreak : '\n' ∉ line) (hdate : '\'' ∉ line) (start : Nat) :
    commentStart? false line = some column ↔
      ∃ token ∈ tokensFrom start line, token.kind = .comment ∧ token.column = start + column := by
  induction line using lexeme_induction generalizing start column with
  | nil => simp [commentStart?, tokensFrom]
  | cons c body rest kind hlex ih =>
    simp only [mem_cons, mem_append, not_or] at hbreak hdate
    rw [commentStart?_lexeme (Ne.symm hdate.1) (by simp [hbreak]) hlex, tokensFrom_append hlex]
    by_cases hkind : kind = some .comment
    · subst hkind
      obtain rfl := rest_eq_nil_of_lexeme hlex (.inr rfl) hbreak.2.2
      simp [tokensFrom, eq_comm]
    · have hfirst (first : Token) (hmem : first ∈ (kind.map fun kind =>
          (⟨kind, String.ofList (c :: body), start⟩ : Token)).toList) : first.kind ≠ .comment := by
        obtain ⟨kind, rfl, rfl⟩ := Option.map_eq_some_iff.mp (Option.mem_toList.mp hmem)
        exact fun h => hkind (congrArg some h)
      rw [if_neg hkind, Option.map_eq_some_iff]
      constructor
      · rintro ⟨inner, hinner, rfl⟩
        obtain ⟨token, htoken, hcom, hcol⟩ :=
          (ih hbreak.2.2 hdate.2.2 (start + body.length + 1)).mp hinner
        exact ⟨token, mem_append_right _ htoken, hcom, by omega⟩
      · rintro ⟨token, htoken, hcom, hcol⟩
        have hlater : token ∈ tokensFrom (start + body.length + 1) rest :=
          (mem_append.mp htoken).resolve_left fun hmem => hfirst token hmem hcom
        have hle := le_column_of_mem_tokensFrom hlater
        refine ⟨column - (body.length + 1), (ih hbreak.2.2 hdate.2.2 _).mpr
          ⟨token, hlater, hcom, ?_⟩, ?_⟩ <;> omega

/-! ## Comments in the scan of a parameter list -/

lemma scanParamList_take_comment (hcom : commentStart? inQuote line = some column) (depth : Nat) :
    scanParamList depth inQuote (line.take column) = scanParamList depth inQuote line := by
  induction line generalizing depth inQuote column with
  | nil => cases hcom
  | cons c rest ih =>
    rw [commentStart?] at hcom
    split at hcom
    next hslsh =>
      obtain rfl : 0 = column := by simpa using hcom
      obtain ⟨rfl, rfl, hhead⟩ := hslsh
      simp [scanParamList, hhead]
    next hslsh =>
      obtain ⟨inner, hinner, rfl⟩ := Option.map_eq_some_iff.mp hcom
      rw [take_succ_cons]
      by_cases hclose : inQuote = false ∧ c = ')' ∧ depth ≤ 1
      · obtain ⟨rfl, rfl, hdepth⟩ := hclose
        simp [scanParamList, hdepth]
      · rw [scanParamList_cons_take hclose hslsh, scanParamList_cons hclose hslsh, quoteAfter,
          ih hinner]

/-- The comment of a line is where its tokens have one, and the scan of a parameter list sees
nothing of it. -/
theorem commentStart?_agrees (hbreak : '\n' ∉ line) (hdate : '\'' ∉ line) (column : Nat) :
    (commentStart? false line = some column ↔
      ∃ token ∈ (lexLine false line).1, token.kind = .comment ∧ token.column = column) ∧
    (commentStart? false line = some column → ∀ depth,
      scanParamList depth false line = scanParamList depth false (line.take column)) := by
  refine ⟨?_, fun hcom depth => (scanParamList_take_comment hcom depth).symm⟩
  rw [commentStart?_eq_some_iff hbreak hdate 0]
  simp [lexLine]

/-- Slashes inside of a string with doubled quotes, then a comment with a parenthesis in it. -/
theorem commentStart?_agrees_quoted :
    (∃ token ∈ (lexLine false "А = \"\"\"//\"\"\", Б // )".toList).1,
      token.kind = .comment ∧ token.column = 16) ∧
    ∀ depth, scanParamList depth false "А = \"\"\"//\"\"\", Б // )".toList =
      scanParamList depth false "А = \"\"\"//\"\"\", Б ".toList := by
  have hstart : commentStart? false "А = \"\"\"//\"\"\", Б // )".toList = some 16 := by decide
  obtain ⟨htokens, hscan⟩ := @commentStart?_agrees "А = \"\"\"//\"\"\", Б // )".toList (by decide)
    (by decide) 16
  exact ⟨htokens.mp hstart, hscan hstart⟩

end BslInsight
