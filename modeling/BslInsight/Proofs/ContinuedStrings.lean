import BslInsight.Proofs.Rewording

/-!
# Strings that go on in the next line

A string that is open at the end of a line goes on in the next one.  There its end
is looked for in another way than inside a line, but with the same result: lexing
the lines one after the other gives the tokens of the lines written as one, with
one string in place of its parts.
-/

namespace BslInsight

open List

variable {line : List Char}

/-! ## Moved tokens -/

def Token.moved (offset : Nat) (token : Token) : Token :=
  { token with column := token.column + offset }

lemma tokensFrom_add (text : List Char) (column offset : Nat) :
    tokensFrom (column + offset) text = (tokensFrom column text).map (Token.moved offset) := by
  induction text using lexeme_induction generalizing column with
  | nil => simp [tokensFrom]
  | cons c body rest kind hlex ih =>
    have hcol : column + offset + body.length + 1 = column + body.length + 1 + offset := by
      omega
    rw [tokensFrom_append hlex, tokensFrom_append hlex, hcol, ih, map_append]
    cases kind <;> rfl

lemma any_openString_moved (offset : Nat) (tokens : List Token) :
    (tokens.map (Token.moved offset)).any (·.kind == .openString) =
      tokens.any (·.kind == .openString) := by
  rw [any_map]
  rfl

/-! ## The two ways to find the end -/

lemma stringEnd?_eq_quotedTail {text : List Char} (hbreak : '\n' ∉ text) :
    stringEnd? text = if (quotedTail text).1 then some (quotedTail text).2 else none := by
  induction text using quotedTail.induct with
  | case1 => rfl
  | case2 rest ih =>
    simp only [mem_cons, not_or] at hbreak
    simp only [stringEnd?, quotedTail, ih hbreak.2.2]
    split <;> rfl
  | case3 rest hsing =>
    rw [stringEnd?.eq_3 _ _ hsing, quotedTail.eq_3 _ _ hsing]
    simp
  | case4 rest _ => simp at hbreak
  | case5 c rest _ hquote hfeed ih =>
    simp only [mem_cons, not_or] at hbreak
    rw [stringEnd?_cons hquote, quotedTail_cons hquote hfeed, ih hbreak.2]
    simp only
    split <;> rfl

lemma quotedTail_append_of_open
    {body : List Char} (hbreak : '\n' ∉ body) (hopen : (quotedTail body).1 = false)
    (next : List Char) :
    quotedTail (body ++ next) = ((quotedTail next).1, (quotedTail next).2 + body.length) := by
  induction body using quotedTail.induct with
  | case1 => rfl
  | case2 rest ih =>
    simp only [mem_cons, not_or] at hbreak
    simp only [cons_append, quotedTail] at hopen ⊢
    rw [ih hbreak.2.2 hopen]
    rfl
  | case3 rest hsing =>
    rw [quotedTail.eq_3 _ _ hsing] at hopen
    simp at hopen
  | case4 rest _ => simp at hbreak
  | case5 c rest _ hquote hfeed ih =>
    simp only [mem_cons, not_or] at hbreak
    rw [quotedTail_cons hquote hfeed] at hopen
    rw [cons_append, quotedTail_cons hquote hfeed, ih hbreak.2 hopen]
    rfl

lemma length_quotedTail_of_open
    {text : List Char} (hbreak : '\n' ∉ text) (hopen : (quotedTail text).1 = false) :
    (quotedTail text).2 = text.length := by
  have hwhole := quotedTail_append_of_open hbreak hopen []
  rw [append_nil] at hwhole
  rw [hwhole]
  exact Nat.zero_add _

lemma lexLine_true (hbreak : '\n' ∉ line) : lexLine true line =
      let rest := line.drop (quotedTail line).2
      let tokens := tokensFrom (quotedTail line).2 rest
      (tokens, !(quotedTail line).1 || tokens.any (·.kind == .openString)) := by
  rw [lexLine, if_pos rfl, stringEnd?_eq_quotedTail hbreak]
  cases hshut : (quotedTail line).1 with
  | true => simp
  | false =>
    rw [length_quotedTail_of_open hbreak hshut, drop_length]
    simp [tokensFrom]

/-! ## One line after another -/

lemma startsAlike_append_of_quote {rest : List Char} (hquote : '"' ∈ rest) (next : List Char) :
    StartsAlike rest (rest ++ next) := by
  obtain _ | ⟨c, tail⟩ := rest
  · cases hquote
  refine ⟨.inl rfl, fun hpoint => ?_⟩
  obtain rfl : c = '.' := by simpa using hpoint
  obtain _ | ⟨d, tail⟩ := tail
  · simp at hquote
  · rfl

def Token.continued (token : Token) (next : List Char) : Token where
  kind := if (quotedTail next).1 then .stringLiteral else .openString
  text := String.ofList (token.text.toList ++ next.take (quotedTail next).2)
  column := token.column

lemma tokensFrom_append_of_open (hbreak : '\n' ∉ line) {column : Nat}
    (hopen : (tokensFrom column line).any (·.kind == .openString)) (next : List Char) :
    ∃ before opening, tokensFrom column line = before ++ [opening] ∧
      before.any (·.kind == .openString) = false ∧ opening.kind = .openString ∧
      tokensFrom column (line ++ next) = before ++ opening.continued next ::
        tokensFrom (column + line.length + (quotedTail next).2)
          (next.drop (quotedTail next).2) := by
  induction line using lexeme_induction generalizing column with
  | nil =>
    rw [tokensFrom] at hopen
    cases hopen
  | cons c body rest kind hlex ih =>
    simp only [mem_cons, mem_append, not_or] at hbreak
    obtain ⟨-, hbody, hrest⟩ := hbreak
    by_cases hkind : kind = some .openString
    · -- The string goes to the end of the line, and from there on into the next one.
      subst hkind
      obtain rfl : c = '"' :=
        beq_iff_eq.mp ((fitsLexeme c (body ++ rest)).head .openString (by rw [hlex]))
      obtain rfl := rest_eq_nil_of_lexeme hlex (.inl rfl) hrest
      have hopn : (quotedTail body).1 = false := by
        rw [← append_nil body, lexeme_eq_openString_iff.mp hlex]
      have hwhole := quotedTail_append_of_open hbody hopn next
      let taken := next.take (quotedTail next).2
      have hlen : (body ++ taken).length = (quotedTail next).2 + body.length := by
        rw [length_append, length_take_of_le (quotedTail_le next), Nat.add_comm]
      have hlexeme' : lexeme '"' ((body ++ taken) ++ next.drop (quotedTail next).2) =
          (some (if (quotedTail next).1 then .stringLiteral else .openString),
            (body ++ taken).length) := by
        rw [append_assoc, take_append_drop, lexeme_quote, hwhole, hlen]
      have hjoined : '"' :: (body ++ []) ++ next =
          '"' :: ((body ++ taken) ++ next.drop (quotedTail next).2) := by
        simp [taken]
      have hcol : column + (body ++ taken).length + 1 =
          column + ('"' :: (body ++ [])).length + (quotedTail next).2 := by
        rw [hlen]
        simp only [append_nil, length_cons]
        omega
      refine ⟨[], ⟨.openString, String.ofList ('"' :: body), column⟩, ?_, rfl, rfl, ?_⟩
      · rw [tokensFrom_append hlex, tokensFrom]
        rfl
      · rw [hjoined, tokensFrom_append hlexeme', hcol]
        simp [Token.continued, taken]
    · let first : List Token :=
        (kind.map fun kind => ⟨kind, String.ofList (c :: body), column⟩).toList
      have hfirst : first.any (·.kind == .openString) = false := by
        cases kind with
        | none => rfl
        | some found =>
          have hfound : found ≠ .openString := fun h => hkind (by rw [h])
          simp [first, hfound]
      have hlater : (tokensFrom (column + body.length + 1) rest).any (·.kind == .openString) := by
        rwa [tokensFrom_append hlex, any_append, hfirst, Bool.false_or] at hopen
      have hquote : '"' ∈ rest := by
        obtain ⟨token, htoken, hstr⟩ := any_eq_true.mp hlater
        exact mem_of_openString htoken (beq_iff_eq.mp hstr)
      have hsame := lexeme_append hlex (startsAlike_append_of_quote hquote next)
      obtain ⟨before, opening, htoks, hbef, hopening, hjoined⟩ := ih hrest hlater
      have hcol : column + body.length + 1 + rest.length =
          column + (c :: (body ++ rest)).length := by
        simp only [length_cons, length_append]
        omega
      refine ⟨first ++ before, opening, ?_, ?_, hopening, ?_⟩
      · rw [tokensFrom_append hlex, htoks, append_assoc]
      · rw [any_append, hfirst, hbef, Bool.or_self]
      · rw [cons_append, append_assoc, tokensFrom_append hsame, hjoined, hcol, append_assoc]

lemma lexLine_append_of_open {next : List Char} (hline : '\n' ∉ line) (hnext : '\n' ∉ next)
    (hopen : (lexLine false line).2) :
    ∃ before opening, (lexLine false line).1 = before ++ [opening] ∧ opening.kind = .openString ∧
      (lexLine false (line ++ next)).1 = before ++ opening.continued next ::
        (lexLine true next).1.map (Token.moved line.length) ∧
      (lexLine false (line ++ next)).2 = (lexLine true next).2 := by
  have hfresh (text : List Char) : lexLine false text =
      (tokensFrom 0 text, (tokensFrom 0 text).any (·.kind == .openString)) := rfl
  rw [hfresh] at hopen
  obtain ⟨before, opening, htoks, hbef, hopening, hjoined⟩ :=
    tokensFrom_append_of_open hline hopen next
  have hmoved : tokensFrom (0 + line.length + (quotedTail next).2)
      (next.drop (quotedTail next).2) = (lexLine true next).1.map (Token.moved line.length) := by
    rw [lexLine_true hnext, Nat.zero_add, Nat.add_comm, tokensFrom_add]
  rw [hmoved] at hjoined
  refine ⟨before, opening, htoks, hopening, hjoined, ?_⟩
  rw [hfresh, hjoined, any_append, any_cons, any_openString_moved, hbef, lexLine_true hnext]
  cases hshut : (quotedTail next).1 <;> simp [Token.continued, hshut]

/-! ## Any number of lines -/

lemma lexLine_flatten_of_open {first : List Char} {middle : List (List Char)}
    (hbrks : ∀ line ∈ first :: middle, '\n' ∉ line) (hfirst : (lexLine false first).2)
    (hmiddle : ∀ line ∈ middle, (lexLine true line).2) :
    (lexLine false (first :: middle).flatten).2 ∧ ((∀ line ∈ middle, (lexLine true line).1 = []) →
        ∃ before start opening, (lexLine false first).1 = before ++ [start] ∧
          (lexLine false (first :: middle).flatten).1 = before ++ [opening] ∧
          start.kind = .openString ∧ start.column = opening.column) := by
  induction middle generalizing first with
  | nil =>
    obtain ⟨hbreak, -⟩ := forall_mem_cons.mp hbrks
    obtain ⟨before, opening, htoks, hopening, -⟩ := lexLine_append_of_open hbreak not_mem_nil hfirst
    simp only [flatten_cons, flatten_nil, append_nil]
    exact ⟨hfirst, fun _ => ⟨before, opening, opening, htoks, htoks, hopening, rfl⟩⟩
  | cons next middle ih =>
    obtain ⟨hbreak, hnext, hrest⟩ := by simpa only [forall_mem_cons] using hbrks
    obtain ⟨hopen, hlater⟩ := forall_mem_cons.mp hmiddle
    obtain ⟨before, start, htoks, hstart, hjoined, hstate⟩ :=
      lexLine_append_of_open hbreak hnext hfirst
    have hbreaks' : ∀ line ∈ (first ++ next) :: middle, '\n' ∉ line := by
      refine forall_mem_cons.mpr ⟨?_, hrest⟩
      simp [hbreak, hnext]
    obtain ⟨hwhole, hstrs⟩ := ih hbreaks' (hstate.trans hopen) hlater
    have hflatten : ((first ++ next) :: middle).flatten = (first :: next :: middle).flatten := by
      simp
    rw [hflatten] at hwhole hstrs
    refine ⟨hwhole, fun hnone => ?_⟩
    obtain ⟨hempty, hnone⟩ := forall_mem_cons.mp hnone
    obtain ⟨front, joined, opening, hfront, hopening, -, hcol⟩ := hstrs hnone
    rw [hempty, map_nil] at hjoined
    obtain ⟨rfl, hstr⟩ := append_inj' (hjoined.symm.trans hfront) rfl
    obtain rfl : start.continued next = joined := singleton_inj.mp hstr
    exact ⟨before, start, opening, htoks, hopening, hstart, hcol⟩

/-- Lines after each of which a string is open, and one more line.  The last line has the
tokens that follow the string in all of the lines written as one, moved to their own
columns; before the string stand the tokens of the text in which it was opened. -/
theorem lexLine_continues {first : List Char} {middle : List (List Char)} {last : List Char}
    (hbreaks : ∀ line ∈ first :: middle, '\n' ∉ line) (hlast : '\n' ∉ last)
    (hfirst : (lexLine false first).2 = true)
    (hmiddle : ∀ line ∈ middle, (lexLine true line).2 = true) :
    let text := (first :: middle).flatten
    ∃ before opening string,
      (lexLine false text).1 = before ++ [opening] ∧ opening.kind = .openString ∧
      (lexLine false (text ++ last)).1 =
        before ++ string :: (lexLine true last).1.map (Token.moved text.length) ∧
      string.isString = true ∧ string.column = opening.column ∧
      opening.text.toList <+: string.text.toList ∧
      (lexLine false (text ++ last)).2 = (lexLine true last).2 ∧
      ((∀ line ∈ middle, (lexLine true line).1 = []) →
        ∃ start, (lexLine false first).1 = before ++ [start] ∧
          start.kind = .openString ∧ start.column = opening.column) := by
  intro text
  obtain ⟨hopen, hspread⟩ := lexLine_flatten_of_open hbreaks hfirst hmiddle
  have hbreak : '\n' ∉ text := by
    intro hmem
    obtain ⟨line, hline, hfeed⟩ := mem_flatten.mp hmem
    exact hbreaks line hline hfeed
  obtain ⟨before, opening, htokens, hopening, hjoined, hstate⟩ :=
    lexLine_append_of_open hbreak hlast hopen
  refine ⟨before, opening, opening.continued last, htokens, hopening, hjoined, ?_, rfl, ?_,
    hstate, fun hnone => ?_⟩
  · cases hclosed : (quotedTail last).1 <;> simp [Token.continued, Token.isString, hclosed]
  · simp [Token.continued]
  · obtain ⟨front, start, other, hstart, hfront, hkind, hcolumn⟩ := hspread hnone
    obtain ⟨rfl, hsame⟩ := append_inj' (htokens.symm.trans hfront) rfl
    obtain rfl : opening = other := singleton_inj.mp hsame
    exact ⟨start, hstart, hkind, hcolumn⟩

/-- Doubled quotes at the ends and starts of lines, and one that closes the string. -/
theorem lexLine_continues_doubled :
    let first := "А = \"Б\"\"".toList
    let middle := ["\"\"".toList]
    let last := "\"\"\"; Г".toList
    (lexLine false first).2 = true ∧ (∀ line ∈ middle, (lexLine true line).2 = true) ∧
      ∃ before opening string, (lexLine false (first :: middle).flatten).1 = before ++ [opening] ∧
        opening.kind = .openString ∧
        (lexLine false ((first :: middle).flatten ++ last)).1 = before ++ string ::
          (lexLine true last).1.map (Token.moved (first :: middle).flatten.length) ∧
        (lexLine false ((first :: middle).flatten ++ last)).2 = (lexLine true last).2 := by
  intro first middle last
  have hbreaks : ∀ line ∈ first :: middle, '\n' ∉ line := by decide +kernel
  have hfirst : (lexLine false first).2 = true := by decide +kernel
  have hmiddle : ∀ line ∈ middle, (lexLine true line).2 = true := by decide +kernel
  have hlast : '\n' ∉ last := by decide +kernel
  obtain ⟨before, opening, string, htokens, hopening, hjoined, -, -, -, hstate, -⟩ :=
    lexLine_continues hbreaks hlast hfirst hmiddle
  exact ⟨hfirst, hmiddle, before, opening, string, htokens, hopening, hjoined, hstate⟩

end BslInsight
