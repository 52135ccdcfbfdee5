import BslInsight.Proofs.Rewording

/-!
# The places of tokens

A token is a piece of its line: its text stands there at its column, and the next
token does not begin before its end.  Only comments and strings that stay open go on
to the end of a line.
-/

namespace BslInsight

open List

variable {c : Char} {body rest line text : List Char} {token : Token} {column place : Nat}

/-! ## Where an open string ends -/

/-- Text inside a string, in which every quote is doubled. -/
inductive QuotesDoubled : List Char → Prop
  | nil : QuotesDoubled []
  | char {c : Char} {rest : List Char} (hc : c ≠ '"') (hrest : QuotesDoubled rest) :
      QuotesDoubled (c :: rest)
  | pair {rest : List Char} (hrest : QuotesDoubled rest) : QuotesDoubled ('"' :: '"' :: rest)

/-- A string that is open before a line ends after the first quote that is not doubled. -/
def EndsString (line : List Char) (place : Nat) : Prop :=
  ∃ content rest, line = content ++ '"' :: rest ∧ QuotesDoubled content ∧
    rest.head? ≠ some '"' ∧ place = content.length + 1

lemma stringEnd?_of_quotesDoubled {content : List Char} (hcontent : QuotesDoubled content)
    (hrest : rest.head? ≠ some '"') :
    stringEnd? (content ++ '"' :: rest) = some (content.length + 1) := by
  induction hcontent with
  | nil => exact stringEnd?_closing (by cases rest <;> simp_all)
  | char hc _ ih =>
    rw [cons_append, stringEnd?_cons hc, ih]
    rfl
  | pair _ ih =>
    rw [cons_append, cons_append, stringEnd?, ih]
    rfl

lemma endsString_iff : EndsString line place ↔ stringEnd? line = some place := by
  constructor
  · rintro ⟨content, rest, rfl, hcontent, hrest, rfl⟩
    exact stringEnd?_of_quotesDoubled hcontent hrest
  intro hend
  induction line using stringEnd?.induct generalizing place with
  | case1 => cases hend
  | case2 rest ih =>
    obtain ⟨shorter, hshorter, rfl⟩ := Option.map_eq_some_iff.mp hend
    obtain ⟨content, after, rfl, hcontent, hafter, rfl⟩ := ih hshorter
    exact ⟨_, after, rfl, .pair hcontent, hafter, rfl⟩
  | case3 rest hsing =>
    rw [stringEnd?.eq_3 _ _ hsing, if_pos rfl, Option.some_inj] at hend
    refine ⟨[], rest, rfl, .nil, fun hhead => ?_, hend.symm⟩
    obtain ⟨tail, rfl⟩ := head?_eq_some_iff.mp hhead
    exact hsing tail rfl rfl
  | case4 c rest _ hc ih =>
    rw [stringEnd?_cons hc] at hend
    obtain ⟨shorter, hshorter, rfl⟩ := Option.map_eq_some_iff.mp hend
    obtain ⟨content, after, rfl, hcontent, hafter, rfl⟩ := ih hshorter
    exact ⟨_, after, rfl, .char hc hcontent, hafter, rfl⟩

lemma take_drop_of_mem_tokensFrom {front : List Char}
    (htoken : token ∈ tokensFrom front.length text) :
    ((front ++ text).drop token.column).take token.text.length = token.text.toList := by
  obtain ⟨before, c, body, rest, rfl, -, htext, hcol⟩ := exists_lexeme_of_mem_tokensFrom htoken
  have hsplit : front ++ (before ++ c :: (body ++ rest)) =
      (front ++ before) ++ ((c :: body) ++ rest) := by
    simp
  rw [hsplit, hcol, ← length_append, drop_left, htext, String.length_ofList, take_left,
    String.toList_ofList]

lemma getLast?_tokensFrom (hbreak : '\n' ∉ text) (htoken : token ∈ tokensFrom column text)
    (hkind : token.kind = .openString ∨ token.kind = .comment) :
    (tokensFrom column text).getLast? = some token ∧
      token.column + token.text.length = column + text.length := by
  induction text using lexeme_induction generalizing column with
  | nil =>
    rw [tokensFrom] at htoken
    cases htoken
  | cons c body rest kind hlex ih =>
    simp only [mem_cons, mem_append, not_or] at hbreak
    rw [tokensFrom_append hlex] at htoken ⊢
    rcases mem_append.mp htoken with hfirst | hlater
    · obtain ⟨found, rfl, rfl⟩ := Option.map_eq_some_iff.mp (Option.mem_toList.mp hfirst)
      obtain rfl := rest_eq_nil_of_lexeme hlex hkind hbreak.2.2
      simp [tokensFrom, String.length_ofList, Nat.add_comm]
    · obtain ⟨hlast, hend⟩ := ih hbreak.2.2 hlater
      rw [getLast?_append, hlast, hend, length_cons, length_append]
      exact ⟨rfl, by omega⟩

/-! ## Whole lines -/

/-- The tokens of a line stand where they say, one after the other, and tell whether a
string is open at its end. -/
structure TokensPlaced (inString : Bool) (line : List Char) (lexed : List Token × Bool) : Prop where
  text : ∀ token ∈ lexed.1, (line.drop token.column).take token.text.length = token.text.toList
  ordered : lexed.1.Pairwise fun token next => token.column + token.text.length ≤ next.column
  afterString : inString = true → ∀ token ∈ lexed.1, ∃ place ≤ token.column, EndsString line place
  reachesEnd : ∀ token ∈ lexed.1, token.kind = .openString ∨ token.kind = .comment →
      lexed.1.getLast? = some token ∧ token.column + token.text.length = line.length
  inString_iff : lexed.2 = true ↔ (∃ token ∈ lexed.1, token.kind = .openString) ∨
      inString = true ∧ ∀ place, ¬EndsString line place

lemma tokensPlaced_tokensFrom {inString : Bool} (front : List Char) (hbreak : '\n' ∉ text)
    (hfront : inString → EndsString (front ++ text) front.length) :
    TokensPlaced inString (front ++ text) (tokensFrom front.length text,
      (tokensFrom front.length text).any (·.kind == .openString)) where
  text token htoken := take_drop_of_mem_tokensFrom htoken
  ordered := tokensFrom_ordered text front.length
  afterString hstr token htoken := ⟨_, le_column_of_mem_tokensFrom htoken, hfront hstr⟩
  reachesEnd token htoken hkind := by
    rw [length_append]
    exact getLast?_tokensFrom hbreak htoken hkind
  inString_iff := by
    have hshut : ¬(inString ∧ ∀ place, ¬EndsString (front ++ text) place) :=
      fun h => h.2 _ (hfront h.1)
    simp [hshut]

/-- Every token of a line has its exact place in it, whether or not the line begins inside a
string. -/
theorem lexLine_tokensPlaced (inString : Bool) (hbreak : '\n' ∉ line) :
    TokensPlaced inString line (lexLine inString line) := by
  cases hend : if inString then stringEnd? line else some 0 with
  | none =>
    have hopen : inString = true ∧ ∀ place, ¬EndsString line place := by
      cases inString <;> simp_all [endsString_iff]
    rw [lexLine, hend]
    exact ⟨by simp, .nil, by simp, by simp, by simp [hopen]⟩
  | some start =>
    have hstart : start ≤ line.length ∧ (inString = true → EndsString line start) := by
      cases inString with
      | false =>
        obtain rfl : 0 = start := by simpa using hend
        simp
      | true =>
        obtain ⟨content, rest, rfl, hdoubled, hafter, rfl⟩ := endsString_iff.mpr hend
        exact ⟨by simp, fun _ => ⟨content, rest, rfl, hdoubled, hafter, rfl⟩⟩
    have hlen := length_take_of_le hstart.1
    have hdrop : '\n' ∉ line.drop start := fun hmem => hbreak (mem_of_mem_drop hmem)
    have hplaced := tokensPlaced_tokensFrom (line.take start) hdrop
      (by simpa only [take_append_drop, hlen] using hstart.2)
    rw [lexLine, hend]
    rwa [take_append_drop, hlen] at hplaced

/-- The string that the line before left open ends behind a doubled quote, and another one
stays open. -/
theorem lexLine_tokensPlaced_continued :
    '\n' ∉ "ж\"\"/\" + Й(\"//".toList ∧ TokensPlaced true "ж\"\"/\" + Й(\"//".toList
      ([⟨.operator, "+", 6⟩, ⟨.identifier, "Й", 8⟩, ⟨.leftParen, "(", 9⟩, ⟨.openString, "\"//", 10⟩],
        true) := by
  have hlexed : lexLine true "ж\"\"/\" + Й(\"//".toList = ([⟨.operator, "+", 6⟩,
      ⟨.identifier, "Й", 8⟩, ⟨.leftParen, "(", 9⟩, ⟨.openString, "\"//", 10⟩], true) := by
    decide +kernel
  refine ⟨by decide, ?_⟩
  rw [← hlexed]
  exact lexLine_tokensPlaced true (by decide)

end BslInsight
