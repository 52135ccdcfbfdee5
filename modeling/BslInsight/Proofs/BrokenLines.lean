import BslInsight.Proofs.ContinuedStrings
import BslInsight.Proofs.NameLists
import BslInsight.Proofs.RewordedLines

/-!
# Lines broken in two

A line may be broken in two between any two tokens without a change in the lists of names, unless
what the first half has begun goes on in the second: a list of variables, the head of a loop or an
assignment.  Nor may a name before `=` come to stand at the beginning of a line.
-/

namespace BslInsight

open List

variable {tokens before : List Token} {text first second line : List Char} {column number : Nat}
  {inString : Bool} {following others pre : List (List Char)} {visit : LineVisit}
  (pending : Pending)

/-! ## Tokens of two halves -/

abbrev TokenAction.SameNames : TokenAction → TokenAction → Prop :=
  TokenAction.Alike (fun _ _ => True) 0

lemma sameNames_refl (actions : List TokenAction) :
    Forall₂ TokenAction.SameNames actions actions := by
  refine forall₂_same.mpr fun action _ => ?_
  cases action with
  | declare token exported => exact .declare rfl exported
  | count token => exact .count rfl
  | assign target right => exact .assign rfl trivial
  | _ => exact .same rfl

def leadsWithAssignment : List Token → Bool
  | target :: rest => decide target.IsName && ScanState.nextIsAssign rest
  | [] => false

def leadsWithName : List Token → Bool
  | token :: _ => decide token.IsName
  | [] => false

namespace Pending

def after (pending : Pending) (tokens : List Token) : Pending :=
  tokens.foldl (fun pending token => (pending.read token []).2) pending

/-- The tokens mean something else after what is pending than at the beginning of
a line. -/
def resumes : Pending → List Token → Bool
  | .statement, _ => false
  | .inside, tokens => leadsWithAssignment tokens
  | .named _, tokens => ScanState.nextIsAssign tokens || leadsWithAssignment tokens
  | .variables, tokens =>
    leadsWithName (tokens.dropWhile (·.kind == .comma)) || leadsWithAssignment tokens
  | .variable _, tokens =>
    ScanState.nextIsExport tokens || leadsWithName (tokens.dropWhile (·.kind == .comma)) ||
      leadsWithAssignment tokens
  | .loop, tokens => leadsWithName (ScanState.afterEach tokens) || leadsWithAssignment tokens
  | .each otherwise, tokens => leadsWithName tokens || otherwise.resumes tokens
  | .comment, _ => true

lemma read_snd (token : Token) (rest others : List Token) :
    (pending.read token rest).2 = (pending.read token others).2 := by
  induction pending with
  | named target =>
    unfold read
    split <;> rfl
  | each otherwise ih =>
    unfold read
    split
    · rfl
    · exact ih
  | _ => rfl

lemma read_sameNames (token : Token) (rest others : List Token) :
    Forall₂ TokenAction.SameNames (pending.read token rest).1 (pending.read token others).1 := by
  induction pending with
  | named target =>
    unfold read
    split
    · exact .cons (.assign rfl trivial) .nil
    · exact sameNames_refl _
  | each otherwise ih =>
    unfold read
    split
    · exact sameNames_refl _
    · exact ih
  | _ => exact sameNames_refl _

lemma exists_actions_append (tokens later : List Token) :
    ∃ done, pending.actions tokens = done ++ (pending.after tokens).atEnd ∧
      Forall₂ TokenAction.SameNames (pending.actions (tokens ++ later))
        (done ++ (pending.after tokens).actions later) := by
  induction tokens generalizing pending with
  | nil => exact ⟨[], rfl, sameNames_refl _⟩
  | cons token rest ih =>
    obtain ⟨done, hend, hlater⟩ := ih (pending.read token []).2
    refine ⟨(pending.read token rest).1 ++ done, ?_, ?_⟩
    · rw [actions, pending.read_snd token rest [], hend, append_assoc]
      rfl
    · rw [cons_append, actions, pending.read_snd token (rest ++ later) [], append_assoc]
      exact rel_append (pending.read_sameNames token _ _) hlater

lemma actions_inside (htoks : leadsWithAssignment tokens = false) :
    Pending.inside.actions tokens = Pending.statement.actions tokens := by
  obtain _ | ⟨token, rest⟩ := tokens
  · rfl
  by_cases hname : token.IsName
  · have hword : Keyword.ofWord? token.text = none := by simpa [isKeyword] using hname.2
    have hasg : ScanState.nextIsAssign rest = false := by
      simpa [leadsWithAssignment, hname] using htoks
    simp [actions, read, readPlain, hname.1, hword, ScanState.actions_named, hasg]
  · have hsame : readPlain false token = readPlain true token := by
      unfold readPlain
      split
      next => rfl
      next => rfl
      next hkind =>
        split
        next => rfl
        next hword => exact absurd ⟨hkind, by simp [isKeyword, hword]⟩ hname
      next => rfl
    simp only [actions, read, hsame]

lemma actions_variables (htoks : leadsWithName (tokens.dropWhile (·.kind == .comma)) = false) :
    Pending.variables.actions tokens = Pending.inside.actions tokens := by
  induction tokens with
  | nil => rfl
  | cons token rest ih =>
    by_cases hcomma : token.kind = .comma
    · have hname : ¬token.IsName := by simp [Token.IsName, hcomma]
      have hrest := ih (by simpa [hcomma] using htoks)
      simp [actions, read, readVariable, readPlain, hname, hcomma, hrest]
    · have hname : ¬token.IsName := by simpa [hcomma, leadsWithName] using htoks
      simp [actions, read, readVariable, hname, hcomma]

lemma actions_of_not_resumes {pending : Pending} (hnot : pending.resumes tokens = false) :
    pending.actions tokens = pending.atEnd ++ Pending.statement.actions tokens := by
  induction pending with
  | statement => rfl
  | inside => exact actions_inside hnot
  | named target =>
    simp only [resumes, Bool.or_eq_false_iff] at hnot
    rw [ScanState.actions_named, hnot.1]
    exact actions_inside hnot.2
  | «variables» =>
    simp only [resumes, Bool.or_eq_false_iff] at hnot
    exact (actions_variables hnot.1).trans (actions_inside hnot.2)
  | «variable» first =>
    simp only [resumes, Bool.or_eq_false_iff] at hnot
    rw [ScanState.actions_variable, hnot.1.1, if_neg (by simp), actions_variables hnot.1.2,
      actions_inside hnot.2]
    rfl
  | loop =>
    simp only [resumes, Bool.or_eq_false_iff] at hnot
    refine Eq.trans ?_ (actions_inside hnot.2)
    rw [ScanState.actions_loop]
    rcases hafter : ScanState.afterEach tokens with _ | ⟨counter, rest⟩
    · rfl
    · have hname : ¬counter.IsName := by simpa [hafter, leadsWithName] using hnot.1
      exact if_neg hname
  | each otherwise ih =>
    simp only [resumes, Bool.or_eq_false_iff] at hnot
    refine Eq.trans ?_ (ih hnot.2)
    rw [ScanState.actions_each]
    rcases tokens with _ | ⟨counter, rest⟩
    · rfl
    · have hname : ¬counter.IsName := by simpa [leadsWithName] using hnot.1
      exact if_neg hname
  | comment => cases hnot

lemma actions_broken {later : List Token}
    (hnot : (Pending.statement.after tokens).resumes later = false) :
    Forall₂ TokenAction.SameNames (Pending.statement.actions (tokens ++ later))
      (Pending.statement.actions tokens ++ Pending.statement.actions later) := by
  obtain ⟨done, hend, hlater⟩ := Pending.statement.exists_actions_append tokens later
  rwa [actions_of_not_resumes hnot, ← append_assoc, ← hend] at hlater

end Pending

/-! ## Lexing two halves -/

/-- A dropped lexeme of more than one character is a run of separators, or a date that is
not closed. -/
lemma separators_of_dropped {c : Char} {body rest : List Char}
    (hlex : lexeme c (body ++ rest) = (none, body.length)) (hbody : body ≠ [])
    (hbreak : '\n' ∉ rest) : (∀ d ∈ c :: body, isSeparator d) ∨ rest = [] := by
  by_cases hsep : isSeparator c
  · have hrun : runLength isSeparator (body ++ rest) = body.length := by
      simpa [lexeme, hsep] using hlex
    exact .inl (forall_mem_cons.mpr ⟨hsep, (runLength_append_eq_iff.mp hrun).1⟩)
  by_cases hident : isIdentStart c
  · simp [lexeme_identifier hident] at hlex
  by_cases hdigit : isDecimalDigit c
  · simp [lexeme_number hdigit] at hlex
  have hlen : (none, 0) ≠ ((none : Option TokenKind), body.length) := by
    simpa [eq_comm] using hbody
  unfold lexeme at hlex
  simp only [hsep, hident, hdigit, if_false, Bool.false_eq_true] at hlex
  split at hlex
  case h_1 | h_2 =>
    split at hlex
    · cases hlex
    · exact absurd hlex hlen
  case h_3 => split at hlex <;> cases hlex
  case h_4 =>
    split at hlex
    next => cases hlex
    next hopen =>
      have hrun := (Prod.mk.inj hlex).2
      rw [hrun, getElem?_append_right (Nat.le_refl _), Nat.sub_self] at hopen
      cases rest with
      | nil => exact .inr rfl
      | cons d tail =>
        have hend := (runLength_append_eq_iff.mp hrun).2
        simp at hend hopen hbreak
        grind
  case h_21 => exact absurd hlex hlen
  all_goals first | cases hlex | (split at hlex <;> cases hlex)

lemma place_of_mem_tokensFrom {token : Token} (htoken : token ∈ tokensFrom column text) :
    column ≤ token.column ∧ 0 < token.text.length := by
  obtain ⟨before, c, body, rest, -, -, htext, hcol⟩ := exists_lexeme_of_mem_tokensFrom htoken
  refine ⟨by omega, ?_⟩
  rw [htext, String.length_ofList]
  exact Nat.succ_pos _

structure SplitsAt (place : Nat) (before after : List Token) : Prop where
  ends : ∀ token ∈ before, token.column + token.text.length ≤ place
  starts : ∀ token ∈ after, place ≤ token.column
  rest : after ≠ []

lemma SplitsAt.eq_nil {place : Nat} {after : List Token} (hsplits : SplitsAt place before after)
    (htoks : tokensFrom column text = before ++ after) (hplace : place ≤ column) :
    before = [] := by
  cases before with
  | nil => rfl
  | cons token more =>
    have hend := hsplits.ends token mem_cons_self
    have hmem : token ∈ tokensFrom column text := by simp [htoks]
    have hstart := place_of_mem_tokensFrom hmem
    omega

/-- A token that starts before the break stands before it as a whole. -/
lemma SplitsAt.exists_cons {place : Nat} {token : Token} {later after : List Token}
    (hsplits : SplitsAt place before after) (htoks : token :: later = before ++ after)
    (hstart : token.column < place) :
    token.column + token.text.length ≤ place ∧ ∃ more, before = token :: more := by
  cases before with
  | nil =>
    have hmem : token ∈ after := by
      rw [← nil_append after, ← htoks]
      exact mem_cons_self
    have hafter := hsplits.starts token hmem
    omega
  | cons found more =>
    obtain rfl := (List.cons.inj htoks).1
    exact ⟨hsplits.ends token mem_cons_self, more, rfl⟩

/-- A dropped lexeme may be broken, as its characters are dropped one by one. -/
lemma tokensFrom_halves_of_dropped {c : Char} {body more rest : List Char} {after : List Token}
    (hlex : lexeme c (body ++ more ++ rest) = (none, (body ++ more).length)) (hmore : more ≠ [])
    (hbreak : '\n' ∉ rest)
    (htoks : tokensFrom (column + (body ++ more).length + 1) rest = before ++ after)
    (hsplits : SplitsAt (column + (body.length + 1)) before after) :
    tokensFrom column (c :: body) = before ∧
      tokensFrom (column + (body.length + 1)) (more ++ rest) = after := by
  have hbody : body ++ more ≠ [] := append_ne_nil_of_right_ne_nil body hmore
  rcases separators_of_dropped hlex hbody hbreak with hseparators | rfl
  · have hfirst : ∀ d ∈ c :: body, isSeparator d :=
      fun d hd => hseparators d (mem_append_left more hd)
    have hsecond : ∀ d ∈ more, isSeparator d :=
      fun d hd => hseparators d (mem_append_right (c :: body) hd)
    have hempty := tokensFrom_separators hfirst [] column
    rw [append_nil, tokensFrom.eq_1] at hempty
    obtain rfl := hsplits.eq_nil htoks (by simp; omega)
    rw [hempty, tokensFrom_separators hsecond, ← nil_append after, ← htoks, length_append]
    refine ⟨rfl, ?_⟩
    congr 1
    omega
  · rw [tokensFrom] at htoks
    exact absurd (append_eq_nil_iff.mp htoks.symm).2 hsplits.rest

section

variable (hbreak : '\n' ∉ first ++ second)
include hbreak

lemma tokensFrom_halves {after : List Token}
    (htoks : tokensFrom column (first ++ second) = before ++ after)
    (hsplits : SplitsAt (column + first.length) before after) :
    tokensFrom column first = before ∧ tokensFrom (column + first.length) second = after := by
  generalize htext : first ++ second = text at hbreak htoks
  induction text using lexeme_induction generalizing column first before with
  | nil =>
    rw [tokensFrom] at htoks
    exact absurd (append_eq_nil_iff.mp htoks.symm).2 hsplits.rest
  | cons c body rest kind hlex ih =>
    obtain _ | ⟨d, first⟩ := first
    · -- The line is broken before this lexeme.
      obtain rfl : second = _ := htext
      obtain rfl := hsplits.eq_nil htoks (Nat.le_refl _)
      exact ⟨by rw [tokensFrom], htoks⟩
    simp only [cons_append, List.cons.injEq] at htext
    obtain ⟨rfl, htext⟩ := htext
    rw [tokensFrom_append hlex] at htoks
    simp only [length_cons] at hsplits ⊢
    have hkept {found : TokenKind} (hkind : kind = some found) :
        body.length ≤ first.length ∧ ∃ later,
          before = ⟨found, String.ofList (d :: body), column⟩ :: later := by
      subst hkind
      obtain ⟨hend, hfirst⟩ := hsplits.exists_cons htoks (by simp only; omega)
      simp only [String.length_ofList, length_cons] at hend
      exact ⟨by omega, hfirst⟩
    have hrest : '\n' ∉ rest := fun hmem => hbreak (mem_cons_of_mem _ (mem_append_right _ hmem))
    rcases Nat.lt_or_ge first.length body.length with hins | hbef
    · obtain rfl : kind = none := by
        cases kind with
        | none => rfl
        | some found =>
          have hlen := (hkept rfl).1
          omega
      obtain ⟨more, rfl⟩ : first <+: body :=
        prefix_of_prefix_length_le ⟨second, htext⟩ ⟨rest, rfl⟩ (by omega)
      obtain rfl : second = more ++ rest := by simpa using htext
      have hmore : more ≠ [] := by
        rintro rfl
        simp at hins
      exact tokensFrom_halves_of_dropped hlex hmore hrest htoks hsplits
    · obtain ⟨more, rfl⟩ : body <+: first :=
        prefix_of_prefix_length_le ⟨rest, htext.symm⟩ ⟨second, rfl⟩ hbef
      obtain rfl : rest = more ++ second := by simpa using htext.symm
      let token : List Token :=
        (kind.map fun kind => ⟨kind, String.ofList (d :: body), column⟩).toList
      obtain ⟨later, rfl⟩ : ∃ later, before = token ++ later := by
        cases kind with
        | none => exact ⟨before, rfl⟩
        | some found => exact (hkept rfl).2
      have hplace : column + ((body ++ more).length + 1) =
          column + body.length + 1 + more.length := by
        rw [length_append]
        omega
      rw [append_assoc, append_cancel_left_eq] at htoks
      rw [hplace] at hsplits ⊢
      have hsplits' : SplitsAt (column + body.length + 1 + more.length) later after :=
        { hsplits with ends := fun t ht => hsplits.ends t (mem_append_right _ ht) }
      obtain ⟨hfirst, hsnd⟩ := ih hsplits' rfl hrest htoks
      have hkeeps := lexeme_append_of_endsAlike (endsAlike_append more second) hlex
      exact ⟨by rw [tokensFrom_append hkeeps, hfirst], hsnd⟩

lemma any_openString_of_halves {after : List Token} (hrest : after ≠ [])
    (htoks : tokensFrom column (first ++ second) = tokensFrom column first ++ after) :
    (tokensFrom column first).any (·.kind == .openString) = false := by
  rw [mem_append, not_or] at hbreak
  rw [Bool.eq_false_iff]
  intro hopen
  obtain ⟨front, opening, hfirst, -, hkind, hjoined⟩ :=
    tokensFrom_append_of_open hbreak.1 hopen second
  rw [hjoined, hfirst, append_assoc, append_cancel_left_eq] at htoks
  obtain ⟨hsame, hafter⟩ := List.cons.inj htoks
  have hshut : (quotedTail second).1 = false := by
    rw [← hsame] at hkind
    simpa [Token.continued] using hkind
  rw [length_quotedTail_of_open hbreak.2 hshut, drop_length, tokensFrom] at hafter
  exact hrest hafter.symm

lemma lexed_halves {after : List Token}
    (htoks : tokensFrom column (first ++ second) = before ++ after)
    (hsplits : SplitsAt (column + first.length) before after) :
    tokensFrom column first = before ∧ before.any (·.kind == .openString) = false ∧
      after = (tokensFrom 0 second).map (Token.moved (column + first.length)) ∧
      (tokensFrom column (first ++ second)).any (·.kind == .openString) =
        (tokensFrom 0 second).any (·.kind == .openString) := by
  obtain ⟨rfl, rfl⟩ := tokensFrom_halves hbreak htoks hsplits
  have hopen := any_openString_of_halves hbreak hsplits.rest htoks
  have hmoved := tokensFrom_add second 0 (column + first.length)
  rw [Nat.zero_add] at hmoved
  refine ⟨rfl, hopen, hmoved, ?_⟩
  rw [htoks, any_append, hopen, Bool.false_or, hmoved, any_openString_moved]

lemma lexLine_halves {after : List Token}
    (htoks : (lexLine inString (first ++ second)).1 = before ++ after) (hbef : before ≠ [])
    (hsplits : SplitsAt first.length before after) :
    lexLine inString first = (before, false) ∧
      after = (lexLine false second).1.map (Token.moved first.length) ∧
      (lexLine inString (first ++ second)).2 = (lexLine false second).2 := by
  have hfresh (text : List Char) : lexLine false text =
      (tokensFrom 0 text, (tokensFrom 0 text).any (·.kind == .openString)) := rfl
  cases inString with
  | false =>
    rw [← Nat.zero_add first.length] at hsplits ⊢
    obtain ⟨hfirst, hopen, hafter, hstate⟩ := lexed_halves hbreak htoks hsplits
    exact ⟨by rw [hfresh, hfirst, hopen], hafter, hstate⟩
  | true =>
    rw [lexLine_true hbreak] at htoks ⊢
    generalize hlen : (quotedTail (first ++ second)).2 = length at htoks ⊢
    simp only at htoks ⊢
    -- The string ends before the tokens of the first half.
    obtain ⟨token, htoken⟩ := exists_mem_of_ne_nil before hbef
    have hplace : length < first.length := by
      have hmem : token ∈ tokensFrom length ((first ++ second).drop length) := by
        rw [htoks]
        exact mem_append_left _ htoken
      have hstart := place_of_mem_tokensFrom hmem
      have hend := hsplits.ends token htoken
      omega
    have hshut : (quotedTail (first ++ second)).1 := by
      rw [← Bool.not_eq_false]
      intro hopen
      have hwhole := length_quotedTail_of_open hbreak hopen
      rw [hlen, length_append] at hwhole
      omega
    obtain ⟨body, more, rfl, rfl⟩ : ∃ body more, first = body ++ more ∧ length = body.length :=
      ⟨first.take length, first.drop length, (take_append_drop _ _).symm,
        (length_take_of_le (Nat.le_of_lt hplace)).symm⟩
    rw [append_assoc] at hshut hlen htoks ⊢
    obtain ⟨hhead, hends⟩ := quotedTail_append (Prod.ext hshut hlen)
    have hfirst := hends more (by cases more with | nil => rfl | cons => exact hhead)
    rw [drop_left] at htoks ⊢
    rw [length_append] at hsplits ⊢
    simp only [mem_append, not_or] at hbreak
    obtain ⟨hkept, hopen, hafter, hstate⟩ := lexed_halves (by simp [hbreak]) htoks hsplits
    refine ⟨?_, hafter, ?_⟩
    · rw [lexLine_true (by simp [hbreak]), hfirst]
      simp [hkept, hopen]
    · rw [hshut, hstate]
      rfl

end

lemma tokensFrom_blanks {blanks : List Char} (hblks : ∀ c ∈ blanks, isBlank c) (rest : List Char)
    (column : Nat) :
    tokensFrom column (blanks ++ rest) = tokensFrom (column + blanks.length) rest := by
  induction blanks generalizing column with
  | nil => rfl
  | cons c blanks ih =>
    obtain ⟨hc, hblks⟩ := forall_mem_cons.mp hblks
    have hone : tokensFrom column (c :: (blanks ++ rest)) =
        tokensFrom (column + 1) (blanks ++ rest) := by
      by_cases hsep : isSeparator c
      · exact tokensFrom_separator hsep _ _
      · have hlex : lexeme c ([] ++ (blanks ++ rest)) = (none, 0) := by
          rw [lexeme_blank hc, if_neg hsep]
        exact tokensFrom_append hlex column
    rw [cons_append, hone, ih hblks, length_cons]
    congr 1
    omega

/-- The word that ends a method is the first token of its line, so that it stays in the
first half. -/
lemma isMethodBoundary_of_halves (hhdr : Header.ofLine? (first ++ second) = none)
    (hbdry : isMethodBoundary (first ++ second)) {after : List Token}
    (htoks : tokensFrom 0 (first ++ second) = before ++ after) (hbef : before ≠ [])
    (hsplits : SplitsAt first.length before after) : isMethodBoundary first := by
  rw [isMethodBoundary, hhdr, Option.isSome_none, Bool.false_or] at hbdry
  obtain ⟨word, rest, hword, htext, hend, hkw⟩ := isSome_terminatorKind?_iff.mp hbdry
  obtain ⟨hne, hlets⟩ := isLetter_of_isWordOf spelled_terminatorWords hword
  have hline : (first ++ second).takeWhile isBlank ++ (word ++ rest) = first ++ second := by
    rw [← htext]
    exact takeWhile_append_dropWhile
  have hblks : ∀ c ∈ (first ++ second).takeWhile isBlank, isBlank c :=
    fun c hc => mem_takeWhile_imp hc
  generalize (first ++ second).takeWhile isBlank = blanks at hline hblks
  have hplace : (blanks ++ word).length ≤ first.length := by
    obtain _ | ⟨c, letters⟩ := word
    · cases hne rfl
    have hlex := lexeme_word hlets (not_isIdentPart_of_wordEnd hend)
    rw [← hline, cons_append, tokensFrom_blanks hblks, tokensFrom_append hlex] at htoks
    obtain _ | ⟨token, more⟩ := before
    · cases hbef rfl
    obtain rfl := (List.cons.inj htoks).1
    have hend := hsplits.ends _ mem_cons_self
    simpa [Nat.add_comm] using hend
  obtain ⟨more, rfl⟩ : blanks ++ word <+: first :=
    prefix_of_prefix_length_le ⟨rest, by rw [append_assoc, hline]⟩ ⟨second, rfl⟩ hplace
  obtain rfl : rest = more ++ second := by simpa using hline
  have htrim : trimStart (blanks ++ word ++ more) = word ++ more := by
    rw [append_assoc, trimStart_append_of_blank hblks]
    obtain _ | ⟨c, letters⟩ := word
    · cases hne rfl
    · exact trimStart_of_head (not_isBlank_of_isIdentStart
        (isIdentStart_of_isLetter (hlets c mem_cons_self)))
  rw [isMethodBoundary, Bool.or_eq_true]
  refine .inr (isSome_terminatorKind?_iff.mpr ⟨word, more, hword, htrim, ?_, hkw⟩)
  cases more with
  | nil => rfl
  | cons => exact hend

/-! ## Visits before the line -/

lemma ParamList.read_exchange (hnext : (ParamList.read first following).closed = false →
      others.head?.all isMethodBoundary) :
    ParamList.read first (following.take (ParamList.read first following).extraLines ++ others) =
      ParamList.read first following := by
  cases hscan : scanParamList 1 false first with
  | closed length => rw [read_of_closed hscan, read_of_closed hscan]
  | «open» depth inQuote =>
    rw [read_of_open hscan] at hnext ⊢
    rw [read_of_open hscan]
    simp only [continued_exchange hnext]

/-- A visit does not depend on the lines behind its parameter list, as long as a list that is
not closed still ends there. -/
lemma LineVisit.paramList?_exchange {rest : List (List Char)}
    (hfoll : visit.following = pre ++ rest) (hextra : visit.extraLines ≤ pre.length)
    (hnext : pre.length = visit.extraLines → visit.lexed.2 = false →
      rest.head?.all isMethodBoundary → others.head?.all isMethodBoundary) :
    { visit with following := pre ++ others }.paramList? = visit.paramList? := by
  unfold paramList?
  cases hhdr : visit.header? with
  | none =>
    have hoth : { visit with following := pre ++ others }.header? = none := hhdr
    rw [hoth]
    rfl
  | some header =>
    have hoth : { visit with following := pre ++ others }.header? = some header := hhdr
    rw [hoth, Option.map_some, Option.map_some, hfoll]
    refine congrArg some ?_
    rw [extraLines_of_header hhdr, hfoll] at hextra hnext
    rw [lexed_of_header hhdr, hfoll] at hnext
    simp only
    generalize hread : ParamList.read (visit.line.drop header.paramsStart) (pre ++ rest) = list at *
    have hsplit : pre ++ others =
        (pre ++ rest).take list.extraLines ++ (pre.drop list.extraLines ++ others) := by
      rw [take_append_of_le_length hextra, ← append_assoc, take_append_drop]
    rw [hsplit, ← hread]
    refine ParamList.read_exchange fun hshut => ?_
    obtain ⟨htail, hbdry⟩ := ParamList.next_of_not_closed hshut
    rw [hread] at htail hbdry ⊢
    rw [drop_append_of_le_length hextra] at hbdry
    cases hdrop : pre.drop list.extraLines with
    | nil =>
      rw [hdrop] at hbdry
      refine hnext (Nat.le_antisymm (drop_eq_nil_iff.mp hdrop) hextra) ?_ hbdry
      rw [htail]
      exact lexLine_of_no_quote nofun
    | cons next more =>
      rw [hdrop] at hbdry
      exact hbdry

lemma LineVisit.reading_eq_of_paramList?
    (hlist : { visit with following }.paramList? = visit.paramList?) :
    { visit with following }.reading = visit.reading ∧
      { visit with following }.lexed = visit.lexed ∧
      { visit with following }.extraLines = visit.extraLines := by
  have hlexed : { visit with following }.lexed = visit.lexed := by
    simp only [lexed, hlist]
  refine ⟨?_, hlexed, by simp only [extraLines, hlist]⟩
  have hhdr : { visit with following }.header? = visit.header? := rfl
  unfold reading
  rw [hlexed, hhdr]
  rw [paramList?, paramList?, hhdr] at hlist
  cases hfound : visit.header? with
  | none => rfl
  | some header =>
    rw [hfound, Option.map_some, Option.map_some, Option.some.injEq] at hlist
    rw [Option.map_some, Option.map_some, hlist]

lemma map_reading_visits (inString : Bool) (number other : Nat) (lines : List (List Char)) :
    (visits inString number lines).map LineVisit.reading =
      (visits inString other lines).map LineVisit.reading := by
  fun_induction visits inString number lines generalizing other with
  | case1 => rw [visits]
  | case2 inString number line rest visit ih =>
    rw [visits, map_cons, map_cons, ih]
    rfl

lemma inString_of_first {lines : List (List Char)} (hvisit : visit ∈ visits inString number lines)
    (hnum : visit.number = number) : visit.inString = inString := by
  cases lines with
  | nil =>
    rw [visits] at hvisit
    cases hvisit
  | cons line rest =>
    rw [visits] at hvisit
    rcases mem_cons.mp hvisit with rfl | hlater
    · rfl
    · have hle := (drop_of_mem_visits hlater).1
      omega

lemma exists_readings {post : List (List Char)}
    (hvisit : visit ∈ visits inString number (pre ++ line :: post))
    (hnum : visit.number = number + pre.length) :
    ∃ readings, ∀ others : List (List Char), (visit.inString = false → isMethodBoundary line →
        others.head?.all isMethodBoundary) →
      (visits inString number (pre ++ others)).map LineVisit.reading =
        readings ++ (visits visit.inString visit.number others).map LineVisit.reading := by
  induction hlen : pre.length using Nat.strong_induction_on generalizing pre inString number with
  | _ n ih =>
    cases pre with
    | nil =>
      rw [inString_of_first hvisit hnum, hnum]
      exact ⟨[], fun others _ => rfl⟩
    | cons first pre =>
      rw [cons_append, visits] at hvisit
      generalize hfirst : LineVisit.mk number inString first (pre ++ line :: post) = head at hvisit
      rw [length_cons] at hnum hlen
      rcases mem_cons.mp hvisit with rfl | hlater
      · subst hfirst
        simp at hnum
      · have hle := (drop_of_mem_visits hlater).1
        have hextra : head.extraLines ≤ pre.length := by omega
        rw [drop_append_of_le_length hextra] at hlater
        obtain ⟨readings, hreadings⟩ := ih _ (by rw [length_drop]; omega) hlater
          (by rw [length_drop]; omega) rfl
        refine ⟨head.reading :: readings, fun others hoths => ?_⟩
        have hlist : { head with following := pre ++ others }.paramList? = head.paramList? := by
          refine LineVisit.paramList?_exchange (by rw [← hfirst]) hextra ?_
          intro hend hstr hbdry
          have hsame := inString_of_first hlater (by omega)
          exact hoths (hsame.trans hstr) hbdry
        obtain ⟨hreading, hlexed, hsame⟩ := LineVisit.reading_eq_of_paramList? hlist
        subst hfirst
        rw [cons_append, visits, map_cons, hreading, hlexed, hsame,
          drop_append_of_le_length hextra, hreadings others hoths]
        rfl

/-! ## Breaking a line -/

/-- The tokens of the line are read if no string is open before it. -/
def IsStatementLine (line : List Char) : Prop :=
  passesOver line = false ∧ Header.ofLine? line = none

instance (line : List Char) : Decidable (IsStatementLine line) :=
  inferInstanceAs (Decidable (_ ∧ _))

lemma map_reading_statement (hline : inString = false → IsStatementLine line) (number : Nat)
    (rest : List (List Char)) :
    (visits inString number (line :: rest)).map LineVisit.reading =
      (none, (lexLine inString line).1) ::
        (visits (lexLine inString line).2 (number + 1) rest).map LineVisit.reading := by
  rw [visits]
  generalize hvisit : LineVisit.mk number inString line rest = visit
  have hhdr : visit.header? = none := by
    subst hvisit
    cases inString with
    | true => rfl
    | false => exact (hline rfl).2
  have hlexed : visit.lexed = lexLine inString line := by
    rw [LineVisit.lexed_of_no_header hhdr]
    subst hvisit
    refine if_neg ?_
    rintro ⟨hstr, hpasses⟩
    exact absurd (hpasses : passesOver line) (by simp [(hline hstr).1])
  rw [map_cons, LineVisit.reading, hhdr, hlexed, LineVisit.extraLines_of_no_header hhdr]
  rfl

/-- A line of a module that is to be broken in two, between tokens. -/
structure LineBreak where
  pre : List (List Char) := []
  inString : Bool := false
  first : List Char
  second : List Char
  post : List (List Char) := []
  before : List Token
  after : List Token

/-- The one text becomes the other by a break in a line that is visited and of which the
tokens are read.  The halves are lines of which the tokens are read, too. -/
structure LineBreak.Breaks (place : LineBreak) (text other : String) : Prop where
  whole : moduleLines text = place.pre ++ (place.first ++ place.second) :: place.post
  broken : moduleLines other = place.pre ++ place.first :: place.second :: place.post
  visited : ⟨place.pre.length, place.inString, place.first ++ place.second, place.post⟩ ∈
    moduleVisits text
  tokens : (lexLine place.inString (place.first ++ place.second)).1 = place.before ++ place.after
  begins : place.before ≠ []
  splits : SplitsAt place.first.length place.before place.after
  statement : place.inString = false → IsStatementLine (place.first ++ place.second)
  firstHalf : place.inString = false → IsStatementLine place.first
  secondHalf : IsStatementLine place.second

lemma membersAlike_moved (offset : Nat) (tokens : List Token) :
    MembersAlike (fun _ _ => True) 0 false (tokens.map (Token.moved offset)) tokens := by
  induction tokens with
  | nil => exact .nil _
  | cons token rest ih =>
    have hnone : false → (token.moved offset).kind = .dot ∧
        Keyword.ofWord? (token.moved offset).text = none := nofun
    exact .cons (Token.alike_of_text rfl rfl) (fun _ _ _ => trivial) hnone ih

/-- The two halves add the names of the line, unless the second goes on with what the first
has begun. -/
lemma NamesRead.follow_halves {offset : Nat}
    (hnot : (Pending.statement.after before).resumes (tokens.map (Token.moved offset)) = false)
    (read : NamesRead) :
    read.follow (none, before ++ tokens.map (Token.moved offset)) =
      (read.follow (none, before)).follow (none, tokens) := by
  have hstatement : Pending.Alike (fun _ _ => True) 0 (tokens.map (Token.moved offset)) tokens
      .statement .statement := .same rfl
  have hmoved := (membersAlike_moved offset tokens).actions_alike hstatement nofun
  simp only [follow]
  rw [foldl_perform_eq_of_alike (Pending.actions_broken hnot), foldl_append,
    foldl_perform_eq_of_alike hmoved]

theorem names_parseModule_of_breaks
    {place : LineBreak} {text other : String} (hbreaks : place.Breaks text other)
    (hnot : (Pending.statement.after place.before).resumes place.after = false)
    (file : Path) (dialect : Dialect) :
    (parseModule file dialect text).names = (parseModule file dialect other).names := by
  have hbreak : '\n' ∉ place.first ++ place.second := by
    intro hmem
    have hline : place.first ++ place.second ∈ moduleLines text := by simp [hbreaks.whole]
    exact break_not_mem_moduleLines hline hmem
  obtain ⟨hfirst, hafter, hstate⟩ :=
    lexLine_halves hbreak hbreaks.tokens hbreaks.begins hbreaks.splits
  have hvisited := hbreaks.visited
  rw [moduleVisits, hbreaks.whole] at hvisited
  obtain ⟨readings, hreadings⟩ := exists_readings hvisited (Nat.zero_add _).symm
  have hwhole :=
    hreadings ((place.first ++ place.second) :: place.post) fun _ hboundary => hboundary
  have hhalves := hreadings (place.first :: place.second :: place.post) fun hstring hboundary => by
    have htokens := hbreaks.tokens
    simp only at hstring
    rw [hstring] at htokens
    exact isMethodBoundary_of_halves (hbreaks.statement hstring).2 hboundary htokens
      hbreaks.begins hbreaks.splits
  rw [map_reading_statement hbreaks.statement, hbreaks.tokens, hstate, hafter] at hwhole
  rw [map_reading_statement hbreaks.firstHalf, hfirst,
    map_reading_statement fun _ => hbreaks.secondHalf,
    map_reading_visits _ _ (place.pre.length + 1) place.post] at hhalves
  rw [hafter] at hnot
  rw [names_parseModule, names_parseModule, moduleVisits, moduleVisits, hbreaks.whole,
    hbreaks.broken, hwhole, hhalves]
  simp only [foldl_append, foldl_cons, NamesRead.follow_halves hnot]

lemma LineBreak.breaks_of_line {text other : String} {after : List Token}
    (hwhole : moduleLines text = [first ++ second]) (hbroken : moduleLines other = [first, second])
    (htoks : (lexLine false (first ++ second)).1 = before ++ after) (hbeg : before ≠ [])
    (hsplits : SplitsAt first.length before after)
    (hlines : ∀ line ∈ [first ++ second, first, second], IsStatementLine line) :
    LineBreak.Breaks { first, second, before, after } text other where
  whole := hwhole
  broken := hbroken
  visited := by
    rw [moduleVisits, hwhole, visits]
    exact mem_cons_self
  tokens := htoks
  begins := hbeg
  splits := hsplits
  statement := fun _ => hlines _ (by simp)
  firstHalf := fun _ => hlines _ (by simp)
  secondHalf := hlines _ (by simp)

theorem names_parseModule_declarations :
    let place : LineBreak :=
      { first := "Перем А;".toList, second := "Перем Б;".toList
        before := (lexLine false "Перем А;".toList).1
        after := (lexLine false "Перем А;Перем Б;".toList).1.drop 3 }
    let text := "Перем А;Перем Б;"
    let other := "Перем А;\nПерем Б;"
    place.Breaks text other ∧ (parseModule (Path.ofText "m.bsl") .bsl text).names =
        (parseModule (Path.ofText "m.bsl") .bsl other).names ∧
      (parseModule (Path.ofText "m.bsl") .bsl other).names.moduleVariables = ["А", "Б"] := by
  intro place text other
  have hbreaks : place.Breaks text other :=
    LineBreak.breaks_of_line (by decide +kernel) (by decide +kernel) (by decide +kernel)
      (by decide +kernel) ⟨by decide +kernel, by decide +kernel, by decide +kernel⟩
      (by decide +kernel)
  exact ⟨hbreaks, names_parseModule_of_breaks hbreaks (by decide +kernel) _ _, by decide +kernel⟩

theorem names_parseModule_variable_list :
    let place : LineBreak :=
      { first := "Перем А,".toList, second := "Б;".toList
        before := (lexLine false "Перем А,".toList).1
        after := (lexLine false "Перем А,Б;".toList).1.drop 3 }
    let text := "Перем А,Б;"
    let other := "Перем А,\nБ;"
    place.Breaks text other ∧
      (parseModule (Path.ofText "m.bsl") .bsl text).names.moduleVariables = ["А", "Б"] ∧
      (parseModule (Path.ofText "m.bsl") .bsl other).names.moduleVariables = ["А"] := by
  intro place text other
  refine ⟨?_, by decide +kernel, by decide +kernel⟩
  exact LineBreak.breaks_of_line (by decide +kernel) (by decide +kernel) (by decide +kernel)
    (by decide +kernel) ⟨by decide +kernel, by decide +kernel, by decide +kernel⟩
    (by decide +kernel)

end BslInsight
