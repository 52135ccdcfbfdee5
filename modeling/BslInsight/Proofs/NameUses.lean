import BslInsight.References
import BslInsight.Proofs.Lexemes
import BslInsight.Proofs.TextPieces

/-!
# Uses of names

The uses of a name are the identifiers with the same lower-case form.  The text is looked at only
if its lower-case form mentions the name.  A capital sigma is lowered in two ways, so a text may
hold uses of a name and not mention it; then they are all left out.
-/

namespace BslInsight

open List

variable {tokens : List Token} {range : Option (Nat × Nat)} {file : Path} {inString : Bool}
  {lines : List (List Char)} {location : FileLocation} {text : String}
  {line before after word : List Char}

/-! ## What the uses are -/

def lexedLines (inString : Bool) : List (List Char) → List (List Token)
  | [] => []
  | line :: rest => (lexLine inString line).1 :: lexedLines (lexLine inString line).2 rest

def Token.names (token : Token) (names : List String) : Prop :=
  token.kind = .identifier ∧ ∃ name ∈ names, lower token.text = lower name

def StandsAt (names : List String) (lines : List (List Token)) (line column : Nat) : Prop :=
  ∃ tokens, lines[line]? = some tokens ∧ ∃ token ∈ tokens, token.names names ∧ token.column = column

def InRange (range : Option (Nat × Nat)) (line : Nat) : Prop :=
  ∀ bounds, range = some bounds → bounds.1 ≤ line ∧ line ≤ bounds.2

/-- One of the names stands at a place of the text, on a line of the range. -/
def IsUse (file : Path) (text : String) (names : List String) (range : Option (Nat × Nat))
    (location : FileLocation) : Prop :=
  location.file = file ∧ InRange range location.line ∧
    StandsAt names (lexedLines false (splitLines text.toList)) location.line location.column

def FileLocation.Before (location other : FileLocation) : Prop :=
  location.line < other.line ∨ location.line = other.line ∧ location.column < other.column

/-- All uses of the names are found, each once, in the order of the text. -/
structure ListsUses (file : Path) (text : String) (names : List String)
    (range : Option (Nat × Nat)) (found : List FileLocation) : Prop where
  ordered : found.Pairwise FileLocation.Before
  mem_iff : ∀ location, location ∈ found ↔ IsUse file text names range location

/-! ## Tokens in the order of their columns -/

lemma tokensFrom_pairwise_column (column : Nat) (text : List Char) :
    (tokensFrom column text).Pairwise fun token later => token.column < later.column := by
  refine (tokensFrom_ordered text column).imp_of_mem fun htoken _ hle => ?_
  obtain ⟨-, c, body, -, -, -, htext, -⟩ := exists_lexeme_of_mem_tokensFrom htoken
  rw [htext, String.length_ofList, length_cons] at hle
  omega

lemma lexLine_pairwise_column (inString : Bool) (line : List Char) :
    (lexLine inString line).1.Pairwise fun token later => token.column < later.column := by
  unfold lexLine
  split
  · exact .nil
  · exact tokensFrom_pairwise_column _ _

lemma columnsOf_pairwise (names : List String)
    (htoks : tokens.Pairwise fun token later => token.column < later.column) :
    (columnsOf names tokens).Pairwise (· < ·) :=
  pairwise_map.mpr (htoks.filter _)

lemma mem_columnsOf_iff {names : List String} {column : Nat} : column ∈ columnsOf names tokens ↔
      ∃ token ∈ tokens, token.names names ∧ token.column = column := by
  have hnames (token : Token) : (token.kind == .identifier &&
      names.any (sameName · token.text)) ↔ token.names names := by
    simp only [Token.names, sameName, Bool.and_eq_true, beq_iff_eq, any_eq_true,
      eq_comm (a := lower token.text)]
  simp only [columnsOf, mem_map, mem_filter, hnames, and_assoc]

/-! ## The search without looking ahead -/

lemma inRange_iff {line : Nat} :
    (range.all fun (first, last) => first ≤ line && line ≤ last) ↔ InRange range line := by
  unfold InRange
  cases range <;> simp

lemma mem_identifiersFrom_iff {names : List String} {number : Nat} :
    location ∈ identifiersFrom file names range number inString lines ↔
      location.file = file ∧ InRange range location.line ∧ ∃ index, location.line = number + index ∧
          StandsAt names (lexedLines inString lines) index location.column := by
  induction lines generalizing number inString with
  | nil => simp [identifiersFrom, lexedLines, StandsAt]
  | cons line rest ih =>
    rw [identifiersFrom, mem_append, ih]
    constructor
    · rintro (hhere | ⟨hfile, hrange, index, hline, hstands⟩)
      · split at hhere
        next hrange =>
          obtain ⟨column, hcol, rfl⟩ := mem_map.mp hhere
          exact ⟨rfl, inRange_iff.mp hrange, 0, rfl, _, rfl, mem_columnsOf_iff.mp hcol⟩
        next => cases hhere
      · exact ⟨hfile, hrange, index + 1, by omega, hstands⟩
    · rintro ⟨rfl, hrange, index, hline, tokens, htoks, hstands⟩
      cases index with
      | zero =>
        obtain rfl := Option.some.inj htoks
        rw [hline, Nat.add_zero] at hrange
        refine .inl ?_
        rw [if_pos (inRange_iff.mpr hrange)]
        refine mem_map.mpr ⟨location.column, mem_columnsOf_iff.mpr hstands, ?_⟩
        rw [← Nat.add_zero number, ← hline]
      | succ index => exact .inr ⟨rfl, hrange, index, by omega, tokens, htoks, hstands⟩

lemma identifiersFrom_ordered
    (file : Path) (names : List String) (range : Option (Nat × Nat)) (number : Nat)
    (inString : Bool) (lines : List (List Char)) :
    (identifiersFrom file names range number inString lines).Pairwise FileLocation.Before := by
  induction lines generalizing number inString with
  | nil => exact .nil
  | cons line rest ih =>
    have hcolumns := columnsOf_pairwise names (lexLine_pairwise_column inString line)
    rw [identifiersFrom]
    refine pairwise_append.mpr ⟨?_, ih _ _, ?_⟩
    · split
      · exact pairwise_map.mpr (hcolumns.imp fun hless => .inr ⟨rfl, hless⟩)
      · exact .nil
    · -- Whatever is found on later lines stands after this line.
      intro location hhere later hlater
      obtain ⟨-, -, index, hline, -⟩ := mem_identifiersFrom_iff.mp hlater
      split at hhere
      · obtain ⟨column, -, rfl⟩ := mem_map.mp hhere
        exact .inl (by rw [hline]; simp only; omega)
      · cases hhere

lemma identifiersFrom_listsUses
    (file : Path) (text : String) (names : List String) (range : Option (Nat × Nat)) :
    ListsUses file text names range
      (identifiersFrom file names range 0 false (splitLines text.toList)) where
  ordered := identifiersFrom_ordered _ _ _ _ _ _
  mem_iff := by
    intro location
    rw [mem_identifiersFrom_iff, IsUse]
    simp

/-! ## Uses as parts of the text -/

lemma infix_joinWith {α : Type} (separator : List α) {pieces : List (List α)} {piece : List α}
    (hpiece : piece ∈ pieces) : piece <:+: joinWith separator pieces := by
  induction pieces with
  | nil => cases hpiece
  | cons first rest ih =>
    by_cases hnil : rest = []
    · subst hnil
      rw [mem_singleton.mp hpiece]
      exact infix_rfl
    · rw [joinWith_cons _ _ hnil]
      rcases mem_cons.mp hpiece with rfl | hlater
      · rw [append_assoc]
        exact (prefix_append _ _).isInfix
      · exact (ih hlater).trans (suffix_append _ _).isInfix

lemma infix_of_mem_splitLines {text : List Char} (hline : line ∈ splitLines text) :
    line <:+: text := by
  obtain ⟨piece, hpiece, rfl⟩ := mem_map.mp hline
  have hpcs := infix_joinWith ['\n'] hpiece
  rw [joinWith_splitOn] at hpcs
  refine IsInfix.trans ?_ hpcs
  unfold dropReturn
  split
  · exact ( dropLast_prefix piece).isInfix
  · exact infix_rfl

lemma infix_of_mem_lexLine {token : Token} (htoken : token ∈ (lexLine inString line).1) :
    token.text.toList <:+: line := by
  unfold lexLine at htoken
  split at htoken
  · cases htoken
  · next start _ =>
    obtain ⟨before, c, body, rest, htext, -, hword, -⟩ := exists_lexeme_of_mem_tokensFrom htoken
    have hdrop : token.text.toList <:+: line.drop start := by
      rw [htext, hword, String.toList_ofList]
      exact ⟨before, rest, by simp⟩
    exact hdrop.trans (drop_suffix start line).isInfix

lemma exists_line_of_lexedLines {index : Nat}
    (htoks : (lexedLines inString lines)[index]? = some tokens) :
    ∃ line ∈ lines, ∃ inString, tokens = (lexLine inString line).1 := by
  induction lines generalizing inString index with
  | nil => simp [lexedLines] at htoks
  | cons line rest ih =>
    cases index with
    | zero => exact ⟨line, mem_cons_self, inString, (Option.some.inj htoks).symm⟩
    | succ index =>
      obtain ⟨other, hoth, hlexed⟩ := ih htoks
      exact ⟨other, mem_cons_of_mem _ hoth, hlexed⟩

lemma IsUse.exists_word {names : List String} (huse : IsUse file text names range location) :
    ∃ before word after, text.toList = before ++ word ++ after ∧
      ∃ name ∈ names, lower (String.ofList word) = lower name := by
  obtain ⟨-, -, tokens, htoks, token, htoken, ⟨-, hname⟩, -⟩ := huse
  obtain ⟨line, hline, inString, rfl⟩ := exists_line_of_lexedLines htoks
  obtain ⟨before, after, hsplit⟩ :=
    (infix_of_mem_lexLine htoken).trans (infix_of_mem_splitLines hline)
  exact ⟨before, token.text.toList, after, hsplit.symm, by rwa [String.ofList_toList]⟩

/-! ## Lower case in context -/

/-- The lower-case form of a word between `before`, which is given in reverse, and `after`. -/
def lowerBetween (before after : List Char) : List Char → List Char
  | [] => []
  | c :: rest =>
    (if c = 'Σ' then [if facesCased before && !facesCased (rest ++ after) then 'ς' else 'σ']
      else lowerChar c) ++ lowerBetween (c :: before) after rest

lemma lowerAfter_append (before word after : List Char) : lowerAfter before (word ++ after) =
      lowerBetween before after word ++ lowerAfter (word.reverse ++ before) after := by
  induction word generalizing before with
  | nil => rfl
  | cons c rest ih =>
    rw [cons_append, lowerAfter, lowerBetween, ih]
    simp

/-- Whether a capital sigma between two texts is lowered as at the end of a word.  The text
before it is given in reverse. -/
def isFinalSigma (before after : List Char) : Bool := facesCased before && !facesCased after

/-- The word has a capital sigma that is final in the word and not where the word stands, or
the other way round. -/
def SigmaChanges (before word after : List Char) : Prop :=
  ∃ front back, word = front ++ 'Σ' :: back ∧
    isFinalSigma (front.reverse ++ before.reverse) (back ++ after) ≠ isFinalSigma front.reverse back

lemma lowerBetween_eq {front : List Char} (hsame : ¬∃ first second, word = first ++ 'Σ' :: second ∧
      isFinalSigma (first.reverse ++ (front ++ before)) (second ++ after) ≠
        isFinalSigma (first.reverse ++ front) second) :
    lowerBetween (front ++ before) after word = lowerAfter front word := by
  induction word generalizing front with
  | nil => rfl
  | cons c rest ih =>
    have hrest : lowerBetween (c :: front ++ before) after rest = lowerAfter (c :: front) rest := by
      refine ih fun ⟨first, second, hword, hdiff⟩ => hsame ⟨c :: first, second, ?_, ?_⟩
      · rw [hword, cons_append]
      · simpa using hdiff
    rw [lowerBetween, lowerAfter, ← hrest]
    by_cases hsigma : c = 'Σ'
    · subst hsigma
      have hfinal : isFinalSigma (front ++ before) (rest ++ after) = isFinalSigma front rest := by
        by_contra hdiff
        exact hsame ⟨[], rest, rfl, hdiff⟩
      unfold isFinalSigma at hfinal
      rw [if_pos rfl, if_pos rfl, hfinal]
      rfl
    · rw [if_neg hsigma, if_neg hsigma]
      rfl

lemma infix_lower_of_not_sigmaChanges (htext : text.toList = before ++ word ++ after)
    (hsame : ¬SigmaChanges before word after) :
    (lower (String.ofList word)).toList <:+: (lower text).toList := by
  have hbetween : lowerBetween before.reverse after word = lowerAfter [] word := by
    have hlowered := @lowerBetween_eq before.reverse after word []
    rw [nil_append] at hlowered
    exact hlowered (by simpa only [SigmaChanges, append_nil] using hsame)
  simp only [lower, lowerChars, String.toList_ofList, htext]
  rw [append_assoc, lowerAfter_append, lowerAfter_append, append_nil, hbetween]
  exact ⟨_, _, (append_assoc _ _ _)⟩

/-! ## Looking ahead -/

lemma mentionsName_iff {names : List String} : mentionsName names text ↔
      ∃ name ∈ names, (lower name).toList <:+: (lower text).toList := by
  simp only [mentionsName, occursIn, any_eq_true, hasInfix_iff]

lemma sigmaChanges_of_not_mentionsName {names : List String}
    (hment : mentionsName names text = false) (htext : text.toList = before ++ word ++ after)
    (hname : ∃ name ∈ names, lower (String.ofList word) = lower name) :
    SigmaChanges before word after := by
  by_contra hsame
  obtain ⟨name, hmem, hlower⟩ := hname
  have hinfix := infix_lower_of_not_sigmaChanges htext hsame
  rw [hlower] at hinfix
  rw [mentionsName_iff.mpr ⟨name, hmem, hinfix⟩] at hment
  cases hment

/-- All uses are found if the lower-case text mentions a name, or if there is no use at all.
Otherwise nothing is found, and every part of the text that is one of the names has a
capital sigma that is lowered differently where it stands. -/
theorem scanIdentifiers_listsUses_iff
    (file : Path) (text : String) (names : List String) (range : Option (Nat × Nat)) :
    let found := scanIdentifiers file text names range
    (ListsUses file text names range found ↔
      (∃ name ∈ names, (lower name).toList <:+: (lower text).toList) ∨
        ∀ location, ¬IsUse file text names range location) ∧
      (¬ListsUses file text names range found → found = [] ∧ 'Σ' ∈ text.toList ∧
          ∀ before word after, text.toList = before ++ word ++ after →
            (∃ name ∈ names, lower (String.ofList word) = lower name) →
              SigmaChanges before word after) := by
  intro found
  have hall := identifiersFrom_listsUses file text names range
  cases hmentions : mentionsName names text with
  | true =>
    have hfound : found = identifiersFrom file names range 0 false (splitLines text.toList) :=
      if_pos hmentions
    rw [← hfound] at hall
    exact ⟨iff_of_true hall (.inl (mentionsName_iff.mp hmentions)), fun hnot => absurd hall hnot⟩
  | false =>
    have hfound : found = [] := if_neg (by simp [hmentions])
    have hlists : ListsUses file text names range found ↔
        ∀ location, ¬IsUse file text names range location := by
      rw [hfound]
      refine ⟨fun hnone location huse => ?_, fun hnone => ⟨.nil, fun location => ?_⟩⟩
      · cases (hnone.mem_iff location).mpr huse
      · exact iff_of_false (by simp) (hnone location)
    refine ⟨?_, fun hnot => ⟨hfound, ?_, ?_⟩⟩
    · rw [hlists, ← mentionsName_iff, hmentions]
      simp
    · rw [hlists, not_forall] at hnot
      obtain ⟨location, huse⟩ := hnot
      obtain ⟨before, word, after, htext, hname⟩ := (not_not.mp huse).exists_word
      obtain ⟨front, back, rfl, -⟩ := sigmaChanges_of_not_mentionsName hmentions htext hname
      simp [htext]
    · intro before word after htext hname
      exact sigmaChanges_of_not_mentionsName hmentions htext hname

theorem listsUses_before_parenthesis : ListsUses (Path.ofText "m.bsl") "АΣ();" ["АΣ"] none
      (scanIdentifiers (Path.ofText "m.bsl") "АΣ();" ["АΣ"] none) := by
  refine (scanIdentifiers_listsUses_iff _ _ _ _).1.mpr (.inl (mentionsName_iff.mp ?_))
  decide +kernel

/-- The sigma at the end of a name is not final before a point and a letter. -/
theorem not_listsUses_before_point : ¬ListsUses (Path.ofText "m.bsl") "АΣ.Б();" ["АΣ"] none
      (scanIdentifiers (Path.ofText "m.bsl") "АΣ.Б();" ["АΣ"] none) := by
  intro hlists
  have hnone : scanIdentifiers (Path.ofText "m.bsl") "АΣ.Б();" ["АΣ"] none = [] := by
    decide +kernel
  rw [hnone] at hlists
  have huse : IsUse (Path.ofText "m.bsl") "АΣ.Б();" ["АΣ"] none ⟨Path.ofText "m.bsl", 0, 0⟩ := by
    refine ⟨rfl, nofun, (lexLine false "АΣ.Б();".toList).1, ?_, ⟨.identifier, "АΣ", 0⟩, ?_, ?_, rfl⟩
    · decide +kernel
    · decide +kernel
    · exact ⟨rfl, "АΣ", by decide, rfl⟩
  cases (hlists.mem_iff _).mpr huse

end BslInsight
