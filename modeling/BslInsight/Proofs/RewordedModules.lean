import BslInsight.Proofs.RewordedReading

/-!
# What a module table does not depend on

The table of a module does not depend on the spelling of keywords.  Nor does it
depend on what strings and comments hold, but for the classes that are named by
string literals.
-/

namespace BslInsight

variable {related : Assignment → Assignment → Prop}

lemma agrees_of_linesAlike {alike : List Token → List Token → Prop} (hnil : alike [] [])
    {text other : String} (hlines : LinesAlike alike false (moduleLines text) (moduleLines other))
    (htoks : ∀ visit ∈ moduleVisits text, ∀ second ∈ moduleVisits other,
      visit.tokenLine = second.tokenLine → alike visit.lexed.1 second.lexed.1 →
      MembersAlike related visit.tokenLine false visit.lexed.1 second.lexed.1) (file : Path)
    (dialect : Dialect) :
    (parseModule file dialect text).Agrees related (parseModule file dialect other) := by
  refine (agreesIn_parseModule hlines.length_eq (fun first second hfirst hagr => ?_) file
    dialect).agrees
  refine hagr.scanLines hnil ?_ (fun _ => break_not_mem_moduleLines)
    (fun _ => break_not_mem_moduleLines) ?_
  · rwa [hfirst]
  · rwa [hfirst]

lemma agrees_of_rewordedLines {allows : Option String → TokenKind → Prop}
    (hallw : KeepsClassNames allows) (hsame : ∀ assignment, related assignment assignment)
    {text other : String}
    (hlines : RewordedLines allows false (moduleLines text) (moduleLines other))
    (hliterals : ∀ visit ∈ moduleVisits text, ∀ second ∈ moduleVisits other,
      visit.tokenLine = second.tokenLine → ∀ assignment changed,
      LiteralsDiffer allows visit.tokenLine visit.lexed.1 second.lexed.1 assignment changed →
      related assignment changed) (file : Path) (dialect : Dialect) :
    (parseModule file dialect text).Agrees related (parseModule file dialect other) := by
  refine agrees_of_linesAlike (.nil none) hlines.linesAlike ?_ file dialect
  intro visit hvisit later hlater hline htoks
  exact htoks.membersAlike hallw hsame (hliterals visit hvisit later hlater hline)

/-! ## Spellings of keywords -/

/-- Words may be respelled, except directly after `New`, where they name a class. -/
def mayRespell (previous : Option String) (kind : TokenKind) : Prop :=
  kind = .identifier ∧ previous.bind Keyword.ofWord? ≠ some .new

/-- Texts that differ in the spelling of keywords: of the words before the name in a
header, of words after a parameter list that ends on the line of its header, and of
words in the lines of statements. -/
def Respelled (text other : String) : Prop :=
  RewordedLines mayRespell false (moduleLines text) (moduleLines other)

/-- The spelling of keywords changes nothing but the columns of names. -/
theorem parseModule_respelled
    {text other : String} (hrespelled : Respelled text other) (file : Path) (dialect : Dialect) :
    (parseModule file dialect text).Agrees Eq (parseModule file dialect other) := by
  have hallows : KeepsClassNames mayRespell := fun previous hmay => hmay.2
  refine agrees_of_rewordedLines hallows (fun _ => rfl) hrespelled ?_ file dialect
  rintro visit - second - - assignment changed ⟨⟨token, hmay⟩, -⟩
  cases hmay.1

lemma Reworded.respell {word other rest : List Char} {keyword : Keyword}
    (hword : Keyword.ofWord? (String.ofList word) = some keyword)
    (hoth : Keyword.ofWord? (String.ofList other) = some keyword)
    (hrest : rest.head?.any isIdentPart = false) :
    Reworded mayRespell none (word ++ rest) (other ++ rest) := by
  obtain ⟨-, hne, hlets⟩ := folded_of_ofWord? hword
  obtain _ | ⟨c, body⟩ := word
  · exact absurd rfl hne
  exact .exchanged (lexeme_word hlets hrest) ⟨rfl, nofun⟩ (.keyword hword hoth)
    (Reworded.refl _ _ rest)

theorem parseModule_respelled_procedure :
    let text := "Процедура А() Экспорт\nЕсли Б Тогда\nКонецПроцедуры"
    let other := "PROCEDURE А() Экспорт\nif Б Тогда\nEndProcedure"
    Respelled text other ∧ (parseModule (Path.ofText "m.bsl") .bsl text).Agrees Eq
        (parseModule (Path.ofText "m.bsl") .bsl other) := by
  intro text other
  have htext : moduleLines text =
      ["Процедура А() Экспорт".toList, "Если Б Тогда".toList, "КонецПроцедуры".toList] := by
    decide +kernel
  have hother : moduleLines other =
      ["PROCEDURE А() Экспорт".toList, "if Б Тогда".toList, "EndProcedure".toList] := by
    decide +kernel
  have hfront : Reworded mayRespell none ("Процедура".toList ++ " ".toList)
      ("PROCEDURE".toList ++ " ".toList) :=
    Reworded.respell (by decide +kernel : _ = some .procedure) (by decide +kernel) (by decide)
  have hblock : Reworded mayRespell none ("Если".toList ++ " Б Тогда".toList)
      ("if".toList ++ " Б Тогда".toList) :=
    Reworded.respell (by decide +kernel : _ = some .«if») (by decide +kernel) (by decide)
  have hend : Reworded mayRespell none ("КонецПроцедуры".toList ++ [])
      ("EndProcedure".toList ++ []) :=
    Reworded.respell (by decide +kernel : _ = some .endProcedure) (by decide +kernel) rfl
  have hstatements : RewordedLines mayRespell false ["Если Б Тогда".toList, "КонецПроцедуры".toList]
      ["if Б Тогда".toList, "EndProcedure".toList] := by
    refine .statements (by decide +kernel) (by decide +kernel) hblock ?_
    rw [show (lexLine false "Если Б Тогда".toList).2 = false by decide +kernel]
    exact .statements (by decide +kernel) (by decide +kernel) hend (.nil _)
  have hheader : Header.ofLine? "Процедура А() Экспорт".toList = some ⟨.procedure, "А", 10, 12⟩ := by
    decide +kernel
  have hline : RewordedHeader mayRespell ⟨.procedure, "А", 10, 12⟩
      ⟨[], " Экспорт".toList, 0, true⟩ ("Процедура ".toList ++ ("А()".toList ++ " Экспорт".toList))
      ("PROCEDURE ".toList ++ ("А()".toList ++ " Экспорт".toList)) :=
    .mk rfl rfl hfront (Reworded.refl _ _ _)
  have hlist : ParamList.read ("Процедура А() Экспорт".toList.drop 12)
      ["Если Б Тогда".toList, "КонецПроцедуры".toList] = ⟨[], " Экспорт".toList, 0, true⟩ :=
    rfl
  have hrespelled : Respelled text other := by
    rw [Respelled, htext, hother]
    refine .header hheader hlist hline ?_
    rw [show (lexLine false " Экспорт".toList).2 = false by decide +kernel]
    exact hstatements
  exact ⟨hrespelled, parseModule_respelled hrespelled _ _⟩

/-! ## Contents of strings and comments -/

def mayRedact (_previous : Option String) (kind : TokenKind) : Prop :=
  kind = .stringLiteral ∨ kind = .openString ∨ kind = .comment

/-- Texts that differ in the contents of strings and of comments behind other tokens. -/
def Redacted (text other : String) : Prop :=
  RewordedLines mayRedact false (moduleLines text) (moduleLines other)

/-- Assignments that differ in the type that a string literal gives to the value, such
as `A = New("Class")`.  The literals stand at one place of the same line. -/
structure DiffersInLiteral (text other : String) (assignment changed : Assignment) : Prop where
  same : { assignment with valueType := changed.valueType } = changed
  literal : ∃ visit ∈ moduleVisits text, ∃ second ∈ moduleVisits other, ∃ place,
      TypedByLiteral visit.tokenLine visit.lexed.1 place assignment ∧
        TypedByLiteral second.tokenLine second.lexed.1 place changed

lemma TypedByLiteral.valueChain_eq
    {line place : Nat} {tokens : List Token} {assignment : Assignment}
    (htyped : TypedByLiteral line tokens place assignment) :
    assignment.line = line ∧ assignment.valueChain = [] := by
  cases htyped with
  | mk _ _ hright => exact ⟨rfl, by simp [assignmentOf, hright.newExpressionType?_eq]⟩

/-- What strings and comments hold changes nothing but the columns of names and the
types that string literals give. -/
theorem parseModule_redacted
    {text other : String} (hredacted : Redacted text other) (file : Path) (dialect : Dialect) :
    (parseModule file dialect text).Agrees (fun assignment changed =>
        assignment = changed ∨ DiffersInLiteral text other assignment changed)
      (parseModule file dialect other) := by
  have hallows : KeepsClassNames mayRedact := by
    intro previous hmay
    simp [mayRedact] at hmay
  refine agrees_of_rewordedLines hallows (fun _ => .inl rfl) hredacted ?_ file dialect
  rintro visit hvisit second hsecond hline assignment changed ⟨-, hname, place, hfirst, hlater⟩
  obtain ⟨hfirstLine, hfirstChain⟩ := hfirst.valueChain_eq
  obtain ⟨hlaterLine, hlaterChain⟩ := hlater.valueChain_eq
  have hsame : { assignment with valueType := changed.valueType } = changed := by
    obtain ⟨name, line, valueType, valueChain⟩ := changed
    simp only at hname hlaterLine hlaterChain
    rw [hname, hfirstLine, hlaterLine, hfirstChain, hlaterChain]
  rw [hline] at hlater
  exact .inr ⟨hsame, visit, hvisit, second, hsecond, place, hfirst, hlater⟩

theorem parseModule_redacted_string :
    let text := "А=\"Если\nКонецЕсли\"//Б"
    let other := "А=\"Процедура В()\n#Область\"//"
    Redacted text other ∧ (parseModule (Path.ofText "m.bsl") .bsl text).Agrees
        (fun assignment changed =>
          assignment = changed ∨ DiffersInLiteral text other assignment changed)
        (parseModule (Path.ofText "m.bsl") .bsl other) := by
  intro text other
  have htext : moduleLines text = ["А=\"Если".toList, "КонецЕсли\"//Б".toList] := by
    decide +kernel
  have hother : moduleLines other = ["А=\"Процедура В()".toList, "#Область\"//".toList] := by
    decide +kernel
  have hstring : Reworded mayRedact (some "=") "\"Если".toList "\"Процедура В()".toList :=
    @Reworded.exchanged mayRedact _ '"' "Если".toList [] [] "\"Процедура В()".toList .openString
      (by decide +kernel) (.inr (.inl rfl)) (.openString _ (by decide) (by decide)) (.nil _)
  have hfirst : Reworded mayRedact none "А=\"Если".toList "А=\"Процедура В()".toList :=
    @Reworded.kept mayRedact none 'А' [] _ _ .identifier (by decide +kernel)
      (@Reworded.kept mayRedact _ '=' [] _ _ .assign (by decide +kernel) hstring)
  have hcomment : Reworded mayRedact none "//Б".toList "//".toList :=
    @Reworded.exchanged mayRedact _ '/' "/Б".toList [] [] "//".toList .comment
      (by decide +kernel) (.inr (.inr rfl)) (.comment _ (by decide)) (.nil _)
  have hsecond : RewordedContinuation mayRedact ("КонецЕсли".toList ++ '"' :: "//Б".toList)
      ("#Область".toList ++ '"' :: "//".toList) :=
    .closing (by decide +kernel) (.inr ⟨.inr (.inl rfl), by decide⟩) hcomment
  have hredacted : Redacted text other := by
    rw [Redacted, htext, hother]
    refine .statements (by decide +kernel) (by decide +kernel) hfirst ?_
    rw [show (lexLine false "А=\"Если".toList).2 = true by decide +kernel]
    exact .continued hsecond (.nil _)
  exact ⟨hredacted, parseModule_redacted hredacted _ _⟩

end BslInsight
