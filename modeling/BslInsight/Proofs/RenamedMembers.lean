import BslInsight.Proofs.MemberNames
import BslInsight.Proofs.RewordedModules

/-!
# Modules with renamed members

The scanner does not look at the dot before a word.  A member that is spelled like a
keyword does what the keyword does, and all other members are alike to it.  So a
member can be renamed, as long as the new name has the same reading as the old one.
-/

namespace BslInsight

open List

section

variable (permits : String → String → Prop)

/-- The lines of a module from a line on, before which a string may be open, and the
lines that come of them when members are renamed in the lines of statements. -/
inductive RenamedLines : Bool → List (List Char) → List (List Char) → Prop
  | nil (inString : Bool) : RenamedLines inString [] []
  | passed {line : List Char} {rest others : List (List Char)}
      (hpass : passesOver line = true) (hrest : RenamedLines false rest others) :
      RenamedLines false (line :: rest) (line :: others)
  | statements {line other : List Char} {rest others : List (List Char)}
      (hpass : passesOver line = false) (hhdr : Header.ofLine? line = none)
      (hline : Renamed permits false line other)
      (hrest : RenamedLines (lexLine false line).2 rest others) :
      RenamedLines false (line :: rest) (other :: others)
  | continued {line other : List Char} {rest others : List (List Char)}
      (hline : RenamedContinuation permits line other)
      (hrest : RenamedLines (lexLine true line).2 rest others) :
      RenamedLines true (line :: rest) (other :: others)
  | header {line : List Char} {rest others : List (List Char)} {header : Header}
      {list : ParamList} (hhdr : Header.ofLine? line = some header)
      (hlist : ParamList.read (line.drop header.paramsStart) rest = list)
      (hrest : RenamedLines (lexLine false list.tail).2 (rest.drop list.extraLines) others) :
      RenamedLines false (line :: rest) (line :: (rest.take list.extraLines ++ others))

def MembersRenamed (text other : String) : Prop :=
  RenamedLines permits false (moduleLines text) (moduleLines other)

def RenamesKeywords : Prop := ∃ word other, permits word other ∧ isKeyword word ≠ isKeyword other

/-- Assignments whose chains have the same links up to renaming.  Since a keyword is no
link of a chain, a chain may be lost when a member is renamed to a keyword. -/
structure DiffersInMembers (assignment changed : Assignment) : Prop where
  name : assignment.name = changed.name
  line : assignment.line = changed.line
  valueType : assignment.valueType = changed.valueType
  valueChain : Forall₂ (LinksAlike fun word other => word = other ∨ permits word other)
        assignment.valueChain changed.valueChain ∨
      RenamesKeywords permits ∧ (assignment.valueChain = [] ∨ changed.valueChain = [])

structure RenamedToken (token other : Token) : Prop where
  kind : token.kind = other.kind
  text : token.text = other.text ∨ permits token.text other.text

end

variable {permits : String → String → Prop}

/-! ## Assignments -/

section

variable {afterDot : Bool} {tokens others : List Token}

lemma RenamedTokens.forall₂ (htoks : RenamedTokens permits afterDot tokens others) :
    Forall₂ (RenamedToken permits) tokens others := by
  induction htoks with
  | nil => exact .nil
  | cons hkind htext _ _ ih => exact .cons ⟨hkind, .inl htext⟩ ih
  | member hmbr hren hpermits _ ih => exact .cons ⟨hmbr.trans hren.symm, .inr hpermits⟩ ih

lemma renamesKeywords_of_mixes (hmixes : MixesKeywords (RenamedToken permits)) :
    RenamesKeywords permits := by
  obtain ⟨token, other, htoken, -, hkw⟩ := hmixes
  rcases htoken.text with htext | hpermits
  · rw [htext] at hkw
    exact absurd rfl hkw
  · exact ⟨token.text, other.text, hpermits, hkw⟩

lemma valueChain_rel (halike : Forall₂ (RenamedToken permits) tokens others) :
    Forall₂ (LinksAlike fun word other => word = other ∨ permits word other)
        (valueChain tokens) (valueChain others) ∨
      RenamesKeywords permits ∧ (valueChain tokens = [] ∨ valueChain others = []) := by
  have hchains : ChainsAlike (RenamedToken permits) (fun word other => word = other ∨ permits word other)
      (chainLinks? tokens) (chainLinks? others) :=
    chainLinks?_rel (fun _ _ htoken => htoken.kind) (fun _ _ htoken _ _ => htoken.text) halike
  unfold valueChain
  rcases hchains with hrel | ⟨hmixes, hnone | hnone⟩
  · refine .inl ?_
    generalize chainLinks? tokens = chain at hrel
    generalize chainLinks? others = second at hrel
    cases hrel with
    | none => exact .nil
    | some hlinks =>
      cases hlinks with
      | nil => exact .nil
      | cons hlink hmore =>
        cases hmore with
        | nil =>
          simp only [hlink.isCall]
          split
          · exact .cons hlink .nil
          · exact .nil
        | cons hnext hlast => exact .cons hlink (.cons hnext hlast)
  · exact .inr ⟨renamesKeywords_of_mixes hmixes, .inl (by rw [hnone])⟩
  · exact .inr ⟨renamesKeywords_of_mixes hmixes, .inr (by rw [hnone])⟩

lemma RenamedTokens.newExpressionType?_eq (htoks : RenamedTokens permits false tokens others) :
    newExpressionType? tokens = newExpressionType? others := by
  cases htoks with
  | nil => rfl
  | @cons _ keyword second rest more hkind htext hdot hrest =>
    generalize hflag : (keyword.kind == .dot) = flag at hrest
    cases hrest with
    | nil => rfl
    | @cons _ next third rest more hnext hnextText _ hmore =>
      simp only [newExpressionType?, ← htext, ← hnext, ← hnextText]
      generalize (next.kind == .dot) = flag at hmore
      cases hmore with
      | nil => rfl
      | cons hlit hliteralText => simp only [hlit, hliteralText]
      | member hmbr hren => simp only [hmbr, hren, reduceCtorEq, if_false]
    | member =>
      simp only [newExpressionType?, ← htext, hdot (beq_iff_eq.mp hflag), reduceCtorEq, if_false]

lemma RenamedTokens.assignmentOf_differs
    (htoks : RenamedTokens permits false tokens others) {target other : Token}
    (htext : target.text = other.text) (line : Nat) :
    DiffersInMembers permits (assignmentOf line target tokens) (assignmentOf line other others) where
  name := htext
  line := rfl
  valueType := htoks.newExpressionType?_eq
  valueChain := by
    simp only [assignmentOf, ← htoks.newExpressionType?_eq]
    split
    · exact .inl .nil
    · exact valueChain_rel htoks.forall₂

lemma RenamedTokens.membersAlike
    (hreading : ∀ word other, permits word other → SameReading word other)
    (htoks : RenamedTokens permits afterDot tokens others) (line : Nat) :
    MembersAlike (DiffersInMembers permits) line afterDot tokens others := by
  induction htoks with
  | nil afterDot => exact .nil afterDot
  | @cons afterDot target other rest more hkind htext hdot hrest ih =>
    refine .cons (Token.alike_of_text hkind htext) (fun _ _ hnext => ?_) (fun hisDot => ?_) ih
    · generalize (target.kind == .dot) = flag at hrest
      cases hrest with
      | nil => cases hnext
      | @cons _ equals second right rights _ _ _ hright =>
        have hasg : equals.kind = .assign := beq_iff_eq.mp hnext
        rw [hasg] at hright
        exact hright.assignmentOf_differs htext line
      | member hmbr => simp [ScanState.nextIsAssign, hmbr] at hnext
    · have hpoint : target.kind = .dot := beq_iff_eq.mp hisDot
      exact ⟨hpoint, hdot hpoint⟩
  | member hmbr hren hpermits _ ih => exact .member hmbr hren (hreading _ _ hpermits) ih

end

/-! ## Header lines -/

def noExchange (_previous : Option String) (_kind : TokenKind) : Prop := False

lemma HeadersAlike.refl
    {line : List Char} {header : Header} (hhdr : Header.ofLine? line = some header) :
    HeadersAlike (RewordedParams noExchange) header header line line := by
  obtain ⟨front, word, name, gap, after, hparts, rfl, rfl⟩ := Header.exists_parts hhdr
  refine .mk hparts hparts rfl ?_
  cases hscan : scanParamList 1 false after with
  | closed length =>
    have hcls := closesAt_of_scanParamList hscan
    have hshut (more : List Char) : scanParamList 1 false (after.take length ++ more) =
          .closed (after.take length).length := by
      rw [length_take_of_le hcls.le]
      exact hcls.closed more
    have hpars := RewordedParams.closed hshut (Reworded.refl noExchange none (after.drop length))
    rwa [take_append_drop] at hpars
  | «open» depth inQuote => exact .unfinished hscan

lemma Reworded.eq_of_noExchange {previous : Option String} {text other : List Char}
    (hrew : Reworded noExchange previous text other) : other = text := by
  induction hrew with
  | nil => rfl
  | dropped _ _ ih | kept _ _ ih => rw [ih]
  | exchanged _ hallw => exact hallw.elim

lemma RenamedLines.linesAlike {inString : Bool} {lines others : List (List Char)}
    (hlines : RenamedLines permits inString lines others) :
    LinesAlike (RenamedTokens permits false) inString lines others := by
  induction hlines with
  | nil inString => exact .nil inString
  | passed hpass _ ih => exact .passed hpass ih
  | statements hpass hhdr hline _ ih =>
    refine .statements hpass ?_ hhdr (hline.no_header hhdr) hline.isMethodBoundary_eq
      hline.lexLine ih
    rw [← hline.passesOver_eq, hpass]
  | continued hline _ ih => exact .continued hline.lexLine ih
  | @header _ _ _ _ list hhdr hlist _ ih =>
    refine .header hhdr hlist (HeadersAlike.refl hhdr) (fun tail htail => ?_) ih
    rw [htail.eq_of_noExchange]
    exact (Renamed.refl false list.tail).lexLine

/-! ## Reading renamed lines -/

/-- Members can be renamed to words with the same reading.  Nothing changes but the
columns of names and the names in the chains of assignments. -/
theorem parseModule_membersRenamed
    (hreading : ∀ word other, permits word other → SameReading word other) {text other : String}
    (hrenamed : MembersRenamed permits text other) (file : Path) (dialect : Dialect) :
    (parseModule file dialect text).Agrees (DiffersInMembers permits)
      (parseModule file dialect other) := by
  refine agrees_of_linesAlike (.nil false) hrenamed.linesAlike ?_ file dialect
  intro visit _ second _ _ htokens
  exact htokens.membersAlike hreading visit.tokenLine

lemma Renamed.of_member {c d e : Char} {body tail after : List Char} (hname : isIdentStart c)
    (hword : isIdentStart d ∧ body.all isIdentPart)
    (hoth : isIdentStart e ∧ tail.all isIdentPart)
    (hpermits : permits (String.ofList (d :: body)) (String.ofList (e :: tail)))
    (hafter : after.head?.any isIdentPart = false) (afterDot : Bool) :
    Renamed permits afterDot (c :: '.' :: d :: (body ++ after))
      (c :: '.' :: e :: (tail ++ after)) := by
  have hlex : lexeme d (body ++ after) = (some .identifier, body.length) := by
    rw [lexeme_identifier hword.1, Prod.mk.injEq, runLength_append_eq_iff]
    exact ⟨rfl, all_eq_true.mp hword.2, hafter⟩
  have hmbr := Renamed.member hlex hoth.1 (all_eq_true.mp hoth.2) hpermits
    (Renamed.refl false after)
  have hdot := @Renamed.kept permits false '.' [] _ _ .dot rfl hmbr
  refine @Renamed.kept permits afterDot c [] _ _ .identifier ?_ hdot
  rw [lexeme_identifier hname]
  rfl

/-- A name can be renamed to a keyword that does not act, although a chain is lost. -/
theorem parseModule_membersRenamed_keyword :
    let permits := fun word other => word = "Б" ∧ other = "Возврат" ∨ word = "Тогда" ∧ other = "Иначе"
    let text := "А=О.Б\nО.Тогда В=1"
    let other := "А=О.Возврат\nО.Иначе В=1"
    MembersRenamed permits text other ∧
      (parseModule (Path.ofText "m.bsl") .bsl text).Agrees (DiffersInMembers permits)
        (parseModule (Path.ofText "m.bsl") .bsl other) := by
  intro permits text other
  have hreading (word other : String) (hpermits : permits word other) : SameReading word other := by
    rcases hpermits with ⟨rfl, rfl⟩ | ⟨rfl, rfl⟩
    · exact ⟨by decide +kernel, by decide +kernel⟩
    · exact ⟨by decide +kernel, by decide +kernel⟩
  have htext : moduleLines text =
      [['А', '=', 'О', '.', 'Б'], ['О', '.', 'Т', 'о', 'г', 'д', 'а', ' ', 'В', '=', '1']] := by
    decide +kernel
  have hother : moduleLines other = [['А', '=', 'О', '.', 'В', 'о', 'з', 'в', 'р', 'а', 'т'],
        ['О', '.', 'И', 'н', 'а', 'ч', 'е', ' ', 'В', '=', '1']] := by
    decide +kernel
  have hname : isIdentStart 'О' = true := by decide
  have hchain : Renamed permits (TokenKind.assign == .dot) ('О' :: '.' :: 'Б' :: ([] ++ []))
      ('О' :: '.' :: 'В' :: (['о', 'з', 'в', 'р', 'а', 'т'] ++ [])) :=
    Renamed.of_member hname (by decide) (by decide) (.inl ⟨rfl, rfl⟩) rfl _
  have hopens : Renamed permits false
      ('О' :: '.' :: 'Т' :: (['о', 'г', 'д', 'а'] ++ [' ', 'В', '=', '1']))
      ('О' :: '.' :: 'И' :: (['н', 'а', 'ч', 'е'] ++ [' ', 'В', '=', '1'])) :=
    Renamed.of_member hname (by decide) (by decide) (.inr ⟨rfl, rfl⟩) (by decide) false
  have hassign := @Renamed.kept permits false 'А' [] _ _ .identifier (by decide)
    (@Renamed.kept permits _ '=' [] _ _ .assign rfl hchain)
  have hrenamed : MembersRenamed permits text other := by
    rw [MembersRenamed, htext, hother]
    refine .statements (by decide) (by decide +kernel) hassign ?_
    rw [lexLine_of_no_quote (by decide)]
    exact .statements (by decide) (by decide +kernel) hopens (.nil _)
  exact ⟨hrenamed, parseModule_membersRenamed hreading hrenamed _ _⟩

/-- A member that is spelled like a terminator is one. -/
theorem not_agrees_terminator_member :
    let text := "О.КонецПроцедуры"
    let other := "О.А"
    MembersRenamed (fun _ _ => True) text other ∧
      ¬(parseModule (Path.ofText "m.bsl") .bsl text).Agrees (DiffersInMembers fun _ _ => True)
        (parseModule (Path.ofText "m.bsl") .bsl other) := by
  intro text other
  have htext : moduleLines text = [['О', '.', 'К', 'о', 'н', 'е', 'ц', 'П', 'р', 'о', 'ц', 'е', 'д', 'у',
      'р', 'ы']] := by
    decide +kernel
  have hother : moduleLines other = [['О', '.', 'А']] := by decide +kernel
  have hmember : Renamed (fun _ _ => True) false
      ('О' :: '.' :: 'К' :: (['о', 'н', 'е', 'ц', 'П', 'р', 'о', 'ц', 'е', 'д', 'у', 'р', 'ы'] ++ []))
      ('О' :: '.' :: 'А' :: ([] ++ [])) :=
    Renamed.of_member (by decide) (by decide) (by decide) trivial rfl false
  refine ⟨?_, fun hagrees => ?_⟩
  · rw [MembersRenamed, htext, hother]
    exact .statements (by decide) (by decide +kernel) hmember (.nil _)
  · have hissues := hagrees.issues
    revert hissues
    decide +kernel

end BslInsight
