import BslInsight.Proofs.RewordedLines
import BslInsight.Proofs.ScanAgreement

/-!
# Reading reworded lines

The tokens of reworded lines make the same assignments, apart from those that take
their type from a string literal.  So the reading of reworded lines agrees with the
reading of the lines that they come from.
-/

namespace BslInsight

open List

variable {line : Nat} {names : String → String → Prop} {r : Token → Token → Prop}
  {tokens : List Token}

/-! ## Chains -/

abbrev AllAlike : List Token → List Token → Prop := Forall₂ Token.Alike

structure LinksAlike (names : String → String → Prop) (link other : ChainLink) : Prop where
  name : names link.name other.name
  isCall : link.isCall = other.isCall

section

variable {r : Token → Token → Prop} (hkinds : ∀ token other, r token other → token.kind = other.kind)
  {tokens others : List Token}
include hkinds

lemma afterCall?_rel (halike : Forall₂ r tokens others) (depth : Nat) :
    Option.Rel (Forall₂ r) (afterCall? depth tokens) (afterCall? depth others) := by
  induction halike generalizing depth with
  | nil => exact .none
  | cons htoken hrest ih =>
    simp only [afterCall?, hkinds _ _ htoken]
    split
    · exact ih _
    · split
      · exact .some hrest
      · exact ih _
    · exact ih _

lemma callTail?_rel (halike : Forall₂ r tokens others) :
    Option.Rel (fun left right => Forall₂ r left.1 right.1 ∧ left.2 = right.2)
      (callTail? tokens) (callTail? others) := by
  cases halike with
  | nil => exact .some ⟨.nil, rfl⟩
  | cons htoken hrest =>
    simp only [callTail?, hkinds _ _ htoken]
    split
    · have hcall := afterCall?_rel hkinds hrest 0
      generalize afterCall? 0 _ = left at hcall
      generalize afterCall? 0 _ = right at hcall
      cases hcall with
      | none => exact .none
      | some hfound => exact .some ⟨hfound, rfl⟩
    · exact .some ⟨.cons htoken hrest, rfl⟩

end

def chainTail? (name : String) (tail : List Token × Bool) : Option (List ChainLink) :=
  match tail.1 with
  | [] => some [⟨name, tail.2⟩]
  | next :: more =>
    if next.kind = .dot then (chainLinks? more).map (⟨name, tail.2⟩ :: ·)
    else if next.kind = .semicolon ∨ next.kind = .comment then some [⟨name, tail.2⟩]
    else none

lemma chainLinks?_cons (name : Token) (rest : List Token) : chainLinks? (name :: rest) =
      if name.kind = .identifier ∧ isKeyword name.text = false then
        (callTail? rest).bind (chainTail? name.text)
      else none := by
  rw [chainLinks?]
  split
  · split <;> simp_all [chainTail?]
  · rfl

def MixesKeywords (r : Token → Token → Prop) : Prop :=
  ∃ token other, r token other ∧ token.kind = .identifier ∧
    isKeyword token.text ≠ isKeyword other.text

/-- Chains with corresponding links.  Where keywords correspond to names, there may be
no chain on one side. -/
def ChainsAlike (r : Token → Token → Prop) (names : String → String → Prop)
    (chain other : Option (List ChainLink)) : Prop :=
  Option.Rel (Forall₂ (LinksAlike names)) chain other ∨
    MixesKeywords r ∧ (chain = none ∨ other = none)

lemma ChainsAlike.cons {chain other : Option (List ChainLink)}
    (hchains : ChainsAlike r names chain other) {link second : ChainLink}
    (hlinks : LinksAlike names link second) :
    ChainsAlike r names (chain.map (link :: ·)) (other.map (second :: ·)) := by
  rcases hchains with hrel | ⟨hmixes, rfl | rfl⟩
  · cases hrel with
    | none => exact .inl .none
    | some hrest => exact .inl (.some (.cons hlinks hrest))
  · exact .inr ⟨hmixes, .inl rfl⟩
  · exact .inr ⟨hmixes, .inr rfl⟩

lemma ChainsAlike.bind {α : Type} {q : α → α → Prop} {left right : Option α}
    (hrel : Option.Rel q left right) {f g : α → Option (List ChainLink)}
    (hchains : ∀ a b, left = some a → q a b → ChainsAlike r names (f a) (g b)) :
    ChainsAlike r names (left.bind f) (right.bind g) := by
  cases hrel with
  | none => exact .inl .none
  | some hvalue => exact hchains _ _ rfl hvalue

lemma chainLinks?_rel (hkinds : ∀ token other, r token other → token.kind = other.kind)
    (hnames : ∀ token other, r token other → token.kind = .identifier →
      isKeyword token.text = false → names token.text other.text) {others : List Token}
    (halike : Forall₂ r tokens others) :
    ChainsAlike r names (chainLinks? tokens) (chainLinks? others) := by
  induction hlen : tokens.length using Nat.strong_induction_on generalizing tokens others with
  | _ n ih =>
    cases halike with
    | nil =>
      rw [chainLinks?]
      exact .inl .none
    | @cons name other rest more htoken hrest =>
      rw [chainLinks?_cons, chainLinks?_cons, ← hkinds _ _ htoken]
      by_cases hname : name.kind = .identifier ∧ isKeyword name.text = false
      · by_cases hoth : isKeyword other.text = false
        · rw [if_pos hname, if_pos ⟨hname.1, hoth⟩]
          refine ChainsAlike.bind (callTail?_rel hkinds hrest) ?_
          rintro ⟨left, isCall⟩ ⟨right, second⟩ hcall ⟨htail, rfl⟩
          have hshort := length_callTail? hcall
          have hlinks : LinksAlike names ⟨name.text, isCall⟩ ⟨other.text, isCall⟩ :=
            ⟨hnames _ _ htoken hname.1 hname.2, rfl⟩
          unfold chainTail?
          cases htail with
          | nil => exact .inl (.some (.cons hlinks .nil))
          | cons hnext hmore =>
            rw [length_cons] at hlen hshort
            simp only [hkinds _ _ hnext]
            split_ifs
            · exact (ih _ (by omega) hmore rfl).cons hlinks
            · exact .inl (.some (.cons hlinks .nil))
            · exact .inl .none
        · refine .inr ⟨⟨name, other, htoken, hname.1, ?_⟩, .inr (if_neg ?_)⟩
          · rw [hname.2]
            simpa using hoth
          · exact fun h => hoth h.2
      · rw [if_neg hname]
        by_cases hoth : name.kind = .identifier ∧ isKeyword other.text = false
        · refine .inr ⟨⟨name, other, htoken, hoth.1, fun hsame => ?_⟩, .inl rfl⟩
          exact hname ⟨hoth.1, hsame.trans hoth.2⟩
        · rw [if_neg hoth]
          exact .inl .none

lemma chainLinks?_eq {others : List Token} (halike : AllAlike tokens others) :
    chainLinks? tokens = chainLinks? others := by
  have hchains : ChainsAlike Token.Alike Eq (chainLinks? tokens) (chainLinks? others) :=
    chainLinks?_rel (fun _ _ htoken => htoken.kind) (fun _ _ htoken => htoken.name) halike
  rcases hchains with hrel | ⟨⟨token, other, htoken, -, hkw⟩, -⟩
  · generalize chainLinks? tokens = chain at hrel
    generalize chainLinks? others = second at hrel
    cases hrel with
    | none => rfl
    | some hlinks =>
      have hsame (link other : ChainLink) (halike : LinksAlike Eq link other) : link = other := by
        obtain ⟨name, isCall⟩ := link
        obtain ⟨rfl, rfl⟩ := halike
        rfl
      have heq := hlinks.imp hsame
      rw [forall₂_eq_eq_eq] at heq
      rw [heq]
  · exact absurd htoken.isKeyword_eq hkw

lemma valueChain_eq {others : List Token} (halike : AllAlike tokens others) :
    valueChain tokens = valueChain others := by
  unfold valueChain
  rw [chainLinks?_eq halike]

/-! ## Assignments -/

section

variable {allows : Option String → TokenKind → Prop} {previous : Option String}
  {tokens others : List Token}

lemma RewordedTokens.allAlike (htoks : RewordedTokens allows previous tokens others) :
    AllAlike tokens others := by
  induction htoks with
  | nil => exact .nil
  | cons halike _ _ ih => exact .cons halike ih

inductive NewLiteral : List Token → Token → Prop
  | mk {keyword paren literal : Token} {rest : List Token}
      (hkw : Keyword.ofWord? keyword.text = some .new) (hparen : paren.kind = .leftParen)
      (hlit : literal.kind = .stringLiteral) :
      NewLiteral (keyword :: paren :: literal :: rest) literal

lemma NewLiteral.newExpressionType?_eq {literal : Token} (hlit : NewLiteral tokens literal) :
    newExpressionType? tokens = some (String.ofList (trimQuotes literal.text.toList)) := by
  cases hlit with
  | mk hkw hparen hkind => simp [newExpressionType?, hkw, hparen, hkind]

/-- Keywords after `New` are names of classes and stay as they are. -/
def KeepsClassNames (allows : Option String → TokenKind → Prop) : Prop :=
  ∀ previous, allows (some previous) .identifier → Keyword.ofWord? previous ≠ some .new

lemma RewordedTokens.newExpressionType?_eq_or
    (hallw : KeepsClassNames allows) (htoks : RewordedTokens allows previous tokens others) :
    newExpressionType? tokens = newExpressionType? others ∨
      (∃ token, allows (some token) .stringLiteral) ∧
        ∃ literal other, NewLiteral tokens literal ∧ NewLiteral others other := by
  cases htoks with
  | nil => exact .inl rfl
  | @cons _ keyword second rest more hkw _ hrest =>
    cases hrest with
    | nil => exact .inl rfl
    | @cons _ next third rest more hnext hnextText hmore =>
      by_cases hnew : Keyword.ofWord? keyword.text = some .new
      · have hsnd : Keyword.ofWord? second.text = some .new := by
          rw [← hkw.keyword, hnew]
        simp only [newExpressionType?, hnew, hsnd, if_true, ← hnext.kind]
        split
        next hidf =>
          rcases hnextText with htext | hallowed
          · exact .inl (by rw [htext])
          · rw [hidf] at hallowed
            exact absurd hnew (hallw _ hallowed)
        next hparen =>
          cases hmore with
          | nil => exact .inl rfl
          | @cons _ literal fourth rest more hlit hliteralText _ =>
            by_cases hkind : literal.kind = .stringLiteral
            · rcases hliteralText with htext | hallowed
              · exact .inl (by simp only [hlit.kind, htext])
              · rw [hkind] at hallowed
                rw [hnext.kind] at hparen
                refine .inr ⟨⟨_, hallowed⟩, literal, fourth, .mk hnew ?_ hkind, ?_⟩
                · rw [hnext.kind, hparen]
                · exact .mk hsnd hparen (hlit.kind.symm.trans hkind)
            · have hfourth : fourth.kind ≠ .stringLiteral := by rwa [← hlit.kind]
              exact .inl (by simp only [hkind, hfourth, if_false])
        next => exact .inl rfl
      · have hsnd : Keyword.ofWord? second.text ≠ some .new := by
          rwa [← hkw.keyword]
        exact .inl (by simp only [newExpressionType?, hnew, hsnd, if_false])

lemma RewordedTokens.assignmentOf_eq_or
    (hallw : KeepsClassNames allows) (htoks : RewordedTokens allows previous tokens others)
    {target other : Token} (htext : target.text = other.text) (line : Nat) :
    assignmentOf line target tokens = assignmentOf line other others ∨
      (∃ token, allows (some token) .stringLiteral) ∧
        ∃ literal second, NewLiteral tokens literal ∧ NewLiteral others second := by
  rcases htoks.newExpressionType?_eq_or hallw with hsame | hlit
  · refine .inl ?_
    unfold assignmentOf
    rw [htext, hsame, valueChain_eq htoks.allAlike]
  · exact .inr hlit

/-- An assignment at a place among the tokens of a line that takes its type from a
string literal. -/
inductive TypedByLiteral (line : Nat) (tokens : List Token) (place : Nat) : Assignment → Prop
  | mk {target equals literal : Token} {right : List Token}
      (hplace : tokens.drop place = target :: equals :: right) (heqs : equals.kind = .assign)
      (hright : NewLiteral right literal) :
      TypedByLiteral line tokens place (assignmentOf line target right)

/-- Assignments of reworded tokens at one place of a line that take their types from
string literals. -/
def LiteralsDiffer
    (allows : Option String → TokenKind → Prop) (line : Nat) (tokens others : List Token)
    (assignment changed : Assignment) : Prop :=
  (∃ token, allows (some token) .stringLiteral) ∧ assignment.name = changed.name ∧
    ∃ place, TypedByLiteral line tokens place assignment ∧ TypedByLiteral line others place changed

lemma TypedByLiteral.cons {place : Nat} {assignment : Assignment}
    (htyped : TypedByLiteral line tokens place assignment) (token : Token) :
    TypedByLiteral line (token :: tokens) (place + 1) assignment := by
  cases htyped with
  | mk hplace heqs hright => exact .mk hplace heqs hright

lemma RewordedTokens.membersAlike (hallw : KeepsClassNames allows)
    (htoks : RewordedTokens allows previous tokens others)
    {related : Assignment → Assignment → Prop} (hsame : ∀ assignment, related assignment assignment)
    (hliterals : ∀ assignment changed,
      LiteralsDiffer allows line tokens others assignment changed → related assignment changed) :
    MembersAlike related line false tokens others := by
  induction htoks with
  | nil => exact .nil false
  | @cons previous target other rest more halike htext hrest ih =>
    refine .cons halike (fun hkind hname hnext => ?_) (by simp) (ih ?_)
    · have hnames := halike.name hkind hname
      cases hrest with
      | nil => cases hnext
      | @cons _ equals second right rights heqs _ hright =>
        have hasg : equals.kind = .assign := beq_iff_eq.mp hnext
        rcases hright.assignmentOf_eq_or hallw hnames line with heq | ⟨hallowed, hlit⟩
        · rw [tail_cons, tail_cons, heq]
          exact hsame _
        · obtain ⟨literal, found, hfirst, hsnd⟩ := hlit
          refine hliterals _ _ ⟨hallowed, hnames, 0, .mk rfl hasg hfirst, ?_⟩
          exact .mk rfl (heqs.kind.symm.trans hasg) hsnd
    · rintro assignment changed ⟨hallowed, hnames, place, hfirst, hsnd⟩
      exact hliterals _ _ ⟨hallowed, hnames, place + 1, hfirst.cons target, hsnd.cons other⟩

/-! ## Visits of reworded lines -/

lemma Header.ofLine?_of_passesOver {line : List Char} (hpass : passesOver line) :
    Header.ofLine? line = none := by
  rw [Option.eq_none_iff_forall_ne_some]
  intro header hhdr
  rw [passesOver_of_header hhdr] at hpass
  cases hpass

lemma Header.ofLine?_of_aligned
    {line other : List Char} (halgn : Aligned line other) (hhdr : Header.ofLine? line = none) :
    Header.ofLine? other = none := by
  have hsome := halgn.header_isSome_eq
  rw [hhdr, Option.isSome_none, eq_comm, Option.isSome_eq_false_iff] at hsome
  exact Option.isNone_iff_eq_none.mp hsome

namespace LineVisit

variable {number : Nat} {line : List Char} {rest : List (List Char)}

lemma extraLines_of_line
    {header : Header} {list : ParamList} (hhdr : Header.ofLine? line = some header)
    (hlist : ParamList.read (line.drop header.paramsStart) rest = list) :
    (LineVisit.mk number false line rest).extraLines = list.extraLines := by
  have hvisit : (LineVisit.mk number false line rest).header? = some header := hhdr
  rw [extraLines_of_header hvisit, hlist]

lemma lexed_of_line {header : Header} {list : ParamList} (hhdr : Header.ofLine? line = some header)
    (hlist : ParamList.read (line.drop header.paramsStart) rest = list) :
    (LineVisit.mk number false line rest).lexed = lexLine false list.tail := by
  have hvisit : (LineVisit.mk number false line rest).header? = some header := hhdr
  rw [lexed_of_header hvisit, hlist]

lemma extraLines_of_statements (hhdr : Header.ofLine? line = none) :
    (LineVisit.mk number false line rest).extraLines = 0 := by
  have hvisit : (LineVisit.mk number false line rest).header? = none := hhdr
  rw [extraLines_of_no_header hvisit]

lemma lexed_of_statements (hpass : passesOver line = false) (hhdr : Header.ofLine? line = none) :
    (LineVisit.mk number false line rest).lexed = lexLine false line := by
  have hvisit : (LineVisit.mk number false line rest).header? = none := hhdr
  rw [lexed_of_no_header hvisit, if_neg]
  simp [hpass]

lemma lexed_of_passesOver (hpass : passesOver line) :
    (LineVisit.mk number false line rest).lexed = ([], false) := by
  have hvisit : (LineVisit.mk number false line rest).header? = none :=
    Header.ofLine?_of_passesOver hpass
  rw [lexed_of_no_header hvisit, if_pos ⟨rfl, hpass⟩]

lemma tokenLine_of_inString : (LineVisit.mk number true line rest).tokenLine = number := rfl

lemma lexed_of_inString : (LineVisit.mk number true line rest).lexed = lexLine true line := by
  rw [lexed_of_no_header rfl, if_neg]
  simp

end LineVisit

lemma RewordedLines.linesAlike {inString : Bool} {lines others : List (List Char)}
    (hlines : RewordedLines allows inString lines others) :
    LinesAlike (RewordedTokens allows none) inString lines others := by
  induction hlines with
  | nil inString => exact .nil inString
  | passed hpass _ ih => exact .passed hpass ih
  | statements hpass hhdr hline _ ih =>
    have halgn := hline.aligned
    refine .statements hpass ?_ hhdr (Header.ofLine?_of_aligned halgn hhdr)
      halgn.isMethodBoundary_eq hline.lexLine ih
    rw [← halgn.passesOver_eq, hpass]
  | continued hline _ ih => exact .continued hline.lexLine ih
  | header hhdr hlist hline _ ih =>
    obtain ⟨found, halike⟩ := hline.exists_alike hhdr hlist
    exact .header hhdr hlist halike (fun tail htail => htail.lexLine) ih

lemma drop_take_append
    {rest others : List (List Char)} {extra : Nat} (hextra : extra ≤ rest.length) :
    (rest.take extra ++ others).drop extra = others ∧
      (rest.take extra ++ others).take extra = rest.take extra := by
  have hlen : (rest.take extra).length = extra := length_take_of_le hextra
  exact ⟨drop_left' hlen, take_left' hlen⟩

section

variable {alike : List Token → List Token → Prop}

structure VisitsAlike
    (alike : List Token → List Token → Prop) (visit other : LineVisit) : Prop where
  extraLines : visit.extraLines = other.extraLines
  lexed : LexedAlike alike visit.lexed other.lexed
  following : LinesAlike alike visit.lexed.2 (visit.following.drop visit.extraLines)
    (other.following.drop other.extraLines)

lemma LinesAlike.visitsAlike (hnil : alike [] [])
    {inString : Bool} {line other : List Char} {rest others : List (List Char)}
    (hlines : LinesAlike alike inString (line :: rest) (other :: others)) (number : Nat) :
    VisitsAlike alike ⟨number, inString, line, rest⟩ ⟨number, inString, other, others⟩ := by
  cases hlines with
  | passed hpass hrest =>
    have hhdr := Header.ofLine?_of_passesOver hpass
    refine ⟨?_, ?_, ?_⟩
    · rw [LineVisit.extraLines_of_statements hhdr, LineVisit.extraLines_of_statements hhdr]
    · rw [LineVisit.lexed_of_passesOver hpass, LineVisit.lexed_of_passesOver hpass]
      exact ⟨hnil, rfl⟩
    · rw [LineVisit.extraLines_of_statements hhdr, LineVisit.extraLines_of_statements hhdr,
        LineVisit.lexed_of_passesOver hpass]
      exact hrest
  | statements hpass hpasses hhdr hhdrs _ hlexed hrest =>
    refine ⟨?_, ?_, ?_⟩
    · rw [LineVisit.extraLines_of_statements hhdr, LineVisit.extraLines_of_statements hhdrs]
    · rw [LineVisit.lexed_of_statements hpass hhdr, LineVisit.lexed_of_statements hpasses hhdrs]
      exact hlexed
    · rw [LineVisit.extraLines_of_statements hhdr, LineVisit.extraLines_of_statements hhdrs,
        LineVisit.lexed_of_statements hpass hhdr]
      exact hrest
  | continued hlexed hrest =>
    refine ⟨rfl, ?_, ?_⟩
    · rw [LineVisit.lexed_of_inString, LineVisit.lexed_of_inString]
      exact hlexed
    · rw [LineVisit.lexed_of_inString]
      exact hrest
  | @header _ _ _ others header found list allows hhdr hlist halike hlexed hrest =>
    obtain ⟨tail, htail, hread⟩ := halike.exists_tail hlist (hrest.next_boundary hlist)
    have hle : list.extraLines ≤ rest.length := by
      rw [← hlist]
      exact ParamList.extraLines_read_le _ _
    refine ⟨?_, ?_, ?_⟩
    · rw [LineVisit.extraLines_of_line hhdr hlist,
        LineVisit.extraLines_of_line halike.ofLine?_eq hread]
    · rw [LineVisit.lexed_of_line hhdr hlist, LineVisit.lexed_of_line halike.ofLine?_eq hread]
      exact hlexed tail htail
    · rw [LineVisit.extraLines_of_line hhdr hlist,
        LineVisit.extraLines_of_line halike.ofLine?_eq hread, LineVisit.lexed_of_line hhdr hlist]
      simp only [(drop_take_append hle).1]
      exact hrest

/-! ## Opening methods -/

variable {related : Assignment → Assignment → Prop} {view : View}

lemma MembersAlike.leadsWithExport_eq (halike : MembersAlike related line false tokens others) :
    ScanState.leadsWithExport tokens = ScanState.leadsWithExport others := by
  cases halike with
  | nil => rfl
  | cons htoken => simp only [ScanState.leadsWithExport, htoken.kind, htoken.keyword]

lemma MembersAlike.afterExport (halike : MembersAlike related line false tokens others) :
    MembersAlike related line false (ScanState.afterExport tokens)
      (ScanState.afterExport others) := by
  unfold ScanState.afterExport
  rw [← halike.leadsWithExport_eq]
  split
  next hexp =>
    cases halike with
    | nil => exact .nil false
    | @cons _ isDot _ _ _ _ _ _ hdot hrest =>
      cases isDot with
      | false => exact hrest
      | true => simp [ScanState.leadsWithExport, (hdot rfl).1] at hexp
  next => exact halike

structure OpenAlike (view : View) (number : Nat) (line second : List Char) (header found : Header)
    (list more : ParamList) (rest following : List (List Char)) : Prop where
  name : header.name = found.name
  kind : header.kind = found.kind
  closed : list.closed = more.closed
  extraLines : list.extraLines = more.extraLines
  params : (parseParams list.text).map view.param = (parseParams more.text).map view.param
  place : ∀ param ∈ parseParams list.text,
    paramLine number line list rest param.name = paramLine number second more following param.name

namespace ScanState

variable {state other : ScanState} {number : Nat} {line second : List Char}
  {header found : Header} {list more : ParamList} {rest following : List (List Char)}

lemma unplaced_paramSymbols
    (state : ScanState) (number : Nat) (line : List Char) (header : Header) (list : ParamList)
    (following : List (List Char)) :
    (state.paramSymbols number line header list following).map Symbol.unplaced =
      (parseParams list.text).map fun param =>
        let place := paramLine number line list following param.name
        { name := param.name, kind := .parameter, range := state.range place place 0 } := by
  unfold paramSymbols
  rw [map_map]
  refine map_congr_left fun param _ => ?_
  simp only [Function.comp_apply, paramLine, parenColumn]
  cases findWordInLines? param.name _ number (line :: following.take list.extraLines) with
  | none | some found => rfl

variable (hagr : state.Agrees related view other)
include hagr

lemma Agrees.beforeMethod (hshut : list.closed = more.closed) (number : Nat) :
    (state.beforeMethod number list).Agrees related view (other.beforeMethod number more) := by
  have habandoned := hagr.abandonMethod (number - 1)
  unfold ScanState.beforeMethod
  rw [hshut]
  split
  · exact habandoned
  · exact habandoned.addIssue number _

section

variable (halike : OpenAlike view number line second header found list more rest following)
include halike

lemma Agrees.headerMethod (hexp : leadsWithExport tokens = leadsWithExport others) :
    OpenMethod.Agrees related view (state.headerMethod number line header list rest tokens)
      (other.headerMethod number second found more following others) where
  symbol := by
    simp only [ScanState.headerMethod, View.symbol, Symbol.unplaced, ScanState.range,
      hagr.table.file, halike.name, halike.kind, halike.extraLines, halike.params, hexp,
      hagr.commentBlock_eq, hagr.directive, hagr.currentRegion_eq]
  params := by
    let symbolOf (name : String) : Symbol :=
      let place := paramLine number second more following name
      { name, kind := .parameter, range := other.range place place 0 }
    -- Only the names of parameters count, and these stay in every view.
    have hnames (params : List Parameter) : params.map (fun param => symbolOf param.name) =
        (params.map view.param).map fun param => symbolOf param.name := by
      rw [map_map]
      rfl
    have hranges : state.range = other.range := by
      funext first last column
      rw [ScanState.range, ScanState.range, hagr.table.file]
    rw [ScanState.headerMethod, ScanState.headerMethod, unplaced_paramSymbols,
      unplaced_paramSymbols, hranges]
    calc
      _ = (parseParams list.text).map fun param => symbolOf param.name := by
        refine map_congr_left fun param hparam => ?_
        simp only [symbolOf, halike.place param hparam]
      _ = (parseParams more.text).map fun param => symbolOf param.name := by
        rw [hnames, halike.params, ← hnames]
  locals := rfl
  assignments := .nil
  blocks := rfl

lemma Agrees.beginMethod (hstr : state.inString = false)
    (htoks : MembersAlike related (number + list.extraLines) false (lexLine false list.tail).1
      (lexLine false more.tail).1)
    (hstrs : (lexLine false list.tail).2 = (lexLine false more.tail).2) :
    (state.beginMethod number line header list rest).Agrees related view
      (other.beginMethod number second found more following) := by
  have hbef := hagr.beforeMethod halike.closed number
  have hfirst : (state.beforeMethod number list).inString = false := by
    rw [inString_beforeMethod, hstr]
  have hsnd : (other.beforeMethod number more).inString = false := by
    rw [← hbef.inString, hfirst]
  rw [beginMethod_eq, beginMethod_eq]
  simp only [hfirst, hsnd, ← halike.extraLines]
  have hmeth := hbef.headerMethod halike htoks.leadsWithExport_eq
  refine Agrees.processMembers ?_ true htoks.afterExport
  exact { hbef with
      inString := hstrs
      comments := rfl
      directive := rfl
      current := .some hmeth }

end

lemma Agrees.statementLine
    (htoks : MembersAlike related number false (lexLine state.inString line).1
      (lexLine state.inString second).1)
    (hstrs : (lexLine state.inString line).2 = (lexLine state.inString second).2) :
    (state.statementLine number line).Agrees related view (other.statementLine number second) := by
  unfold ScanState.statementLine
  simp only [← hagr.inString]
  refine Agrees.processMembers ?_ true htoks
  exact { hagr with inString := hstrs }

lemma Agrees.scanLine (hnil : alike [] [])
    (hlines : LinesAlike alike state.inString (line :: rest) (second :: following)) (htoks :
      let visit : LineVisit := ⟨number, state.inString, line, rest⟩
      MembersAlike related visit.tokenLine false visit.lexed.1
        (LineVisit.mk number state.inString second following).lexed.1) :
    (state.scanLine number line rest).1.Agrees related view
      (other.scanLine number second following).1 := by
  have hlexed := (hlines.visitsAlike hnil number).lexed.inString
  have hoths := hagr.inString
  generalize hstr : state.inString = inString at hlines htoks hlexed hoths
  cases hlines with
  | passed hpass =>
    rw [scanLine_of_passesOver number rest hstr hpass,
      scanLine_of_passesOver number following hoths.symm hpass]
    exact hagr.passLine number rfl fun _ => rfl
  | statements hpass hpasses hhdr hhdrs =>
    rw [scanLine_of_statements number rest hstr hpass hhdr,
      scanLine_of_statements number following hoths.symm hpasses hhdrs]
    rw [LineVisit.lexed_of_statements hpass hhdr,
      LineVisit.lexed_of_statements hpasses hhdrs] at hlexed
    simp only [LineVisit.tokenLine, LineVisit.extraLines_of_statements hhdr, Nat.add_zero,
      LineVisit.lexed_of_statements hpass hhdr,
      LineVisit.lexed_of_statements hpasses hhdrs] at htoks
    have hsame := hagr.statementLine (by rwa [hstr]) (by rwa [hstr])
    exact (hsame.withComments []).withDirective none
  | continued =>
    rw [scanLine_of_inString number rest hstr, scanLine_of_inString number following hoths.symm]
    rw [LineVisit.lexed_of_inString, LineVisit.lexed_of_inString] at hlexed
    simp only [LineVisit.tokenLine_of_inString, LineVisit.lexed_of_inString] at htoks
    exact hagr.statementLine (by rwa [hstr]) (by rwa [hstr])
  | @header _ _ _ more header found list allows hhdr hlist halike _ hrest =>
    obtain ⟨tail, -, hread⟩ := halike.exists_tail hlist (hrest.next_boundary hlist)
    have hle : list.extraLines ≤ rest.length := by
      rw [← hlist]
      exact ParamList.extraLines_read_le _ _
    rw [scanLine_of_header number rest hstr hhdr,
      scanLine_of_header number _ hoths.symm halike.ofLine?_eq, hlist, hread]
    rw [LineVisit.lexed_of_line hhdr hlist, LineVisit.lexed_of_line halike.ofLine?_eq hread]
      at hlexed
    simp only [LineVisit.tokenLine, LineVisit.extraLines_of_line hhdr hlist,
      LineVisit.lexed_of_line hhdr hlist, LineVisit.lexed_of_line halike.ofLine?_eq hread]
      at htoks
    refine hagr.beginMethod ?_ hstr htoks hlexed
    refine ⟨halike.name_eq, halike.kind_eq, rfl, rfl, rfl, fun param _ => ?_⟩
    refine (halike.paramLine_eq hlist number param.name).trans ?_
    rw [paramLine, paramLine, (drop_take_append hle).2]

lemma Agrees.scanLines {lines others : List (List Char)} (hnil : alike [] [])
    (hlines : LinesAlike alike state.inString lines others)
    (hbrks : ∀ line ∈ lines, '\n' ∉ line) (hoths : ∀ line ∈ others, '\n' ∉ line)
    (htoks : ∀ visit ∈ visits state.inString number lines,
      ∀ second ∈ visits state.inString number others, visit.tokenLine = second.tokenLine →
        alike visit.lexed.1 second.lexed.1 →
          MembersAlike related visit.tokenLine false visit.lexed.1 second.lexed.1) :
    (state.scanLines number lines).Agrees related view (other.scanLines number others) := by
  fun_induction ScanState.scanLines state number lines generalizing other others with
  | case1 state number =>
    rw [hlines.eq_nil, ScanState.scanLines]
    exact hagr
  | case2 state number line rest next extra hscan =>
    rename_i ih
    obtain ⟨second, following, rfl⟩ := hlines.exists_cons
    obtain ⟨hline, hrest⟩ := forall_mem_cons.mp hbrks
    obtain ⟨hsnd, hfoll⟩ := forall_mem_cons.mp hoths
    have hvis := hlines.visitsAlike hnil number
    have hheads := htoks _ (by rw [visits]; exact mem_cons_self) _
      (by rw [visits]; exact mem_cons_self)
      (by rw [LineVisit.tokenLine, LineVisit.tokenLine, hvis.extraLines]) hvis.lexed.tokens
    have hnext := hagr.scanLine hnil hlines hheads
    obtain ⟨hextra, htrail⟩ := state.trail_scanLine number rest hline hrest
    obtain ⟨hextras, -⟩ := other.trail_scanLine number following hsnd hfoll
    have hstr : next.inString = (LineVisit.mk number state.inString line rest).lexed.2 := by
      rw [hscan] at htrail
      exact congrArg Trail.inString htrail
    have hmore := hvis.following
    rw [← hagr.inString, ← hvis.extraLines, ← hextra, hscan] at hextras
    rw [← hstr, ← hvis.extraLines, ← hextra, hscan] at hmore
    rw [hscan] at hnext
    obtain ⟨nexts, hnexts⟩ : ∃ nexts, other.scanLine number second following = (nexts, extra) :=
      ⟨_, Prod.ext rfl hextras⟩
    rw [hnexts] at hnext
    rw [ScanState.scanLines, hnexts]
    refine ih hnext hmore (fun text htext => hrest text (mem_of_mem_drop htext))
      (fun text htext => hfoll text (mem_of_mem_drop htext)) ?_
    have hextraLine : (LineVisit.mk number state.inString line rest).extraLines = extra := by
      rw [← hextra, hscan]
    intro visit hvisit later hlater
    refine htoks visit ?_ later ?_
    · rw [visits]
      refine mem_cons_of_mem _ ?_
      rwa [← hstr, hextraLine]
    · rw [visits]
      refine mem_cons_of_mem _ ?_
      rwa [← hvis.lexed.inString, ← hstr, ← hvis.extraLines, hextraLine]

end ScanState

end

end

end BslInsight
