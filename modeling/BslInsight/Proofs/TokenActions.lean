import BslInsight.ModuleTable.Scan
import Mathlib.Tactic.SplitIfs

/-!
# What tokens ask for

The tokens of a line are read one after another.  What the tokens before have begun is
pending: a statement, a list of variables or the head of a loop.  The next token and what
is pending tell what is done to the state.
-/

namespace BslInsight

open List

/-- What the scanner does to its state. -/
inductive TokenAction where
  | declare (token : Token) (exported : Bool)
  | count (token : Token)
  | assign (target : Token) (right : List Token)
  | openBlock (kind : BlockKind)
  | closeBlock (kind : BlockKind)
  | endMethod (kind : SymbolKind)

/-- What the tokens before have begun.  After a word for loops over collections the loop
goes on with a name, or the word was no part of it. -/
inductive Pending where
  | statement
  | inside
  | named (token : Token)
  | variables
  | variable (token : Token)
  | loop
  | each (otherwise : Pending)
  | comment

def Token.IsName (token : Token) : Prop := token.kind = .identifier ∧ isKeyword token.text = false

instance : DecidablePred Token.IsName := fun _ => inferInstanceAs (Decidable (_ ∧ _))

def Keyword.actions : Keyword → List TokenAction
  | .endProcedure => [.endMethod .procedure]
  | .endFunction => [.endMethod .function]
  | .«if» => [.openBlock .condition]
  | .endIf => [.closeBlock .condition]
  | .«while» | .«for» => [.openBlock .cycle]
  | .endDo => [.closeBlock .cycle]
  | .«try» => [.openBlock .attempt]
  | .endTry => [.closeBlock .attempt]
  | _ => []

def Keyword.pending : Keyword → Pending
  | .var => .variables
  | .«for» => .loop
  | word => if word.opensStatement then .statement else .inside

namespace Pending

/-- A token outside of lists of variables and heads of loops. -/
def readPlain (atStart : Bool) (token : Token) : List TokenAction × Pending := match token.kind with
  | .comment => ([], .comment)
  | .semicolon => ([], .statement)
  | .identifier =>
    match Keyword.ofWord? token.text with
    | some word => (word.actions, word.pending)
    | none => ([], if atStart then .named token else .inside)
  | _ => ([], .inside)

def readVariable (token : Token) : List TokenAction × Pending :=
  if token.IsName then ([], .variable token)
  else if token.kind = .comma then ([], .variables)
  else readPlain false token

/-- What a token does, and what is pending after it.  `rest` are the tokens after it. -/
def read : Pending → Token → List Token → List TokenAction × Pending
  | .statement, token, _ => readPlain true token
  | .inside, token, _ => readPlain false token
  | .named target, token, rest =>
    if token.kind = .assign then ([.assign target rest], .inside) else readPlain false token
  | .variables, token, _ => readVariable token
  | .variable first, token, _ =>
    if Keyword.ofWord? token.text = some .«export» then ([.declare first true], .variables)
    else (.declare first false :: (readVariable token).1, (readVariable token).2)
  | .loop, token, _ =>
    if Keyword.ofWord? token.text = some .each then ([], .each (readPlain false token).2)
    else if token.IsName then ([.count token], .inside)
    else readPlain false token
  | .each otherwise, token, rest =>
    if token.IsName then ([.count token], .inside) else otherwise.read token rest
  | .comment, _, _ => ([], .comment)

def atEnd : Pending → List TokenAction
  | .variable first => [.declare first false]
  | .each otherwise => otherwise.atEnd
  | _ => []

def actions (pending : Pending) : List Token → List TokenAction
  | [] => pending.atEnd
  | token :: rest => (pending.read token rest).1 ++ (pending.read token rest).2.actions rest

end Pending

namespace ScanState

def perform (line : Nat) (state : ScanState) : TokenAction → ScanState
  | .declare token exported => state.declareVariable line token exported
  | .count token => state.declareImplicit line token
  | .assign target right => state.recordAssignment line target right
  | .openBlock kind => state.pushBlock kind line
  | .closeBlock kind => state.popBlock kind
  | .endMethod kind => state.terminate line kind

/-! ## The actions are those of the scanner -/

lemma actions_named (target : Token) (tokens : List Token) : (Pending.named target).actions tokens =
      if nextIsAssign tokens then .assign target tokens.tail :: Pending.inside.actions tokens
      else Pending.inside.actions tokens := by
  cases tokens with
  | nil => rfl
  | cons token rest =>
    by_cases hasg : token.kind = .assign
    · simp [Pending.actions, Pending.read, Pending.readPlain, nextIsAssign, hasg]
    · simp [Pending.actions, Pending.read, nextIsAssign, hasg]

lemma actions_variable (name : Token) (tokens : List Token) :
    (Pending.variable name).actions tokens =
      .declare name (nextIsExport tokens) :: Pending.variables.actions
        (if nextIsExport tokens then tokens.drop 1 else tokens) := by
  cases tokens with
  | nil => rfl
  | cons token rest =>
    by_cases hexp : Keyword.ofWord? token.text = some .«export»
    · simp [Pending.actions, Pending.read, nextIsExport, hexp]
    · simp [Pending.actions, Pending.read, nextIsExport, hexp]

lemma actions_comment (tokens : List Token) : Pending.comment.actions tokens = [] := by
  induction tokens with
  | nil => rfl
  | cons token rest ih => exact ih

lemma actions_each (otherwise : Pending) (tokens : List Token) :
    (Pending.each otherwise).actions tokens = match tokens with
      | counter :: rest =>
        if counter.IsName then .count counter :: Pending.inside.actions rest
        else otherwise.actions tokens
      | [] => otherwise.actions tokens := by
  cases tokens with
  | nil => rfl
  | cons counter rest =>
    by_cases hname : counter.IsName
    · simp [Pending.actions, Pending.read, hname]
    · simp [Pending.actions, Pending.read, hname]

lemma actions_loop (tokens : List Token) : Pending.loop.actions tokens = match afterEach tokens with
      | counter :: rest =>
        if counter.IsName then .count counter :: Pending.inside.actions rest
        else Pending.inside.actions tokens
      | [] => Pending.inside.actions tokens := by
  obtain _ | ⟨token, rest⟩ := tokens
  · rfl
  by_cases heach : Keyword.ofWord? token.text = some .each
  · have hafter : afterEach (token :: rest) = rest := if_pos heach
    have hplain : (Pending.readPlain false token).1 = [] := by
      unfold Pending.readPlain
      split <;> simp [heach, Keyword.actions]
    have hloop : Pending.loop.actions (token :: rest) =
        (Pending.each (Pending.readPlain false token).2).actions rest := by
      simp [Pending.actions, Pending.read, heach]
    have hins : Pending.inside.actions (token :: rest) =
        (Pending.readPlain false token).2.actions rest := by
      simp [Pending.actions, Pending.read, hplain]
    rw [hloop, hins, hafter, actions_each]
  · have hafter : afterEach (token :: rest) = token :: rest := if_neg heach
    rw [hafter]
    by_cases hname : token.IsName
    · simp [Pending.actions, Pending.read, heach, hname]
    · simp [Pending.actions, Pending.read, heach, hname]

variable (state : ScanState) (line : Nat)

lemma foldl_variables (tokens : List Token) :
    (Pending.variables.actions tokens).foldl (perform line) state =
      (Pending.inside.actions (state.declareVariables line tokens).2).foldl (perform line)
        (state.declareVariables line tokens).1 := by
  fun_induction declareVariables state line tokens with
  | case1 state => rfl
  | case2 state token rest hname ih =>
    have hread : Pending.variables.read token rest = ([], .variable token) := if_pos hname
    simp only [dite_eq_ite] at ih ⊢
    rw [Pending.actions, hread, nil_append, actions_variable, foldl_cons, ← ih]
    rfl
  | case3 state token rest hname hcomma ih =>
    have hread : Pending.variables.read token rest = ([], .variables) :=
      (if_neg hname).trans (if_pos hcomma)
    rw [Pending.actions, hread, nil_append, ← ih]
  | case4 state token rest hname hcomma =>
    have hread : Pending.variables.read token rest = Pending.inside.read token rest :=
      (if_neg hname).trans (if_neg hcomma)
    simp only [Pending.actions, hread]

lemma foldl_loop (tokens : List Token) :
    (Pending.loop.actions tokens).foldl (perform line) (state.pushBlock .cycle line) =
      (Pending.inside.actions (state.loopHead line tokens).2).foldl (perform line)
        (state.loopHead line tokens).1 := by
  rw [actions_loop]
  unfold loopHead
  rcases afterEach tokens with _ | ⟨counter, rest⟩
  · rfl
  · by_cases hname : counter.IsName
    · simp only [if_pos hname, if_pos (show _ ∧ _ from hname)]
      rfl
    · simp only [if_neg hname, if_neg (show ¬(_ ∧ _) from hname)]

lemma foldl_keyword (word : Keyword) (rest : List Token) :
    (word.actions ++ word.pending.actions rest).foldl (perform line) state =
      ((if word.opensStatement then Pending.statement else .inside).actions
        (state.keyword line word rest).2).foldl (perform line) (state.keyword line word rest).1 := by
  rw [foldl_append]
  cases word with
  | var => exact state.foldl_variables line rest
  | «for» => exact state.foldl_loop line rest
  | _ => rfl

lemma processTokens_eq_foldl (atStart : Bool) (tokens : List Token) :
    state.processTokens line atStart tokens =
      ((if atStart then Pending.statement else .inside).actions tokens).foldl (perform line)
        state := by
  have hread (atStart : Bool) (token : Token) (rest : List Token) :
      (if atStart then Pending.statement else .inside).read token rest =
        Pending.readPlain atStart token := by
    cases atStart <;> rfl
  fun_induction processTokens state line atStart tokens with
  | case1 state atStart => cases atStart <;> rfl
  | case2 state atStart token rest hcom =>
    rw [Pending.actions, hread, Pending.readPlain, hcom]
    exact congrArg (List.foldl (perform line) state) (actions_comment rest).symm
  | case3 state atStart token rest hsemicolon ih =>
    rw [Pending.actions, hread, Pending.readPlain, hsemicolon, ih]
    rfl
  | case4 state atStart token rest hkind word hword ih =>
    rw [Pending.actions, hread, Pending.readPlain, hkind, hword, ih]
    exact (state.foldl_keyword line word rest).symm
  | case5 state atStart token rest hkind hword hasg ih =>
    rw [Pending.actions, hread, Pending.readPlain, hkind, hword, ih, if_pos hasg.1,
      nil_append, actions_named, if_pos hasg.2]
    rfl
  | case6 state atStart token rest hkind hword hasg ih =>
    rw [Pending.actions, hread, Pending.readPlain, hkind, hword, ih]
    cases atStart with
    | false => rfl
    | true => simp [actions_named, show nextIsAssign rest = false by simpa using hasg]
  | case7 state atStart token rest hcom hsemicolon hidf ih =>
    have hplain : Pending.readPlain atStart token = ([], .inside) := by
      unfold Pending.readPlain
      split
      next hkind => exact absurd hkind hcom
      next hkind => exact absurd hkind hsemicolon
      next hkind => exact absurd hkind hidf
      next => rfl
    rw [Pending.actions, hread, hplain, ih]
    rfl

end ScanState

/-! ## The tokens of actions -/

def TokenAction.token? : TokenAction → Option Token
  | .declare token _ | .count token | .assign token _ => some token
  | _ => none

namespace Pending

def token? : Pending → Option Token
  | .named token | .variable token => some token
  | .each otherwise => otherwise.token?
  | _ => none

lemma token?_of_keyword (word : Keyword) :
    (∀ action ∈ word.actions, action.token? = none) ∧ word.pending.token? = none := by
  cases word <;>
    simp [Keyword.actions, Keyword.pending, Keyword.opensStatement, TokenAction.token?, token?]

lemma names_read (pending : Pending) (token : Token) (rest : List Token) :
    (∀ action ∈ (pending.read token rest).1, ∀ found ∈ action.token?,
      found = token ∨ found ∈ pending.token?) ∧
    ∀ found ∈ (pending.read token rest).2.token?, found = token ∨ found ∈ pending.token? := by
  induction pending <;>
    grind [read, readVariable, readPlain, token?, TokenAction.token?, token?_of_keyword]

lemma token?_atEnd {pending : Pending} {action : TokenAction}
    (hac : action ∈ pending.atEnd) : action.token? = pending.token? := by
  induction pending with
  | «variable» first =>
    obtain rfl := mem_singleton.mp hac
    rfl
  | each otherwise ih => exact ih hac
  | _ => cases hac

lemma mem_of_mem_actions {pending : Pending} {tokens : List Token} {action : TokenAction}
    (hac : action ∈ pending.actions tokens) {token : Token} (htoken : token ∈ action.token?) :
    token ∈ tokens ∨ token ∈ pending.token? := by
  induction tokens generalizing pending with
  | nil => exact .inr (token?_atEnd hac ▸ htoken)
  | cons first rest ih =>
    have hnames := pending.names_read first rest
    have hmem : token = first → token ∈ first :: rest := by
      rintro rfl
      exact mem_cons_self
    rcases mem_append.mp hac with hfirst | hlater
    · exact (hnames.1 action hfirst token htoken).imp_left hmem
    · rcases ih hlater with hrest | hpend
      · exact .inl (mem_cons_of_mem _ hrest)
      · exact (hnames.2 token hpend).imp_left hmem

end Pending

end BslInsight
