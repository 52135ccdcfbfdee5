import BslInsight.Proofs.ScanInvariant

/-!
# The trail of methods

The trail is the part of the state on which the extents of methods depend: the lines of closed
methods, the line of the open one, the reports, and whether a string is open.  Among tokens only
terminators change it, and no other construct ever swallows one.
-/

namespace BslInsight

open List

variable {tokens : List Token} {pending : Pending} {kind : IssueKind}

def Token.isTerminator (token : Token) : Bool := token.kind == .identifier &&
    (Keyword.ofWord? token.text == some .endProcedure ||
      Keyword.ofWord? token.text == some .endFunction)

def CommentsLast (tokens : List Token) : Prop :=
  tokens.Pairwise fun earlier _ => earlier.kind ≠ .comment

lemma CommentsLast.of_suffix {rest : List Token} (htoks : CommentsLast tokens)
    (hrest : rest <:+ tokens) : CommentsLast rest :=
  htoks.sublist hrest.sublist

def TokenAction.isEnd : TokenAction → Bool
  | .endMethod _ => true
  | _ => false

def TokenAction.isStructural : TokenAction → Bool
  | .openBlock _ | .closeBlock _ | .endMethod _ => true
  | _ => false

def Token.keywordActions (token : Token) : List TokenAction :=
  if token.kind = .identifier then ((Keyword.ofWord? token.text).map Keyword.actions).getD []
  else []

lemma any_isEnd_filter (actions : List TokenAction) :
    (actions.filter TokenAction.isStructural).any TokenAction.isEnd =
      actions.any TokenAction.isEnd := by
  rw [any_filter]
  congr 1
  funext action
  cases action <;> rfl

lemma any_isEnd_keywordActions (tokens : List Token) :
    (tokens.flatMap Token.keywordActions).any TokenAction.isEnd =
      tokens.any Token.isTerminator := by
  rw [any_flatMap]
  congr 1
  funext token
  unfold Token.keywordActions Token.isTerminator
  by_cases hkind : token.kind = .identifier
  · cases hword : Keyword.ofWord? token.text with
    | none => simp [hkind]
    | some word => cases word <;> simp [hkind, Keyword.actions, TokenAction.isEnd]
  · simp [hkind]

/-! ## No keyword is passed over -/

namespace Pending

def isOver : Pending → Bool
  | .comment => true
  | .each otherwise => otherwise.isOver
  | _ => false

lemma filter_isStructural_read (hpend : pending.isOver = false) (token : Token)
    (rest : List Token) :
    (pending.read token rest).1.filter TokenAction.isStructural = token.keywordActions ∧
      ((pending.read token rest).2.isOver → token.kind = .comment) := by
  have hword (word : Keyword) : word.actions.filter TokenAction.isStructural = word.actions ∧
      word.pending.isOver = false := by
    cases word <;> exact ⟨rfl, rfl⟩
  have hname (hname : token.IsName) : token.keywordActions = [] := by
    have hnone : Keyword.ofWord? token.text = none := by simpa [isKeyword] using hname.2
    simp [Token.keywordActions, hnone]
  have hexp (hexp : Keyword.ofWord? token.text = some .«export») : token.keywordActions = [] := by
    simp [Token.keywordActions, hexp, Keyword.actions]
  have heach (heach : Keyword.ofWord? token.text = some .each) : token.keywordActions = [] := by
    simp [Token.keywordActions, heach, Keyword.actions]
  induction pending <;>
    grind [read, readVariable, readPlain, isOver, Token.keywordActions, TokenAction.isStructural]

end Pending

lemma filter_isStructural_actions (htoks : CommentsLast tokens)
    (hpend : tokens ≠ [] → pending.isOver = false) :
    (pending.actions tokens).filter TokenAction.isStructural =
      tokens.flatMap Token.keywordActions := by
  induction tokens generalizing pending with
  | nil =>
    unfold Pending.actions
    induction pending with
    | each otherwise ih => exact ih (absurd rfl)
    | _ => rfl
  | cons token rest ih =>
    obtain ⟨hfirst, hover⟩ := Pending.filter_isStructural_read (hpend (cons_ne_nil _ _)) token rest
    obtain ⟨hcom, hrest⟩ := pairwise_cons.mp htoks
    rw [Pending.actions, filter_append, hfirst, flatMap_cons, ih hrest]
    intro hne
    obtain ⟨other, hoth⟩ := exists_mem_of_ne_nil rest hne
    rw [← Bool.not_eq_true]
    exact fun hend => hcom other hoth (hover hend)

structure Trail where
  inString : Bool
  closed : List (Nat × Nat)
  current : Option Nat
  unterminated : List Nat

namespace Trail

def close (trail : Trail) (line : Nat) : Trail := match trail.current with
  | none => trail
  | some start =>
    { trail with closed := trail.closed ++ [(start, max line start)], current := none }

def abandon (trail : Trail) (line : Nat) : Trail := match trail.current with
  | none => trail
  | some start =>
    { trail with
      closed := trail.closed ++ [(start, max line start)]
      current := none
      unterminated := trail.unterminated ++ [start] }

def closeIf (trail : Trail) (terminated : Bool) (line : Nat) : Trail :=
  if terminated then trail.close line else trail

def begin (trail : Trail) (line : Nat) : Trail :=
  { trail.abandon (line - 1) with current := some line }

def withString (trail : Trail) (inString : Bool) : Trail := { trail with inString }

lemma close_close (trail : Trail) (line later : Nat) :
    (trail.close line).close later = trail.close line := by
  cases hcur : trail.current with
  | none | some start => simp only [close, hcur]

lemma closeIf_withString (trail : Trail) (inString terminated : Bool) (line : Nat) :
    (trail.withString inString).closeIf terminated line =
      (trail.closeIf terminated line).withString inString := by
  cases terminated with
  | false => rfl
  | true => cases hcur : trail.current <;> simp [closeIf, close, withString, hcur]

lemma inString_abandon (trail : Trail) (line : Nat) :
    (trail.abandon line).inString = trail.inString := by
  unfold abandon
  split <;> rfl

end Trail

namespace ScanState

def trail (state : ScanState) : Trail where
  inString := state.inString
  closed := state.table.scopes.map fun scope => (scope.startLine, scope.endLine)
  current := state.current.map (·.symbol.range.startLine)
  unterminated := (state.table.issues.filter (·.kind = .unterminatedMethod)).map (·.line)

variable (state : ScanState) (line : Nat)

/-! ## Methods -/

lemma trail_addIssue (place : Nat) (hkind : kind ≠ .unterminatedMethod) :
    (state.addIssue place kind).trail = state.trail := by
  simp [trail, addIssue, hkind]

lemma trail_addIssues (places : List Nat) (hkind : kind ≠ .unterminatedMethod) :
    (state.addIssues places kind).trail = state.trail := by
  induction places generalizing state with
  | nil => simp [addIssues]
  | cons place places ih => rw [addIssues_cons, ih, trail_addIssue state place hkind]

lemma trail_closeMethod : (state.closeMethod line).trail = state.trail.close line := by
  cases hcur : state.current with
  | none => simp [closeMethod, hcur, trail, Trail.close]
  | some method =>
    rw [closeMethod_of_current hcur]
    simp [trail, Trail.close, hcur, OpenMethod.closedScope]

lemma trail_abandonMethod : (state.abandonMethod line).trail = state.trail.abandon line := by
  cases hcur : state.current with
  | none => simp [abandonMethod, hcur, trail, Trail.abandon]
  | some method =>
    simp only [abandonMethod, hcur]
    rw [trail_closeMethod]
    simp [trail, addIssue, Trail.close, Trail.abandon, hcur]

lemma trail_terminate (kind : SymbolKind) :
    (state.terminate line kind).trail = state.trail.close line := by
  cases hcur : state.current with
  | none =>
    have hsame : state.trail.close line = state.trail := by
      simp [Trail.close, trail, hcur]
    simp only [terminate, hcur]
    rw [hsame, trail_addIssue state line (by decide)]
  | some method =>
    simp only [terminate, hcur]
    rw [trail_closeMethod, trail_addIssues _ _ (by decide)]
    split
    · rfl
    · rw [trail_addIssue state line (by decide)]

/-! ## Blocks and names -/

lemma trail_pushBlock (kind : BlockKind) : (state.pushBlock kind line).trail = state.trail := by
  unfold pushBlock
  split
  next => rfl
  next method hcur => simp [trail, hcur]

lemma trail_popBlock (kind : BlockKind) : (state.popBlock kind).trail = state.trail := by
  unfold popBlock
  split
  next => rfl
  next method hcur =>
    split
    next => rfl
    next =>
      rw [trail_addIssues _ _ (by decide)]
      simp [trail, hcur]

lemma trail_declareImplicit (token : Token) :
    (state.declareImplicit line token).trail = state.trail := by
  unfold declareImplicit
  split
  next => rfl
  next method hcur =>
    simp only
    split
    · rfl
    · simp [trail, hcur]

lemma trail_declareVariable (token : Token) (exported : Bool) :
    (state.declareVariable line token exported).trail = state.trail := by
  unfold declareVariable
  simp only
  split
  next method hcur => simp [trail, hcur]
  next => rfl

lemma trail_recordAssignment (target : Token) (right : List Token) :
    (state.recordAssignment line target right).trail = state.trail := by
  rw [← trail_declareImplicit state line target]
  unfold recordAssignment
  simp only
  split
  next method hcur => simp [trail, hcur]
  next => rfl

lemma trail_perform (action : TokenAction) :
    (state.perform line action).trail = state.trail.closeIf action.isEnd line := by
  cases action with
  | declare token exported => exact state.trail_declareVariable line token exported
  | count token => exact state.trail_declareImplicit line token
  | assign target right => exact state.trail_recordAssignment line target right
  | openBlock kind => exact state.trail_pushBlock line kind
  | closeBlock kind => exact state.trail_popBlock kind
  | endMethod kind => exact state.trail_terminate line kind

lemma trail_foldl_perform (actions : List TokenAction) :
    (actions.foldl (perform line) state).trail =
      state.trail.closeIf (actions.any TokenAction.isEnd) line := by
  induction actions generalizing state with
  | nil => rfl
  | cons action actions ih =>
    rw [foldl_cons, ih, trail_perform, any_cons]
    cases action.isEnd with
    | false => rfl
    | true =>
      cases actions.any TokenAction.isEnd with
      | false => rfl
      | true => exact Trail.close_close _ _ _

lemma trail_processTokens (atStart : Bool) (htoks : CommentsLast tokens) :
    (state.processTokens line atStart tokens).trail =
      state.trail.closeIf (tokens.any Token.isTerminator) line := by
  have hpend : (if atStart then Pending.statement else .inside).isOver = false := by
    cases atStart <;> rfl
  rw [processTokens_eq_foldl, trail_foldl_perform, ← any_isEnd_keywordActions,
    ← filter_isStructural_actions htoks fun _ => hpend, any_isEnd_filter]

end ScanState

end BslInsight
