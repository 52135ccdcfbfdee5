import BslInsight.Proofs.AssignmentLines
import BslInsight.Proofs.RewordedReading
import BslInsight.Proofs.SignatureLabels

/-!
# Types of assigned variables

The type of a variable is that of the right side of its nearest assignment above, found by
following the assignments of the variables there.  One hop is spent for each assignment of a chain
but the first.  An assignment of a variable through itself is followed until no hop is left.
-/

namespace BslInsight

open List

variable {call members tail : List Token} {isCall : Bool} {links : List ChainLink} {type : String}
  {place : Nat} {earlier : List (LineVisit × Token)} {target : Token} {visit : LineVisit}

/-! ## Chains of members -/

def Token.paren (token : Token) : Char := match token.kind with
  | .leftParen => '('
  | .rightParen => ')'
  | _ => ' '

inductive CallTokens : List Token → Bool → Prop
  | bare : CallTokens [] false
  | call {opening closing : Token} (arguments : List Token) (hopening : opening.kind = .leftParen)
      (hargs : IsBalanced 0 '(' ')' (arguments.map Token.paren))
      (hcl : closing.kind = .rightParen) :
      CallTokens (opening :: (arguments ++ [closing])) true

inductive MemberTokens : List Token → List ChainLink → Prop
  | nil : MemberTokens [] []
  | cons {dot name : Token} {call rest : List Token} {isCall : Bool} {links : List ChainLink}
      (hdot : dot.kind = .dot) (hname : name.kind = .identifier) (hcall : CallTokens call isCall)
      (hrest : MemberTokens rest links) :
      MemberTokens (dot :: name :: (call ++ rest)) (⟨name.text, isCall⟩ :: links)

def EndsStatement (tokens : List Token) : Prop :=
  ∀ token ∈ tokens.head?, token.kind = .semicolon ∨ token.kind = .comment

lemma afterCall?_arguments {depth : Nat} {arguments : List Token}
    (hargs : IsBalanced depth '(' ')' (arguments.map Token.paren)) {closing : Token}
    (hcl : closing.kind = .rightParen) (rest : List Token) :
    afterCall? depth (arguments ++ closing :: rest) = some rest := by
  induction arguments generalizing depth with
  | nil =>
    obtain rfl := hargs.eq_zero
    simp [afterCall?, hcl]
  | cons token arguments ih =>
    rw [map_cons] at hargs
    simp only [cons_append, afterCall?]
    split
    next hkind =>
      rw [Token.paren, hkind] at hargs
      exact ih (hargs.drop ['('] rfl)
    next hkind =>
      rw [Token.paren, hkind] at hargs
      have hpos := hargs.beginnings [')'] (by simp)
      obtain ⟨outer, rfl⟩ := Nat.exists_eq_add_of_le' (by simpa using hpos)
      exact ih (hargs.drop [')'] rfl)
    next hleft hright =>
      have hparen : token.paren = ' ' := by
        unfold Token.paren
        split <;> simp_all
      rw [hparen] at hargs
      exact ih (hargs.drop [' '] rfl)

lemma CallTokens.callTail? (hcall : CallTokens call isCall) {rest : List Token}
    (hrest : ∀ token ∈ rest.head?, token.kind ≠ .leftParen) :
    callTail? (call ++ rest) = some (rest, isCall) := by
  cases hcall with
  | bare =>
    cases rest with
    | nil => rfl
    | cons token rest => simp [BslInsight.callTail?, hrest token rfl]
  | call arguments hopening hargs hcl =>
    simp [BslInsight.callTail?, hopening, afterCall?_arguments hargs hcl]

def ChainLink.isPlain (link : ChainLink) : Bool := !isKeyword link.name

lemma chainLinks?_members {name : Token} (hname : name.kind = .identifier)
    (hcall : CallTokens call isCall) (hmembers : MemberTokens members links)
    (htail : EndsStatement tail) :
    chainLinks? (name :: (call ++ (members ++ tail))) =
      if ((⟨name.text, isCall⟩ :: links : List ChainLink).all ChainLink.isPlain) = true then
        some (⟨name.text, isCall⟩ :: links)
      else none := by
  induction hmembers generalizing name call isCall with
  | nil =>
    have hnext (token : Token) (htoken : token ∈ tail.head?) : token.kind ≠ .leftParen := by
      rcases htail token htoken with hkind | hkind <;> simp [hkind]
    rw [chainLinks?_cons, nil_append, hcall.callTail? hnext, Option.bind_some, chainTail?]
    cases tail with
    | nil => simp [hname, ChainLink.isPlain]
    | cons token tail =>
      have hend := htail token rfl
      have hdot : token.kind ≠ .dot := by
        rcases hend with hkind | hkind <;> simp [hkind]
      simp [hname, hdot, hend, ChainLink.isPlain]
  | @cons dot member inner rest isInner links hdot hmbr hinner _ ih =>
    have hnext (token : Token) (htoken : token ∈ (dot :: member :: (inner ++ rest) ++ tail).head?) :
        token.kind ≠ .leftParen := by
      obtain rfl := Option.some.inj htoken
      simp [hdot]
    rw [chainLinks?_cons, hcall.callTail? hnext, Option.bind_some, chainTail?]
    simp only [cons_append, append_assoc, hdot, if_true, hname, true_and,
      ih hmbr hinner, all_cons (l := _ :: links)]
    by_cases hplain : isKeyword name.text = false
    · simp only [hplain, if_true, ChainLink.isPlain, Bool.not_false, Bool.true_and]
      split <;> rfl
    · simp [hplain, ChainLink.isPlain]

lemma valueChain_members {name : Token} (hname : name.IsName)
    (hmembers : MemberTokens members links) (hlinks : links ≠ []) (htail : EndsStatement tail) :
    valueChain (name :: (members ++ tail)) =
      if links.all ChainLink.isPlain = true then ⟨name.text, false⟩ :: links else [] := by
  have hread := chainLinks?_members hname.1 .bare hmembers htail
  have hplain : ChainLink.isPlain ⟨name.text, false⟩ := by simp [ChainLink.isPlain, hname.2]
  rw [nil_append, all_cons, hplain, Bool.true_and] at hread
  obtain ⟨link, more, rfl⟩ := exists_cons_of_ne_nil hlinks
  rw [valueChain, hread]
  split <;> split <;> simp_all

/-! ## Recorded assignments -/

def LineVisit.AssignsNew (visit : LineVisit) (target : Token) (type : String) : Prop :=
  ∃ new name rest, visit.Assigns target (new :: name :: rest) ∧
    Keyword.ofWord? new.text = some .new ∧ name.kind = .identifier ∧ name.text = type

def LineVisit.AssignsMembers (visit : LineVisit) (target : Token) (source : String)
    (links : List ChainLink) : Prop :=
  ∃ head members tail, visit.Assigns target (head :: (members ++ tail)) ∧ head.IsName ∧
    sameName source head.text = true ∧ MemberTokens members links ∧ links ≠ [] ∧
    EndsStatement tail

section

variable {text : String} {visit : LineVisit} {target : Token} {file : Path} {dialect : Dialect}
  {workspace : Snapshot} {catalog : Catalog}

lemma LineVisit.AssignsNew.exists_assignment (hassigns : visit.AssignsNew target type)
    (hvisit : visit ∈ moduleVisits text) :
    ∃ assignment ∈ (Resolver.mk (parseModule file dialect text) ws catalog).assignmentsAt
        visit.tokenLine,
      assignment.name = target.text ∧ assignment.line = visit.tokenLine ∧
        assignment.valueType = some type := by
  obtain ⟨new, name, rest, hbeg, hnew, hname, rfl⟩ := hassigns
  refine ⟨_, mem_assignmentsAt hvisit hbeg file dialect ws catalog, rfl, rfl, ?_⟩
  simp [assignmentOf, newExpressionType?, hnew, hname]

lemma LineVisit.AssignsMembers.exists_assignment {source : String}
    (hassigns : visit.AssignsMembers target source links) (hvisit : visit ∈ moduleVisits text) :
    ∃ assignment ∈ (Resolver.mk (parseModule file dialect text) ws catalog).assignmentsAt
        visit.tokenLine,
      assignment.name = target.text ∧ assignment.line = visit.tokenLine ∧
        assignment.valueType = none ∧
        ∃ head, sameName source head ∧ assignment.valueChain =
          if links.all ChainLink.isPlain = true then ⟨head, false⟩ :: links else [] := by
  obtain ⟨head, members, tail, hbeg, hhead, hsrc, hmembers, hlinks, htail⟩ := hassigns
  have hnone : newExpressionType? (head :: (members ++ tail)) = none := by
    have hword : Keyword.ofWord? head.text = none := by simpa [isKeyword] using hhead.2
    cases members ++ tail with
    | nil => rfl
    | cons next rest => simp [newExpressionType?, hword]
  refine ⟨_, mem_assignmentsAt hvisit hbeg file dialect ws catalog, rfl, rfl, hnone,
    head.text, hsrc, ?_⟩
  simp only [assignmentOf, hnone, Option.isSome_none, Bool.false_eq_true, if_false]
  exact valueChain_members hhead hmembers hlinks htail

end

/-! ## One step of a chain -/

def Catalog.returnType? (catalog : Catalog) (type : String) (link : ChainLink) : Option String :=
  (catalog.member? type link.name).bind (·.returnType?)

namespace Resolver

variable {resolver : Resolver} {name : String} {line : Nat} {assignment : Assignment}

lemma foldlM_memberType? (type : String) (links : List ChainLink) :
    links.foldlM resolver.memberType? (.catalog type) =
      (links.foldlM resolver.catalog.returnType? type).map .catalog := by
  induction links generalizing type with
  | nil => rfl
  | cons link links ih =>
    have hlink : resolver.memberType? (.catalog type) link =
        (resolver.catalog.returnType? type link).map .catalog := by
      rw [memberType?, Catalog.returnType?, Option.map_bind]
      rfl
    rw [foldlM_cons, foldlM_cons, hlink]
    cases resolver.catalog.returnType? type link with
    | none => rfl
    | some next => exact ih next

lemma chainType?_new (hlast : resolver.lastTypedAssignment? name line = some assignment)
    (hnew : assignment.valueType = some type) (hops : Nat) (links : List ChainLink) :
    resolver.chainType? hops (⟨name, false⟩ :: links) line =
      (links.foldlM resolver.catalog.returnType? type).map .catalog := by
  rw [← foldlM_memberType?, chainType?.eq_def]
  simp [hlast, hnew]

lemma chainType?_followed (hlast : resolver.lastTypedAssignment? name line = some assignment)
    (hchain : assignment.valueType = none) (hops : Nat) (links : List ChainLink) :
    resolver.chainType? hops (⟨name, false⟩ :: links) line = if hops = 0 then none
      else (resolver.chainType? (hops - 1) assignment.valueChain assignment.line).bind
        (links.foldlM resolver.memberType?) := by
  rw [chainType?.eq_def]
  cases hops <;> simp [hlast, hchain]

def assignmentsOf (resolver : Resolver) (name : String) (line : Nat) : List Assignment :=
  (resolver.assignmentsAt line).filter fun assignment => sameName assignment.name name

lemma mem_assignmentsOf : assignment ∈ resolver.assignmentsOf name line ↔
      assignment ∈ resolver.assignmentsAt line ∧ sameName assignment.name name :=
  mem_filter

lemma assignmentsOf_congr {other : String} (hsame : sameName other name)
    (hbody : resolver.assignmentsAt place = resolver.assignmentsAt line) :
    resolver.assignmentsOf other place = resolver.assignmentsOf name line := by
  rw [sameName, beq_iff_eq] at hsame
  simp only [assignmentsOf, sameName, hsame, hbody]

lemma assignmentsAt_congr (hscope : resolver.table.scopeAt? place = resolver.table.scopeAt? line) :
    resolver.assignmentsAt place = resolver.assignmentsAt line := by
  rw [assignmentsAt, hscope, assignmentsAt]

lemma lastTypedAssignment?_eq (name : String) (line : Nat) :
    resolver.lastTypedAssignment? name line =
      ((resolver.assignmentsOf name line).filter fun assignment =>
        assignment.line ≤ line && assignment.isTyped).getLast? := by
  rw [lastTypedAssignment?, assignmentsOf, filter_filter]

lemma lastTypedAssignment?_of_once (hmem : assignment ∈ resolver.assignmentsAt place)
    (hbody : resolver.assignmentsAt place = resolver.assignmentsAt line)
    (honce : (resolver.assignmentsOf assignment.name line).length = 1)
    (hname : sameName assignment.name name) (hline : assignment.line ≤ line)
    (htyped : assignment.isTyped) :
    resolver.lastTypedAssignment? name line = some assignment := by
  have hasgm := mem_assignmentsOf.mpr ⟨hbody ▸ hmem, hname⟩
  obtain ⟨only, honly⟩ := length_eq_one_iff.mp honce
  rw [assignmentsOf_congr hname rfl] at honly
  rw [honly, mem_singleton] at hasgm
  subst hasgm
  rw [lastTypedAssignment?_eq, honly]
  simp [hline, htyped]

lemma chainType?_eq_none_of_loop (hnone : assignment.valueType = none) {head : String}
    (hchain : assignment.valueChain = ⟨head, false⟩ :: links)
    (hloop : resolver.lastTypedAssignment? head assignment.line = some assignment)
    (hlast : resolver.lastTypedAssignment? name line = some assignment) (hops : Nat)
    (after : List ChainLink) : resolver.chainType? hops (⟨name, false⟩ :: after) line = none := by
  induction hops generalizing name line after with
  | zero => rw [chainType?_followed hlast hnone, if_pos rfl]
  | succ hops ih =>
    rw [chainType?_followed hlast hnone, if_neg (Nat.add_one_ne_zero hops), hchain,
      Nat.add_sub_cancel, ih hloop links, Option.bind_none]

end Resolver

/-! ## Variables assigned once -/

/-- A new object is assigned, and on later lines members of the variable before.  The lines before
the last one stand from the last to the first, and the links in the order of the text. -/
inductive AssignedFrom (text type : String) :
    LineVisit → Token → List (LineVisit × Token) → List ChainLink → Prop
  | new {visit : LineVisit} {target : Token} (hvisit : visit ∈ moduleVisits text)
      (hnew : visit.AssignsNew target type) : AssignedFrom text type visit target [] []
  | members {visit place : LineVisit} {target source : Token}
      {earlier : List (LineVisit × Token)} {links more : List ChainLink}
      (hvisit : visit ∈ moduleVisits text)
      (hmembers : visit.AssignsMembers target source.text more)
      (horder : place.tokenLine < visit.tokenLine)
      (hearl : AssignedFrom text type place source earlier links) :
      AssignedFrom text type visit target ((place, source) :: earlier) (links ++ more)

lemma AssignedFrom.chainType? {text : String}
    (hassigned : AssignedFrom text type visit target earlier links)
    (hplain : links.all ChainLink.isPlain) (resolver : Resolver) {file : Path}
    {dialect : Dialect} (htable : resolver.table = parseModule file dialect text) {line : Nat}
    (hline : visit.tokenLine ≤ line) (hbody : ∀ place ∈ (visit, target) :: earlier,
      resolver.assignmentsAt place.1.tokenLine = resolver.assignmentsAt line)
    (honce : ∀ place ∈ (visit, target) :: earlier,
      (resolver.assignmentsOf place.2.text line).length = 1) {name : String}
    (hname : sameName target.text name) (hops : Nat) (after : List ChainLink) :
    resolver.chainType? hops (⟨name, false⟩ :: after) line = if earlier.length ≤ hops then
        ((links ++ after).foldlM resolver.catalog.returnType? type).map .catalog
      else none := by
  obtain ⟨table, ws, catalog⟩ := resolver
  subst htable
  induction hassigned generalizing line name hops after with
  | @new visit target hvisit hnew =>
    obtain ⟨assignment, hmem, htgt, hat, hvalue⟩ := hnew.exists_assignment hvisit
    have honly := honce (visit, target) mem_cons_self
    rw [← htgt] at honly hname
    have hlast := Resolver.lastTypedAssignment?_of_once hmem
      (hbody (visit, target) mem_cons_self) honly hname (hat ▸ hline)
      (by simp [Assignment.isTyped, hvalue])
    rw [Resolver.chainType?_new hlast hvalue]
    simp
  | @members visit place target source earlier links more hvisit hmembers horder _ ih =>
    obtain ⟨assignment, hmem, htgt, hat, hvalue, head, hhead, hchain⟩ :=
      hmembers.exists_assignment hvisit
    rw [all_append, Bool.and_eq_true] at hplain
    rw [if_pos hplain.2] at hchain
    have hhere := hbody (visit, target) mem_cons_self
    have honly := honce (visit, target) mem_cons_self
    rw [← htgt] at honly hname
    have hlast := Resolver.lastTypedAssignment?_of_once hmem hhere honly hname (hat ▸ hline)
      (by simp [Assignment.isTyped, hchain])
    have hbef := ih hplain.1 horder.le hhead (hops - 1) more
      (fun other hoth => (hbody other (mem_cons_of_mem _ hoth)).trans hhere.symm)
      (fun other hoth => by
        rw [Resolver.assignmentsOf_congr (beq_self_eq_true _) hhere]
        exact honce other (mem_cons_of_mem _ hoth))
    rw [Resolver.chainType?_followed hlast hvalue, hchain, hat, hbef]
    cases hops with
    | zero => simp
    | succ hops =>
      simp only [Nat.add_one_ne_zero, if_false, Nat.add_sub_cancel, length_cons,
        Nat.add_le_add_iff_right, append_assoc]
      split
      · have happend : (links ++ (more ++ after)).foldlM catalog.returnType? type =
            ((links ++ more).foldlM catalog.returnType? type).bind
              (after.foldlM catalog.returnType?) := by
          rw [← append_assoc]
          exact foldlM_append
        rw [happend]
        cases (links ++ more).foldlM catalog.returnType? type with
        | none => rfl
        | some last => exact Resolver.foldlM_memberType? last after
      · rfl

/-- **The types of members are put together along assignments.**  Each variable is assigned once in
the body, the first one a new object and each other one members of the variable before; one hop is
spent for each assignment but the first. -/
theorem receiverType?_assigned {text : String} {visit : LineVisit} {target : Token}
    (hassigned : AssignedFrom text type visit target earlier links)
    (hplain : ∀ link ∈ links, isKeyword link.name = false) (file : Path) (dialect : Dialect)
    (workspace : Snapshot) (catalog : Catalog) (line : Nat) (hline : visit.tokenLine ≤ line) :
    let resolver := Resolver.mk (parseModule file dialect text) workspace catalog
    (∀ place ∈ (visit, target) :: earlier, (resolver.assignmentsOf place.2.text line).length = 1 ∧
        resolver.table.scopeAt? place.1.tokenLine = resolver.table.scopeAt? line) →
    resolver.receiverType? [⟨target.text, false⟩] line = if earlier.length ≤ maxAssignmentHops then
        (links.foldlM catalog.returnType? type).map .catalog
      else none := by
  intro resolver hplaces
  have hall : links.all ChainLink.isPlain = true :=
    all_eq_true.mpr fun link hlink => by simp [ChainLink.isPlain, hplain link hlink]
  have htype := hassigned.chainType? hall resolver rfl hline
    (fun place hplace => Resolver.assignmentsAt_congr (hplaces place hplace).2)
    (fun place hplace => (hplaces place hplace).1) (beq_self_eq_true _) maxAssignmentHops []
  rwa [append_nil] at htype

def catalogOf (method : String) : Catalog := .ofDescription .bsl {
    version := 1, classes := [("Т", { methods := [(method, { returnType? := some "Р" })] })] }

lemma assignsNew_of_tokens (htgt : target.IsName)
    (htoks : visit.statements = [target, ⟨.assign, "=", 2⟩, ⟨.identifier, "Новый", 4⟩,
      ⟨.identifier, "Т", 10⟩, ⟨.semicolon, ";", 11⟩]) : visit.AssignsNew target "Т" :=
  ⟨_, _, _, ⟨htgt, _, rfl, htoks⟩, by decide, rfl, rfl⟩

lemma assignsMembers_of_tokens (htgt : target.IsName)
    (htoks : visit.statements = [target, ⟨.assign, "=", 2⟩, ⟨.identifier, "А", 4⟩,
      ⟨.dot, ".", 5⟩, ⟨.identifier, "М", 6⟩, ⟨.leftParen, "(", 7⟩, ⟨.rightParen, ")", 8⟩,
      ⟨.semicolon, ";", 9⟩]) : visit.AssignsMembers target "А" [⟨"М", true⟩] := by
  have hmembers : MemberTokens [⟨.dot, ".", 5⟩, ⟨.identifier, "М", 6⟩, ⟨.leftParen, "(", 7⟩,
      ⟨.rightParen, ")", 8⟩] [⟨"М", true⟩] :=
    .cons rfl rfl (.call [] rfl (by decide) rfl) .nil
  exact ⟨_, _, _, ⟨htgt, _, rfl, htoks⟩, by decide, by decide, hmembers, by simp,
    by simp [EndsStatement]⟩

theorem receiverType?_assigned_call :
    let table := parseModule (Path.ofText "m.bsl") .bsl "А = Новый Т;\nБ = А.М();"
    let catalog := catalogOf "М"
    (Resolver.mk table {} catalog).receiverType? [⟨"Б", false⟩] 1 = some (.catalog "Р") := by
  intro table catalog
  let first : LineVisit := ⟨0, false, "А = Новый Т;".toList, ["Б = А.М();".toList]⟩
  let second : LineVisit := ⟨1, false, "Б = А.М();".toList, []⟩
  let source : Token := ⟨.identifier, "А", 0⟩
  let target : Token := ⟨.identifier, "Б", 0⟩
  have hvisits : [first, second] ⊆ moduleVisits "А = Новый Т;\nБ = А.М();" := by decide +kernel
  have hnew : first.AssignsNew source "Т" := assignsNew_of_tokens (by decide) (by decide +kernel)
  have hmembers : second.AssignsMembers target source.text [⟨"М", true⟩] :=
    assignsMembers_of_tokens (by decide) (by decide +kernel)
  have hassigned : AssignedFrom "А = Новый Т;\nБ = А.М();" "Т" second target [(first, source)]
      ([] ++ [⟨"М", true⟩]) :=
    .members (hvisits (by simp)) hmembers (by decide +kernel) (.new (hvisits mem_cons_self) hnew)
  exact receiverType?_assigned hassigned (forall_mem_singleton.mpr (by decide))
    (Path.ofText "m.bsl") .bsl {} catalog 1 (by decide +kernel) (by decide +kernel)

/-- A member spelled like a keyword has a type, and the variable that it is assigned to has none. -/
theorem receiverType?_keyword_member :
    let table := parseModule (Path.ofText "m.bsl") .bsl
      "Процедура П()\nА = Новый Т;\nБ = А.Возврат();\n"
    let catalog := catalogOf "Возврат"
    [⟨"Возврат", true⟩].foldlM catalog.returnType? "Т" = some "Р" ∧
      (Resolver.mk table {} catalog).receiverType? [⟨"Б", false⟩] 3 = none := by
  decide +kernel

/-! ## A variable assigned through itself -/

lemma assignmentsAt_sorted
    {file : Path} {dialect : Dialect} {text : String} {ws : Snapshot} {catalog : Catalog}
    {line : Nat} (hmeth : ((parseModule file dialect text).scopeAt? line).isSome) :
    ((Resolver.mk (parseModule file dialect text) ws catalog).assignmentsAt line).Pairwise
      fun earlier later => earlier.line ≤ later.line := by
  obtain ⟨scope, hscope⟩ := Option.isSome_iff_exists.mp hmeth
  have hlines := (laidOut_parseModule file dialect text).scopes scope (mem_of_find?_eq_some hscope)
  simpa only [Resolver.assignmentsAt, hscope] using hlines.2.2.assignments_sorted

lemma eq_pair_of_sorted {assignments : List Assignment} (hlen : assignments.length = 2)
    (hsort : assignments.Pairwise fun earlier later => earlier.line ≤ later.line)
    {first second : Assignment} (hfirst : first ∈ assignments) (hsnd : second ∈ assignments)
    (horder : first.line < second.line) : assignments = [first, second] := by
  obtain ⟨left, right, rfl⟩ := length_eq_two.mp hlen
  rw [pairwise_pair] at hsort
  rw [mem_pair] at hfirst hsnd
  rcases hfirst with rfl | rfl <;> rcases hsnd with rfl | rfl <;> first | rfl | omega

/-- **A variable assigned through itself has no type behind the assignment.**  Up to there it has
the type of the new object, and keeps it where the assignment is not read because a member is
spelled like a keyword. -/
theorem receiverType?_reassigned {text : String} {first second : LineVisit} {target again : Token}
    (hfirst : first ∈ moduleVisits text) (hnew : first.AssignsNew target type)
    (hsecond : second ∈ moduleVisits text)
    (hmembers : second.AssignsMembers again target.text links)
    (hagain : sameName again.text target.text = true) (horder : first.tokenLine < second.tokenLine)
    (file : Path) (dialect : Dialect) (workspace : Snapshot) (catalog : Catalog) (line : Nat) :
    let resolver := Resolver.mk (parseModule file dialect text) workspace catalog
    (resolver.table.scopeAt? line).isSome = true →
    resolver.table.scopeAt? first.tokenLine = resolver.table.scopeAt? line →
    resolver.table.scopeAt? second.tokenLine = resolver.table.scopeAt? line →
    (resolver.assignmentsOf target.text line).length = 2 →
    (first.tokenLine ≤ line → line < second.tokenLine →
      resolver.receiverType? [⟨target.text, false⟩] line = some (.catalog type)) ∧
    (second.tokenLine ≤ line → resolver.receiverType? [⟨target.text, false⟩] line =
        if ∀ link ∈ links, isKeyword link.name = false then none else some (.catalog type)) := by
  intro resolver hmethod hfirstScope hsecondScope hlength
  have hfirstBody := Resolver.assignmentsAt_congr hfirstScope
  have hsecondBody := Resolver.assignmentsAt_congr hsecondScope
  obtain ⟨one, hone, honeName, honeLine, honeType⟩ :
      ∃ assignment ∈ resolver.assignmentsAt first.tokenLine, _ := hnew.exists_assignment hfirst
  obtain ⟨two, htwo, htwoName, htwoLine, htwoType, head, hhead, hchain⟩ :
      ∃ assignment ∈ resolver.assignmentsAt second.tokenLine, _ :=
    hmembers.exists_assignment hsecond
  have hpair := eq_pair_of_sorted hlength ((assignmentsAt_sorted hmethod).sublist filter_sublist)
      (Resolver.mem_assignmentsOf.mpr ⟨hfirstBody ▸ hone, honeName ▸ beq_self_eq_true _⟩)
      (Resolver.mem_assignmentsOf.mpr ⟨hsecondBody ▸ htwo, htwoName ▸ hagain⟩)
      (honeLine ▸ htwoLine ▸ horder)
  have hself : sameName target.text target.text = true := beq_self_eq_true _
  -- What is found depends on the line and on whether the second assignment was read.
  have hfound {name : String} (hname : sameName target.text name = true) {place : Nat}
      (hbody : resolver.assignmentsAt line = resolver.assignmentsAt place) :
      resolver.lastTypedAssignment? name place =
        ([one, two].filter fun other => other.line ≤ place && other.isTyped).getLast? := by
    rw [Resolver.lastTypedAssignment?_eq, ← Resolver.assignmentsOf_congr hname hbody, hpair]
  have hfirstType (hlast : resolver.lastTypedAssignment? target.text line = some one) :
      resolver.receiverType? [⟨target.text, false⟩] line = some (.catalog type) :=
    Resolver.chainType?_new hlast honeType _ []
  constructor
  · intro hafter hbefore
    apply hfirstType
    rw [hfound hself rfl]
    simp [honeLine, hafter, Assignment.isTyped, honeType, htwoLine, Nat.not_le_of_lt hbefore]
  · intro hafter
    by_cases hplain : ∀ link ∈ links, isKeyword link.name = false
    · have hall : links.all ChainLink.isPlain = true :=
        all_eq_true.mpr fun link hlink => by simp [ChainLink.isPlain, hplain link hlink]
      rw [if_pos hall] at hchain
      rw [if_pos hplain]
      have hlast {name : String} (hname : sameName target.text name = true) {place : Nat}
          (hbody : resolver.assignmentsAt line = resolver.assignmentsAt place)
          (hplace : second.tokenLine ≤ place) :
          resolver.lastTypedAssignment? name place = some two := by
        rw [hfound hname hbody]
        simp [htwoLine, hplace, Assignment.isTyped, hchain]
      have hloop : resolver.lastTypedAssignment? head two.line = some two := by
        rw [htwoLine]
        exact hlast hhead hsecondBody.symm le_rfl
      rw [Resolver.receiverType?]
      exact Resolver.chainType?_eq_none_of_loop htwoType hchain hloop (hlast hself rfl hafter) _ []
    · have hnotAll : ¬links.all ChainLink.isPlain = true := by
        simpa [ChainLink.isPlain] using hplain
      rw [if_neg hnotAll] at hchain
      rw [if_neg hplain]
      apply hfirstType
      rw [hfound hself rfl]
      simp [honeLine, horder.le.trans hafter, Assignment.isTyped, honeType, htwoType, hchain]

/-- A call of a method that gives another type. -/
theorem receiverType?_reassigned_call :
    let text := "Процедура П()\nА = Новый Т;\nА = А.М();\n"
    let catalog := catalogOf "М"
    let resolver := Resolver.mk (parseModule (Path.ofText "m.bsl") .bsl text) {} catalog
    resolver.receiverType? [⟨"А", false⟩] 3 = none := by
  intro text catalog resolver
  let first : LineVisit := ⟨1, false, "А = Новый Т;".toList, ["А = А.М();".toList, []]⟩
  let second : LineVisit := ⟨2, false, "А = А.М();".toList, [[]]⟩
  have hvisits : [first, second] ⊆ moduleVisits text := by decide +kernel
  have hnew : first.AssignsNew ⟨.identifier, "А", 0⟩ "Т" :=
    assignsNew_of_tokens (by decide) (by decide +kernel)
  have hmembers : second.AssignsMembers ⟨.identifier, "А", 0⟩ "А" [⟨"М", true⟩] :=
    assignsMembers_of_tokens (by decide) (by decide +kernel)
  have hplaces : (resolver.table.scopeAt? 3).isSome = true ∧
      resolver.table.scopeAt? first.tokenLine = resolver.table.scopeAt? 3 ∧
      resolver.table.scopeAt? second.tokenLine = resolver.table.scopeAt? 3 ∧
      (resolver.assignmentsOf "А" 3).length = 2 ∧ first.tokenLine < second.tokenLine ∧
      second.tokenLine ≤ 3 := by
    decide +kernel
  obtain ⟨hmethod, hfirst, hsecond, hlength, horder, hline⟩ := hplaces
  have htypes := receiverType?_reassigned (hvisits mem_cons_self) hnew
    (hvisits (by simp)) hmembers (by decide) horder (Path.ofText "m.bsl") .bsl {} catalog 3
    hmethod hfirst hsecond hlength
  rw [htypes.2 hline]
  decide

/-- The call has a type where it is written out, and the variable that takes its value has none. -/
theorem receiverType?_own_call :
    let text := "Процедура П()\nА = Новый Т;\nА = А.М();\n"
    let catalog := catalogOf "М"
    let resolver := Resolver.mk (parseModule (Path.ofText "m.bsl") .bsl text) {} catalog
    resolver.receiverType? [⟨"А", false⟩, ⟨"М", true⟩] 1 = some (.catalog "Р") ∧
      resolver.receiverType? [⟨"А", false⟩] 3 = none := by
  decide +kernel

end BslInsight
