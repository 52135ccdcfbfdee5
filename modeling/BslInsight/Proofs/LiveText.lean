import BslInsight.Engine
import BslInsight.Proofs.ReverseLookup
import BslInsight.Proofs.ScanInvariant

/-!
# Answers about the text that the user sees

The workspace may hold a table of an older text than that of a query.  It reaches an answer in two
ways only: in place of the table of the same text, which is harmless unless that begins with two
byte order marks, and when a module addresses itself by its own name.
-/

namespace BslInsight

variable {text name : String} {line : Nat} {position : Position}

/-! ## The table of a text -/

lemma ScanState.scanInvariant_origin (file : Path) (dialect : Dialect) (text : String) :
    ScanInvariant fun _ state => state.table.dialect = dialect ∧
      state.table.file = file ∧ state.table.text = text where
  mono hholds _ := hholds
  move hmove hholds := by
    cases hmove with
    | close hcur =>
      rw [ScanState.closeMethod_of_current hcur]
      exact hholds
    | _ => exact hholds
  directive _ _ hholds := hholds
  opening hholds _ _ _ := hholds

section

variable (file : Path) (dialect : Dialect) (text : String)

lemma parseModule_source : (parseModule file dialect text).dialect = dialect ∧
      (parseModule file dialect text).file = file ∧
      (parseModule file dialect text).text = String.ofList (dropByteOrderMark text.toList) := by
  obtain ⟨state, hstate, -, htable⟩ := @ScanInvariant.exists_end _
    (ScanState.scanInvariant_origin file dialect _) file dialect text ⟨rfl, rfl, rfl⟩
  rwa [htable] at hstate

lemma parseModule_dialect : (parseModule file dialect text).dialect = dialect :=
  (parseModule_source file dialect text).1

lemma parseModule_origin : (parseModule file dialect text).file = file ∧
      (parseModule file dialect text).text = String.ofList (dropByteOrderMark text.toList) :=
  (parseModule_source file dialect text).2

end

lemma parseModule_of_dropped {other : String}
    (hdrp : dropByteOrderMark text.toList = dropByteOrderMark other.toList) (file : Path)
    (dialect : Dialect) : parseModule file dialect text = parseModule file dialect other := by
  unfold parseModule
  rw [hdrp]

def IsMarkedTwice (text : List Char) : Prop := ['\ufeff', '\ufeff'] <+: text

lemma dropByteOrderMark_dropByteOrderMark {text : List Char} (hmarked : ¬ IsMarkedTwice text) :
    dropByteOrderMark (dropByteOrderMark text) = dropByteOrderMark text := by
  unfold IsMarkedTwice at hmarked
  by_cases hfirst : ∃ rest, text = '\ufeff' :: rest
  · obtain ⟨rest, rfl⟩ := hfirst
    by_cases hsnd : ∃ more, rest = '\ufeff' :: more
    · obtain ⟨more, rfl⟩ := hsnd
      simp at hmarked
    · simp only [dropByteOrderMark]
      split
      · exact absurd ⟨_, rfl⟩ hsnd
      · rfl
  · have hkept : dropByteOrderMark text = text := by
      unfold dropByteOrderMark
      split
      · exact absurd ⟨_, rfl⟩ hfirst
      · rfl
    rw [hkept, hkept]

namespace Resolver

/-! ## What a resolver asks the workspace -/

def within (resolver : Resolver) (workspace : Snapshot) : Resolver := { resolver with workspace }

def askedModule? (resolver : Resolver) (hops : Nat) (chain : List ChainLink) (line : Nat) :
    Option String :=
  match chain with
  | [] => none
  | head :: _ =>
    if head.isCall then none
    else match resolver.lastTypedAssignment? head.name line with
      | none =>
        if (resolver.methodSymbol? head.name line).isNone &&
          (resolver.catalog.type? head.name).isNone then some head.name else none
      | some assignment =>
        if assignment.valueType.isSome then none
        else match hops with
          | 0 => none
          | hops + 1 => resolver.askedModule? hops assignment.valueChain assignment.line

def Reference.receiver? : Reference → Option (List ChainLink)
  | .member receiver _ => receiver
  | _ => none

/-- What stands before the dot of the name that touches a position. -/
def receiverAt? (resolver : Resolver) (position : Position) : Option (List ChainLink) :=
  (resolver.referenceAt? position).bind Reference.receiver?

/-- What stands before the dot of the name being typed at a position. -/
def typedReceiver? (resolver : Resolver) (position : Position) : Option (List ChainLink) :=
  match (resolver.typingAt position).trigger with
  | .member receiver => receiver
  | _ => none

/-- What stands before the dot of the callee of the call that is open at a position. -/
def calleeReceiver? (resolver : Resolver) (position : Position) : Option (List ChainLink) :=
  (resolver.callAt? position).bind fun call => resolver.receiverAt? ⟨position.line, call.calleeEnd⟩

def modulesAsked (resolver : Resolver) (position : Position) : List String :=
  [resolver.receiverAt? position, resolver.typedReceiver? position,
    resolver.calleeReceiver? position].filterMap fun receiver? =>
      receiver?.bind (resolver.askedModule? maxAssignmentHops · position.line)

variable {resolver : Resolver} {other : Snapshot}

@[simp] lemma lastTypedAssignment?_within :
    (resolver.within other).lastTypedAssignment? = resolver.lastTypedAssignment? := rfl

@[simp] lemma callType?_within : (resolver.within other).callType? = resolver.callType? := rfl

@[simp] lemma memberType?_within : (resolver.within other).memberType? = resolver.memberType? := rfl

lemma nameType?_within (hasked : (resolver.methodSymbol? name line).isNone →
        (resolver.catalog.type? name).isNone →
          resolver.workspace.moduleNamed? name = other.moduleNamed? name) :
    (resolver.within other).nameType? name line = resolver.nameType? name line := by
  change (if (resolver.methodSymbol? name line).isSome then none
    else ((resolver.catalog.type? name).map fun type => ReceiverType.catalog type.entry.name) <|>
      (other.moduleNamed? name).map .module <|>
      (resolver.catalog.global? name).bind fun entry => entry.returnType?.map .catalog) = _
  unfold nameType?
  cases hmeth : resolver.methodSymbol? name line with
  | some symbol => rfl
  | none =>
    cases htype : resolver.catalog.type? name with
    | some type => rfl
    | none => rw [hasked (by rw [hmeth]; rfl) (by rw [htype]; rfl)]

lemma chainType?_within {hops : Nat} {chain : List ChainLink} (hasked :
      ∀ name, resolver.askedModule? hops chain line = some name →
        resolver.workspace.moduleNamed? name = other.moduleNamed? name) :
    (resolver.within other).chainType? hops chain line = resolver.chainType? hops chain line := by
  fun_induction askedModule? resolver hops chain line with
  | case1 hops line => rw [chainType?, chainType?]
  | case2 hops line head members hcall => simp [chainType?, hcall]
  | case3 hops line head members hcall hassigned hunknown =>
    have hname : (resolver.within other).nameType? head.name line =
        resolver.nameType? head.name line :=
      nameType?_within fun _ _ => hasked head.name rfl
    simp [chainType?, hassigned, hname]
  | case4 hops line head members hcall hassigned hknown =>
    have hname : (resolver.within other).nameType? head.name line =
        resolver.nameType? head.name line :=
      nameType?_within fun hmeth htype => absurd (by rw [hmeth, htype]; rfl) hknown
    simp [chainType?, hassigned, hname]
  | case5 hops line head members hcall assignment hassigned htyped =>
    obtain ⟨type, htype⟩ := Option.isSome_iff_exists.mp htyped
    simp [chainType?, hassigned, htype]
  | case6 line head members hcall assignment hassigned htyped => simp [chainType?, hassigned]
  | case7 line head members hcall assignment hassigned htyped hops ih =>
    simp [chainType?, hassigned, ih hasked]

/-! ## Answers of a resolver -/

/-- Both snapshots have the same module under every name that the type of a chain is looked for
under. -/
def AsksAlike (resolver : Resolver) (other : Snapshot) (receiver? : Option (List ChainLink))
    (line : Nat) : Prop :=
  ∀ name, receiver?.bind (resolver.askedModule? maxAssignmentHops · line) = some name →
    resolver.workspace.moduleNamed? name = other.moduleNamed? name

lemma AsksAlike.receiverType? {receiver? : Option (List ChainLink)}
    (hasked : resolver.AsksAlike other receiver? line) :
    receiver?.bind ((resolver.within other).receiverType? · line) =
      receiver?.bind (resolver.receiverType? · line) := by
  cases receiver? with
  | none => rfl
  | some chain => exact chainType?_within hasked

variable (hagree : resolver.workspace.AgreesOutside other resolver.table.file)

include hagree

lemma resolveName_within (name : String) (line : Nat) :
    (resolver.within other).resolveName name line = resolver.resolveName name line := by
  have hsym : (resolver.within other).workspaceSymbol? name = resolver.workspaceSymbol? name :=
    congrArg List.head? (hagree.exportedMethodsNamed name).symm
  unfold resolveName
  rw [hsym]
  rfl

lemma resolveReference_within {reference : Reference}
    (hasked : resolver.AsksAlike other reference.receiver? line) :
    (resolver.within other).resolveReference line reference =
      resolver.resolveReference line reference := by
  cases reference with
  | member receiver? name =>
    have htype := hasked.receiverType?
    simp only [Reference.receiver?] at htype
    simp only [resolveReference, htype]
    rfl
  | newObject name => rfl
  | bare name => exact resolveName_within hagree name line

lemma resolveAt_within
    (hasked : resolver.AsksAlike other (resolver.receiverAt? position) position.line) :
    (resolver.within other).resolveAt position = resolver.resolveAt position := by
  change (resolver.referenceAt? position).bind
      ((resolver.within other).resolveReference position.line) =
    (resolver.referenceAt? position).bind (resolver.resolveReference position.line)
  unfold receiverAt? at hasked
  cases hreference : resolver.referenceAt? position with
  | none => rfl
  | some reference =>
    rw [hreference] at hasked
    exact resolveReference_within hagree hasked

lemma completions_within
    (hasked : resolver.AsksAlike other (resolver.typedReceiver? position) position.line)
    (locale : Locale) :
    (resolver.within other).completions position locale = resolver.completions position locale := by
  have hmethods := hagree.exportedMethods
  have hbuckets : (resolver.within other).buckets (resolver.typingAt position) position.line
      locale = resolver.buckets (resolver.typingAt position) position.line locale := by
    unfold typedReceiver? at hasked
    unfold buckets
    cases htrig : (resolver.typingAt position).trigger with
    | newExpression => rfl
    | member receiver? =>
      rw [htrig] at hasked
      simp only [hasked.receiverType?]
      rfl
    | name =>
      simp only [within, hmethods]
      rfl
  exact congrArg mergeBuckets hbuckets

lemma signatureAt?_within
    (hasked : resolver.AsksAlike other (resolver.calleeReceiver? position) position.line)
    (locale : Locale) :
    (resolver.within other).signatureAt? position locale =
      resolver.signatureAt? position locale := by
  have hcall : (resolver.within other).callAt? position = resolver.callAt? position := rfl
  unfold calleeReceiver? at hasked
  unfold signatureAt?
  rw [hcall]
  cases hopen : resolver.callAt? position with
  | none => rfl
  | some call =>
    rw [hopen] at hasked
    have hresolve := resolveAt_within hagree hasked
    simp only [Option.bind_eq_bind, Option.bind_some, hresolve]
    rfl

end Resolver

def Catalogs.blank : Catalogs :=
  ⟨.ofDescription .bsl { version := 1 }, .ofDescription .oneScript { version := 1 }⟩

namespace Engine

/-! ## Answers of an engine -/

def withSnapshot (engine : Engine) (snapshot : Snapshot) : Engine :=
  { engine with workspace := { engine.workspace with snapshot } }

/-- What a snapshot holds for a file are tables of texts of that file, perhaps of older ones. -/
def HoldsTablesOf (engine : Engine) (path : Path) (snapshot : Snapshot) : Prop :=
  ∀ entry ∈ snapshot.tables, entry.1.same path = true →
    ∃ old, entry.2 = engine.workspace.parse path old

structure AnswersAlike (engine other : Engine) (path : Path) (text : String)
    (position : Position) : Prop where
  resolution : engine.resolveAt path text position = other.resolveAt path text position
  completions : engine.completionsAt path text position = other.completionsAt path text position
  definition : engine.definitionOf path text position = other.definitionOf path text position
  hover : engine.hoverAt path text position = other.hoverAt path text position
  signature : engine.signatureOf path text position = other.signatureOf path text position

variable {engine : Engine} {path : Path} {snapshot : Snapshot}

lemma holdsTablesOf_empty : engine.HoldsTablesOf path {} :=
  fun _ hentry => absurd hentry List.not_mem_nil

section

variable (hholds : engine.HoldsTablesOf path snapshot)
include hholds

lemma HoldsTablesOf.withTable (old : String) :
    engine.HoldsTablesOf path (snapshot.withTable path (engine.workspace.parse path old)) := by
  intro entry hentry hsame
  rcases TableMap.mem_of_mem_insert hentry with hmem | ⟨-, htable⟩
  · exact hholds entry hmem hsame
  · exact ⟨old, htable⟩

lemma HoldsTablesOf.withNeighbour {neighbour : Path}
    (hoth : neighbour.same path = false) (table : ModuleTable) :
    engine.HoldsTablesOf path (snapshot.withTable neighbour table) := by
  intro entry hentry hsame
  rcases TableMap.mem_of_mem_insert hentry with hmem | ⟨hkey, -⟩
  · exact hholds entry hmem hsame
  · rw [Path.same_congr_left hkey, hoth] at hsame
    cases hsame

lemma HoldsTablesOf.isNamed (hoth : (moduleName? path).map lower ≠ some (lower name)) :
    ∀ entry ∈ snapshot.tables, entry.1.same path → entry.2.isNamed (lower name) = false := by
  intro entry hentry hsame
  obtain ⟨old, htable⟩ := hholds entry hentry hsame
  have hfile : entry.2.file = path := by
    rw [htable]
    exact (parseModule_origin path _ old).1
  simpa [ModuleTable.isNamed, ModuleTable.name?, hfile] using hoth

end

lemma HoldsTablesOf.document_eq (hholds : engine.HoldsTablesOf path.normalize snapshot)
    (hmarked : ¬ IsMarkedTwice text.toList) :
    (engine.withSnapshot snapshot).document path text =
      engine.workspace.parse path.normalize (String.ofList (dropByteOrderMark text.toList)) := by
  have hsnapshot : (engine.withSnapshot snapshot).workspace.snapshot = snapshot := rfl
  simp only [document, hsnapshot]
  cases hget : snapshot.get? path.normalize with
  | none => rfl
  | some table =>
    obtain ⟨key, hmem, hsame⟩ := PathMap.mem_of_get?_eq_some hget
    obtain ⟨old, htable⟩ := hholds _ hmem hsame
    simp only at htable
    by_cases htext : table.text = String.ofList (dropByteOrderMark text.toList)
    · have hold : table.text = String.ofList (dropByteOrderMark old.toList) := by
        rw [htable]
        exact (parseModule_origin path.normalize _ old).2
      have hsameText := String.ofList_injective (hold.symm.trans htext)
      have hdrp : dropByteOrderMark old.toList = dropByteOrderMark
          (String.ofList (dropByteOrderMark text.toList)).toList := by
        rw [String.toList_ofList, dropByteOrderMark_dropByteOrderMark hmarked, hsameText]
      simp only [htext, if_true]
      rw [htable]
      exact parseModule_of_dropped hdrp _ _
    · simp only [htext, if_false]
      rfl

/-- Answers do not depend on what is held for the file, unless the text begins with two byte order
marks or the module is found under its own name as it was. -/
theorem answersAlike_of_agreesOutside
    {text : String} {position : Position} {first second : Snapshot}
    (hagree : first.AgreesOutside second path.normalize)
    (hfirst : engine.HoldsTablesOf path.normalize first)
    (hsecond : engine.HoldsTablesOf path.normalize second)
    (hmarked : ¬ IsMarkedTwice text.toList)
    (hown : ∀ name ∈ ((engine.withSnapshot first).resolver path text).modulesAsked position,
        (moduleName? path.normalize).map lower = some (lower name) →
          first.moduleNamed? name = second.moduleNamed? name) :
    (engine.withSnapshot first).AnswersAlike (engine.withSnapshot second) path text position := by
  let resolver := (engine.withSnapshot first).resolver path text
  have hresolver : (engine.withSnapshot second).resolver path text = resolver.within second := by
    have hdocument : (engine.withSnapshot second).document path text =
        (engine.withSnapshot first).document path text := by
      rw [hfirst.document_eq hmarked, hsecond.document_eq hmarked]
    unfold Engine.resolver
    rw [hdocument]
    rfl
  have hfile : resolver.table.file = path.normalize := by
    change ((engine.withSnapshot first).document path text).file = path.normalize
    rw [hfirst.document_eq hmarked]
    exact (parseModule_origin _ _ _).1
  have houtside : resolver.workspace.AgreesOutside second resolver.table.file := by
    rw [hfile]
    exact hagree
  have hnamed (name : String) (hname : name ∈ resolver.modulesAsked position) :
      first.moduleNamed? name = second.moduleNamed? name := by
    by_cases hself : (moduleName? path.normalize).map lower = some (lower name)
    · exact hown name hname hself
    · exact hagree.moduleNamed? (hfirst.isNamed hself) (hsecond.isNamed hself)
  have hasked (receiver? : Option (List ChainLink))
      (hreceiver : receiver? ∈ [resolver.receiverAt? position, resolver.typedReceiver? position,
        resolver.calleeReceiver? position]) :
      resolver.AsksAlike second receiver? position.line := by
    intro name hname
    exact hnamed name (List.mem_filterMap.mpr ⟨receiver?, hreceiver, hname⟩)
  have hresolve := (Resolver.resolveAt_within houtside (hasked _ (by simp))).symm
  have hmeaning : (engine.withSnapshot first).resolveAt path text position =
      (engine.withSnapshot second).resolveAt path text position := by
    unfold resolveAt
    rw [hresolver]
    exact hresolve
  constructor
  case resolution => exact hmeaning
  case completions =>
    unfold completionsAt
    rw [hresolver]
    exact (Resolver.completions_within houtside (hasked _ (by simp)) _).symm
  case definition =>
    unfold definitionOf
    rw [hmeaning]
  case hover =>
    unfold hoverAt Resolver.hoverAt?
    rw [hresolver, ← hresolve]
    rfl
  case signature =>
    unfold signatureOf
    rw [hresolver]
    exact (Resolver.signatureAt?_within houtside (hasked _ (by simp)) _).symm

/-- A name of another module is answered from its table, with an older table of this one held. -/
theorem answersAlike_of_agreesOutside_neighbour :
    let engine : Engine := ⟨Catalogs.blank, {}⟩
    let path := (Path.ofText "ws/Модуль.bsl").normalize
    let neighbour := Path.ofText "ws/Другой.bsl"
    let text := "Другой.Новая();"
    let base := Snapshot.withTable {} neighbour
      (engine.workspace.parse neighbour "Процедура Новая() Экспорт\nКонецПроцедуры")
    let held := base.withTable path
      (engine.workspace.parse path "Процедура Старая() Экспорт\nКонецПроцедуры")
    engine.HoldsTablesOf path held ∧
      ((engine.withSnapshot held).resolver path text).modulesAsked ⟨0, 8⟩ = ["Другой", "Другой"] ∧
      (engine.withSnapshot held).AnswersAlike (engine.withSnapshot base) path text ⟨0, 8⟩ := by
  intro engine path neighbour text base held
  have hpath : path.normalize = path := Path.normalize_normalize _
  have hbase : engine.HoldsTablesOf path base :=
    holdsTablesOf_empty.withNeighbour (by decide +kernel) _
  have hheld : engine.HoldsTablesOf path held := hbase.withTable _
  have hasked : ((engine.withSnapshot held).resolver path text).modulesAsked ⟨0, 8⟩ =
      ["Другой", "Другой"] := by
    decide +kernel
  refine ⟨hheld, hasked, answersAlike_of_agreesOutside ?_ ?_ ?_ ?_ ?_⟩
  · rw [hpath]
    exact base.agreesOutside_withTable path _
  · rwa [hpath]
  · rwa [hpath]
  · unfold IsMarkedTwice
    decide +kernel
  · intro name hname hself
    have hname : name = "Другой" := by simpa [hasked] using hname
    rw [hname] at hself
    exact absurd hself (by decide +kernel)

/-- A held table answers a module that addresses itself by its own name, and a text that begins
with two byte order marks. -/
theorem not_answersAlike_of_held_table :
    let engine : Engine := ⟨Catalogs.blank, {}⟩
    let path := (Path.ofText "ws/Модуль.bsl").normalize
    let held (old : String) := Snapshot.withTable {} path (engine.workspace.parse path old)
    (∀ old, (held old).AgreesOutside {} path ∧ engine.HoldsTablesOf path (held old)) ∧
      ¬ (engine.withSnapshot (held "Процедура Старая() Экспорт\nКонецПроцедуры")).AnswersAlike
        (engine.withSnapshot {}) path "Модуль.Старая();" ⟨0, 8⟩ ∧
      ¬ (engine.withSnapshot (held "\ufeff\ufeffПерем А;")).AnswersAlike
        (engine.withSnapshot {}) path "\ufeff\ufeffПерем А;" ⟨0, 8⟩ := by
  intro engine path held
  refine ⟨fun old => ⟨Snapshot.agreesOutside_withTable {} path _,
    holdsTablesOf_empty.withTable old⟩, fun halike => ?_, fun halike => ?_⟩
  · exact absurd halike.resolution (by decide +kernel)
  · exact absurd halike.resolution (by decide +kernel)

end Engine

end BslInsight
