import BslInsight.Proofs.WorkerFiles
import BslInsight.Server

/-!
# Open documents

The texts of open documents at the server are compared with the buffers and tables of its worker.
A flush presents the text of an open document, unless a notice said that its file was deleted and
no text has come in since.  Notices of changes are ignored.
-/

namespace BslInsight

open List

variable {command : WorkerCommand} {path : Path} {named : Uri}

namespace Server

namespace Documents

lemma text?_close (documents : Documents) (uri other : Uri) :
    (documents.close uri).text? other = if other = uri then none else documents.text? other :=
  lookup_filter_ne uri other documents

lemma text?_set (documents : Documents) (uri : Uri) (text : String) (other : Uri) :
    (documents.set uri text).text? other =
      if other = uri then some text else documents.text? other := by
  have hclose := text?_close documents uri other
  unfold text? at hclose ⊢
  by_cases hoth : other = uri
  · simp [set, hoth]
  · rw [if_neg hoth] at hclose ⊢
    rw [set, lookup_cons, beq_eq_false_iff_ne.mpr hoth, ← hclose]

end Documents

/-! ## Runs of a server -/

def Notice.uris : Notice → List Uri
  | .initialized => []
  | .opened uri _ _ => [uri]
  | .changed uri _ => [uri]
  | .saved uri _ => [uri]
  | .closed uri => [uri]
  | .filesChanged events => events.map (·.uri)

inductive Step where
  | notice (said : Notice)
  | advance (milliseconds : Nat)
  | changeDisk (disk : Disk)

def Step.uris : Step → List Uri
  | .notice said => said.uris
  | _ => []

def perform (server : Server) : Step → Server
  | .notice said => (server.notice said).1
  | .advance milliseconds => server.advance milliseconds
  | .changeDisk disk => server.withDisk disk

def flushed (server : Server) : Worker := server.worker.receive server.now .flush

def Step.lostAfter (uri : Uri) (lost : Bool) : Step → Bool
  | .notice (.opened other _ _) => lost && other != uri
  | .notice (.changed other texts) => lost && (other != uri || texts.isEmpty)
  | .notice (.saved other text?) => lost && (other != uri || text?.isNone)
  | .notice (.filesChanged events) =>
    lost || events.any fun event => event.uri == uri && event.deleted
  | _ => lost

def isLost (uri : Uri) (steps : List Step) : Bool := steps.foldl (Step.lostAfter uri) false

def NamesApart (uris : Set Uri) : Prop :=
  ∀ first ∈ uris, ∀ second ∈ uris, ∀ path other, first.filePath? = some path →
    second.filePath? = some other → path.normalize = other.normalize → first = second

def filePaths (uris : Set Uri) : Set Path := {path | ∃ uri ∈ uris, uri.filePath? = some path}

lemma NamesApart.spelledAlike {uris : Set Uri} (hapart : NamesApart uris) :
    SpelledAlike (filePaths uris) := by
  rintro first ⟨uri, huri, hfirst⟩ second ⟨other, hoth, hsnd⟩ hpaths
  obtain rfl := hapart uri huri other hoth first second hfirst hsnd hpaths
  obtain rfl := Option.some.inj (hfirst.symm.trans hsnd)
  exact Path.same_self first

/-! ## The worker of a server -/

def timed (server : Server) : TimedWorker where
  toWorker := server.worker
  now := server.now

lemma timed_tell (hcmd : command.path? = some path) (server : Server) :
    (server.tell command).timed =
      [.receive command, .pass 1, .wake].foldl TimedWorker.perform server.timed := by
  cases command with
  | shutdown => cases hcmd
  | _ => rfl

/-- The text of a document that the worker holds.  Only files of modules are lost. -/
def held? (documents : Documents) (lost : Uri → Bool) (uri : Uri) (path : Path) : Option String :=
  if (Dialect.ofPath? path).isSome && lost uri then none else documents.text? uri

structure Agrees (uris : Set Uri) (lost : Uri → Bool) (server : Server) : Prop where
  orderly : server.timed.Orderly (filePaths uris)
  named : ∀ uri text, server.documents.text? uri = some text →
    uri ∈ uris ∧ ∃ path, uri.filePath? = some path
  kept : ∀ uri ∈ uris, ∀ path, uri.filePath? = some path →
    (server.worker.file path).Keeps (Workspace.parse {} path.normalize)
      (held? server.documents lost uri path)

namespace Agrees

variable {uris : Set Uri} {lost after : Uri → Bool} {server : Server}

variable (hapart : NamesApart uris)
include hapart

variable (hagr : server.Agrees uris lost)
include hagr

lemma follow {next : Server}
    {steps : List WorkerStep} (hsteps : ∀ step ∈ steps, step.Within (filePaths uris))
    (htimed : next.timed = steps.foldl TimedWorker.perform server.timed)
    (hnamed : ∀ uri text, next.documents.text? uri = some text →
      uri ∈ uris ∧ ∃ path, uri.filePath? = some path)
    (hheld : ∀ uri ∈ uris, ∀ path, uri.filePath? = some path →
      steps.foldl (fun last? step => (step.write? path).or last?)
          (some (held? server.documents lost uri path)) =
        some (held? next.documents after uri path)) : next.Agrees uris after where
  orderly := by
    rw [htimed]
    exact hagr.orderly.foldl_perform hsteps
  named := hnamed
  kept uri huri path hpath := by
    have hkept (text? : Option String)
        (htext : some (held? server.documents lost uri path) = some text?) :
        (server.timed.file path).Keeps (Workspace.parse {} path.normalize) text? := by
      rw [← Option.some.inj htext]
      exact hagr.kept uri huri path hpath
    have hkeeps := TimedWorker.keeps_foldl_perform hapart.spelledAlike ⟨uri, huri, hpath⟩
      hagr.orderly hsteps hkept (hheld uri huri path hpath)
    rw [← htimed] at hkeeps
    exact hkeeps

/-- The worker is not told anything.  Only files of modules can be lost. -/
lemma ignore (hlost : ∀ uri path, uri.filePath? = some path → (Dialect.ofPath? path).isSome →
      after uri = lost uri) : server.Agrees uris after := by
  apply hagr.follow hapart (forall_mem_nil _) rfl hagr.named
  intro uri _ path hpath
  cases hsrc : (Dialect.ofPath? path).isSome with
  | false => simp [held?, hsrc]
  | true => simp [held?, hlost uri path hpath hsrc]

lemma unheard
    (hnamed : named.filePath? = none) (hoths : ∀ uri, uri ≠ named → after uri = lost uri) :
    server.Agrees uris after := by
  apply hagr.ignore hapart
  intro uri path hpath _
  apply hoths
  rintro rfl
  cases hnamed.symm.trans hpath

lemma tell (hnamed : named ∈ uris)
    (hpath : named.filePath? = some path) (hcmd : command.path? = some path)
    {documents : Documents} (hoths : ∀ uri, uri ≠ named →
      documents.text? uri = server.documents.text? uri ∧ after uri = lost uri)
    (hheld : command.buffer?.or (some (held? server.documents lost named path)) =
      some (held? documents after named path)) :
    Agrees uris after (Server.tell { server with documents } command) := by
  have hwithin : WorkerStep.Within (filePaths uris) (.receive command) :=
    .inr ⟨path, ⟨named, hnamed, hpath⟩, hcmd⟩
  apply hagr.follow hapart _ (timed_tell hcmd { server with documents })
  · intro uri text htext
    by_cases huri : uri = named
    · rw [huri]
      exact ⟨hnamed, path, hpath⟩
    · have hbef := (hoths uri huri).1
      exact hagr.named uri text (hbef ▸ htext)
  · intro uri huri file hfile
    change (command.write? file).or (some (held? server.documents lost uri file)) =
      some (held? documents after uri file)
    by_cases hnorm : path.normalize = file.normalize
    · -- The command is about this document.
      obtain rfl := hapart named hnamed uri huri path file hpath hfile hnorm
      obtain rfl := Option.some.inj (hpath.symm.trans hfile)
      simpa [WorkerCommand.write?, hcmd] using hheld
    · have hoth : uri ≠ named := by
        rintro rfl
        exact hnorm (congrArg Path.normalize (Option.some.inj (hpath.symm.trans hfile)))
      obtain ⟨htext, hlost⟩ := hoths uri hoth
      simp [WorkerCommand.write?, hcmd, hnorm, held?, htext, hlost]
  · simpa [WorkerStep.Within] using hwithin

lemma set (hnamed : named ∈ uris)
    (hpath : named.filePath? = some path) (hcmd : command.path? = some path) {text : String}
    (htext : command.buffer? = some (some text)) :
    Agrees uris (fun uri => lost uri && named != uri)
      (Server.tell { server with documents := server.documents.set named text } command) := by
  apply hagr.tell hapart hnamed hpath hcmd
  · intro uri huri
    rw [Documents.text?_set, if_neg huri]
    simp [Ne.symm huri]
  · simp [htext, held?, Documents.text?_set]

lemma refresh (hnamed : named ∈ uris) (hpath : named.filePath? = some path) :
    Agrees uris lost (server.tell (.saved path none)) := by
  apply hagr.tell hapart hnamed hpath rfl
  · exact fun uri _ => ⟨rfl, rfl⟩
  · rfl

lemma close (hnamed : named ∈ uris) : Agrees uris lost (server.notice (.closed named)).1 := by
  have hoths (uri : Uri) (huri : uri ≠ named) :
      (server.documents.close named).text? uri = server.documents.text? uri := by
    rw [Documents.text?_close, if_neg huri]
  simp only [Server.notice]
  cases hpath : named.filePath? with
  | none =>
    let next : Server := { server with documents := server.documents.close named }
    have htimed : next.timed = [].foldl TimedWorker.perform server.timed := rfl
    apply hagr.follow hapart (forall_mem_nil _) htimed
    · intro uri text htext
      by_cases huri : uri = named
      · simp [next, huri, Documents.text?_close] at htext
      · exact hagr.named uri text ((hoths uri huri).symm.trans htext)
    · intro uri _ path hfile
      have huri : uri ≠ named := by
        rintro rfl
        cases hpath.symm.trans hfile
      simp [next, held?, hoths uri huri]
  | some path =>
    apply hagr.tell hapart hnamed hpath rfl
    · exact fun uri huri => ⟨hoths uri huri, rfl⟩
    · simp [WorkerCommand.buffer?, held?, Documents.text?_close]

lemma fileChanged {event : FileEvent} (hevent : event.uri ∈ uris) :
    (server.fileChanged event).Agrees uris
      fun uri => lost uri || (event.uri == uri && event.deleted) := by
  have hoths (uri : Uri) (huri : uri ≠ event.uri) :
      (lost uri || (event.uri == uri && event.deleted)) = lost uri := by
    simp [Ne.symm huri]
  unfold Server.fileChanged
  cases hpath : event.uri.filePath? with
  | none => exact hagr.unheard hapart hpath hoths
  | some path =>
    simp only
    split
    next hforeign =>
      apply hagr.ignore hapart
      intro uri file hfile hsrc
      apply hoths
      rintro rfl
      obtain rfl := Option.some.inj (hpath.symm.trans hfile)
      simp_all
    next hsrc =>
      split
      next hdeleted =>
        apply hagr.tell hapart hevent hpath rfl
        · exact fun uri huri => ⟨rfl, hoths uri huri⟩
        · have hsome : (Dialect.ofPath? path).isSome := by
            simpa [Option.isSome_iff_ne_none] using hsrc
          simp [WorkerCommand.buffer?, held?, hdeleted, hsome]
      next hkept =>
        have hlost : (fun uri => lost uri || (event.uri == uri && event.deleted)) = lost := by
          simp [hkept]
        rw [hlost]
        split
        · exact hagr
        · exact hagr.refresh hapart hevent hpath

lemma foldl_fileChanged {events : List FileEvent} (hevs : ∀ event ∈ events, event.uri ∈ uris) :
    (events.foldl Server.fileChanged server).Agrees uris
      fun uri => lost uri || events.any fun event => event.uri == uri && event.deleted := by
  induction events generalizing server lost with
  | nil => simpa using hagr
  | cons event rest ih =>
    have hfirst := hagr.fileChanged hapart (hevs event mem_cons_self)
    have hrest := ih hfirst fun other hoth => hevs other (mem_cons_of_mem _ hoth)
    simpa [Bool.or_assoc] using hrest

lemma notice {said : Notice} (huris : ∀ uri ∈ said.uris, uri ∈ uris) :
    (server.notice said).1.Agrees uris fun uri => Step.lostAfter uri (lost uri) (.notice said) := by
  cases said with
  | initialized => exact hagr
  | opened named version text =>
    have hnamed : named ∈ uris := huris named mem_cons_self
    simp only [Server.notice]
    cases hpath : named.filePath? with
    | none =>
      apply hagr.unheard hapart hpath
      intro uri huri
      simp [Step.lostAfter, Ne.symm huri]
    | some path => exact hagr.set hapart hnamed hpath rfl rfl
  | changed named texts =>
    have hnamed : named ∈ uris := huris named mem_cons_self
    simp only [Server.notice, Step.lostAfter]
    cases texts with
    | nil => simpa using hagr
    | cons first rest =>
      simp only [isEmpty_cons, Bool.or_false, getLast?_cons]
      cases hpath : named.filePath? with
      | none =>
        apply hagr.unheard hapart hpath
        intro uri huri
        simp [Ne.symm huri]
      | some path => exact hagr.set hapart hnamed hpath rfl rfl
  | saved named text? =>
    have hnamed : named ∈ uris := huris named mem_cons_self
    simp only [Server.notice, Step.lostAfter]
    cases hpath : named.filePath? with
    | none =>
      apply hagr.unheard hapart hpath
      intro uri huri
      simp [Ne.symm huri]
    | some path =>
      cases text? with
      | none =>
        simp only [Option.isNone_none, Bool.or_true, Bool.and_true]
        split <;> exact hagr.refresh hapart hnamed hpath
      | some text =>
        simp only [Option.isNone_some, Bool.or_false]
        split <;> exact hagr.set hapart hnamed hpath rfl rfl
  | closed named => exact hagr.close hapart (huris named mem_cons_self)
  | filesChanged events =>
    apply hagr.foldl_fileChanged hapart
    intro event hevent
    exact huris event.uri (mem_map_of_mem hevent)

lemma perform {step : Step} (huris : ∀ uri ∈ step.uris, uri ∈ uris) :
    (server.perform step).Agrees uris fun uri => step.lostAfter uri (lost uri) := by
  cases step with
  | notice said => exact hagr.notice hapart huris
  | advance milliseconds =>
    have hpass : ∀ step ∈ [WorkerStep.pass milliseconds, .wake],
        step.Within (filePaths uris) := by simp [WorkerStep.Within]
    simp only [Server.perform, Server.advance]
    split
    · exact hagr.follow hapart hpass rfl hagr.named fun _ _ _ _ => rfl
    · exact hagr.follow hapart (forall_mem_singleton.mpr (hpass _ mem_cons_self)) rfl
        hagr.named fun _ _ _ _ => rfl
  | changeDisk disk =>
    have hchange : ∀ step ∈ [WorkerStep.changeDisk disk], step.Within (filePaths uris) := by
      simp [WorkerStep.Within]
    exact hagr.follow hapart hchange rfl hagr.named fun _ _ _ _ => rfl

lemma foldl_perform {steps : List Step} (huris : ∀ step ∈ steps, ∀ uri ∈ step.uris, uri ∈ uris) :
    (steps.foldl Server.perform server).Agrees uris
      fun uri => steps.foldl (Step.lostAfter uri) (lost uri) := by
  induction steps generalizing server lost with
  | nil => exact hagr
  | cons step rest ih =>
    apply ih (hagr.perform hapart (huris step mem_cons_self))
    exact fun other hoth => huris other (mem_cons_of_mem _ hoth)

end Agrees

lemma agrees_startFor {disk : Disk} {userCacheDir : Path} {server : Server}
    (hstart : (Server.start disk userCacheDir).startFor none = .ok server) (uris : Set Uri) :
    server.Agrees uris fun _ => false := by
  obtain rfl := Except.ok.inj hstart
  refine ⟨TimedWorker.orderly_start (filePaths uris) ?_ _, ?_, ?_⟩
  · change (300 : Nat) ≤ flushHorizon
    decide
  · intro uri text htext
    cases htext
  · intro uri _ path _
    have hheld : held? [] (fun _ => false) uri path = none := by simp [held?, Documents.text?]
    change FileState.Keeps _ (held? [] (fun _ => false) uri path) ⟨none, none, none⟩
    rw [hheld]
    exact FileState.keeps_none _ none

/-! ## Two documents -/

def sampleServer : Server where
  phase := .ready
  worker := ⟨{}, {}, []⟩
  userCacheDir := ⟨[]⟩

def sampleUri (name : String) : Uri where
  scheme := "file"
  authority? := some {}
  path := "/w/" ++ name

/-- Both files are said to be deleted while their documents are open.  The first
document is changed afterwards. -/
def sampleSteps : List Step := [.notice (.opened (sampleUri "a.bsl") 1 "Перем А;"),
    .notice (.saved (sampleUri "b.bsl") (some "Перем Б;")),
    .notice (.filesChanged [⟨sampleUri "a.bsl", true⟩, ⟨sampleUri "b.bsl", true⟩]),
    .notice (.changed (sampleUri "a.bsl") ["Перем", "Перем В;"]), .advance 10,
    .notice (.filesChanged [⟨sampleUri "a.bsl", false⟩])]

lemma namesApart_sampleSteps : NamesApart {uri | ∃ step ∈ sampleSteps, uri ∈ step.uris} := by
  have hnames : ∀ uri, (∃ step ∈ sampleSteps, uri ∈ step.uris) →
      uri = sampleUri "a.bsl" ∨ uri = sampleUri "b.bsl" := by
    rintro uri ⟨step, hstep, huri⟩
    simp only [sampleSteps, mem_cons, not_mem_nil, or_false] at hstep
    rcases hstep with rfl | rfl | rfl | rfl | rfl | rfl <;> simp_all [Step.uris, Notice.uris]
  have hdiffer : (sampleUri "a.bsl").filePath?.map Path.normalize ≠
      (sampleUri "b.bsl").filePath?.map Path.normalize := by decide +kernel
  intro first hfirst second hsnd path other hpath hoth hnorm
  rcases hnames first hfirst with rfl | rfl <;> rcases hnames second hsnd with rfl | rfl
  · rfl
  · exact absurd (by simp [hpath, hoth, hnorm]) hdiffer
  · exact absurd (by simp [hpath, hoth, hnorm]) hdiffer
  · rfl

/-- A flush presents the text of an open document, unless its file was said to be
deleted since the text came in. -/
theorem presents_document_iff {disk : Disk} {userCacheDir : Path} {server : Server}
    (hstart : (Server.start disk userCacheDir).startFor none = .ok server) {steps : List Step}
    (hapart : NamesApart {uri | ∃ step ∈ steps, uri ∈ step.uris}) {uri : Uri} {text : String}
    (hopen : (steps.foldl perform server).documents.text? uri = some text) :
    ∃ path, uri.filePath? = some path ∧
      ((steps.foldl perform server).flushed.workspace.Presents path (some text) ↔
        ((Dialect.ofPath? path).isSome && isLost uri steps) = false) := by
  let uris := {uri | ∃ step ∈ steps, uri ∈ step.uris}
  have hagrees : (steps.foldl perform server).Agrees uris fun uri => isLost uri steps := by
    apply (agrees_startFor hstart uris).foldl_perform hapart
    exact fun step hstep uri huri => ⟨step, hstep, huri⟩
  obtain ⟨huri, path, hpath⟩ := hagrees.named uri text hopen
  have hpresents := TimedWorker.presents_flush hapart.spelledAlike ⟨uri, huri, hpath⟩
    hagrees.orderly (hagrees.kept uri huri path hpath)
  refine ⟨path, hpath, ?_⟩
  unfold held? at hpresents
  rw [hopen] at hpresents
  cases hlost : (Dialect.ofPath? path).isSome && isLost uri steps with
  | false =>
    rw [hlost] at hpresents
    exact ⟨fun _ => rfl, fun _ => hpresents⟩
  | true =>
    rw [hlost] at hpresents
    constructor
    · intro hshown
      cases hpresents.buffer.symm.trans hshown.buffer
    · intro hkept
      cases hkept

theorem presents_sample_documents :
    let reached := sampleSteps.foldl perform sampleServer
    (reached.documents.text? (sampleUri "a.bsl") = some "Перем В;" ∧
      ∃ path, (sampleUri "a.bsl").filePath? = some path ∧
        reached.flushed.workspace.Presents path (some "Перем В;")) ∧
      reached.documents.text? (sampleUri "b.bsl") = some "Перем Б;" ∧
        ∃ path, (sampleUri "b.bsl").filePath? = some path ∧
          ¬ reached.flushed.workspace.Presents path (some "Перем Б;") := by
  intro reached
  have hstart : (Server.start {} ⟨[]⟩).startFor none = .ok sampleServer := rfl
  have hchanged : reached.documents.text? (sampleUri "a.bsl") = some "Перем В;" := by
    decide +kernel
  have hsaved : reached.documents.text? (sampleUri "b.bsl") = some "Перем Б;" := by
    decide +kernel
  obtain ⟨path, hpath, hpresents⟩ := presents_document_iff hstart namesApart_sampleSteps hchanged
  obtain ⟨other, hother, hforgotten⟩ := presents_document_iff hstart namesApart_sampleSteps hsaved
  refine ⟨⟨hchanged, path, hpath, hpresents.mpr ?_⟩, hsaved, other, hother, ?_⟩
  · have hkept : isLost (sampleUri "a.bsl") sampleSteps = false := by decide +kernel
    simp [hkept]
  · intro hshown
    have hkept := hforgotten.mp hshown
    have hlost : (sampleUri "b.bsl").filePath?.any (fun path =>
        (Dialect.ofPath? path).isSome && isLost (sampleUri "b.bsl") sampleSteps) = true := by
      decide +kernel
    simp [hother, hkept] at hlost

/-- An open document whose file is said to be deleted keeps its text in the server
only. -/
theorem not_presents_deleted_document :
    let uri := sampleUri "a.bsl"
    let steps : List Step :=
      [.notice (.opened uri 1 "Перем А;"), .notice (.filesChanged [⟨uri, true⟩])]
    let reached := steps.foldl perform sampleServer
    reached.documents.text? uri = some "Перем А;" ∧ ∃ path, uri.filePath? = some path ∧
        reached.flushed.workspace.bufferText? path = none ∧
        (reached.flushed.workspace.table? path).isNone = true := by
  refine ⟨by decide +kernel, ⟨Utf8.encode "/w/a.bsl"⟩, by decide +kernel, by decide +kernel, ?_⟩
  decide +kernel

end Server

end BslInsight
