import BslInsight.Workspace

/-!
# The update worker

A changed buffer is parsed only after it has rested for a while; opening, saving and closing take
effect at once and replace a change that still waits.
-/

namespace BslInsight

inductive WorkerCommand where
  | opened (path : Path) (text : String)
  | changed (path : Path) (text : String)
  | saved (path : Path) (text? : Option String)
  | closed (path : Path)
  | deleted (path : Path)
  | rebuild (root? : Option Path)
  | flush
  | shutdown
deriving DecidableEq, Repr

structure PendingChange where
  text : String
  due : Nat
deriving DecidableEq, Repr

structure Worker where
  workspace : Workspace
  disk : Disk
  pending : PathMap PendingChange := []

/-- How far in the future a change may be due that flushing still applies: one day. -/
def flushHorizon : Nat := 86400000

namespace Worker

def parse (worker : Worker) (path : Path) (text : String) : Worker :=
  { worker with workspace := (worker.workspace.updateFile path text).2 }

def reload (worker : Worker) (path : Path) : Worker :=
  let (_, workspace, disk) := worker.workspace.reload worker.disk path
  { worker with workspace, disk }

def cancel (worker : Worker) (path : Path) : Worker :=
  { worker with pending := worker.pending.erase path }

def setBuffer (worker : Worker) (path : Path) (text : String) : Worker :=
  { worker with workspace := worker.workspace.openBuffer path text }

def dropBuffer (worker : Worker) (path : Path) : Worker :=
  { worker with workspace := worker.workspace.closeBuffer path }

def applyDue (worker : Worker) (now : Nat) : Worker :=
  let due := worker.pending.filter fun (_, change) => change.due ≤ now
  let rest := worker.pending.filter fun (_, change) => now < change.due
  due.foldl (fun worker (path, change) => worker.parse path change.text)
    { worker with pending := rest }

def savedText? (worker : Worker) (path : Path) (text? : Option String) : Option String :=
  text? <|> (worker.pending.get? path).map (·.text) <|> worker.workspace.bufferText? path

def rebuild (worker : Worker) (root : Path) : Worker :=
  let (_, workspace, disk) := worker.workspace.fullRebuild worker.disk root
  { worker with workspace, disk }

def receive (worker : Worker) (now : Nat) : WorkerCommand → Worker
  | .opened path text => ((worker.cancel path).setBuffer path text).parse path text
  | .changed path text =>
    let worker := worker.setBuffer path text
    let due := now + worker.workspace.settings.debounceMs
    { worker with pending := worker.pending.insert path ⟨text, due⟩ }
  | .saved path text? =>
    match worker.savedText? path text? with
    | some text => ((worker.cancel path).setBuffer path text).parse path text
    | none => (worker.cancel path).reload path
  | .closed path => ((worker.cancel path).dropBuffer path).reload path
  | .deleted path =>
    let worker := (worker.cancel path).dropBuffer path
    let (workspace, disk) := worker.workspace.evictFile worker.disk path
    { worker with workspace, disk }
  | .rebuild root? =>
    match root? <|> worker.workspace.root? with
    | some root => worker.rebuild root
    | none => worker
  | .flush => worker.applyDue (now + flushHorizon)
  | .shutdown => { worker with pending := [] }

end Worker

end BslInsight
