import BslInsight.Disk
import BslInsight.Settings
import BslInsight.Text.SourceText

/-!
# Source files of a workspace
-/

namespace BslInsight

def Disk.readText (disk : Disk) (path : Path) : Except EngineError String :=
  match disk.readBytes path with
  | .error failure => .error (.io path failure)
  | .ok bytes =>
    match Utf8.decode? bytes with
    | some text => .ok (String.ofList text)
    | none => .error (.io path .invalidText)

def readSource (disk : Disk) (path : Path) : Except EngineError String :=
  match disk.readBytes path with
  | .ok bytes => .ok (decodeSource bytes)
  | .error failure => .error (.io path failure)

def Path.joinNames (path : Path) (names : List FileName) : Path :=
  names.foldl (fun path name => path.join ⟨name⟩) path

def sortPaths (paths : List Path) : List Path :=
  paths.mergeSort fun a b => (a.compare b).isLE

def Settings.indexes (settings : Settings) (path : Path) (content : FileContent) : Bool :=
  (settings.dialectFor? path).isSome && content.size ≤ settings.maxFileSize

def sourceFiles (settings : Settings) (disk : Disk) (root : Path) : List Path :=
  match disk.lookup root with
  | .error _ => []
  | .ok tree =>
    sortPaths ((tree.files settings.excludes).filterMap fun (names, content) =>
      let path := root.joinNames names
      if settings.indexes path content then some path.normalize else none)

end BslInsight
