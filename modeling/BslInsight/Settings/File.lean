import BslInsight.Workspace.Sources

/-!
# The settings file

Settings are read from a file that is named, or from the file with the usual name in the root of the
workspace.  Without such a file the defaults hold.
-/

namespace BslInsight.Settings

def ofFile (disk : Disk) (path : Path) : Except EngineError Settings := do
  match ofToml (← disk.readText path) with
  | .ok settings => .ok settings
  | .error failure => .error (.configFile path failure)

def forRoot (disk : Disk) (root : Path) : Except EngineError Settings :=
  let path := root.join (.ofText settingsFileName)
  if disk.isFile path then ofFile disk path else .ok {}

end BslInsight.Settings
