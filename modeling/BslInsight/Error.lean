import BslInsight.Path

/-!
# Errors

What can go wrong outside of a module's text.  Only a catalog that cannot be loaded is fatal; every
other error concerns one operation.
-/

namespace BslInsight

inductive IoFailure where
  | notFound | notDirectory | isDirectory | inputOutput | invalidText | exists | rootNotDirectory
deriving DecidableEq, Repr

def IoFailure.message : IoFailure → String
  | .notFound => "No such file or directory (os error 2)"
  | .notDirectory => "Not a directory (os error 20)"
  | .isDirectory => "Is a directory (os error 21)"
  | .inputOutput => "Input/output error (os error 5)"
  | .exists => "File exists (os error 17)"
  | .invalidText => "stream did not contain valid UTF-8"
  | .rootNotDirectory => "workspace root is not a directory"

inductive CatalogFailure where
  | malformed
  | unsupportedVersion (version : Nat)
deriving DecidableEq, Repr

def newestCatalogVersion : Nat := 1

def CatalogFailure.message : CatalogFailure → String
  | .malformed => "malformed catalog"
  | .unsupportedVersion version =>
    s!"unsupported catalog version {version} (expected <= {newestCatalogVersion})"

inductive SettingsFailure where
  | malformed
  | noExtensions
  | dottedExtension (extension : String)
deriving DecidableEq, Repr

def SettingsFailure.message : SettingsFailure → String
  | .malformed => "TOML parse error"
  | .noExtensions => "extensions must not be empty"
  | .dottedExtension extension =>
    "extension '" ++ extension ++ "' must be given without the leading dot"

inductive EngineError where
  | io (path : Path) (failure : IoFailure)
  | catalogLoad (name : String) (failure : CatalogFailure)
  | config (failure : SettingsFailure)
  | configFile (path : Path) (failure : SettingsFailure)
  | cache (reason : String)
deriving DecidableEq, Repr

namespace EngineError

def isFatal : EngineError → Bool
  | .catalogLoad .. => true
  | _ => false

def message : EngineError → String
  | .io path failure => s!"Failed to read {path.text}: {failure.message}"
  | .catalogLoad name failure =>
    "Failed to load standard library catalog '" ++ name ++ "': " ++ failure.message
  | .config failure => s!"Invalid configuration: {failure.message}"
  | .configFile path failure =>
    s!"Invalid configuration: {path.text}: Invalid configuration: {failure.message}"
  | .cache reason => s!"Module cache error: {reason}"

def cause? : EngineError → Option String
  | .io _ failure => some failure.message
  | _ => none

end EngineError

end BslInsight
