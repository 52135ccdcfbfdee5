import BslInsight.Catalog.Entry
import BslInsight.Error
import BslInsight.Json.Record
import BslInsight.Toml.Printer
import BslInsight.Toml.Reader

/-!
# Settings

What is configured for a workspace, by default in a file in its root directory.
-/

namespace BslInsight

def Locale.tag : Locale → String
  | .ru => "ru"
  | .en => "en"

def Locale.ofTag? : String → Option Locale
  | "ru" => some .ru
  | "en" => some .en
  | _ => none

def Locale.ofJson? : Json → Option Locale
  | .str tag => Locale.ofTag? tag
  | .obj [(tag, .null)] => Locale.ofTag? tag
  | _ => none

structure DiskCacheSettings where
  enabled : Bool := false
  dir? : Option Path := none
  compression : Bool := true
deriving DecidableEq, Repr

structure Settings where
  extensions : List String := ["bsl", "os"]
  excludeDirs : List String := [".git", ".svn", "node_modules", "target", "oscript_modules"]
  debounceMs : Nat := 300
  locale : Locale := .ru
  maxFileSize : Nat := 5 * 1024 * 1024
  catalogDir? : Option Path := none
  diskCache : DiskCacheSettings := {}
deriving DecidableEq, Repr

def settingsFileName : String :=
  "bsl-intellisense.toml"

namespace DiskCacheSettings

def resolvedDir (settings : DiskCacheSettings) (userCacheDir : Path) : Path :=
  settings.dir?.getD (userCacheDir.join (.ofText "bsl-intellisense"))

def toJson (settings : DiskCacheSettings) : Json :=
  .obj [("enabled", .bool settings.enabled), ("dir", .ofOption (settings.dir?.map (·.text))),
    ("compression", .bool settings.compression)]

def ofJson? (surplus : Bool) (json : Json) : Option DiskCacheSettings := do
  let record ← Json.Record.ofJson?
    [⟨"enabled", true⟩, ⟨"dir", false⟩, ⟨"compression", true⟩] json surplus
  return {
    enabled := ← record.withDefault "enabled" false Json.bool?
    dir? := (← record.optional "dir" Json.str?).map Path.ofText
    compression := ← record.withDefault "compression" true Json.bool? }

def toToml (settings : DiskCacheSettings) : String :=
  let dir := match settings.dir? with
    | some dir => Toml.assignment "dir" (Toml.quote dir.text)
    | none => ""
  Toml.assignment "enabled" (toString settings.enabled) ++ dir ++
    Toml.assignment "compression" (toString settings.compression)

end DiskCacheSettings

namespace Settings

def localeKey : String :=
  "autocomplete_language"

def toJson (settings : Settings) : Json :=
  .obj [("extensions", .ofStrings settings.extensions),
    ("exclude_dirs", .ofStrings settings.excludeDirs), ("debounce_ms", .ofNat settings.debounceMs),
    (localeKey, .str settings.locale.tag),
    ("max_file_size", .ofNat settings.maxFileSize),
    ("catalog_dir", .ofOption (settings.catalogDir?.map (·.text))),
    ("disk_cache", settings.diskCache.toJson)]

/-- Settings read; what is not given has its default, and `surplus` says whether arrays may have more
items than fields. -/
def ofJson? (json : Json) (surplus : Bool := false) : Option Settings := do
  let default : Settings := {}
  let record ← Json.Record.ofJson?
    [⟨"extensions", true⟩, ⟨"exclude_dirs", true⟩, ⟨"debounce_ms", true⟩,
      ⟨localeKey, true⟩, ⟨"max_file_size", true⟩, ⟨"catalog_dir", false⟩,
      ⟨"disk_cache", true⟩] json surplus
  return {
    extensions := ← record.withDefault "extensions" default.extensions Json.strings?
    excludeDirs := ← record.withDefault "exclude_dirs" default.excludeDirs Json.strings?
    debounceMs := ← record.withDefault "debounce_ms" default.debounceMs
      (Json.nat? 0x10000000000000000)
    locale := ← record.withDefault localeKey default.locale Locale.ofJson?
    maxFileSize := ← record.withDefault "max_file_size" default.maxFileSize
      (Json.nat? 0x10000000000000000)
    catalogDir? := (← record.optional "catalog_dir" Json.str?).map Path.ofText
    diskCache :=
      ← record.withDefault "disk_cache" default.diskCache (DiskCacheSettings.ofJson? surplus) }

/-- Settings read from the table of a settings file, where arrays may have more items than fields and
a locale may be the key of an empty value. -/
def ofTable? (fields : Toml.Fields) : Option Settings :=
  let fields := fields.map fun (key, node) =>
    (key, if key == localeKey then .ofOption node.tag? else node.toJson)
  ofJson? (.obj fields) true

def failure? (settings : Settings) : Option SettingsFailure :=
  if settings.extensions.isEmpty then some .noExtensions
  else (settings.extensions.find? fun extension => extension.toList.head? == some '.').map
    .dottedExtension

def ofToml (text : String) : Except SettingsFailure Settings :=
  match (Toml.parse? text).bind ofTable? with
  | none => .error .malformed
  | some settings =>
    match settings.failure? with
    | some failure => .error failure
    | none => .ok settings

def toToml (settings : Settings) : String :=
  let catalogDir := match settings.catalogDir? with
    | some dir => Toml.assignment "catalog_dir" (Toml.quote dir.text)
    | none => ""
  Toml.assignment "extensions" (Toml.stringArray settings.extensions) ++
    Toml.assignment "exclude_dirs" (Toml.stringArray settings.excludeDirs) ++
    Toml.assignment "debounce_ms" (toString settings.debounceMs) ++
    Toml.assignment localeKey (Toml.quote settings.locale.tag) ++
    Toml.assignment "max_file_size" (toString settings.maxFileSize) ++ catalogDir ++
    "\n[disk_cache]\n" ++ settings.diskCache.toToml

def dialectFor? (settings : Settings) (path : Path) : Option Dialect :=
  match path.extension?.map lower with
  | none => none
  | some extension =>
    if settings.extensions.any (sameAscii · extension) then
      some ((Dialect.ofPath? path).getD .bsl)
    else none

def excludes (settings : Settings) (name : FileName) : Bool :=
  settings.excludeDirs.any fun excluded => Utf8.encode excluded == name

end Settings

end BslInsight
