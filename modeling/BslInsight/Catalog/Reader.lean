import BslInsight.Catalog
import BslInsight.Error
import BslInsight.Json.Reader
import BslInsight.Json.Record

/-!
# Reading catalog descriptions

Catalog descriptions are JSON records.  The version is looked at only when everything else could
be read.
-/

namespace BslInsight.Catalog

open Json (Record)

def EntryParameter.ofJson? (json : Json) : Option EntryParameter := do
  let record ← Record.ofJson?
    [⟨"name", false⟩, ⟨"type", true⟩, ⟨"description", true⟩, ⟨"optional", true⟩] json
  return {
    name := ← record.required "name" Json.str?
    type? := ← record.optional "type" Json.str?
    description? := ← record.optional "description" Json.str?
    optional := ← record.withDefault "optional" false Json.bool? }

def MemberRecord.ofJson? (json : Json) : Option MemberRecord := do
  let record ← Record.ofJson?
    [⟨"name", false⟩, ⟨"nameAlternateLocale", false⟩, ⟨"parameters", true⟩,
      ⟨"returnDescription", false⟩, ⟨"returnType", false⟩, ⟨"availability", true⟩,
      ⟨"description", false⟩, ⟨"segment", false⟩] json
  return {
    name? := ← record.optional "name" Json.str?
    alternate? := ← record.optional "nameAlternateLocale" Json.str?
    parameters := ← record.withDefault "parameters" [] (Json.list? EntryParameter.ofJson?)
    returnDescription? := ← record.optional "returnDescription" Json.str?
    returnType? := ← record.optional "returnType" Json.str?
    availability := ← record.withDefault "availability" [] Json.strings?
    description? := ← record.optional "description" Json.str?
    segment? := ← record.optional "segment" Json.str? }

def Members.ofJson? (json : Json) : Option Members :=
  json.map? MemberRecord.ofJson?

def ClassRecord.ofJson? (json : Json) : Option ClassRecord := do
  let record ← Record.ofJson?
    [⟨"name", false⟩, ⟨"nameAlternateLocale", false⟩, ⟨"description", false⟩,
      ⟨"availability", true⟩, ⟨"methods", true⟩, ⟨"properties", true⟩, ⟨"constructors", true⟩] json
  return {
    name? := ← record.optional "name" Json.str?
    alternate? := ← record.optional "nameAlternateLocale" Json.str?
    description? := ← record.optional "description" Json.str?
    availability := ← record.withDefault "availability" [] Json.strings?
    methods := ← record.withDefault "methods" [] Members.ofJson?
    properties := ← record.withDefault "properties" [] Members.ofJson?
    constructors := ← record.withDefault "constructors" [] Members.ofJson? }

def EnumRecord.ofJson? (json : Json) : Option EnumRecord := do
  let record ← Record.ofJson?
    [⟨"name", false⟩, ⟨"nameAlternateLocale", false⟩, ⟨"description", false⟩, ⟨"values", true⟩]
    json
  return {
    name? := ← record.optional "name" Json.str?
    alternate? := ← record.optional "nameAlternateLocale" Json.str?
    description? := ← record.optional "description" Json.str?
    values := ← record.withDefault "values" [] Members.ofJson? }

def Description.ofJson? (json : Json) : Option Description := do
  let record ← Record.ofJson?
    [⟨"version", false⟩, ⟨"globalMethods", true⟩, ⟨"globalProperties", true⟩, ⟨"classes", true⟩,
      ⟨"systemEnums", true⟩] json
  return {
    version := ← record.required "version" (Json.nat? 0x100000000)
    methods := ← record.withDefault "globalMethods" [] Members.ofJson?
    properties := ← record.withDefault "globalProperties" [] Members.ofJson?
    classes := ← record.withDefault "classes" [] (Json.map? ClassRecord.ofJson?)
    enums := ← record.withDefault "systemEnums" [] (Json.map? EnumRecord.ofJson?) }

def Description.ofText (text : String) : Except CatalogFailure Description :=
  match (Json.ofString? text).bind Description.ofJson? with
  | none => .error .malformed
  | some description =>
    if newestCatalogVersion < description.version then
      .error (.unsupportedVersion description.version)
    else .ok description

def ofText (dialect : Dialect) (text : String) : Except EngineError Catalog :=
  match Description.ofText text with
  | .ok description => .ok (ofDescription dialect description)
  | .error failure => .error (.catalogLoad dialect.label failure)

end BslInsight.Catalog
