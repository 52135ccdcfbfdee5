import BslInsight.Server.Shapes.Document

/-!
# Shapes of what a client can do

When a client starts it tells its capabilities.  None of them is used, but all of them are read.
-/

namespace BslInsight.Server.Shapes

open Json Json.Shape

def switches (names : List String) : Shape :=
  .record (options names .bool)

def registration : Shape :=
  switches ["dynamicRegistration"]

def refreshing : Shape :=
  switches ["refreshSupport"]

def resolving : Shape :=
  .record [field "properties" (.list string)]

def valueSet : Shape :=
  .record [option "valueSet" (.list int32)]

def tagSupport : String × Presence × Shape :=
  ("tagSupport", .defaulted,
    .nullable (.either [.bool, .record [field "valueSet" (.list int32)]]))

def fileOperations : Shape :=
  switches ["dynamicRegistration", "didCreate", "willCreate", "didRename", "willRename",
    "didDelete", "willDelete"]

def workspaceEdits : Shape :=
  .record [
    option "documentChanges" .bool,
    option "resourceOperations" (.list (.oneOf ["create", "rename", "delete"])),
    option "failureHandling"
      (.oneOf ["abort", "transactional", "textOnlyTransactional", "undo"]),
    option "normalizesLineEndings" .bool,
    option "changeAnnotationSupport" (switches ["groupsOnLabel"])]

def workspaceCapabilities : Shape :=
  .record [
    option "applyEdit" .bool,
    option "workspaceEdit" workspaceEdits,
    option "didChangeConfiguration" registration,
    option "didChangeWatchedFiles" (switches ["dynamicRegistration", "relativePatternSupport"]),
    option "symbol" (.record [option "dynamicRegistration" .bool, option "symbolKind" valueSet,
      tagSupport, option "resolveSupport" resolving]),
    option "executeCommand" registration,
    option "workspaceFolders" .bool,
    option "configuration" .bool,
    option "semanticTokens" refreshing,
    option "codeLens" refreshing,
    option "fileOperations" fileOperations,
    option "inlineValue" refreshing,
    option "inlayHint" refreshing,
    option "diagnostic" refreshing]

def completionCapabilities : Shape :=
  .record [
    option "dynamicRegistration" .bool,
    option "completionItem" (.record [
      option "snippetSupport" .bool,
      option "commitCharactersSupport" .bool,
      option "documentationFormat" (.list markupKind),
      option "deprecatedSupport" .bool,
      option "preselectSupport" .bool,
      tagSupport,
      option "insertReplaceSupport" .bool,
      option "resolveSupport" resolving,
      option "insertTextModeSupport" (.record [field "valueSet" (.list int32)]),
      option "labelDetailsSupport" .bool]),
    option "completionItemKind" valueSet,
    option "contextSupport" .bool,
    option "insertTextMode" int32,
    option "completionList" (.record [option "itemDefaults" (.list string)])]

def signatureCapabilities : Shape :=
  .record [
    option "dynamicRegistration" .bool,
    option "signatureInformation" (.record [
      option "documentationFormat" (.list markupKind),
      option "parameterInformation" (switches ["labelOffsetSupport"]),
      option "activeParameterSupport" .bool]),
    option "contextSupport" .bool]

def codeActionCapabilities : Shape :=
  .record [
    option "dynamicRegistration" .bool,
    option "codeActionLiteralSupport" (.record [
      field "codeActionKind" (.record [field "valueSet" (.list string)])]),
    option "isPreferredSupport" .bool,
    option "disabledSupport" .bool,
    option "dataSupport" .bool,
    option "resolveSupport" resolving,
    option "honorsChangeAnnotations" .bool]

def foldingCapabilities : Shape :=
  .record [
    option "dynamicRegistration" .bool,
    option "rangeLimit" count,
    option "lineFoldingOnly" .bool,
    option "foldingRangeKind"
      (.record [option "valueSet" (.list (.oneOf ["comment", "imports", "region"]))]),
    option "foldingRange" (switches ["collapsedText"])]

def tokenCapabilities : Shape :=
  .record ([
    option "dynamicRegistration" .bool,
    field "requests" (.record [option "range" .bool,
      option "full" (.either [.bool, switches ["delta"]])]),
    field "tokenTypes" (.list string),
    field "tokenModifiers" (.list string),
    field "formats" (.list string)] ++
    options ["overlappingTokenSupport", "multilineTokenSupport", "serverCancelSupport",
      "augmentsSyntaxTokens"] .bool)

def documentCapabilities : Shape :=
  let goto := switches ["dynamicRegistration", "linkSupport"]
  .record [
    option "synchronization"
      (switches ["dynamicRegistration", "willSave", "willSaveWaitUntil", "didSave"]),
    option "completion" completionCapabilities,
    option "hover"
      (.record [option "dynamicRegistration" .bool, option "contentFormat" (.list markupKind)]),
    option "signatureHelp" signatureCapabilities,
    option "references" registration,
    option "documentHighlight" registration,
    option "documentSymbol" (.record [option "dynamicRegistration" .bool,
      option "symbolKind" valueSet, option "hierarchicalDocumentSymbolSupport" .bool, tagSupport]),
    option "formatting" registration,
    option "rangeFormatting" registration,
    option "onTypeFormatting" registration,
    option "declaration" goto,
    option "definition" goto,
    option "typeDefinition" goto,
    option "implementation" goto,
    option "codeAction" codeActionCapabilities,
    option "codeLens" registration,
    option "documentLink" (switches ["dynamicRegistration", "tooltipSupport"]),
    option "colorProvider" registration,
    option "rename" (.record [option "dynamicRegistration" .bool, option "prepareSupport" .bool,
      option "prepareSupportDefaultBehavior" int32, option "honorsChangeAnnotations" .bool]),
    option "publishDiagnostics" (.record [option "relatedInformation" .bool, tagSupport,
      option "versionSupport" .bool, option "codeDescriptionSupport" .bool,
      option "dataSupport" .bool]),
    option "foldingRange" foldingCapabilities,
    option "selectionRange" registration,
    option "linkedEditingRange" registration,
    option "callHierarchy" registration,
    option "semanticTokens" tokenCapabilities,
    option "moniker" registration,
    option "typeHierarchy" registration,
    option "inlineValue" registration,
    option "inlayHint"
      (.record [option "dynamicRegistration" .bool, option "resolveSupport" resolving]),
    option "diagnostic" (switches ["dynamicRegistration", "relatedDocumentSupport"])]

def windowCapabilities : Shape :=
  .record [
    option "workDoneProgress" .bool,
    option "showMessage"
      (.record [option "messageActionItem" (switches ["additionalPropertiesSupport"])]),
    option "showDocument" (.record [field "support" .bool])]

def generalCapabilities : Shape :=
  .record [
    option "regularExpressions" (.record [field "engine" string, option "version" string]),
    option "markdown" (.record [field "parser" string, option "version" string,
      option "allowedTags" (.list string)]),
    option "staleRequestSupport" (.record [field "cancel" .bool,
      field "retryOnContentModified" (.list string)]),
    option "positionEncodings" (.list string)]

def clientCapabilities : Shape :=
  .record [
    option "workspace" workspaceCapabilities,
    option "textDocument" documentCapabilities,
    option "window" windowCapabilities,
    option "general" generalCapabilities,
    option "experimental" .any]

def start : Shape :=
  .record [
    option "processId" count,
    option "rootPath" string,
    ("rootUri", .defaulted, .nullable uri),
    option "initializationOptions" .any,
    field "capabilities" clientCapabilities,
    ("trace", .defaulted, .nullable (.oneOf ["off", "messages", "verbose"])),
    option "workspaceFolders" (.list folder),
    option "clientInfo" (.record [field "name" string, option "version" string]),
    option "locale" string]

end BslInsight.Server.Shapes
