import BslInsight.Server.Shapes.Document

/-!
# Shapes of the parameters of messages

Most queries may carry a token under which progress is told, and those with long answers a token for
parts of the answer.
-/

namespace BslInsight.Server.Shapes

open Json Json.Shape

abbrev FieldShape := String × Presence × Shape

def progress : List FieldShape :=
  [option "workDoneToken" numberOrText]

def inParts : List FieldShape :=
  progress ++ [option "partialResultToken" numberOrText]

def aboutDocument : List FieldShape :=
  [field "textDocument" document]

def atPlace : List FieldShape :=
  aboutDocument ++ [field "position" position]

def inRange : List FieldShape :=
  aboutDocument ++ [field "range" range]

def query (fields : List FieldShape) : Shape :=
  .openRecord fields .any

def completionContext : Shape :=
  .record [field "triggerKind" int32, option "triggerCharacter" string]

def signatureContext : Shape :=
  .record [field "triggerKind" int32, option "triggerCharacter" string,
    field "isRetrigger" .bool, option "activeSignatureHelp" signatureHelp]

def codeActionContext : Shape :=
  .record [field "diagnostics" (.list diagnostic), option "only" (.list string),
    option "triggerKind" int32]

def hierarchyItem (tags : Shape) : Shape :=
  .record [field "name" string, field "kind" int32, option "tags" tags, option "detail" string,
    field "uri" uri, field "range" range, field "selectionRange" range, option "data" .any]

def completionItem : Shape :=
  .record [
    field "label" string,
    option "labelDetails" (.record (options ["detail", "description"] string)),
    option "kind" int32,
    option "detail" string,
    option "documentation" documentation,
    option "deprecated" .bool,
    option "preselect" .bool,
    option "sortText" string,
    option "filterText" string,
    option "insertText" string,
    option "insertTextFormat" int32,
    option "insertTextMode" int32,
    option "textEdit" (.either [textEdit,
      .record [field "newText" string, field "insert" range, field "replace" range]]),
    option "additionalTextEdits" (.list textEdit),
    option "command" command,
    option "commitCharacters" (.list string),
    option "data" .any,
    option "tags" (.list int32)]

def codeAction : Shape :=
  .record [
    field "title" string,
    option "kind" string,
    option "diagnostics" (.list diagnostic),
    option "edit" workspaceEdit,
    option "command" command,
    option "isPreferred" .bool,
    option "disabled" (.record [field "reason" string]),
    option "data" .any]

def inlayHint : Shape :=
  .record [
    field "position" position,
    field "label" (.either [string, .list (.record [field "value" string,
      option "tooltip" documentation, option "location" location, option "command" command])]),
    option "kind" int32,
    option "textEdits" (.list textEdit),
    option "tooltip" documentation,
    option "paddingLeft" .bool,
    option "paddingRight" .bool,
    option "data" .any]

def workspaceSymbol : Shape :=
  .record [field "name" string, field "kind" int32, option "tags" (.list int32),
    option "containerName" string, field "location" (.either [location, document]),
    option "data" .any]

def supported : List (String × Shape) := [
  ("textDocument/completion",
    query (atPlace ++ inParts ++ [option "context" completionContext])),
  ("textDocument/hover", query (atPlace ++ progress)),
  ("textDocument/signatureHelp",
    query (atPlace ++ progress ++ [option "context" signatureContext])),
  ("textDocument/definition", query (atPlace ++ inParts)),
  ("textDocument/references",
    query (atPlace ++ inParts ++
      [field "context" (.record [field "includeDeclaration" .bool])])),
  ("textDocument/documentSymbol", query (aboutDocument ++ inParts)),
  ("workspace/symbol", query (inParts ++ [field "query" string])),
  ("textDocument/formatting",
    query (aboutDocument ++ progress ++ [field "options" indentOptions])),
  ("textDocument/rangeFormatting",
    query (inRange ++ progress ++ [field "options" indentOptions])),
  ("textDocument/onTypeFormatting",
    query (atPlace ++ [field "ch" string, field "options" indentOptions]))]

def unsupported : List (String × Shape) := [
  ("textDocument/willSaveWaitUntil", .record (aboutDocument ++ [field "reason" int32])),
  ("textDocument/declaration", query (atPlace ++ inParts)),
  ("textDocument/typeDefinition", query (atPlace ++ inParts)),
  ("textDocument/implementation", query (atPlace ++ inParts)),
  ("textDocument/prepareCallHierarchy", query (atPlace ++ progress)),
  ("callHierarchy/incomingCalls",
    query (inParts ++ [field "item" (hierarchyItem (.list int32))])),
  ("callHierarchy/outgoingCalls",
    query (inParts ++ [field "item" (hierarchyItem (.list int32))])),
  ("textDocument/prepareTypeHierarchy", query (atPlace ++ progress)),
  ("typeHierarchy/supertypes", query (inParts ++ [field "item" (hierarchyItem int32)])),
  ("typeHierarchy/subtypes", query (inParts ++ [field "item" (hierarchyItem int32)])),
  ("textDocument/documentHighlight", query (atPlace ++ inParts)),
  ("textDocument/documentLink", query (aboutDocument ++ inParts)),
  ("documentLink/resolve",
    .record [field "range" range, option "target" uri, option "tooltip" string,
      option "data" .any]),
  ("textDocument/codeLens", query (aboutDocument ++ inParts)),
  ("codeLens/resolve",
    .record [field "range" range, option "command" command, option "data" .any]),
  ("textDocument/foldingRange", query (aboutDocument ++ inParts)),
  ("textDocument/selectionRange",
    query (aboutDocument ++ inParts ++ [field "positions" (.list position)])),
  ("textDocument/semanticTokens/full", query (aboutDocument ++ inParts)),
  ("textDocument/semanticTokens/full/delta",
    query (aboutDocument ++ inParts ++ [field "previousResultId" string])),
  ("textDocument/semanticTokens/range", query (inRange ++ inParts)),
  ("textDocument/inlineValue",
    query (inRange ++ progress ++
      [field "context" (.record [field "frameId" int32, field "stoppedLocation" range])])),
  ("textDocument/inlayHint", query (inRange ++ progress)),
  ("inlayHint/resolve", inlayHint),
  ("textDocument/moniker", query (atPlace ++ inParts)),
  ("completionItem/resolve", completionItem),
  ("textDocument/diagnostic",
    query (aboutDocument ++ inParts ++ options ["identifier", "previousResultId"] string)),
  ("workspace/diagnostic",
    query (inParts ++ [option "identifier" string,
      field "previousResultIds" (.list (.record [field "uri" uri, field "value" string]))])),
  ("textDocument/codeAction", query (inRange ++ inParts ++ [field "context" codeActionContext])),
  ("codeAction/resolve", codeAction),
  ("textDocument/documentColor", query (aboutDocument ++ inParts)),
  ("textDocument/colorPresentation",
    query (inRange ++ inParts ++ [field "color"
      (.record (["red", "green", "blue", "alpha"].map (field · .number)))])),
  ("textDocument/rename", query (atPlace ++ progress ++ [field "newName" string])),
  ("textDocument/prepareRename", .record atPlace),
  ("textDocument/linkedEditingRange", query (atPlace ++ progress)),
  ("workspaceSymbol/resolve", workspaceSymbol),
  ("workspace/willCreateFiles",
    .record [field "files" (.list (.record [field "uri" string]))]),
  ("workspace/willRenameFiles",
    .record [field "files" (.list (.record [field "oldUri" string, field "newUri" string]))]),
  ("workspace/willDeleteFiles",
    .record [field "files" (.list (.record [field "uri" string]))]),
  ("workspace/executeCommand",
    query (progress ++ [field "command" string, ("arguments", .defaulted, .list .any)]))]

def notices : List (String × Shape) := [
  ("initialized", .record []),
  ("textDocument/didOpen", .record [field "textDocument" documentItem]),
  ("textDocument/didChange",
    .record [field "textDocument" versionedDocument,
      field "contentChanges" (.list documentChange)]),
  ("textDocument/didSave", .record (aboutDocument ++ [option "text" string])),
  ("textDocument/didClose", .record aboutDocument),
  ("workspace/didChangeWatchedFiles", .record [field "changes" (.list fileEvent)])]

def ignoredNotices : List String :=
  ["textDocument/willSave", "workspace/didChangeConfiguration",
    "workspace/didChangeWorkspaceFolders", "workspace/didCreateFiles",
    "workspace/didRenameFiles", "workspace/didDeleteFiles"]

end BslInsight.Server.Shapes
