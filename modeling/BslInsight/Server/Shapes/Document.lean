import BslInsight.Json.Shape
import BslInsight.Uri

/-!
# Shapes of documents and their parts

The records that parameters of messages are made of: places, pieces and edits of documents, and what
is shown about them.
-/

namespace BslInsight.Server.Shapes

open Json Json.Shape

def uri : Shape :=
  .text fun text => (Uri.ofText? text).isSome

def position : Shape :=
  .record [field "line" count, field "character" count]

def range : Shape :=
  .record [field "start" position, field "end" position]

def location : Shape :=
  .record [field "uri" uri, field "range" range]

def document : Shape :=
  .record [field "uri" uri]

def versionedDocument : Shape :=
  .record [field "uri" uri, field "version" int32]

def documentItem : Shape :=
  .record [field "uri" uri, field "languageId" string, field "version" int32, field "text" string]

def documentChange : Shape :=
  .record [option "range" range, option "rangeLength" count, field "text" string]

def fileEvent : Shape :=
  .record [field "uri" uri, field "type" int32]

def folder : Shape :=
  .record [field "uri" uri, field "name" string]

def numberOrText : Shape :=
  .either [int32, string]

def markupKind : Shape :=
  .oneOf ["plaintext", "markdown"]

def documentation : Shape :=
  .either [string, .record [field "kind" markupKind, field "value" string]]

def textEdit : Shape :=
  .record [field "range" range, field "newText" string]

def command : Shape :=
  .record [field "title" string, field "command" string, option "arguments" (.list .any)]

def diagnostic : Shape :=
  .record [
    field "range" range,
    option "severity" int32,
    option "code" numberOrText,
    option "codeDescription" (.record [field "href" uri]),
    option "source" string,
    field "message" string,
    option "relatedInformation"
      (.list (.record [field "location" location, field "message" string])),
    option "tags" (.list int32),
    option "data" .any]

def documentEdit : Shape :=
  .record [
    field "textDocument" (.record [field "uri" uri, option "version" int32]),
    field "edits" (.list (.either [textEdit,
      .openRecord [field "range" range, field "newText" string, field "annotationId" string]
        .any]))]

def fileOperation : Shape :=
  let overwriting := Shape.record (options ["overwrite", "ignoreIfExists"] .bool)
  let deleting := Shape.record
    (options ["recursive", "ignoreIfNotExists"] .bool ++ [option "annotationId" string])
  .tagged "kind" [
    ("create", .record
      [field "uri" uri, option "options" overwriting, option "annotationId" string]),
    ("rename", .record
      [field "oldUri" uri, field "newUri" uri, option "options" overwriting,
        option "annotationId" string]),
    ("delete", .record [field "uri" uri, option "options" deleting])]

def workspaceEdit : Shape :=
  .record [
    ("changes", .defaulted,
      .nullable (.map (fun name => (Uri.ofText? name).isSome) (.list textEdit))),
    option "documentChanges"
      (.either [.list documentEdit, .list (.either [fileOperation, documentEdit])]),
    option "changeAnnotations" (.map (fun _ => true)
      (.record [field "label" string, option "needsConfirmation" .bool,
        option "description" string]))]

def signature : Shape :=
  .record [
    field "label" string,
    option "documentation" documentation,
    option "parameters" (.list (.record
      [field "label" (.either [string, .items [count, count]]),
        option "documentation" documentation])),
    option "activeParameter" count]

def signatureHelp : Shape :=
  .record [field "signatures" (.list signature), option "activeSignature" count,
    option "activeParameter" count]

def indentOptions : Shape :=
  .openRecord
    ([field "tabSize" count, field "insertSpaces" .bool] ++
      options ["trimTrailingWhitespace", "insertFinalNewline", "trimFinalNewlines"] .bool)
    (.either [.bool, int32, string])

end BslInsight.Server.Shapes
