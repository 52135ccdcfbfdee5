import BslInsight.Server

/-!
# Messages on the wire

A message is a JSON value behind a header that gives the number of its bytes.  Answers carry the
identifier of their query.
-/

namespace BslInsight.Server.Wire

def contentLength? (line : String) : Option Nat :=
  match line.toList.span (· != ':') with
  | (name, _ :: value) =>
    if lower (String.ofList (trim name)) == "content-length" then
      (String.ofList (trim value)).toNat?
    else none
  | _ => none

def frame (json : Json) : String :=
  let body := json.compact
  s!"Content-Length: {body.utf8ByteSize}\r\n\r\n" ++ body

def message? (json : Json) : Option (Json × Message) := do
  let method ← (json.get? "method").bind Json.str?
  let id? := json.get? "id"
  return (id?.getD .null, { wantsAnswer := id?.isSome, method, params? := json.get? "params" })

def response? (id : Json) : Reply → Option Json
  | .silent | .ended => none
  | .result value =>
    some (.obj [("jsonrpc", .str "2.0"), ("result", value), ("id", id)])
  | .refused reason =>
    some (.obj [("jsonrpc", .str "2.0"),
      ("error", .obj [("code", .int reason.code), ("message", .str reason.message)]), ("id", id)])

/-- A message to the client.  Registering a capability is a query and carries an identifier. -/
def sent (message : Sent) : Json :=
  .ofPresent [("jsonrpc", some (.str "2.0")), ("method", some (.str message.method)),
    ("params", some message.params),
    ("id", if message.method = "client/registerCapability" then some (.ofNat 0) else none)]

def files (message : Message) : List Path :=
  match message.params?.bind (Notice.ofParams? message.method) with
  | some (.saved uri _) | some (.closed uri) => uri.filePath?.toList
  | some (.filesChanged events) => events.filterMap (·.uri.filePath?)
  | _ => []

def root? (message : Message) : Option Path :=
  if message.method = "initialize" then
    (message.params?.bind initializeParams?).bind (·.bind Uri.filePath?)
  else none

end BslInsight.Server.Wire
