import BslInsight.Server.Params

/-!
# Messages

What a client sends: queries, which are answered, and notices, which are not.  A message names its
method; a query also has an identifier.
-/

namespace BslInsight.Server

structure Message where
  wantsAnswer : Bool
  method : String
  params? : Option Json
deriving Repr

inductive Refusal where
  | notInitialized
  | invalidRequest
  | methodNotFound
  | invalidParams
  | internal (message : String)
deriving DecidableEq, Repr

namespace Refusal

def code : Refusal → Int
  | .notInitialized => -32002
  | .invalidRequest => -32600
  | .methodNotFound => -32601
  | .invalidParams => -32602
  | .internal _ => -32603

def message : Refusal → String
  | .notInitialized => "Server not initialized"
  | .invalidRequest => "Invalid request"
  | .methodNotFound => "Method not found"
  | .invalidParams => "Invalid params"
  | .internal message => message

end Refusal

inductive Query where
  | completion (place : Place)
  | hover (place : Place)
  | signature (place : Place)
  | definition (place : Place)
  | references (place : Place) (includeDeclaration : Bool)
  | documentSymbols (uri : Uri)
  | workspaceSymbols (query : String)
  | indentation (uri : Uri) (style : IndentStyle) (lines? : Option (Nat × Nat))
deriving DecidableEq, Repr

inductive Notice where
  | initialized
  | opened (uri : Uri) (version : Int) (text : String)
  | changed (uri : Uri) (texts : List String)
  | saved (uri : Uri) (text? : Option String)
  | closed (uri : Uri)
  | filesChanged (events : List FileEvent)
deriving DecidableEq, Repr

namespace Notice

def methods : List String :=
  Shapes.notices.map Prod.fst ++ Shapes.ignoredNotices

def read? (method : String) (params : Json) : Option Notice :=
  match method with
  | "initialized" => some .initialized
  | "textDocument/didOpen" =>
    (openedParams? params).map fun (uri, version, text) => .opened uri version text
  | "textDocument/didChange" => (changedParams? params).map fun (uri, texts) => .changed uri texts
  | "textDocument/didSave" => (savedParams? params).map fun (uri, text?) => .saved uri text?
  | "textDocument/didClose" => (closedParams? params).map .closed
  | "workspace/didChangeWatchedFiles" => (watchedParams? params).map .filesChanged
  | _ => none

def ofParams? (method : String) (params : Json) : Option Notice := do
  let shape ← Shapes.notices.lookup method
  if shape.fits params then read? method params else none

end Notice

namespace Query

def read? (method : String) (params : Json) : Option Query := do
  let record ← params.obj?
  match method with
  | "textDocument/completion" => return .completion (← place? record)
  | "textDocument/hover" => return .hover (← place? record)
  | "textDocument/signatureHelp" => return .signature (← place? record)
  | "textDocument/definition" => return .definition (← place? record)
  | "textDocument/references" =>
    return .references (← place? record) (← includesDeclaration? record)
  | "textDocument/documentSymbol" => return .documentSymbols (← document? record)
  | "workspace/symbol" => return .workspaceSymbols (← Json.Record.required record "query" Json.str?)
  | "textDocument/formatting" => return .indentation (← document? record) (← style? record) none
  | "textDocument/rangeFormatting" =>
    let span ← Json.Record.required record "range" span?
    return .indentation (← document? record) (← style? record)
      (some (span.start.line, span.stop.line))
  | "textDocument/onTypeFormatting" =>
    let place ← place? record
    return .indentation place.uri (← style? record)
      (some (place.position.line - 1, place.position.line))
  | _ => none

def isMethod (method : String) : Bool :=
  (Shapes.supported.lookup method).isSome || (Shapes.unsupported.lookup method).isSome

def ofParams (method : String) (params : Json) : Except Refusal Query :=
  match Shapes.supported.lookup method, Shapes.unsupported.lookup method with
  | some shape, _ =>
    match if shape.fits params then read? method params else none with
    | some query => .ok query
    | none => .error .invalidParams
  | none, some shape => .error (if shape.fits params then .methodNotFound else .invalidParams)
  | none, none => .error .methodNotFound

end Query

end BslInsight.Server
