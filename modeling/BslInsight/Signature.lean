import BslInsight.Resolve

/-!
# Signature help

The signature of the innermost call whose arguments are being typed.
-/

namespace BslInsight

structure SignatureParameter where
  label : String
  documentation? : Option String
deriving DecidableEq, Repr

structure Signature where
  label : String
  parameters : List SignatureParameter
  activeParameter : Nat
  documentation? : Option String
deriving DecidableEq, Repr

namespace Signature

def ofSymbol? (active : Nat) (symbol : Symbol) : Option Signature :=
  if symbol.kind.isMethod then
    some ⟨symbol.signatureLabel, symbol.params.map fun param => ⟨param.label, none⟩, active,
      symbol.documentationText⟩
  else none

def ofEntry? (active : Nat) (locale : Locale) (entry : Catalog.Entry) : Option Signature :=
  if entry.kind.isCallable then
    some ⟨entry.signatureLabel locale,
      entry.parameters.map fun param => ⟨param.label, param.description?⟩, active,
      entry.description?⟩
  else none

def toJson (signature : Signature) : Json :=
  .obj [("label", .str signature.label),
    ("parameters", .arr (signature.parameters.map fun param =>
      .obj [("label", .str param.label), ("documentation", .ofOption param.documentation?)])),
    ("active_parameter", .ofNat signature.activeParameter),
    ("documentation", .ofOption signature.documentation?)]

end Signature

namespace Resolver

/-- The first constructor of a class with a parameter for the active argument, or else its first. -/
def constructorFor? (resolver : Resolver) (active : Nat) (entry : Catalog.Entry) :
    Option Catalog.Entry :=
  (resolver.catalog.class? entry.name).bind fun type =>
    type.constructors.find? (active < ·.parameters.length) <|> type.constructors.head?

def callAt? (resolver : Resolver) (position : Position) : Option CallContext :=
  (resolver.line? position.line).bind fun line => callContext? (line.take position.column)

def signatureAt? (resolver : Resolver) (position : Position) (locale : Locale) :
    Option Signature := do
  let call ← resolver.callAt? position
  match ← resolver.resolveAt ⟨position.line, call.calleeEnd⟩ with
  | .catalog entry =>
    let callee ←
      if entry.kind = .«class» then resolver.constructorFor? call.activeParameter entry
      else some entry
    Signature.ofEntry? call.activeParameter locale callee
  | .method symbol | .module symbol | .workspace symbol =>
    Signature.ofSymbol? call.activeParameter symbol

def signatureReachesIndex (resolver : Resolver) (position : Position) : Bool :=
  (resolver.callAt? position).any fun call =>
    resolver.positionReachesIndex ⟨position.line, call.calleeEnd⟩

end Resolver

end BslInsight
