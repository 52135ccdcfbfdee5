/-!
# Reading of arguments

The value of an option follows it as the next argument or is attached to it.  After two hyphens
alone only words follow.  No option may be given twice.
-/

namespace BslInsight.Arguments

inductive Stop where
  | usage
  | help (task? : Option String)
  | version
deriving DecidableEq, Repr

structure Spec where
  name : String
  letter? : Option Char := none
  accepts? : Option (String → Bool) := none

def named? (specs : List Spec) (name : String) : Option Spec :=
  specs.find? (·.name == name)

def lettered? (specs : List Spec) (letter : Char) : Option Spec :=
  specs.find? (·.letter? == some letter)

structure Scan where
  values : List (String × String) := []
  words : List String := []
  pending? : Option Spec := none
  isFlawed : Bool := false
  onlyWords : Bool := false

namespace Scan

def value? (scan : Scan) (name : String) : Option String :=
  scan.values.lookup name

def has (scan : Scan) (name : String) : Bool :=
  (scan.value? name).isSome

/-- An option with its value.  Asking for help or for the version ends the reading. -/
def give (scan : Scan) (spec : Spec) (value : String) : Except Stop Scan :=
  if spec.name = "help" then .error (.help none)
  else if spec.name = "version" then .error .version
  else if scan.has spec.name then .error .usage
  else if (spec.accepts?.map (· value)).getD true then
    .ok { scan with values := (spec.name, value) :: scan.values, pending? := none }
  else .error .usage

def word (scan : Scan) (conditions : List (String → Bool)) (text : String) : Except Stop Scan :=
  match scan.pending?, conditions[scan.words.length]? with
  | none, some accepts =>
    if accepts text then .ok { scan with words := scan.words ++ [text] } else .error .usage
  | _, _ => .error .usage

def long (scan : Scan) (specs : List Spec) (text : List Char) : Except Stop Scan :=
  let name := String.ofList (text.takeWhile (· != '='))
  match named? specs name, text.dropWhile (· != '=') with
  | none, _ => .error .usage
  | some spec, [] =>
    if spec.accepts?.isSome then .ok { scan with pending? := some spec } else scan.give spec ""
  | some spec, _ :: value =>
    if spec.accepts?.isSome then scan.give spec (String.ofList value) else .error .usage

/-- Options by their letters.  The letters after an option with a value are its value. -/
def letters (specs : List Spec) : Scan → List Char → Except Stop Scan
  | scan, [] => .ok scan
  | scan, letter :: rest => do
    match lettered? specs letter with
    | none => .error .usage
    | some spec =>
      if spec.accepts?.isNone then letters specs (← scan.give spec "") rest
      else
        match rest with
        | [] => .ok { scan with pending? := some spec }
        | '=' :: value => scan.give spec (String.ofList value)
        | value => scan.give spec (String.ofList value)

/-- An option with its value, which was an argument of its own.  A value that cannot be taken is a
flaw only. -/
def receive (scan : Scan) (spec : Spec) (value : String) : Scan :=
  match scan.give spec value with
  | .ok scan => scan
  | .error _ => { scan with pending? := none, isFlawed := true }

def step (specs : List Spec) (conditions : List (String → Bool)) (scan : Scan) (text : String) :
    Except Stop Scan :=
  if scan.isFlawed then .error .usage
  else if scan.onlyWords then scan.word conditions text
  else if text = "--" then .ok { scan with onlyWords := true }
  else
    match text.toList with
    | '-' :: '-' :: rest => if scan.pending?.isSome then .error .usage else scan.long specs rest
    | '-' :: letter :: rest =>
      if scan.pending?.isSome then .error .usage else letters specs scan (letter :: rest)
    | _ =>
      match scan.pending? with
      | some spec => .ok (scan.receive spec text)
      | none => scan.word conditions text

def all (specs : List Spec) (conditions : List (String → Bool)) (required : Nat)
    (arguments : List String) : Except Stop Scan := do
  let scan ← arguments.foldlM (step specs conditions) {}
  if scan.pending?.isSome || scan.isFlawed || scan.words.length < required then .error .usage
  else .ok scan

def awaitsWord (scan : Scan) (text : String) : Bool :=
  scan.pending?.isNone && !scan.onlyWords &&
    match text.toList with
    | '-' :: _ :: _ => false
    | _ => true

/-- The options before the first word, the word and the arguments after it.  The word may follow a
flaw. -/
def upToWord (specs : List Spec) : Scan → List String → Except Stop (Scan × String × List String)
  | _, [] => .error .usage
  | scan, text :: rest =>
    if scan.awaitsWord text then .ok (scan, text, rest)
    else do upToWord specs (← scan.step specs [] text) rest

end Scan

end BslInsight.Arguments
