import BslInsight.Text.LowerCase

/-!
# Keywords

Every keyword has a Russian and an English spelling, and letter case does not matter.
-/

namespace BslInsight

inductive Keyword where
  | procedure | endProcedure | function | endFunction | async | var | val | «export»
  | «if» | «then» | elseIf | «else» | endIf | «for» | each | «in» | to | «while» | «do» | endDo
  | «try» | except | endTry | raise | «return» | «break» | «continue»
  | new | and | or | not | true | false | undefined | null
deriving DecidableEq, Repr

def Keyword.spellings : List (String × Keyword) := [
  ("процедура", .procedure), ("procedure", .procedure),
  ("конецпроцедуры", .endProcedure), ("endprocedure", .endProcedure),
  ("функция", .function), ("function", .function),
  ("конецфункции", .endFunction), ("endfunction", .endFunction),
  ("асинх", .async), ("async", .async),
  ("перем", .var), ("var", .var),
  ("знач", .val), ("val", .val),
  ("экспорт", .«export»), ("export", .«export»),
  ("если", .«if»), ("if", .«if»),
  ("тогда", .«then»), ("then", .«then»),
  ("иначеесли", .elseIf), ("elsif", .elseIf), ("elseif", .elseIf),
  ("иначе", .«else»), ("else", .«else»),
  ("конецесли", .endIf), ("endif", .endIf),
  ("для", .«for»), ("for", .«for»),
  ("каждого", .each), ("each", .each),
  ("из", .«in»), ("in", .«in»),
  ("по", .to), ("to", .to),
  ("пока", .«while»), ("while", .«while»),
  ("цикл", .«do»), ("do", .«do»),
  ("конеццикла", .endDo), ("enddo", .endDo),
  ("попытка", .«try»), ("try", .«try»),
  ("исключение", .except), ("except", .except),
  ("конецпопытки", .endTry), ("endtry", .endTry),
  ("вызватьисключение", .raise), ("raise", .raise),
  ("возврат", .«return»), ("return", .«return»),
  ("прервать", .«break»), ("break", .«break»),
  ("продолжить", .«continue»), ("continue", .«continue»),
  ("новый", .new), ("new", .new),
  ("и", .and), ("and", .and),
  ("или", .or), ("or", .or),
  ("не", .not), ("not", .not),
  ("истина", .true), ("true", .true),
  ("ложь", .false), ("false", .false),
  ("неопределено", .undefined), ("undefined", .undefined),
  ("null", .null)]

def Keyword.ofWord? (word : String) : Option Keyword :=
  Keyword.spellings.lookup (lower word)

def isKeyword (word : String) : Bool :=
  (Keyword.ofWord? word).isSome

def Keyword.opensStatement : Keyword → Bool
  | .«then» | .«do» | .«else» | .«try» | .except => Bool.true
  | _ => Bool.false

inductive Instruction where
  | region | endRegion | «if» | elseIf | «else» | endIf | use
deriving DecidableEq, Repr

def Instruction.spellings : List (String × Instruction) := [
  ("область", .region), ("region", .region),
  ("конецобласти", .endRegion), ("endregion", .endRegion),
  ("если", .«if»), ("if", .«if»),
  ("иначеесли", .elseIf), ("elsif", .elseIf),
  ("иначе", .«else»), ("else", .«else»),
  ("конецесли", .endIf), ("endif", .endIf),
  ("использовать", .use), ("use", .use)]

def Instruction.ofWord? (word : String) : Option Instruction :=
  Instruction.spellings.lookup (lower word)

def compilationDirectives : List String := [
  "наклиенте", "atclient", "насервере", "atserver", "насерверебезконтекста", "atservernocontext",
  "наклиентенасерверебезконтекста", "atclientatservernocontext",
  "наклиентенасервере", "atclientatserver"]

def isCompilationDirective (word : String) : Bool :=
  let name := String.ofList (word.toList.dropWhile (· == '&'))
  compilationDirectives.contains (lower name)

end BslInsight
