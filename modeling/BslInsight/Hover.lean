import BslInsight.Resolve

/-!
# Hover

The text that is shown for the name under the cursor.
-/

namespace BslInsight

structure Hover where
  contents : String
  source : Source
deriving DecidableEq, Repr

def symbolHover (symbol : Symbol) (source : Source) : String :=
  let header := symbol.signatureLabel ++ if symbol.exported then " Экспорт" else ""
  let directive := match symbol.directive with
    | some directive => "\n\n`" ++ directive ++ "`"
    | none => ""
  let documentation := match symbol.documentationText with
    | some documentation => "\n\n" ++ documentation
    | none => ""
  let file := match source, symbol.file.fileName? with
    | .workspace, some file => "\n\n_" ++ file ++ "_"
    | _, _ => ""
  "```bsl\n" ++ header ++ "\n```" ++ directive ++ documentation ++ file

def Resolution.hover (locale : Locale) (resolution : Resolution) : Hover where
  source := resolution.source
  contents := match resolution with
    | .catalog entry => entry.documentation locale
    | .method symbol | .module symbol | .workspace symbol => symbolHover symbol resolution.source

def Resolver.hoverAt? (resolver : Resolver) (position : Position) (locale : Locale) :
    Option Hover :=
  (resolver.resolveAt position).map (Resolution.hover locale)

end BslInsight
