import BslInsight.Report

/-!
# Help

The pages that explain the command line: one on the whole program and one on each task.
-/

namespace BslInsight.Command

def programName : String :=
  "bsl-intellisense"

def versionText : String :=
  Report.line (programName ++ " 0.4.0")

structure HelpPage where
  about : String
  usage : String
  lists : List (String × List (String × String))

namespace HelpPage

def listLines (title : String) (entries : List (String × String)) : List String :=
  let width := entries.foldl (fun width (term, _) => max width term.length) 0
  "" :: title :: entries.map fun (term, meaning) =>
    "  " ++ term ++ String.ofList (List.replicate (width - term.length + 2) ' ') ++ meaning

def text (page : HelpPage) : String :=
  let lists := page.lists.flatMap fun (title, entries) => listLines (title ++ ":") entries
  let usage := "Usage: " ++ programName ++ " " ++ page.usage
  String.join ((page.about :: "" :: usage :: lists).map Report.line)

end HelpPage

def verboseHelp : String × String :=
  ("-v, --verbose", "Enable verbose logging")

def formatHelp : String × String :=
  ("-f, --format <FORMAT>", "Output format [default: text] [possible values: text, json, table]")

def configHelp : String × String :=
  ("-c, --config <CONFIG>",
    "Configuration file (defaults to bsl-intellisense.toml in the workspace root)")

def helpHelp : String × String :=
  ("-h, --help", "Print help")

def limitHelp (default : String) : String × String :=
  ("-l, --limit <LIMIT>", s!"Maximum number of results [default: {default}]")

def taskPage (about usage : String) (words options : List (String × String)) : HelpPage :=
  ⟨about, usage, (if words.isEmpty then [] else [("Arguments", words)]) ++
    (if options.isEmpty then [] else [("Options", options)])⟩

def taskPages : List (String × HelpPage) :=
  [("lsp", taskPage "Start the language server over stdio" "lsp [OPTIONS]" []
      [verboseHelp, formatHelp, configHelp, helpHelp]),
    ("index", taskPage "Index a workspace and print statistics" "index [OPTIONS] <ROOT>"
      [("<ROOT>", "Workspace root")]
      [("    --clear-cache", "Remove the on-disk table cache before indexing"),
        verboseHelp, formatHelp, configHelp, helpHelp]),
    ("symbols", taskPage "Print the symbols declared in a module" "symbols [OPTIONS] <FILE>"
      [("<FILE>", "BSL or OneScript source file")]
      [verboseHelp, formatHelp, configHelp, helpHelp]),
    ("search", taskPage "Fuzzy search for module-level symbols in a workspace"
      "search [OPTIONS] <ROOT> <QUERY>"
      [("<ROOT>", "Workspace root"), ("<QUERY>", "Search text")]
      [limitHelp "50", verboseHelp, formatHelp, configHelp, helpHelp]),
    ("fmt", taskPage "Re-indent a module by block nesting" "fmt [OPTIONS] <FILE>"
      [("<FILE>", "BSL or OneScript source file")]
      [("    --spaces <SPACES>", "Indent with this many spaces instead of tabs"), verboseHelp,
        formatHelp, ("-w, --write", "Rewrite the file instead of printing the result"), configHelp,
        helpHelp]),
    ("catalog", taskPage "Browse the standard-library catalog" "catalog [OPTIONS] [FILTER]"
      [("[FILTER]", "Case-insensitive substring filter")]
      [("-d, --dialect <DIALECT>", "[default: bsl] [possible values: bsl, oscript]"), verboseHelp,
        formatHelp, limitHelp "100", configHelp, helpHelp]),
    ("help", taskPage "Print this message or the help of the given subcommand(s)"
      "help [COMMAND]..." [("[COMMAND]...", "Print help for the subcommand(s)")] [])]

def programPage : HelpPage :=
  ⟨"Code intelligence for BSL (1C:Enterprise) and OneScript", "[OPTIONS] <COMMAND>",
    [("Commands", taskPages.map fun (name, page) => (name, page.about)),
      ("Options", [verboseHelp, formatHelp, configHelp, helpHelp,
        ("-V, --version", "Print version")])]⟩

def helpText (task? : Option String) : String :=
  ((task?.bind (List.lookup · taskPages)).getD programPage).text

end BslInsight.Command
