import PluginKit.CommandLine.Refusal
import PluginKit.Text.Blank

/-!
# Help texts

A help text says what a command does, how it is called, and what its options mean. The meaning
of an option stands beside it, or below it where that would leave too little room.
-/

namespace PluginKit

namespace CommandLine

/-- How many columns a help text is laid out for. -/
def lineWidth : Nat := 100

/-- An option in a help text: what is written, and what it means. -/
structure HelpEntry where
  label : String
  meaning : String

namespace HelpEntry

/-- The notes behind the meaning of an option: the value of its variable, its default, and its
choices. -/
def notes (env : Environment) (o : Opt) : List String :=
  (o.envName?.map fun v => "[env: " ++ v ++ "=" ++ (env.get? o).getD "" ++ "]").toList ++
    (if o = .timeout then ["[default: 5]"] else []) ++ o.choices?.toList

def ofOpt (env : Environment) (o : Opt) : HelpEntry :=
  ⟨"    " ++ o.label, String.intercalate " " (o.summary :: notes env o)⟩

def help : HelpEntry := ⟨"-h, --help", "Print help"⟩

def version : HelpEntry := ⟨"-V, --version", "Print version"⟩

def labelWidth (entries : List HelpEntry) : Nat :=
  (entries.map fun e => e.label.length).foldl max 0

/-- Whether the meanings stand below their labels: the labels are wide, and some meaning does
not fit beside them. -/
def stacked (entries : List HelpEntry) : Bool :=
  let taken := labelWidth entries + 4
  decide (2 * lineWidth < 5 * taken) &&
    entries.any fun e => decide (lineWidth < taken + e.meaning.length)

/-- A text in which every line but the first is indented. -/
def hang (indent : Nat) (s : String) : String :=
  String.ofList (s.toList.flatMap fun c =>
    if c = '\n' then '\n' :: List.replicate indent ' ' else [c])

def render (entries : List HelpEntry) : String :=
  let width := labelWidth entries
  let below := stacked entries
  String.join (entries.map fun e =>
    let gap :=
      if below then "\n" ++ String.ofList (List.replicate 10 ' ')
      else String.ofList (List.replicate (width + 2 - e.label.length) ' ')
    "  " ++ e.label ++ gap ++ hang (if below then 10 else width + 4) e.meaning ++ "\n")

end HelpEntry

def usage (program : String) : Topic → String
  | .program => "Usage: " ++ program ++ " [OPTIONS] <COMMAND>"
  | .verb v =>
      "Usage: " ++ program ++ " " ++ v.text ++ " [OPTIONS] " ++ v.required.label
  | .help => "Usage: " ++ program ++ " help [COMMAND]..."

def helpSummary : String :=
  "Print this message or the help of the given subcommand(s)"

def commandList : String :=
  String.join ((Verb.all.map fun v => (v.text, v.summary)) ++ [("help", helpSummary)] |>.map
    fun (word, summary) =>
      "  " ++ word ++ String.ofList (List.replicate (7 - word.length) ' ') ++ summary ++ "\n")

def helpText (program : String) (env : Environment) : Topic → String
  | .program =>
      usage program .program ++ "\n\nCommands:\n" ++ commandList ++ "\nOptions:\n" ++
        HelpEntry.render [.ofOpt env .logPath, .help, .version]
  | .verb v =>
      v.summary ++ "\n\n" ++ usage program (.verb v) ++ "\n\nOptions:\n" ++
        HelpEntry.render (v.options.map (.ofOpt env) ++ [.help])
  | .help =>
      helpSummary ++ "\n\n" ++ usage program .help ++
        "\n\nArguments:\n  [COMMAND]...  Print help for the subcommand(s)\n"

/-- Whether a character is shown. Control characters are not, unless they part words or lines. -/
def isShown (c : Char) : Bool :=
  (' ' ≤ c && c != '\x7F') || ['\t', '\n', '\x0C', '\r'].contains c

def shown (s : String) : String :=
  String.ofList (s.toList.filter isShown)

/-- The text up to its first empty line, without the blanks at its end. -/
def firstParagraph (s : String) : String :=
  let rec go : List Char → List Char
    | '\n' :: '\n' :: _ => []
    | c :: rest => c :: go rest
    | [] => []
  String.ofList (Text.trimEnd (go s.toList))

def Refusal.message (program : String) (env : Environment) : Refusal → String
  | .help topic => shown (helpText program env topic)
  | .version => programName ++ " " ++ CommandLine.version ++ "\n"
  | .nothingGiven => shown (usage program .program)
  | r => firstParagraph (shown ("error: " ++ r.complaint program))

end CommandLine

end PluginKit
