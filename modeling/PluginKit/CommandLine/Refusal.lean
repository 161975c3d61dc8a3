import PluginKit.CommandLine.Options
import PluginKit.Decimal.Natural

/-!
# Why a command line is not carried out

It asks for help or for the version, or something is wrong with it. Both end the program with a
text; asking is no failure.
-/

namespace PluginKit

namespace CommandLine

inductive Topic where
  | program
  | verb (v : Verb)
  | help
deriving DecidableEq, Repr

inductive Refusal where
  | help (topic : Topic)
  | version
  | nothingGiven
  | unexpectedArgument (argument : String)
  | unexpectedValue (value flag : String)
  | unknownCommand (word : String)
  | noCommand
  | noValue (o : Opt)
  | badKind (value : String)
  | badTimeout (value : String) (fault : Decimal.NumberFault)
  | repeated (o : Opt)
  | missing (o : Opt)
deriving DecidableEq, Repr

namespace Refusal

def name : Refusal → String
  | help _ => "DisplayHelp"
  | version => "DisplayVersion"
  | nothingGiven => "DisplayHelpOnMissingArgumentOrSubcommand"
  | unexpectedArgument _ => "UnknownArgument"
  | unexpectedValue _ _ => "TooManyValues"
  | unknownCommand _ => "InvalidSubcommand"
  | noCommand => "MissingSubcommand"
  | noValue _ => "InvalidValue"
  | badKind _ => "InvalidValue"
  | badTimeout _ _ => "ValueValidation"
  | repeated _ => "ArgumentConflict"
  | missing _ => "MissingRequiredArgument"

def exitCode : Refusal → Nat
  | help _ | version => 0
  | _ => 2

def choiceNote (o : Opt) : String :=
  match o.choices? with
  | some choices => "\n  " ++ choices
  | none => ""

/-- The complaint about a command line; `program` is the name it was called by. -/
def complaint (program : String) : Refusal → String
  | unexpectedArgument argument => "unexpected argument '" ++ argument ++ "' found"
  | unexpectedValue value flag =>
      "unexpected value '" ++ value ++ "' for '" ++ flag ++ "' found; no more were expected"
  | unknownCommand word => "unrecognized subcommand '" ++ word ++ "'"
  | noCommand =>
      "'" ++ program ++ "' requires a subcommand but one was not provided\n  [subcommands: " ++
        String.intercalate ", " (Verb.all.map Verb.text ++ ["help"]) ++ "]"
  | noValue o =>
      "a value is required for '" ++ o.label ++ "' but none was supplied" ++ choiceNote o
  | badKind value =>
      "invalid value '" ++ value ++ "' for '" ++ Opt.kind.label ++ "'" ++ choiceNote .kind
  | badTimeout value fault =>
      "invalid value '" ++ value ++ "' for '" ++ Opt.timeout.label ++ "': " ++ fault.message
  | repeated o => "the argument '" ++ o.label ++ "' cannot be used multiple times"
  | missing o => "the following required arguments were not provided:\n  " ++ o.label
  | _ => ""

end Refusal

end CommandLine

end PluginKit
