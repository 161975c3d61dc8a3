import PluginKit.Text.Quoted

/-!
# Records as diagnostics show them

A record is shown as its name and, between braces, its fields with their values.
-/

namespace PluginKit

namespace Text

/-- A record with its fields, whose values are texts that stand as they are. -/
def showRecord (name : String) (fields : List (String × String)) : String :=
  name ++ " \x7b " ++
    String.intercalate ", " (fields.map fun (label, value) => label ++ ": " ++ value) ++ " \x7d"

def showPartialRecord (name : String) (fields : List (String × String)) : String :=
  name ++ " \x7b " ++
    String.join (fields.map fun (label, value) => label ++ ": " ++ value ++ ", ") ++ ".. \x7d"

def showList (items : List String) : String :=
  "[" ++ String.intercalate ", " (items.map quote) ++ "]"

def showOption : Option String → String
  | none => "None"
  | some text => "Some(" ++ quote text ++ ")"

end Text

end PluginKit
