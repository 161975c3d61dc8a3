/-!
# Why the file system refuses

The causes of failure of file and socket operations, and their wording. Causes the system
itself numbers carry the number in their text.
-/

namespace PluginKit

inductive IoError where
  | notFound
  | noSuchDevice
  | permissionDenied
  | alreadyExists
  | notADirectory
  | isADirectory
  | invalidArgument
  | nameTooLong
  | tooManyLinks
  | addressInUse
  | connectionRefused
  | nulInName
  | nulInSocketPath
  | socketPathTooLong
  | notUtf8
deriving DecidableEq, Repr

namespace IoError

/-- The text and the number of a cause that the system numbers. -/
def numbered? : IoError → Option (String × Nat)
  | notFound => some ("No such file or directory", 2)
  | noSuchDevice => some ("No such device or address", 6)
  | permissionDenied => some ("Permission denied", 13)
  | alreadyExists => some ("File exists", 17)
  | notADirectory => some ("Not a directory", 20)
  | isADirectory => some ("Is a directory", 21)
  | invalidArgument => some ("Invalid argument", 22)
  | nameTooLong => some ("File name too long", 36)
  | tooManyLinks => some ("Too many levels of symbolic links", 40)
  | addressInUse => some ("Address already in use", 98)
  | connectionRefused => some ("Connection refused", 111)
  | _ => none

/-- The text of a cause found before the system is asked. -/
def plain : IoError → String
  | nulInName => "file name contained an unexpected NUL byte"
  | nulInSocketPath => "paths must not contain interior null bytes"
  | socketPathTooLong => "path must be shorter than SUN_LEN"
  | notUtf8 => "stream did not contain valid UTF-8"
  | _ => ""

def message (e : IoError) : String :=
  match e.numbered? with
  | some (text, number) => text ++ " (os error " ++ toString number ++ ")"
  | none => e.plain

end IoError

end PluginKit
