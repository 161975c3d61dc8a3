import PluginKit.CommandLine.Refusal
import PluginKit.Path

/-!
# Reading a command line

Options may stand before and behind the command. An option takes its value from behind an equals
sign or from the next argument, unless that looks like an option itself. A value is looked at
only when the next option is met, so that an argument nobody knows is complained about first.

What is said behind the command wins over what is said in front of it, and both win over the
environment.
-/

namespace PluginKit

namespace CommandLine

inductive Shape where
  | terminator
  | long (name : String) (value : Option String)
  | short (c : Char)
  | word
deriving DecidableEq, Repr

/-- The shape of an argument. A long option carries a value behind its first equals sign; of a
cluster of short options only the first matters. -/
def Shape.ofArgument (argument : String) : Shape :=
  match argument.toList with
  | ['-', '-'] => terminator
  | '-' :: '-' :: rest =>
      let name := rest.takeWhile (· != '=')
      match rest.dropWhile (· != '=') with
      | _ :: value => long (String.ofList name) (some (String.ofList value))
      | [] => long (String.ofList name) none
  | '-' :: c :: _ => short c
  | _ => word

/-- The pieces of a text between its commas; there is always at least one. -/
def pieces : List Char → List (List Char)
  | [] => [[]]
  | c :: rest =>
      if c = ',' then [] :: pieces rest
      else
        match pieces rest with
        | [] => [[c]]
        | piece :: more => (c :: piece) :: more

structure Given where
  logPath : Option Path := none
  kind : Option PluginKind := none
  name : Option String := none
  registrationDirs : Option (List Path) := none
  config : Option Path := none
  socket : Option Path := none
  timeout : Option Nat := none
deriving DecidableEq, Repr

namespace Given

def has (g : Given) : Opt → Bool
  | .logPath => g.logPath.isSome
  | .kind => g.kind.isSome
  | .name => g.name.isSome
  | .registrationDir => g.registrationDirs.isSome
  | .config => g.config.isSome
  | .socket => g.socket.isSome
  | .timeout => g.timeout.isSome

/-- The path that a value names, which may not be empty. -/
def readPath (o : Opt) (value : List Char) : Except Refusal Path :=
  if value.isEmpty then .error (.noValue o) else .ok ⟨value⟩

def readKind (value : String) : Except Refusal PluginKind :=
  match PluginKind.ofArgument? value with
  | some k => .ok k
  | none => .error (if value.isEmpty then .noValue .kind else .badKind value)

def readTimeout (value : String) : Except Refusal Nat :=
  (Decimal.readUInt64 value.toList).mapError (.badTimeout value)

/-- The values with one more. Directories are separated by commas and add up. -/
def put (g : Given) (o : Opt) (value : String) : Except Refusal Given :=
  match o with
  | .logPath => do .ok { g with logPath := some (← readPath o value.toList) }
  | .kind => do .ok { g with kind := some (← readKind value) }
  | .name => .ok { g with name := some value }
  | .registrationDir => do
      let dirs ← (pieces value.toList).mapM (readPath o)
      .ok { g with registrationDirs := some (g.registrationDirs.getD [] ++ dirs) }
  | .config => do .ok { g with config := some (← readPath o value.toList) }
  | .socket => do .ok { g with socket := some (← readPath o value.toList) }
  | .timeout => do .ok { g with timeout := some (← readTimeout value) }

/-- The values with one more, which may be the second for directories only. -/
def add (g : Given) (o : Opt) (value : String) : Except Refusal Given :=
  if g.has o ∧ o ≠ .registrationDir then .error (.repeated o) else g.put o value

/-- The values, with those of the environment for options that are missing. -/
def fill (g : Given) (env : Environment) : List Opt → Except Refusal Given
  | [] => .ok g
  | o :: rest =>
      match if g.has o then none else env.get? o with
      | some value => do (← g.put o value).fill env rest
      | none => g.fill env rest

end Given

/-- Where an argument stands: in front of the command, or behind it. -/
inductive Scope where
  | program
  | verb (v : Verb)
deriving DecidableEq, Repr

namespace Scope

def options : Scope → List Opt
  | program => [.logPath]
  | verb v => v.options

def topic : Scope → Topic
  | program => .program
  | verb v => .verb v

def opt? (s : Scope) (name : String) : Option Opt :=
  s.options.find? fun o => o.long = name

def request? (s : Scope) (name : String) : Option Refusal :=
  if name = "help" then some (.help s.topic)
  else if name = "version" ∧ s = program then some .version
  else none

def shortRequest? (s : Scope) (c : Char) : Option Refusal :=
  if c = 'h' then s.request? "help"
  else if c = 'V' then s.request? "version"
  else none

/-- The complaint about a word that has no place there. -/
def stray (s : Scope) (trailing : Bool) (word : String) : Refusal :=
  match s with
  | verb _ => .unexpectedArgument word
  | program =>
      if trailing ∧ (Verb.ofText? word).isSome ∨ trailing ∧ word = "help" then
        .unexpectedArgument word
      else .unknownCommand word

end Scope

/-- The state of reading: the values given, the option whose value is not yet looked at, with
that value once it is read, and whether all further arguments are words. -/
structure Reading where
  given : Given := {}
  pending : Option (Opt × Option String) := none
  trailing : Bool := false
deriving DecidableEq, Repr

namespace Reading

/-- Looks at the value that is pending. -/
def settle (r : Reading) : Except Refusal Reading :=
  match r.pending with
  | none => .ok r
  | some (o, none) => .error (.noValue o)
  | some (o, some value) => do .ok { r with given := ← r.given.add o value, pending := none }

def awaits? (r : Reading) : Option Opt :=
  match r.pending with
  | some (o, none) => some o
  | _ => none

def readLong (r : Reading) (s : Scope) (name : String) (value : Option String) :
    Except Refusal Reading :=
  match s.opt? name, s.request? name with
  | some o, _ => do
      let r ← r.settle
      match value with
      | some value => .ok { r with given := ← r.given.add o value }
      | none => .ok { r with pending := some (o, none) }
  | none, some request =>
      match value with
      | some value => .error (.unexpectedValue value ("--" ++ name))
      | none => do
          let _ ← r.settle
          .error request
  | none, none => .error (.unexpectedArgument ("--" ++ name))

def readShort (r : Reading) (s : Scope) (c : Char) : Except Refusal Reading :=
  match s.shortRequest? c with
  | some request => do
      let _ ← r.settle
      .error request
  | none => .error (.unexpectedArgument (String.ofList ['-', c]))

def readArgument (r : Reading) (s : Scope) (argument : String) : Except Refusal Reading :=
  if r.trailing then .error (s.stray true argument)
  else
    match Shape.ofArgument argument with
    | .terminator => .ok { r with trailing := true }
    | .long name value => r.readLong s name value
    | .short c => r.readShort s c
    | .word =>
        match r.awaits? with
        | some o => .ok { r with pending := some (o, some argument) }
        | none => .error (s.stray false argument)

def readAll (s : Scope) (r : Reading) : List String → Except Refusal Reading
  | [] => .ok r
  | argument :: rest => do readAll s (← r.readArgument s argument) rest

def finish (r : Reading) (env : Environment) (standIns : List Opt) : Except Refusal Given := do
  (← r.settle).given.fill env standIns

end Reading

inductive Order where
  | serve (kind : PluginKind) (name : Option String) (registrationDirs : List Path)
      (config : Option Path)
  | info (socket : Path) (timeoutSeconds : Nat)
deriving DecidableEq, Repr

structure Invocation where
  logPath : Option Path
  order : Order
deriving DecidableEq, Repr

def orderOf (v : Verb) (g : Given) : Except Refusal Order :=
  match v with
  | .serve =>
      match g.kind with
      | some kind => .ok (.serve kind g.name (g.registrationDirs.getD []) g.config)
      | none => .error (.missing .kind)
  | .info =>
      match g.socket with
      | some socket => .ok (.info socket (g.timeout.getD 5))
      | none => .error (.missing .socket)

def helpTopic : List String → Refusal
  | [] => .help .program
  | word :: rest =>
      match Verb.ofText? word, rest with
      | some v, [] => .help (.verb v)
      | some _, next :: _ => .unknownCommand next
      | none, next :: _ => if word = "help" then .unknownCommand next else .unknownCommand word
      | none, [] => if word = "help" then .help .help else .unknownCommand word

def parseVerb (env : Environment) (v : Verb) (arguments : List String) :
    Except Refusal (Order × Option Path) := do
  let r ← Reading.readAll (.verb v) {} arguments
  let settled ← r.settle
  let g ← settled.given.fill env v.standIns
  .ok (← orderOf v g, settled.given.logPath)

/-- Reads the arguments in front of the command, and the command. -/
def parseFrom (env : Environment) (r : Reading) : List String → Except Refusal Invocation
  | [] => do
      let g ← r.finish env [.logPath]
      .error (if g.has .logPath then .noCommand else .nothingGiven)
  | argument :: rest =>
      match if r.trailing ∨ r.awaits?.isSome then none else Verb.ofText? argument with
      | some v => do
          let (order, logPath) ← parseVerb env v rest
          let g ← r.finish env [.logPath]
          .ok ⟨logPath.or g.logPath, order⟩
      | none =>
          if ¬ r.trailing ∧ r.awaits? = none ∧ argument = "help" then .error (helpTopic rest)
          else do parseFrom env (← r.readArgument .program argument) rest

/-- The name the program was called by: the last part of the word that called it, if that is a
name. -/
def calledAs (word : Option String) : String :=
  match word.bind fun w => (Path.ofString w).fileName? with
  | some name => String.ofList name
  | none => programName

def parse (env : Environment) (arguments : List String) : Except Refusal Invocation :=
  parseFrom env {} arguments

end CommandLine

end PluginKit
