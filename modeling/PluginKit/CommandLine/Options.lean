import PluginKit.Plugin.Kind

/-!
# The options of the commands

The commands, the options that each of them takes, and the environment variables that stand in
for an option that is not given.
-/

namespace PluginKit

namespace PluginKind

def all : List PluginKind :=
  [eviction, reporter, qosResource]

def argument : PluginKind → String
  | eviction => "eviction"
  | reporter => "reporter"
  | qosResource => "qrm"

def ofArgument? (s : String) : Option PluginKind :=
  all.find? fun k => k.argument = s

theorem ofArgument?_argument (k : PluginKind) : ofArgument? k.argument = some k := by
  cases k <;> decide

end PluginKind

namespace CommandLine

def programName : String := "plugin-skeleton"

/-- The version of the program, which was built from no known revision. -/
def version : String := "latest-unknown"

inductive Opt where
  | logPath
  | kind
  | name
  | registrationDir
  | config
  | socket
  | timeout
deriving DecidableEq, Repr

namespace Opt

def long : Opt → String
  | logPath => "log-path"
  | kind => "kind"
  | name => "name"
  | registrationDir => "registration-dir"
  | config => "config"
  | socket => "socket"
  | timeout => "timeout-secs"

def valueName : Opt → String
  | logPath => "LOG_PATH"
  | kind => "KIND"
  | name => "NAME"
  | registrationDir => "REGISTRATION_DIRS"
  | config => "CONFIG"
  | socket => "SOCKET"
  | timeout => "TIMEOUT_SECS"

def label (o : Opt) : String :=
  "--" ++ o.long ++ " <" ++ o.valueName ++ ">"

def summary : Opt → String
  | logPath => "Write logs to a daily rolling file instead of stderr, e.g. /var/log/plugin.log"
  | kind => "Kind of plugin to serve"
  | name => "Plugin name, defaults to the dummy plugin name of the kind"
  | registrationDir => "Directory scanned by the host plugin watcher, repeat for several"
  | config => "YAML file overriding lifecycle timings"
  | socket => "Plugin socket to query"
  | timeout => "Dial timeout in seconds"

def envName? : Opt → Option String
  | logPath => some "PLUGIN_LOG_PATH"
  | registrationDir => some "PLUGIN_REGISTRATION_DIRS"
  | config => some "PLUGIN_LIFECYCLE_CONFIG"
  | _ => none

/-- The values an option is restricted to, as diagnostics and help texts list them. -/
def choices? : Opt → Option String
  | kind =>
      some ("[possible values: " ++
        String.intercalate ", " (PluginKind.all.map PluginKind.argument) ++ "]")
  | _ => none

end Opt

inductive Verb where
  | serve
  | info
deriving DecidableEq, Repr

namespace Verb

def all : List Verb :=
  [serve, info]

def text : Verb → String
  | serve => "serve"
  | info => "info"

def summary : Verb → String
  | serve => "Serve a dummy plugin behind the registration wrapper"
  | info => "Query the registration handshake of a plugin socket"

/-- The options of a command, those of the program included, in the order in which they are
listed. -/
def options : Verb → List Opt
  | serve => [.kind, .logPath, .name, .registrationDir, .config]
  | info => [.logPath, .socket, .timeout]

def required : Verb → Opt
  | serve => .kind
  | info => .socket

/-- The options of a command that a variable may stand in for, in the order in which the
variables are looked at. -/
def standIns : Verb → List Opt
  | serve => [.registrationDir, .config, .logPath]
  | info => [.logPath]

def ofText? (s : String) : Option Verb :=
  all.find? fun v => v.text = s

theorem ofText?_text (v : Verb) : ofText? v.text = some v := by
  cases v <;> decide

end Verb

structure Environment where
  logPath : Option String := none
  registrationDirs : Option String := none
  config : Option String := none
deriving DecidableEq, Repr

def Environment.get? (env : Environment) : Opt → Option String
  | .logPath => env.logPath
  | .registrationDir => env.registrationDirs
  | .config => env.config
  | _ => none

end CommandLine

end PluginKit
