import PluginKit.Lifecycle.Serving
import PluginKit.Lifecycle.Settings
import PluginKit.Plugin.Handshake
import PluginKit.Socket
import PluginKit.Transport

/-!
# The supervisor of a plugin

The state that the cycles of a supervisor work on: the plugin, its sockets, the servers bound
to them, the file system, the transport and the pending requests. The history lists what has
happened, the latest first.
-/

namespace PluginKit

inductive LifecycleState where
  | idle
  | starting
  | serving
  | stopping
  | permanentlyStopped
deriving DecidableEq, Repr

def LifecycleState.name : LifecycleState → String
  | idle => "Idle"
  | starting => "Starting"
  | serving => "Serving"
  | stopping => "Stopping"
  | permanentlyStopped => "PermanentlyStopped"

inductive CallOutcome where
  | ok
  | failed (message : String)
  | panicked (payload : PanicPayload)
deriving DecidableEq, Repr

inductive Event where
  | start (outcome : CallOutcome)
  | stop (outcome : CallOutcome)
  | metric (m : Metric)
deriving DecidableEq, Repr

/-- The task that serves a socket: it serves, it has ended after too many crashes, or it was
stopped. -/
inductive ServingTask where
  | serving
  | ended
  | stopped
deriving DecidableEq, Repr

structure Server where
  id : Nat
  socket : Path
  task : ServingTask := .serving
deriving DecidableEq, Repr

/-- The plugin with everything that its cycles work on. The calls of the plugin end as
scripted, and well once a script is used up. -/
structure Supervisor where
  handshake : Handshake
  settings : Settings
  observer : Observer
  plugin : Plugin
  startScript : List CallOutcome
  stopScript : List CallOutcome
  files : FileSystem
  transport : Transport := .works
  signals : Signals := Signals.quiet
  state : LifecycleState := .idle
  sockets : List Path
  servers : List Server := []
  nextServer : Nat := 0
  history : List Event := []

namespace Supervisor

/-- The supervisor of a plugin that nobody has started yet. A plugin that offers nothing has
none. -/
def create (plugin : Plugin) (startScript stopScript : List CallOutcome) (dirs : List Path)
    (settings : Settings) (observer : Observer) (files : FileSystem) :
    Except (Report ConstructionError) Supervisor :=
  plugin.resolve.map fun descriptor =>
    { handshake := ⟨descriptor, none⟩
      settings := settings
      observer := observer
      plugin := plugin
      startScript := startScript
      stopScript := stopScript
      files := files
      sockets := Socket.paths dirs descriptor.name }

def name (s : Supervisor) : String := s.handshake.descriptor.name

def report (s : Supervisor) (cause : LifecycleCause) : LifecycleReport :=
  cause.report s.name

/-- Calls the plugin's own start, which does nothing when the call is to fail. -/
def callStart (s : Supervisor) : Supervisor × CallOutcome :=
  let outcome := s.startScript.headD .ok
  ({ s with
      startScript := s.startScript.tail
      plugin := if outcome = .ok then s.plugin.start else s.plugin
      history := .start outcome :: s.history },
    outcome)

/-- Calls the plugin's own stop, which does nothing when the call is to fail. -/
def callStop (s : Supervisor) : Supervisor × CallOutcome :=
  let outcome := s.stopScript.headD .ok
  ({ s with
      stopScript := s.stopScript.tail
      plugin := if outcome = .ok then s.plugin.stop else s.plugin
      history := .stop outcome :: s.history },
    outcome)

/-- Starts the plugin; a panic is a failure like any other. -/
def startPlugin (s : Supervisor) : Supervisor × LifecycleOutcome :=
  match s.callStart with
  | (s', .ok) => (s', .ok ())
  | (s', .failed message) => (s', .error ((s.report .pluginStart).attach message))
  | (s', .panicked payload) => (s', .error (s.report (.startPanicked payload.message)))

def stopPlugin (s : Supervisor) : Supervisor × LifecycleOutcome :=
  match s.callStop with
  | (s', .ok) => (s', .ok ())
  | (s', .failed message) => (s', .error ((s.report .pluginStop).attach message))
  | (s', .panicked payload) => (s', .error (s.report (.stopPanicked payload.message)))

def tell (s : Supervisor) (m : Metric) : Supervisor × Bool :=
  (if s.observer.listens then { s with history := .metric m :: s.history } else s,
    s.observer.panics m)

/-- Whether somebody listens under a number: one of the servers, or a further one. -/
def listens (s : Supervisor) (further : List Server) (id : Nat) : Bool :=
  (s.servers ++ further).any fun server => server.id == id && server.task == .serving

/-- Connects to a socket, on which `further` servers may listen besides the bound ones. -/
def reach (s : Supervisor) (further : List Server) (socket : Path) : Except IoError Unit :=
  match s.files.connect socket with
  | .error e => .error e
  | .ok id => if s.listens further id then .ok () else .error .connectionRefused

def dial (s : Supervisor) (further : List Server) (socket : Path) : Except DialFailure Unit :=
  s.transport.dial s.settings.dialTimeout (s.reach further socket)

/-- The answer that a server of the plugin gives to a call: it offers the handshake and the
service of the plugin's kind. -/
def call (s : Supervisor) (m : Rpc.Method) (request : m.request.Value) :
    Supervisor × Except Rpc.Status m.response.Value :=
  match m, request with
  | .getInfo, _ => (s, .ok s.handshake.info)
  | .notifyRegistrationStatus, status =>
      ({ s with handshake := s.handshake.notify status }, .ok ())
  | m, _ =>
      if s.handshake.descriptor.kind.service = m.service then (s, s.plugin.answer m)
      else (s, .error .noService)

/-- Removes the socket files and then stops the plugin; the plugin is left alone when a file
cannot be removed. -/
def tearDown (s : Supervisor) : Supervisor × LifecycleOutcome :=
  match Socket.removeAll s.name s.files s.sockets with
  | (files, .error r) => ({ s with files := files }, .error r)
  | (files, .ok ()) => { s with files := files }.stopPlugin

end Supervisor

end PluginKit
