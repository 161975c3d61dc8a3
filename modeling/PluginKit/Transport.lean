import PluginKit.FileSystem.Error
import PluginKit.Text.Duration

/-!
# Dialing a socket

A dial connects to the socket and then agrees on the protocol with whoever listens there. All of
that is bounded by a limit.
-/

namespace PluginKit

/-- How the transport treats a connection: it works in time, it takes more time than a dial has, or
it fails for causes of its own. -/
inductive Transport where
  | works
  | stalls
  | breaks (causes : List String)
deriving DecidableEq, Repr

/-- Why a dial fails. The limit is in milliseconds. -/
inductive DialFailure where
  | transport (causes : List String)
  | timedOut (limit : Nat)
deriving DecidableEq, Repr

namespace DialFailure

/-- A socket that nothing connects to: the failure and its cause have one wording. -/
def unreached (e : IoError) : DialFailure := .transport [e.message, e.message]

def message : DialFailure → String
  | transport causes => String.intercalate ": " ("transport error" :: causes)
  | timedOut limit => "dial timed out after " ++ Text.showMilliseconds limit

end DialFailure

def Transport.dial (t : Transport) (limit : Nat) : Except IoError Unit → Except DialFailure Unit
  | .error e => .error (.unreached e)
  | .ok () =>
      match t with
      | works => .ok ()
      | stalls => .error (.timedOut limit)
      | breaks causes => .error (.transport causes)

end PluginKit
