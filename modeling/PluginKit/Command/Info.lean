import PluginKit.Plugin.Handshake
import PluginKit.Transport

/-!
# Asking a plugin who it is

The command dials a socket, asks for the identity behind it, and prints it line by line.
-/

namespace PluginKit

namespace Info

open Wire.Contracts

inductive Failure where
  | dial (socket : Path) (e : DialFailure)
  | call (status : Rpc.Status)
deriving DecidableEq, Repr

def Failure.message : Failure → String
  | dial socket e => "dial " ++ socket.toText ++ " failed: " ++ e.message
  | call _ => "GetInfo failed"

/-- The printed form of an identity; an empty endpoint is not printed. -/
def render (info : Registration.pluginInfo.Value) : String :=
  let (type, name, endpoint, versions, _) := info
  "type: " ++ type ++ "\n" ++
    "name: " ++ name ++ "\n" ++
    "supported versions: " ++ String.intercalate ", " versions ++ "\n" ++
    (if endpoint = "" then "" else "endpoint: " ++ endpoint ++ "\n")

def output (socket : Path)
    (answer : Except DialFailure (Except Rpc.Status Registration.pluginInfo.Value)) :
    Except Failure String :=
  match answer with
  | .error e => .error (.dial socket e)
  | .ok (.error status) => .error (.call status.received)
  | .ok (.ok info) => .ok (render info)

end Info

end PluginKit
