/-!
# Status of a call

A call answers with one of seventeen codes and a text. All but one of them are failures.
-/

namespace PluginKit

namespace Rpc

inductive Code where
  | ok
  | cancelled
  | unknown
  | invalidArgument
  | deadlineExceeded
  | notFound
  | alreadyExists
  | permissionDenied
  | resourceExhausted
  | failedPrecondition
  | aborted
  | outOfRange
  | unimplemented
  | internal
  | unavailable
  | dataLoss
  | unauthenticated
deriving DecidableEq, Repr

namespace Code

def table : List (Code × String) :=
  [(ok, "Ok"), (cancelled, "Cancelled"), (unknown, "Unknown"), (invalidArgument, "InvalidArgument"),
    (deadlineExceeded, "DeadlineExceeded"), (notFound, "NotFound"),
    (alreadyExists, "AlreadyExists"), (permissionDenied, "PermissionDenied"),
    (resourceExhausted, "ResourceExhausted"), (failedPrecondition, "FailedPrecondition"),
    (aborted, "Aborted"), (outOfRange, "OutOfRange"), (unimplemented, "Unimplemented"),
    (internal, "Internal"), (unavailable, "Unavailable"), (dataLoss, "DataLoss"),
    (unauthenticated, "Unauthenticated")]

def name (c : Code) : String :=
  ((table.find? fun row => row.1 == c).map Prod.snd).getD ""

/-- The code with a number; a number without a code says nothing. -/
def ofNumber (n : Int) : Code :=
  if n < 0 then unknown else ((table[n.toNat]?).map Prod.fst).getD unknown

example :
    ofNumber 0 = ok ∧ ofNumber 1 = cancelled ∧ ofNumber 16 = unauthenticated ∧
      ofNumber 17 = unknown := by
  decide

end Code

/-- The status of a call that came without a message. -/
structure Status where
  code : Code
  message : String
deriving DecidableEq, Repr

def Status.noService : Status := ⟨.unimplemented, ""⟩

/-- What the caller is told: a call that ends well has to bring a message. -/
def Status.received (s : Status) : Status :=
  if s.code = .ok then ⟨.internal, "Missing response message."⟩ else s

end Rpc

end PluginKit
