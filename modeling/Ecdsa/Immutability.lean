import Ecdsa.Fault

/-!
# Finished values

Messages, keys, signatures, points, digests and tables are never changed once they are made. An
attempt to give one of their fields another value is refused, whether or not there is such a field.
-/

namespace Ecdsa

/-- The kinds of values whose fields can be named. -/
inductive ValueKind where
  | point
  | digest
  | message
  | publicKey
  | signature
  | table
  deriving DecidableEq, Repr

/-- Refuses a change. Points and digests say what they are, the records say which field was meant. -/
def ValueKind.refuseChange (kind : ValueKind) (field : Text) : Fault :=
  match kind with
  | .point => .immutable "Point"
  | .digest => .immutable "HashResult"
  | _ => .fixedField field

end Ecdsa
