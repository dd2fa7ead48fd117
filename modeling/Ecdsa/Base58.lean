import Ecdsa.Base58.Package

/-!
# Base58 text

The texts of bytes, with or without a checksum, as a package writes and reads them.

`decode` accepts one text for each byte string: after reading, the text has to be the one that
`encode` gives, so blanks at the end, which reading skips, are refused at last.
-/

namespace Ecdsa

namespace Base58

/-- A refusal by the package is one of the text; all else that goes wrong in it is passed on. -/
def Failure.toFault : Failure → Fault
  | .refusal message => .decode (.refused message)
  | .other kind => .packageFailed kind

section

variable [Package]

/-- The text form of bytes, with or without a checksum. -/
def encode (data : Bytes) (checked : Bool) : Text :=
  if checked then Package.writeChecked data else Package.write data

/-- The text form of a text that is given in place of bytes. -/
def encodeText (t : Text) (checked : Bool) : Except Fault Text :=
  match Package.scrub t with
  | .ok data => .ok (encode data checked)
  | .error failure => .error (.encoding failure)

/-- What the package reads off a text, with or without a checksum. -/
def read (t : Text) (checked : Bool) : Except Failure Bytes :=
  if checked then Package.readChecked t else Package.read t

/-- The bytes whose text form the text is. -/
def decode (t : Text) (checked : Bool) : Except Fault Bytes := do
  if t = [] then throw (.decode .empty)
  let data ← (read t checked).mapError Failure.toFault
  -- compared with the text as given, blanks included
  if encode data checked ≠ t then throw (.decode .notCanonical)
  pure data

end

end Base58

/-- A value given where a text is expected. -/
inductive TextSource where
  /-- A text. -/
  | text (characters : Text)
  /-- Something else, of which only the name of its type matters. -/
  | other (typeName : String)
  deriving DecidableEq, Repr

namespace TextSource

instance : Coe Text TextSource := ⟨.text⟩

variable [Base58.Package]

/-- The bytes whose text form the value is. -/
def decode (source : TextSource) (checked : Bool) : Except Fault Bytes :=
  match source with
  | .text t => Base58.decode t checked
  | .other typeName => .error (.decode (.notText typeName))

@[simp] theorem decode_text (t : Text) (checked : Bool) :
    decode (.text t) checked = Base58.decode t checked := rfl

end TextSource

end Ecdsa
