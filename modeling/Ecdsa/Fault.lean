import Ecdsa.Text.Quoted

/-!
# Faults

Every way in which an operation can fail, as one type of causes with the wording of each. Inputs
that cannot take part in a verification are rejected under one of three labels (`Rejection`); the
label stands in front of the cause. A signature that merely does not match is no fault.
-/

namespace Ecdsa

/-- The families of rejected input; `general` covers the other three and has no label. -/
inductive Rejection where
  | general
  | decode
  | publicKey
  | signature
  deriving DecidableEq, Repr

namespace Rejection

/-- The label that messages of a family start with. -/
def label? : Rejection → Option String
  | .general => none
  | .decode => some "decode"
  | .publicKey => some "invalid_public_key"
  | .signature => some "invalid_signature"

/-- Whether one family contains another. -/
def covers (family member : Rejection) : Bool :=
  family == .general || family == member

/-- A label alone, or a label and what went wrong. -/
def labelled (label detail : String) : String :=
  if detail.isEmpty then label else label ++ ": " ++ detail

end Rejection

/-- Why a text is not the text form of any bytes. -/
inductive DecodeCause where
  | notText (given : String)
  | empty
  /-- The package that reads texts refuses it, in these words. -/
  | refused (message : String)
  | notCanonical
  deriving DecidableEq, Repr

/-- Why bytes or coordinates are no public key. -/
inductive PublicKeyCause where
  | compressedTag (tag : UInt8)
  | uncompressedTag (tag : UInt8)
  | length (given : Nat)
  | noPointAbove
  | offCurve
  deriving DecidableEq, Repr

/-- Why bytes or numbers are no signature in canonical form. -/
inductive SignatureCause where
  | length (given : Nat)
  | rOutOfRange
  | sOutOfRange
  | sNotLow
  deriving DecidableEq, Repr

/-- What stands in the way of an operation. -/
inductive Fault where
  /-- A residue was asked for with modulus zero. -/
  | zeroModulus
  /-- A point was to be multiplied by a negative number. -/
  | negativeScalar
  /-- Square roots are taken by one power, which needs a field of order 3 modulo 4. -/
  | rootsUnsupported
  /-- A table needs windows of at least one bit. -/
  | windowTooNarrow
  /-- A row or a column that a table does not have. -/
  | outsideTable
  /-- A number that does not fit the width it is to be written in. -/
  | tooWide
  /-- A list item that is no byte. -/
  | notAByte
  /-- Fewer than no bytes were asked for. -/
  | negativeCount
  /-- More bytes were asked for than a memory holds. -/
  | outOfMemory
  /-- Something other than bytes was given. -/
  | notBytes
  /-- Too few bytes are left for a 256-bit word. -/
  | wordTruncated
  /-- A text that its encoding cannot write. -/
  | encoding (failure : EncodingFailure)
  /-- A digest of the wrong length. -/
  | digestLength (given : Nat)
  /-- A message digest of the wrong length. -/
  | messageLength (given : Nat)
  /-- A message digest that stands for a number not below the group order. -/
  | messageTooLarge
  /-- A hash function other than SHA-256. -/
  | unknownAlgorithm (name : String)
  /-- A name under which nothing is kept. -/
  | unknownName
  /-- An attempt to change a value of a kind that allows none. -/
  | immutable (kind : String)
  /-- An attempt to change a field of a finished record. -/
  | fixedField (field : Text)
  /-- The family of all rejections has no label of its own. -/
  | unlabelled
  /-- The package that reads texts fails in a way that is no refusal. -/
  | packageFailed (kind : String)
  /-- A text that is rejected. -/
  | decode (cause : DecodeCause)
  /-- A public key that is rejected. -/
  | publicKey (cause : PublicKeyCause)
  /-- A signature that is rejected. -/
  | signature (cause : SignatureCause)
  deriving DecidableEq, Repr

/-- How a text fails, in words. -/
def DecodeCause.message : DecodeCause → String
  | .notText given => "Expected str, got " ++ given
  | .empty => "Empty text"
  | .refused message => message
  | .notCanonical => "Text is not in canonical base58 form"

/-- How a public key fails, in words. A tag is shown as two hexadecimal digits. -/
def PublicKeyCause.message : PublicKeyCause → String
  | .compressedTag tag => "Bad prefix 0x" ++ Bytes.hex [tag] ++ " for compressed key"
  | .uncompressedTag tag => "Bad prefix 0x" ++ Bytes.hex [tag] ++ " for uncompressed key"
  | .length given => "Public key must be 33 or 65 bytes, got " ++ toString given
  | .noPointAbove => "No curve point has this x coordinate"
  | .offCurve => "Point is not on the curve"

/-- How a signature fails, in words. -/
def SignatureCause.message : SignatureCause → String
  | .length given => "Compact signature must be 64 bytes, got " ++ toString given
  | .rOutOfRange => "r is zero or not below the group order"
  | .sOutOfRange => "s is zero or not below the group order"
  | .sNotLow => "s is not in the lower half of the group order"

namespace Fault

/-- The family that a fault rejects its input under, for the faults that do. -/
def rejection? : Fault → Option Rejection
  | .decode _ => some .decode
  | .publicKey _ => some .publicKey
  | .signature _ => some .signature
  | _ => none

/-- What went wrong, without the label of the family. -/
def detail : Fault → String
  | .zeroModulus => "Modulus is zero"
  | .negativeScalar => "Scalar must be non-negative"
  | .rootsUnsupported => "Square roots are only supported for p = 3 mod 4"
  | .windowTooNarrow => "window_bits must be positive"
  | .outsideTable => "No such table entry"
  | .tooWide => "Number does not fit its width"
  | .notAByte => "bytes must be in range(0, 256)"
  | .negativeCount => "negative count"
  | .outOfMemory => "Out of memory"
  | .notBytes => "Bytes expected"
  | .wordTruncated => "Not enough data for u256"
  | .encoding failure => failure.message
  | .digestLength given => "Digest must be 32 bytes, got " ++ toString given
  | .messageLength given => "Message digest must be 32 bytes, got " ++ toString given
  | .messageTooLarge => "Message digest is not below the group order"
  | .unknownAlgorithm name => "Unsupported hash algorithm: " ++ name
  | .unknownName => "Nothing is kept under this name"
  | .immutable kind => kind ++ " is immutable"
  | .fixedField field => "cannot assign to field " ++ field.quoted
  | .unlabelled => "'VerificationError' object has no attribute 'error_type'"
  | .packageFailed kind => kind
  | .decode cause => cause.message
  | .publicKey cause => cause.message
  | .signature cause => cause.message

/-- The text of a fault: a rejection carries the label of its family. -/
def message (f : Fault) : String :=
  match f.rejection?.bind Rejection.label? with
  | some label => Rejection.labelled label f.detail
  | none => f.detail

end Fault

/-- The message of a rejection whose cause is worded by the caller. -/
def Rejection.message (family : Rejection) (detail : String) : Except Fault String :=
  match family.label? with
  | some label => .ok (labelled label detail)
  | none => .error .unlabelled

end Ecdsa
