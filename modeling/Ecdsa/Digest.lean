import Ecdsa.ByteSource

/-!
# Digests

A digest is 32 bytes. It is made from bytes of that length and from nothing else; two digests are
equal exactly if their bytes are.
-/

namespace Ecdsa

/-- The 32 bytes that a hash function gives. -/
structure Digest where
  bytes : Bytes
  length_bytes : bytes.length = 32
  deriving DecidableEq, Repr

namespace Digest

/-- Bytes as a digest, if there are 32 of them. -/
def ofBytes (data : Bytes) : Except Fault Digest :=
  if h : data.length = 32 then .ok ⟨data, h⟩ else .error (.digestLength data.length)

/-- A digest from a value that callers hand over. The items are counted before they are read. -/
def ofSource (source : ByteSource) : Except Fault Digest := do
  match source.size? with
  | none => throw .notBytes
  | some n => if n ≠ 32 then throw (.digestLength n) else ofBytes (← source.toBytes)

/-- The digest in hexadecimal. -/
def hex (d : Digest) : String :=
  Bytes.hex d.bytes

/-- The digest as it is shown to a reader. -/
def display (d : Digest) : String :=
  "HashResult(" ++ d.hex ++ ")"

end Digest

end Ecdsa
