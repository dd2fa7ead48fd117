import Ecdsa.Sha256
import Ecdsa.Curve.Secp256k1

/-!
# Messages

A message is a digest of 32 bytes that stands for a number below the order of the group. It is made
from a digest, or from data or a text that is hashed first.
-/

namespace Ecdsa

/-- A digest that can be signed. -/
structure Message where
  digest : Bytes
  length_digest : digest.length = 32
  lt_order : (Bytes.toNat digest : Int) < secp256k1.n
  deriving Repr

namespace Message

/-- Messages are equal as soon as their digests are. -/
theorem eq_of_digest_eq {a b : Message} (h : a.digest = b.digest) : a = b := by
  cases a
  cases b
  cases h
  rfl

instance : DecidableEq Message := fun _ _ =>
  decidable_of_iff _ ⟨eq_of_digest_eq, congrArg digest⟩

/-- A message with the given digest. -/
def ofDigest (digest : Bytes) : Except Fault Message :=
  if hl : digest.length = 32 then
    if hn : (Bytes.toNat digest : Int) < secp256k1.n then .ok ⟨digest, hl, hn⟩
    else .error .messageTooLarge
  else .error (.messageLength digest.length)

/-- A message whose digest a caller hands over. -/
def ofDigestSource (source : ByteSource) : Except Fault Message := do
  -- a wrong length is reported before any bytes are made
  let given ← source.length
  if given ≠ 32 then throw (.messageLength given)
  ofDigest (← source.toBytes)

theorem ofDigestSource_eq (source : ByteSource) :
    ofDigestSource source = source.toBytes.bind ofDigest := by
  rw [ofDigestSource, ByteSource.length_eq]
  cases source.toBytes with
  | error fault => rfl
  | ok data =>
    by_cases h : data.length = 32
    · simp [bind, Except.bind, Except.map, h]
    · simp [bind, Except.bind, Except.map, throw, throwThe, MonadExceptOf.throw, ofDigest, h]

/-- The message whose digest is that of the data. -/
def ofData (data : ByteSource) : Except Fault Message := do
  ofDigest (← Sha256.digestSource data).bytes

/-- The message whose digest is that of the text in UTF-8. -/
def ofText (t : Text) : Except Fault Message := do
  ofDigest (← Sha256.digestText t).bytes

/-- The number that the digest stands for. -/
def toInt (m : Message) : Int :=
  Bytes.toNat m.digest

end Message

end Ecdsa
