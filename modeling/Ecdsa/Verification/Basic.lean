import Ecdsa.Message
import Ecdsa.PublicKey
import Ecdsa.Signature
import Ecdsa.Curve.Acceptance

/-!
# Verification

Whether a signature of a message was made with the key behind a public key. That it was not is an
answer, `false`; only inputs that are no message, no public key or no signature are faults. Where
several are, the message comes first; then the key comes before the signature.

The package that texts go through is a parameter of verifying them.
-/

namespace Ecdsa

/-- Whether the signature is one of the message under the public key, computed with a given table. -/
def verifyWith {C : Curve} (T : GeneratorTable C) (m : Message) (k : PublicKey) (sig : Signature) :
    Except Fault Bool :=
  T.accepts k.point sig.r sig.s m.toInt

/-- Whether the signature is one of the message under the public key. -/
def verify (m : Message) (k : PublicKey) (sig : Signature) : Except Fault Bool := do
  verifyWith (← GeneratorTable.shared) m k sig

/-- Verifies a digest, a signature and a public key in their byte forms. -/
def verifyRaw (digest sig key : ByteSource) : Except Fault Bool := do
  let m ← Message.ofDigestSource digest
  let k ← PublicKey.ofSource key
  verify m k (← Signature.ofSource sig false)

/-- Verifies a message against a signature and a public key in their text forms. -/
def verifyTexts [Base58.Package] (m : Message) (sig key : TextSource) (checked : Bool) :
    Except Fault Bool := do
  let k ← PublicKey.ofText key checked
  verify m k (← Signature.ofText sig checked)

/-- Verifies data, hashed first, against a signature and a public key in their text forms. -/
def verifyData [Base58.Package] (data : ByteSource) (sig key : TextSource) (checked : Bool) :
    Except Fault Bool := do
  verifyTexts (← Message.ofData data) sig key checked

/-- Verifies a text, hashed in UTF-8 first, against a signature and a public key in their text
forms. -/
def verifyText [Base58.Package] (t : Text) (sig key : TextSource) (checked : Bool) :
    Except Fault Bool := do
  verifyTexts (← Message.ofText t) sig key checked

end Ecdsa
