import Ecdsa.Word
import Ecdsa.Base58
import Ecdsa.Curve.Secp256k1

/-!
# Signatures

A signature is a pair of numbers between zero and the group order, the second in the lower half of
that range: with `(r, s)` the pair `(r, n − s)` is a signature of the same message, and one of the
two has to be chosen for the form to be unique. It is made from numbers, from 64 bytes, or from
their text form.
-/

namespace Ecdsa

/-- A signature in canonical form. -/
structure Signature where
  r : Int
  s : Int
  r_range : 0 < r ∧ r < secp256k1.n
  s_range : 0 < s ∧ s ≤ secp256k1.n / 2
  deriving DecidableEq, Repr

namespace Signature

/-- A signature with the given components. -/
def ofNumbers (r s : Int) : Except Fault Signature :=
  if hr : 0 < r ∧ r < secp256k1.n then
    if hs : 0 < s ∧ s < secp256k1.n then
      if hl : s ≤ secp256k1.n / 2 then .ok ⟨r, s, hr, hs.1, hl⟩
      else .error (.signature .sNotLow)
    else .error (.signature .sOutOfRange)
  else .error (.signature .rOutOfRange)

/-- The one of `s` and `n − s` that lies in the lower half, for an `s` in range. -/
def lowS (s : Int) : Int :=
  if secp256k1.n / 2 < s ∧ s < secp256k1.n then secp256k1.n - s else s

/-- The two numbers that 64 bytes stand for. -/
def parseCompact (data : Bytes) : Except Fault (Nat × Nat) :=
  if data.length = 64 then do
    let (r, next) ← Word.read data 0
    let (s, _) ← Word.read data next
    pure (r, s)
  else .error (.signature (.length data.length))

/-- Two numbers as 64 bytes. -/
def writeCompact (r s : Int) : Except Fault Bytes := do
  let rs ← Word.write r
  let ss ← Word.write s
  pure (rs ++ ss)

/-- A signature from 64 bytes. If asked to, it first brings `s` into the lower half. -/
def ofBytes (data : Bytes) (normalize : Bool) : Except Fault Signature := do
  let (r, s) ← parseCompact data
  ofNumbers r (if normalize then lowS s else s)

/-- A signature from bytes that a caller hands over. -/
def ofSource (source : ByteSource) (normalize : Bool) : Except Fault Signature := do
  -- a wrong length is reported before any bytes are made
  let given ← source.length
  if given ≠ 64 then throw (.signature (.length given))
  ofBytes (← source.toBytes) normalize

theorem ofSource_eq (source : ByteSource) (normalize : Bool) :
    ofSource source normalize = source.toBytes.bind (ofBytes · normalize) := by
  rw [ofSource, ByteSource.length_eq]
  cases source.toBytes with
  | error fault => rfl
  | ok data =>
    by_cases h : data.length = 64
    · simp [bind, Except.bind, Except.map, h]
    · simp [bind, Except.bind, Except.map, throw, throwThe, MonadExceptOf.throw, ofBytes,
        parseCompact, h]

/-- The 64 bytes of a signature. -/
def serialize (sig : Signature) : Except Fault Bytes :=
  writeCompact sig.r sig.s

/-- A signature from its text form. -/
def ofText [Base58.Package] (source : TextSource) (checked : Bool) : Except Fault Signature := do
  ofBytes (← source.decode checked) false

/-- The text form of a signature. -/
def toText [Base58.Package] (sig : Signature) (checked : Bool) : Except Fault Text := do
  pure (Base58.encode (← sig.serialize) checked)

end Signature

end Ecdsa
