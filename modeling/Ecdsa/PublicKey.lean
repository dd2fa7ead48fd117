import Ecdsa.Sec1
import Ecdsa.Base58
import Ecdsa.Curve.Lift
import Ecdsa.Curve.Secp256k1

/-!
# Public keys

A public key is a point of secp256k1 in affine coordinates, together with the byte form it goes by.
It is made from coordinates, from either byte form, or from the text form of one; every way ends in
the check that the point lies on the curve.
-/

namespace Ecdsa

/-- A point of secp256k1 and whether its usual byte form is the compressed one. -/
structure PublicKey where
  x : Int
  y : Int
  compressed : Bool
  contains : secp256k1.Contains x y
  deriving DecidableEq, Repr

namespace PublicKey

/-- A public key with the given coordinates. -/
def ofCoordinates (x y : Int) (compressed : Bool) : Except Fault PublicKey :=
  if h : secp256k1.Contains x y then .ok ⟨x, y, compressed, h⟩
  else .error (.publicKey .offCurve)

/-- A public key from either byte form. -/
def ofBytes (data : Bytes) : Except Fault PublicKey := do
  match ← Sec1.parse data with
  | .compressed x odd =>
    match ← secp256k1.liftX x odd with
    | none => throw (.publicKey .noPointAbove)
    | some P => ofCoordinates P.x P.y true
  | .uncompressed x y => ofCoordinates x y false

/-- A public key from bytes that a caller hands over. -/
def ofSource (source : ByteSource) : Except Fault PublicKey := do
  -- a wrong length is reported before any bytes are made
  let given ← source.length
  if given ≠ 33 ∧ given ≠ 65 then throw (.publicKey (.length given))
  ofBytes (← source.toBytes)

theorem ofSource_eq (source : ByteSource) : ofSource source = source.toBytes.bind ofBytes := by
  rw [ofSource, ByteSource.length_eq]
  cases source.toBytes with
  | error fault => rfl
  | ok data =>
    by_cases h : data.length ≠ 33 ∧ data.length ≠ 65
    · simp [bind, Except.bind, Except.map, throw, throwThe, MonadExceptOf.throw, ofBytes,
        Sec1.parse, h]
    · simp [bind, Except.bind, Except.map, h]

/-- The byte form of a public key; without a choice, the one it goes by. -/
def serialize (k : PublicKey) (compressed : Option Bool) : Except Fault Bytes :=
  Sec1.write k.x k.y (compressed.getD k.compressed)

/-- The point that a public key is. -/
def point (k : PublicKey) : Point secp256k1 :=
  Point.affine k.x k.y

/-- A public key from its text form. -/
def ofText [Base58.Package] (source : TextSource) (checked : Bool) : Except Fault PublicKey := do
  ofBytes (← source.decode checked)

/-- The text form of a public key; without a choice, of the byte form it goes by. -/
def toText [Base58.Package] (k : PublicKey) (compressed : Option Bool) (checked : Bool) :
    Except Fault Text := do
  pure (Base58.encode (← k.serialize compressed) checked)

end PublicKey

end Ecdsa
