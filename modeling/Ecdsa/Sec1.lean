import Ecdsa.Word

/-!
# The byte forms of a point

A compressed form is a tag and the abscissa; the tag is 2 or 3 and tells the parity of the ordinate.
An uncompressed form is the tag 4 and both coordinates. Only lengths and tags are checked here, not
whether the point lies on a curve.
-/

namespace Ecdsa

/-- What the byte form of a point says. -/
inductive Sec1 where
  | compressed (x : Nat) (odd : Bool)
  | uncompressed (x y : Nat)
  deriving DecidableEq, Repr

namespace Sec1

/-- Reads the byte form of a point. -/
def parse (data : Bytes) : Except Fault Sec1 :=
  let tag := data.headD 0
  if data.length = 33 then
    if tag = 2 ∨ tag = 3 then do
      let (x, _) ← Word.read data 1
      pure (.compressed x (tag == 3))
    else .error (.publicKey (.compressedTag tag))
  else if data.length = 65 then
    if tag = 4 then do
      let (x, next) ← Word.read data 1
      let (y, _) ← Word.read data next
      pure (.uncompressed x y)
    else .error (.publicKey (.uncompressedTag tag))
  else .error (.publicKey (.length data.length))

/-- Writes the byte form of a point. The compressed form keeps only the parity of the ordinate. -/
def write (x y : Int) (compressed : Bool) : Except Fault Bytes := do
  if compressed then
    let tag : UInt8 := if y % 2 = 1 then 3 else 2
    pure (tag :: (← Word.write x))
  else
    let xs ← Word.write x
    let ys ← Word.write y
    pure (4 :: (xs ++ ys))

end Sec1

end Ecdsa
