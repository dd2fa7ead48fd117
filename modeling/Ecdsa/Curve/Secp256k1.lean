import Ecdsa.Curve.GeneratorTable

/-!
# The curve secp256k1

The parameters of the curve that keys and signatures are made on, and the table that verification
uses unless it is given another.
-/

namespace Ecdsa

/-- The curve y² = x³ + 7 modulo 2²⁵⁶ − 2³² − 977. -/
def secp256k1 : Curve where
  p := 0xfffffffffffffffffffffffffffffffffffffffffffffffffffffffefffffc2f
  n := 0xfffffffffffffffffffffffffffffffebaaedce6af48a03bbfd25e8cd0364141
  a := 0
  b := 7
  gx := 0x79be667ef9dcbbac55a06295ce870b07029bfcdb2dce28d959f2815b16f81798
  gy := 0x483ada7726a3c4655da4fbfc0e1108a8fd17b448a68554199c47d08ffb10d4b8

namespace GeneratorTable

/-- The width of the windows of a table for which none is chosen. -/
def defaultWidth : Int := 4

/-- The table shared by all verifications. -/
def shared : Except Fault (GeneratorTable secp256k1) :=
  build secp256k1 defaultWidth

end GeneratorTable

end Ecdsa
