import Ecdsa.Curve.Basic

/-!
# Points in Jacobian coordinates

A point with `z ≠ 0` stands for the affine point (x / z², y / z³); `z = 0` stands for infinity.
Addition follows the chord and doubling the tangent, without an inversion; `toAffine` inverts once.
Whether two points are equal or opposite is decided on coordinates brought to a common denominator
(`scaledX`, `scaledY`). Infinity is recognised before anything is reduced, so modulo zero only
finite points are at fault.
-/

namespace Ecdsa

/-- A triple of coordinates, read on the curve `C`. -/
structure Point (C : Curve) where
  x : Int
  y : Int
  z : Int
  deriving DecidableEq, Repr

namespace Point

variable {C : Curve}

/-- The point at infinity. -/
def infinity : Point C :=
  ⟨0, 1, 0⟩

/-- The point with the given affine coordinates. -/
def affine (x y : Int) : Point C :=
  ⟨x, y, 1⟩

/-- The base point of the curve. -/
def generator (C : Curve) : Point C :=
  affine C.gx C.gy

/-- The affine pair as a point, if it lies on the curve. -/
def ofAffine? (C : Curve) (x y : Int) : Option (Point C) :=
  if C.Contains x y then some (affine x y) else none

/-- The same coordinates read on another curve. -/
def readOn (D : Curve) (P : Point C) : Point D :=
  ⟨P.x, P.y, P.z⟩

/-- Whether a point is at infinity. -/
def IsInfinity (P : Point C) : Prop :=
  P.z = 0

instance (P : Point C) : Decidable P.IsInfinity :=
  inferInstanceAs (Decidable (P.z = 0))

/-- The double of a point by its tangent. -/
def tangent (P : Point C) : Point C :=
  let xx := C.reduce (P.x * P.x)
  let yy := C.reduce (P.y * P.y)
  let yyyy := C.reduce (yy * yy)
  let zz := C.reduce (P.z * P.z)
  -- four times the abscissa by the squared ordinate, with one product instead of two
  let s := C.reduce (2 * ((P.x + yy) * (P.x + yy) - xx - yyyy))
  -- the slope is `m` over twice the ordinate
  let m := C.reduce (3 * xx + C.a * zz * zz)
  let x₃ := C.reduce (m * m - 2 * s)
  { x := x₃
    y := C.reduce (m * (s - x₃) - 8 * yyyy)
    z := C.reduce ((P.y + P.z) * (P.y + P.z) - yy - zz) }

/-- Twice a point. A point with ordinate zero is its own opposite. -/
def double (P : Point C) : Except Fault (Point C) :=
  if P.IsInfinity ∨ P.y = 0 then .ok infinity
  else if C.p = 0 then .error .zeroModulus
  else .ok P.tangent

/-- The abscissa of `P` times the squared denominators of both points. -/
def scaledX (P Q : Point C) : Int :=
  C.reduce (P.x * C.reduce (Q.z * Q.z))

/-- The ordinate of `P` times the cubed denominators of both points. -/
def scaledY (P Q : Point C) : Int :=
  C.reduce (P.y * Q.z * C.reduce (Q.z * Q.z))

/-- The sum of two points by their chord. -/
def chord (P Q : Point C) : Point C :=
  let u₁ := P.scaledX Q
  let s₁ := P.scaledY Q
  -- `h` is the run of the chord and `r` twice its rise, both over the common denominator
  let h := C.reduce (Q.scaledX P - u₁)
  let twice := C.reduce (2 * h)
  let i := C.reduce (twice * twice)
  let j := C.reduce (h * i)
  let r := C.reduce (2 * (Q.scaledY P - s₁))
  let v := C.reduce (u₁ * i)
  let x₃ := C.reduce (r * r - j - 2 * v)
  -- twice the product of the two denominators
  let zz := C.reduce ((P.z + Q.z) * (P.z + Q.z) - C.reduce (P.z * P.z) - C.reduce (Q.z * Q.z))
  { x := x₃
    y := C.reduce (r * (v - x₃) - 2 * s₁ * j)
    z := C.reduce (zz * h) }

/-- The sum of two points: equal points are doubled, opposite ones cancel. -/
def add (P Q : Point C) : Except Fault (Point C) :=
  if P.IsInfinity then .ok Q
  else if Q.IsInfinity then .ok P
  else if C.p = 0 then .error .zeroModulus
  else if P.scaledX Q = Q.scaledX P then
    if P.scaledY Q = Q.scaledY P then P.double else .ok infinity
  else .ok (P.chord Q)

/-- Adds `k` times `addend` to `sum`, doubling the addend from bit to bit. -/
def ladder (k : Nat) (sum addend : Point C) : Except Fault (Point C) :=
  if h : k = 0 then .ok sum
  else do
    let sum ← if k % 2 = 1 then sum.add addend else pure sum
    let addend ← addend.double
    have : k / 2 < k := Nat.div_lt_self (Nat.pos_of_ne_zero h) (by decide)
    ladder (k / 2) sum addend
termination_by k

/-- A multiple of a point. -/
def scalarMult (P : Point C) (k : Int) : Except Fault (Point C) :=
  if k < 0 then .error .negativeScalar else ladder k.toNat infinity P

/-- The affine coordinates of a point, for a point that is not at infinity and whose denominator
has an inverse. -/
def toAffine (P : Point C) : Except Fault (Option (Int × Int)) :=
  if P.IsInfinity then .ok none
  else do
    match ← inverse? P.z C.p with
    | none => pure none
    | some w =>
      let ww := C.reduce (w * w)
      let www := C.reduce (ww * w)
      pure (some (C.reduce (P.x * ww), C.reduce (P.y * www)))

/-- The same point with denominator one; infinity where there are no affine coordinates. -/
def normalize (P : Point C) : Except Fault (Point C) := do
  match ← P.toAffine with
  | none => pure infinity
  | some (x, y) => pure (affine x y)

theorem add_of_isInfinity {P Q : Point C} (h : P.IsInfinity) : P.add Q = .ok Q := by
  simp [add, h]

theorem isInfinity_infinity : (infinity : Point C).IsInfinity := rfl

theorem double_infinity : (infinity : Point C).double = .ok infinity := by
  simp [double, isInfinity_infinity]

theorem toAffine_infinity : (infinity : Point C).toAffine = .ok none := by
  simp [toAffine, isInfinity_infinity]

end Point

end Ecdsa
