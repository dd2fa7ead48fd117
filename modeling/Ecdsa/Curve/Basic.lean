import Ecdsa.Curve.Inverse

/-!
# Curves

A curve y² = x³ + a·x + b over the integers modulo `p`, with a base point and the order it is said
to have. The parameters are taken as they come: nothing asks that `p` be prime, or that the base
point lie on the curve. `Contains` says which pairs of integers are points.
-/

namespace Ecdsa

/-- The parameters of a curve in short Weierstrass form. -/
structure Curve where
  /-- The modulus of the coordinates. -/
  p : Int
  /-- The order of the base point. -/
  n : Int
  /-- The coefficient of x. -/
  a : Int
  /-- The constant term. -/
  b : Int
  /-- The abscissa of the base point. -/
  gx : Int
  /-- The ordinate of the base point. -/
  gy : Int
  deriving DecidableEq, Repr

namespace Curve

/-- The residue of an integer modulo `p`, with the sign of `p`. -/
def reduce (C : Curve) (v : Int) : Int :=
  v.fmod C.p

/-- The right-hand side of the equation at an abscissa. -/
def cubic (C : Curve) (x : Int) : Int :=
  C.reduce (x * x * x + C.a * x + C.b)

/-- Whether `(x, y)` is a pair of residues that satisfies the equation of the curve. -/
def Contains (C : Curve) (x y : Int) : Prop :=
  (0 ≤ x ∧ x < C.p ∧ 0 ≤ y ∧ y < C.p) ∧ C.reduce (y * y) = C.cubic x

instance (C : Curve) (x y : Int) : Decidable (C.Contains x y) :=
  inferInstanceAs (Decidable
    ((0 ≤ x ∧ x < C.p ∧ 0 ≤ y ∧ y < C.p) ∧ C.reduce (y * y) = C.cubic x))

end Curve

end Ecdsa
