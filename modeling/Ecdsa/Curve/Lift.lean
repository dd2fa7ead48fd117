import Ecdsa.Curve.Point

/-!
# The point above an abscissa

`liftX` finds the point with a given abscissa whose ordinate has a given parity. Modulo a prime
`p` = 3 (mod 4) the power (p + 1) / 4 of a square is a root of it, and the other root is its
opposite, of the other parity; a number that is no square is found out by squaring the power. Zero
is its own only root, so nothing of odd parity lies above an abscissa where the cubic vanishes.
-/

namespace Ecdsa

/-- The residue modulo `m` of the power `b` to the `e`, by repeated squaring. -/
def powerMod (m b : Int) (e : Nat) : Int :=
  if h : e = 0 then (1 : Int).fmod m
  else
    have : e / 2 < e := Nat.div_lt_self (Nat.pos_of_ne_zero h) (by decide)
    let rest := powerMod m ((b * b).fmod m) (e / 2)
    if e % 2 = 1 then (rest * b).fmod m else rest
termination_by e

namespace Curve

/-- Whether an ordinate is odd. -/
def isOdd (y : Int) : Bool :=
  y % 2 == 1

/-- An ordinate of the wanted parity, or else the opposite one. -/
def withParity (C : Curve) (odd : Bool) (y : Int) : Int :=
  if isOdd y = odd ∨ y = 0 then y else C.p - y

/-- The point with abscissa `x` and an ordinate of the given parity, if the curve has one. -/
def liftX (C : Curve) (x : Int) (odd : Bool) : Except Fault (Option (Point C)) :=
  if C.p.fmod 4 ≠ 3 then .error .rootsUnsupported
  else if x < 0 ∨ C.p ≤ x then .ok none
  else
    let square := C.cubic x
    let root := powerMod C.p square ((C.p + 1) / 4).toNat
    -- the opposite of zero is zero, so the parity may still be the wrong one
    let y := C.withParity odd root
    .ok (if C.reduce (root * root) = square ∧ isOdd y = odd then some (Point.affine x y) else none)

end Curve

end Ecdsa
