import Ecdsa.Curve.GeneratorTable

/-!
# Accepting a signature

`accepts` decides whether the pair `(r, s)` is a signature of the number `z` under the public point
`Q`: both numbers are in range, and the point (z / s) · G + (r / s) · Q is finite with an abscissa
that is `r` modulo the order. A pair out of range, a public point at infinity, an `s` without an
inverse and a sum at infinity are not accepted; none of them is a fault.

The public point may be given on another curve than the table. It is then multiplied on its own
curve, and the sum is taken on the curve of the table; if the multiple of the base point vanishes,
there is nothing to add to, and the other summand is the sum.
-/

namespace Ecdsa.GeneratorTable

variable {C D : Curve}

/-- The affine coordinates of the sum of a multiple of the base point and a multiple of `Q`. -/
def sumAffine (T : GeneratorTable C) (u v : Int) (Q : Point D) :
    Except Fault (Option (Int × Int)) := do
  let base ← T.mulGenerator u
  let other ← T.mul Q v
  if base.IsInfinity then other.toAffine
  else (← base.add (other.readOn C)).toAffine

/-- Whether `(r, s)` is a signature of `z` under the public point `Q`. -/
def accepts (T : GeneratorTable C) (Q : Point D) (r s z : Int) : Except Fault Bool := do
  if ¬(0 < r ∧ r < C.n ∧ 0 < s ∧ s < C.n) then return false
  if Q.IsInfinity then return false
  match ← inverse? s C.n with
  | none => return false
  | some w =>
    match ← T.sumAffine ((z * w).fmod C.n) ((r * w).fmod C.n) Q with
    | none => return false
    | some (x, _) => return x.fmod C.n = r

/-- On the curve of the table itself the sum is the plain sum of the two multiples. -/
theorem sumAffine_eq (T : GeneratorTable C) (u v : Int) (Q : Point C) :
    T.sumAffine u v Q = (T.addTwoMul u v Q).bind Point.toAffine := by
  unfold sumAffine addTwoMul
  cases T.mulGenerator u with
  | error fault => rfl
  | ok base =>
    cases T.mul Q v with
    | error fault => rfl
    | ok other =>
      simp only [bind, Except.bind]
      split
      next h => simp [Point.add_of_isInfinity h]
      next => rfl

end Ecdsa.GeneratorTable
