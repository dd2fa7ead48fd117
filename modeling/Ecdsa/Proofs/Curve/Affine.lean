import Mathlib
import Ecdsa.Proofs.Curve.Inverse
import Ecdsa.Proofs.Curve.Group

/-!
# Affine coordinates over a prime field

A denominator between zero and the modulus has an inverse, so that a triple with such a denominator has
affine coordinates, and they are the two quotients that the triple stands for (`toAffine_of_z_range`).
Whether the numbers that two quotients are lie on the curve is decided by its equation over the field
(`contains_val_iff`). The discriminant plays no part in this.
-/

namespace Ecdsa.Point

variable {C : Curve}

theorem normalize_of_none {P : Point C} (h : P.toAffine = .ok none) :
    P.normalize = .ok infinity := by
  rw [normalize, h]
  rfl

theorem normalize_of_some {P : Point C} {x y : ℤ} (h : P.toAffine = .ok (some (x, y))) :
    P.normalize = .ok (affine x y) := by
  rw [normalize, h]
  rfl

variable [Fact C.p.toNat.Prime]

/-! ## The quotients -/

theorem inverse?_of_cast_ne_zero {z : ℤ} (hz : 0 ≤ z) (hne : (z : C.Field) ≠ 0) :
    inverse? z C.p = .ok (some ((z : C.Field)⁻¹).val) := by
  rw [inverse?_eq_some_iff Curve.p_pos.ne']
  refine ⟨hz, Curve.val_range _, ?_⟩
  rw [← Curve.cast_eq_cast_iff, Int.cast_mul, Curve.intCast_val, Int.cast_one]
  exact mul_inv_cancel₀ hne

theorem reduce_abscissa (P : Point C) {w : ℤ} (hw : (w : C.Field) = (P.z : C.Field)⁻¹) :
    C.reduce (P.x * C.reduce (w * w)) = P.abscissa.val := by
  rw [Curve.reduce_eq_val, abscissa]
  push_cast [Curve.cast_reduce, hw]
  rw [div_eq_mul_inv, sq, mul_inv]

theorem reduce_ordinate (P : Point C) {w : ℤ} (hw : (w : C.Field) = (P.z : C.Field)⁻¹) :
    C.reduce (P.y * C.reduce (C.reduce (w * w) * w)) = P.ordinate.val := by
  rw [Curve.reduce_eq_val, ordinate]
  push_cast [Curve.cast_reduce, hw]
  rw [div_eq_mul_inv, pow_succ, sq, mul_inv, mul_inv]

/-- A triple with a denominator in range has affine coordinates, wherever it lies. -/
theorem toAffine_of_z_range {P : Point C} (hz : 0 < P.z ∧ P.z < C.p) :
    P.toAffine = .ok (some (P.abscissa.val, P.ordinate.val)) := by
  have hw := Curve.intCast_val (P.z : C.Field)⁻¹
  have hinf : ¬P.IsInfinity := hz.1.ne'
  rw [toAffine, if_neg hinf, inverse?_of_cast_ne_zero hz.1.le (Curve.cast_ne_zero hz)]
  simp only [bind, Except.bind, pure, Except.pure, reduce_abscissa P hw, reduce_ordinate P hw]

/-! ## Points of the curve -/

/-- A pair of field elements is on the curve exactly if it satisfies the equation. -/
theorem contains_val_iff {x y : C.Field} :
    C.Contains x.val y.val ↔ C.weierstrass.toAffine.Equation x y := by
  rw [Curve.contains_iff, Curve.equation_iff, Curve.intCast_val, Curve.intCast_val]
  exact ⟨fun h => h.2.2, fun h => ⟨Curve.val_range x, Curve.val_range y, h⟩⟩

theorem contains_val {x y : C.Field} (h : C.weierstrass.toAffine.Equation x y) :
    C.Contains x.val y.val :=
  contains_val_iff.mpr h

end Ecdsa.Point
