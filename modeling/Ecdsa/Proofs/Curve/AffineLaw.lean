import Mathlib
import Ecdsa.Proofs.Curve.Agreement

/-!
# The chord and the tangent in affine coordinates

`affineSum` is the law of addition on pairs of coordinates as it is written on paper, with a division
for the slope and none for infinity. It is the addition of the group (`coordinates?_add`), and it is
what adding and doubling triples compute (`add_double_affineSum`): the affine coordinates of a sum
are a function of the affine coordinates of the summands, whatever triples these are given as.
-/

namespace Ecdsa

namespace Curve

variable {C : Curve}

/-- The slope of the line through two points, and of the tangent where they share their abscissa. -/
def lineSlope (C : Curve) (x₁ y₁ x₂ y₂ : C.Field) : C.Field :=
  if x₁ = x₂ then (3 * x₁ ^ 2 + C.a) * (2 * y₁)⁻¹ else (y₂ - y₁) * (x₂ - x₁)⁻¹

/-- The sum of two points in affine coordinates. Infinity is neutral, points with one abscissa and
opposite ordinates cancel, and otherwise the line through the two meets the curve a third time in the
opposite of their sum. -/
def affineSum (C : Curve) : Option (ℤ × ℤ) → Option (ℤ × ℤ) → Option (ℤ × ℤ)
  | none, v => v
  | some u, none => some u
  | some (x₁, y₁), some (x₂, y₂) =>
    if (x₁ : C.Field) = x₂ ∧ (y₁ : C.Field) = -y₂ then none
    else
      let slope := C.lineSlope x₁ y₁ x₂ y₂
      let x₃ := slope ^ 2 - x₁ - x₂
      some (x₃.val, (slope * (x₁ - x₃) - y₁).val)

theorem weierstrass_addX (x₁ x₂ m : C.Field) :
    C.weierstrass.toAffine.addX x₁ x₂ m = m ^ 2 - x₁ - x₂ := by
  simp [WeierstrassCurve.Affine.addX]

theorem weierstrass_addY (x₁ x₂ y₁ m : C.Field) :
    C.weierstrass.toAffine.addY x₁ x₂ y₁ m = m * (x₁ - (m ^ 2 - x₁ - x₂)) - y₁ := by
  rw [WeierstrassCurve.Affine.addY, weierstrass_negY, WeierstrassCurve.Affine.negAddY,
    weierstrass_addX]
  ring

variable [C.IsElliptic]

/-- Two points that do not cancel are joined by the line of the group law. -/
theorem slope_eq_lineSlope {x₁ y₁ x₂ y₂ : C.Field} (h : ¬(x₁ = x₂ ∧ y₁ = -y₂)) :
    C.weierstrass.toAffine.slope x₁ x₂ y₁ y₂ = C.lineSlope x₁ y₁ x₂ y₂ := by
  unfold lineSlope
  split
  next hx =>
    have hy : y₁ ≠ C.weierstrass.toAffine.negY x₂ y₂ := by
      rw [weierstrass_negY]
      exact fun hy => h ⟨hx, hy⟩
    rw [WeierstrassCurve.Affine.slope_of_Y_ne hx hy, weierstrass_negY, sub_neg_eq_add, ← two_mul,
      div_eq_mul_inv]
    simp
  next hx =>
    rw [WeierstrassCurve.Affine.slope_of_X_ne hx, ← neg_div_neg_eq, neg_sub, neg_sub,
      div_eq_mul_inv]

/-- The law in affine coordinates is the addition of the group. -/
theorem coordinates?_add (A B : C.Group) :
    coordinates? (A + B) = C.affineSum (coordinates? A) (coordinates? B) := by
  cases A with
  | zero =>
    rw [← WeierstrassCurve.Affine.Point.zero_def, zero_add]
    rfl
  | some x₁ y₁ h₁ =>
    cases B with
    | zero =>
      rw [← WeierstrassCurve.Affine.Point.zero_def, add_zero]
      rfl
    | some x₂ y₂ h₂ =>
      simp only [coordinates?, affineSum, intCast_val]
      by_cases hopp : x₁ = x₂ ∧ y₁ = -y₂
      · rw [if_pos hopp, WeierstrassCurve.Affine.Point.add_of_Y_eq hopp.1
          (hopp.2.trans (weierstrass_negY x₂ y₂).symm)]
      · rw [if_neg hopp, WeierstrassCurve.Affine.Point.add_some (by rwa [weierstrass_negY])]
        simp only [slope_eq_lineSlope hopp, weierstrass_addX, weierstrass_addY]

/-- On the small curve the law can be computed with. -/
example : (small 31).affineSum (some (2, 12)) (some (2, 12)) = some (7, 7) := by
  decide +kernel

end Curve

namespace Point

variable {C : Curve} [C.IsElliptic]

theorem add_toAffine {P Q : Point C} (hP : P.OnCurve) (hQ : Q.OnCurve) {u v : Option (ℤ × ℤ)}
    (hu : P.toAffine = .ok u) (hv : Q.toAffine = .ok v) :
    (P.add Q).bind toAffine = .ok (C.affineSum u v) := by
  rw [toAffine_eq hP, Except.ok.injEq] at hu
  rw [toAffine_eq hQ, Except.ok.injEq] at hv
  rw [(add_spec hP hQ).toAffine, Curve.coordinates?_add, hu, hv]

theorem double_toAffine {P : Point C} (hP : P.OnCurve) {u : Option (ℤ × ℤ)}
    (hu : P.toAffine = .ok u) : P.double.bind toAffine = .ok (C.affineSum u u) := by
  rw [toAffine_eq hP, Except.ok.injEq] at hu
  rw [(double_spec hP).toAffine, Curve.coordinates?_add, hu]

/-- **Triples are added and doubled by the chord and the tangent.** On triples of the curve, in any
coordinates, adding and doubling do not fail, and the affine coordinates of the result are those that
the affine law gives. They are the coordinates of the sum in the group, and depend on nothing but
the affine coordinates of the operands. -/
theorem add_double_affineSum {P Q : Point C} (hP : P.OnCurve) (hQ : Q.OnCurve) :
    ∃ u v, P.toAffine = .ok u ∧ Q.toAffine = .ok v ∧
      (P.add Q).bind toAffine = .ok (C.affineSum u v) ∧
      P.double.bind toAffine = .ok (C.affineSum u u) ∧
      (∃ A B : C.Group, Curve.coordinates? A = u ∧ Curve.coordinates? B = v ∧
        Curve.coordinates? (A + B) = C.affineSum u v ∧
        Curve.coordinates? (A + A) = C.affineSum u u) ∧
      ∀ P' Q' : Point C, P'.OnCurve → Q'.OnCurve → P'.toAffine = .ok u → Q'.toAffine = .ok v →
        SameAffine (P'.add Q') (P.add Q) ∧ SameAffine P'.double P.double := by
  have hu := toAffine_eq hP
  have hv := toAffine_eq hQ
  have hadd := add_toAffine hP hQ hu hv
  have hdouble := double_toAffine hP hu
  refine ⟨_, _, hu, hv, hadd, hdouble, ?_, ?_⟩
  · exact ⟨P.value, Q.value, rfl, rfl, Curve.coordinates?_add _ _, Curve.coordinates?_add _ _⟩
  · intro P' Q' hP' hQ' hu' hv'
    exact ⟨⟨_, add_toAffine hP' hQ' hu' hv', hadd⟩, ⟨_, double_toAffine hP' hu', hdouble⟩⟩

/-- On the small curve, for one point in two different triples. -/
theorem small_add_double_affineSum :
    (Curve.smallKey.add (affine 12 12)).bind toAffine = .ok (some (42, 7)) ∧
      Curve.smallKey.double.bind toAffine = .ok (some (42, 7)) := by
  obtain ⟨u, v, hu, hv, hadd, hdouble, -⟩ := add_double_affineSum Curve.smallKey_spec.1
    (Q := affine 12 12) (Or.inr (isFinite_affine (by decide)))
  have hkey : Curve.smallKey.toAffine = .ok (some (12, 12)) := by cbv
  have hother : (affine 12 12 : Point (Curve.small 31)).toAffine = .ok (some (12, 12)) := by cbv
  rw [hkey, Except.ok.injEq] at hu
  rw [hother, Except.ok.injEq] at hv
  have hlaw : (Curve.small 31).affineSum (some (12, 12)) (some (12, 12)) = some (42, 7) := by
    decide +kernel
  rw [hadd, hdouble, ← hu, ← hv, hlaw]
  exact ⟨rfl, rfl⟩

end Point

end Ecdsa
