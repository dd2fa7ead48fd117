import Mathlib
import Ecdsa.Proofs.Curve.Field

/-!
# The group of a curve

Over a prime field of characteristic above three, and with a discriminant that does not vanish, the
points of a curve form an abelian group under the chord and the tangent (`Curve.Group`). A triple of
coordinates stands for a point of that group (`Point.value`): one with denominator zero for the
neutral element, any other for the affine point (x / z², y / z³).

The operations on triples are right on triples that are at infinity or reduced and on the curve
(`Point.OnCurve`); for these `Point.value` loses nothing. What an operation is to give is said by
`Point.StandsFor`: that it does not fail, and for which point of the group its result stands.
-/

namespace Ecdsa

/-- What makes the parameters those of an elliptic curve. -/
class Curve.IsElliptic (C : Curve) : Prop extends Fact C.p.toNat.Prime where
  three_lt : 3 < C.p
  discriminant : ¬C.p ∣ 4 * C.a ^ 3 + 27 * C.b ^ 2

namespace Curve

/-- The curve y² = x³ + 7 modulo 43, small enough to be computed on by hand. Its base point has order
31; what order it is said to have is left open. -/
def small (n : ℤ) : Curve where
  p := 43
  n := n
  a := 0
  b := 7
  gx := 2
  gy := 12

instance small_isElliptic (n : ℤ) : (small n).IsElliptic where
  out := show Nat.Prime 43 by norm_num
  three_lt := show (3 : ℤ) < 43 by norm_num
  discriminant := show ¬(43 : ℤ) ∣ 4 * 0 ^ 3 + 27 * 7 ^ 2 by norm_num

theorem small_contains (n : ℤ) : (small n).Contains 2 12 :=
  show (small 0).Contains 2 12 by decide

variable {C : Curve}

/-- The equation of the curve, over its field. -/
def weierstrass (C : Curve) : WeierstrassCurve C.Field :=
  ⟨0, 0, 0, C.a, C.b⟩

@[simp] theorem weierstrass_a₁ : C.weierstrass.a₁ = 0 := rfl

@[simp] theorem weierstrass_a₂ : C.weierstrass.a₂ = 0 := rfl

@[simp] theorem weierstrass_a₃ : C.weierstrass.a₃ = 0 := rfl

@[simp] theorem weierstrass_a₄ : C.weierstrass.a₄ = C.a := rfl

@[simp] theorem weierstrass_a₆ : C.weierstrass.a₆ = C.b := rfl

/-- The points of the curve over its field, with infinity for the neutral element. -/
abbrev Group (C : Curve) := C.weierstrass.toAffine.Point

/-- The coordinates of a finite point, as numbers below the modulus. -/
def coordinates? : C.Group → Option (ℤ × ℤ)
  | .zero => none
  | .some x y _ => some (x.val, y.val)

/-- The abscissa of a finite point, as a number below the modulus. -/
def abscissa? (A : C.Group) : Option ℤ :=
  (coordinates? A).map Prod.fst

theorem equation_iff (x y : C.Field) :
    C.weierstrass.toAffine.Equation x y ↔ y ^ 2 = x ^ 3 + C.a * x + C.b := by
  rw [WeierstrassCurve.Affine.equation_iff]
  simp

@[simp] theorem weierstrass_negY (x y : C.Field) : C.weierstrass.toAffine.negY x y = -y := by
  simp [WeierstrassCurve.Affine.negY]

@[simp] theorem abscissa?_neg (A : C.Group) : abscissa? (-A) = abscissa? A := by
  cases A with
  | zero => rfl
  | some x y h => rfl

theorem weierstrass_Δ_ne_zero [C.IsElliptic] : C.weierstrass.Δ ≠ 0 := by
  have hΔ : C.weierstrass.Δ = -(2 ^ 4 * ((4 * C.a ^ 3 + 27 * C.b ^ 2 : ℤ) : C.Field)) := by
    simp only [WeierstrassCurve.Δ, WeierstrassCurve.b₂, WeierstrassCurve.b₄, WeierstrassCurve.b₆,
      WeierstrassCurve.b₈, weierstrass_a₁, weierstrass_a₂, weierstrass_a₃, weierstrass_a₄,
      weierstrass_a₆]
    push_cast
    ring
  have hdisc : ((4 * C.a ^ 3 + 27 * C.b ^ 2 : ℤ) : C.Field) ≠ 0 := by
    rw [Ne, ZMod.intCast_zmod_eq_zero_iff_dvd, cast_p]
    exact IsElliptic.discriminant
  rw [hΔ]
  exact neg_ne_zero.mpr (mul_ne_zero (pow_ne_zero 4 (two_ne_zero IsElliptic.three_lt)) hdisc)

/-- On an elliptic curve every solution of the equation is a point. -/
theorem nonsingular [C.IsElliptic] {x y : C.Field} (h : C.weierstrass.toAffine.Equation x y) :
    C.weierstrass.toAffine.Nonsingular x y :=
  (WeierstrassCurve.Affine.equation_iff_nonsingular_of_Δ_ne_zero weierstrass_Δ_ne_zero).mp h

end Curve

namespace Point

variable {C : Curve}

/-- A finite point in reduced coordinates that satisfy the equation of the curve. -/
structure IsFinite (P : Point C) : Prop where
  x_range : 0 ≤ P.x ∧ P.x < C.p
  y_range : 0 ≤ P.y ∧ P.y < C.p
  z_range : 0 < P.z ∧ P.z < C.p
  equation : P.y ^ 2 ≡ P.x ^ 3 + C.a * P.x * P.z ^ 4 + C.b * P.z ^ 6 [ZMOD C.p]

theorem IsFinite.not_isInfinity {P : Point C} (h : P.IsFinite) : ¬P.IsInfinity :=
  h.z_range.1.ne'

/-- Infinity in any coordinates, or a finite point of the curve. -/
def OnCurve (P : Point C) : Prop :=
  P.IsInfinity ∨ P.IsFinite

theorem onCurve_infinity : (infinity : Point C).OnCurve :=
  Or.inl isInfinity_infinity

variable [Fact C.p.toNat.Prime]

/-- The abscissa that a triple stands for. -/
noncomputable def abscissa (P : Point C) : C.Field :=
  P.x / P.z ^ 2

/-- The ordinate that a triple stands for. -/
noncomputable def ordinate (P : Point C) : C.Field :=
  P.y / P.z ^ 3

/-- The point of the group that a triple stands for. -/
noncomputable def value (P : Point C) : C.Group :=
  WeierstrassCurve.Jacobian.Point.toAffine C.weierstrass ![P.x, P.y, P.z]

theorem IsFinite.z_ne_zero {P : Point C} (h : P.IsFinite) : (P.z : C.Field) ≠ 0 :=
  Curve.cast_ne_zero h.z_range

/-- A pair on the curve is a finite point over denominator one. -/
theorem isFinite_affine {x y : ℤ} (h : C.Contains x y) : (affine x y : Point C).IsFinite := by
  obtain ⟨hx, hy, heq⟩ := (Curve.contains_iff x y).mp h
  refine ⟨hx, hy, ⟨one_pos, Curve.one_lt_p⟩, ?_⟩
  rw [← Curve.cast_eq_cast_iff]
  simp only [affine]
  push_cast
  rw [heq]
  ring

/-- A base point that lies on the curve is right to compute with. -/
theorem onCurve_generator (hG : C.Contains C.gx C.gy) : (generator C).OnCurve :=
  Or.inr (isFinite_affine hG)

/-- For a denominator that does not vanish, the equation of the triple is that of its affine
coordinates. -/
theorem equation_abscissa_ordinate {P : Point C} (hz : (P.z : C.Field) ≠ 0) :
    C.weierstrass.toAffine.Equation P.abscissa P.ordinate ↔
      P.y ^ 2 ≡ P.x ^ 3 + C.a * P.x * P.z ^ 4 + C.b * P.z ^ 6 [ZMOD C.p] := by
  rw [Curve.equation_iff, ← Curve.cast_eq_cast_iff, abscissa, ordinate]
  push_cast
  field_simp

/-- Infinity is the neutral element, in any coordinates. -/
theorem value_of_isInfinity {P : Point C} (h : P.IsInfinity) : P.value = 0 := by
  have hz : P.z = 0 := h
  exact WeierstrassCurve.Jacobian.Point.toAffine_of_Z_eq_zero (by simp [hz])

@[simp] theorem value_infinity : (infinity : Point C).value = 0 :=
  value_of_isInfinity isInfinity_infinity

/-- A triple whose affine coordinates are those of a point stands for that point. -/
theorem value_eq_some {P : Point C} (hz : (P.z : C.Field) ≠ 0)
    (h : C.weierstrass.toAffine.Nonsingular P.abscissa P.ordinate) :
    P.value = .some P.abscissa P.ordinate h :=
  WeierstrassCurve.Jacobian.Point.toAffine_of_Z_ne_zero
    ((WeierstrassCurve.Jacobian.nonsingular_of_Z_ne_zero hz).mpr h) hz

/-- A computation does not fail, and ends at a triple of the curve that stands for the point. -/
def StandsFor (r : Except Fault (Point C)) (A : C.Group) : Prop :=
  ∃ R, r = .ok R ∧ R.OnCurve ∧ R.value = A

theorem OnCurve.standsFor {P : Point C} (hP : P.OnCurve) : StandsFor (.ok P) P.value :=
  ⟨P, rfl, hP, rfl⟩

/-- A step that follows a computation may use what the computation stands for. -/
theorem StandsFor.bind {r : Except Fault (Point C)} {f : Point C → Except Fault (Point C)}
    {A B : C.Group} (hr : StandsFor r A)
    (hf : ∀ P : Point C, P.OnCurve → P.value = A → StandsFor (f P) B) :
    StandsFor (r.bind f) B := by
  obtain ⟨P, rfl, hP, hPv⟩ := hr
  exact hf P hP hPv

end Point

namespace Point

variable {C : Curve} [C.IsElliptic]

theorem IsFinite.nonsingular {P : Point C} (h : P.IsFinite) :
    C.weierstrass.toAffine.Nonsingular P.abscissa P.ordinate :=
  Curve.nonsingular ((equation_abscissa_ordinate h.z_ne_zero).mpr h.equation)

/-- A finite point stands for the point with its affine coordinates. -/
theorem IsFinite.value {P : Point C} (h : P.IsFinite) :
    P.value = .some P.abscissa P.ordinate h.nonsingular :=
  value_eq_some h.z_ne_zero h.nonsingular

theorem IsFinite.value_eq {P : Point C} (h : P.IsFinite) {x y : C.Field}
    {hxy : C.weierstrass.toAffine.Nonsingular x y} (hx : P.abscissa = x) (hy : P.ordinate = y) :
    P.value = .some x y hxy := by
  subst hx hy
  exact h.value

theorem value_affine {x y : ℤ} (h : C.Contains x y) :
    ∃ hxy, (affine x y : Point C).value = .some (x : C.Field) (y : C.Field) hxy := by
  have hx : (affine x y : Point C).abscissa = x := by simp [abscissa, affine]
  have hy : (affine x y : Point C).ordinate = y := by simp [ordinate, affine]
  exact ⟨hx ▸ hy ▸ (isFinite_affine h).nonsingular, (isFinite_affine h).value_eq hx hy⟩

/-- On the curve a triple stands for the neutral element only if it is at infinity. -/
theorem OnCurve.value_eq_zero_iff {P : Point C} (h : P.OnCurve) :
    P.value = 0 ↔ P.IsInfinity := by
  rcases h with hinf | hfin
  · simp [value_of_isInfinity hinf, hinf]
  · rw [hfin.value]
    simp [hfin.not_isInfinity, WeierstrassCurve.Affine.Point.some_ne_zero]

end Point

/-- The point of the group that the base point of a curve is. -/
noncomputable def Curve.base (C : Curve) [Fact C.p.toNat.Prime] : C.Group :=
  (Point.generator C).value

/-- On the curve the base point is the affine point with its two coordinates. -/
theorem Curve.base_eq_some {C : Curve} [C.IsElliptic] (hG : C.Contains C.gx C.gy) :
    ∃ hxy, C.base = .some (C.gx : C.Field) (C.gy : C.Field) hxy :=
  Point.value_affine hG

end Ecdsa
