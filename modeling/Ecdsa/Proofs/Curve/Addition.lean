import Mathlib
import Ecdsa.Proofs.Curve.Group

/-!
# Addition of triples is addition in the group

`double_spec` and `add_spec`: on triples of the curve, doubling and adding never fail, stay on the
curve, and double and add in the group.

`double_cases` and `add_cases` say once which branches the operations have, each with its guard and its
result; what is shown of the operations is shown branch by branch.

Both formulas are identities over the field. Brought to affine coordinates, the tangent and the
chord give the coordinates of the sum (`tangent_abscissa` to `chord_ordinate`), and their
denominators do not vanish: twice the product of the denominators, times the ordinate for the
tangent and times the run for the chord. So a result is at infinity only where the group says so.
-/

namespace Ecdsa.Point

variable {C : Curve}

/-! ## The branches -/

/-- What doubling does: a point that is its own opposite vanishes, any other follows its tangent. -/
inductive DoubleCases (P : Point C) : Prop
  | vanishes (hP : P.IsInfinity ∨ P.y = 0) (h : P.double = .ok infinity)
  | tangent (hP : ¬P.IsInfinity) (hy : P.y ≠ 0) (h : P.double = .ok P.tangent)

/-- What adding does. Infinity comes first; then equal points are doubled, opposite ones cancel, and any
others follow their chord. -/
inductive AddCases (P Q : Point C) : Prop
  | leftInfinite (hP : P.IsInfinity) (h : P.add Q = .ok Q)
  | rightInfinite (hQ : Q.IsInfinity) (h : P.add Q = .ok P)
  | equal (hP : ¬P.IsInfinity) (hQ : ¬Q.IsInfinity) (hx : P.scaledX Q = Q.scaledX P)
      (hy : P.scaledY Q = Q.scaledY P) (h : P.add Q = P.double)
  | opposite (hP : ¬P.IsInfinity) (hQ : ¬Q.IsInfinity) (hx : P.scaledX Q = Q.scaledX P)
      (hy : P.scaledY Q ≠ Q.scaledY P) (h : P.add Q = .ok infinity)
  | chord (hP : ¬P.IsInfinity) (hQ : ¬Q.IsInfinity) (hx : P.scaledX Q ≠ Q.scaledX P)
      (h : P.add Q = .ok (P.chord Q))

theorem double_cases (hp : C.p ≠ 0) (P : Point C) : DoubleCases P := by
  by_cases hP : P.IsInfinity ∨ P.y = 0
  · exact .vanishes hP (by rw [double, if_pos hP])
  · have hdouble : P.double = .ok P.tangent := by rw [double, if_neg hP, if_neg hp]
    rw [not_or] at hP
    exact .tangent hP.1 hP.2 hdouble

theorem add_cases (hp : C.p ≠ 0) (P Q : Point C) : AddCases P Q := by
  by_cases hP : P.IsInfinity
  · exact .leftInfinite hP (by rw [add, if_pos hP])
  by_cases hQ : Q.IsInfinity
  · exact .rightInfinite hQ (by rw [add, if_neg hP, if_pos hQ])
  by_cases hx : P.scaledX Q = Q.scaledX P
  · by_cases hy : P.scaledY Q = Q.scaledY P
    · exact .equal hP hQ hx hy (by rw [add, if_neg hP, if_neg hQ, if_neg hp, if_pos hx, if_pos hy])
    · exact .opposite hP hQ hx hy
        (by rw [add, if_neg hP, if_neg hQ, if_neg hp, if_pos hx, if_neg hy])
  · exact .chord hP hQ hx (by rw [add, if_neg hP, if_neg hQ, if_neg hp, if_neg hx])

section Field

variable [Fact C.p.toNat.Prime]

/-! ## The formulas over the field -/

theorem cast_tangent_x (P : Point C) :
    (P.tangent.x : C.Field) = (3 * P.x ^ 2 + C.a * P.z ^ 4) ^ 2 - 8 * P.x * P.y ^ 2 := by
  simp only [tangent, Curve.cast_reduce]
  push_cast [Curve.cast_reduce]
  ring

theorem cast_tangent_y (P : Point C) :
    (P.tangent.y : C.Field) = (3 * P.x ^ 2 + C.a * P.z ^ 4) *
      (4 * P.x * P.y ^ 2 - P.tangent.x) - 8 * P.y ^ 4 := by
  simp only [tangent, Curve.cast_reduce]
  push_cast [Curve.cast_reduce]
  ring

theorem cast_tangent_z (P : Point C) : (P.tangent.z : C.Field) = 2 * P.y * P.z := by
  simp only [tangent, Curve.cast_reduce]
  push_cast [Curve.cast_reduce]
  ring

/-- Abscissas are compared over the common denominator. -/
theorem scaledX_eq_iff {P Q : Point C} (hP : (P.z : C.Field) ≠ 0) (hQ : (Q.z : C.Field) ≠ 0) :
    P.scaledX Q = Q.scaledX P ↔ P.abscissa = Q.abscissa := by
  unfold scaledX
  rw [Curve.reduce_eq_iff, abscissa, abscissa,
    div_eq_div_iff (pow_ne_zero 2 hP) (pow_ne_zero 2 hQ)]
  push_cast [Curve.cast_reduce]
  rw [sq, sq]

theorem scaledY_eq_iff {P Q : Point C} (hP : (P.z : C.Field) ≠ 0) (hQ : (Q.z : C.Field) ≠ 0) :
    P.scaledY Q = Q.scaledY P ↔ P.ordinate = Q.ordinate := by
  unfold scaledY
  rw [Curve.reduce_eq_iff, ordinate, ordinate,
    div_eq_div_iff (pow_ne_zero 3 hP) (pow_ne_zero 3 hQ)]
  push_cast [Curve.cast_reduce]
  ring_nf

/-- The run of the chord, over the common denominator. -/
def run (P Q : Point C) : C.Field :=
  Q.x * P.z ^ 2 - P.x * Q.z ^ 2

/-- The rise of the chord, over the common denominator. -/
def rise (P Q : Point C) : C.Field :=
  Q.y * P.z ^ 3 - P.y * Q.z ^ 3

theorem cast_chord_x (P Q : Point C) :
    ((P.chord Q).x : C.Field) =
      4 * rise P Q ^ 2 - 4 * run P Q ^ 2 * (run P Q + 2 * P.x * Q.z ^ 2) := by
  simp only [chord, scaledX, scaledY, Curve.cast_reduce, run, rise]
  push_cast [Curve.cast_reduce]
  ring

theorem cast_chord_y (P Q : Point C) :
    ((P.chord Q).y : C.Field) =
      2 * rise P Q * (4 * P.x * Q.z ^ 2 * run P Q ^ 2 - (P.chord Q).x)
        - 8 * P.y * Q.z ^ 3 * run P Q ^ 3 := by
  simp only [chord, scaledX, scaledY, Curve.cast_reduce, run, rise]
  push_cast [Curve.cast_reduce]
  ring

theorem cast_chord_z (P Q : Point C) :
    ((P.chord Q).z : C.Field) = 2 * P.z * Q.z * run P Q := by
  simp only [chord, scaledX, scaledY, Curve.cast_reduce, run]
  push_cast [Curve.cast_reduce]
  ring

/-! ## The tangent -/

/-- A finite point is its own opposite only if its ordinate is zero. -/
theorem ordinate_ne_negY {P : Point C} (h2 : (2 : C.Field) ≠ 0) (hz : (P.z : C.Field) ≠ 0)
    (hy : (P.y : C.Field) ≠ 0) :
    P.ordinate ≠ C.weierstrass.toAffine.negY P.abscissa P.ordinate := by
  have hord : P.ordinate ≠ 0 := div_ne_zero hy (pow_ne_zero 3 hz)
  rw [Curve.weierstrass_negY, Ne, eq_neg_iff_add_eq_zero, ← two_mul]
  exact mul_ne_zero h2 hord

theorem slope_tangent {P : Point C} (h2 : (2 : C.Field) ≠ 0) (hz : (P.z : C.Field) ≠ 0)
    (hy : (P.y : C.Field) ≠ 0) :
    C.weierstrass.toAffine.slope P.abscissa P.abscissa P.ordinate P.ordinate =
      (3 * P.x ^ 2 + C.a * P.z ^ 4) / (2 * P.y * P.z) := by
  rw [WeierstrassCurve.Affine.slope_of_Y_ne rfl (ordinate_ne_negY h2 hz hy),
    Curve.weierstrass_negY, sub_neg_eq_add, ← two_mul, abscissa, ordinate]
  simp only [Curve.weierstrass_a₁, Curve.weierstrass_a₂, Curve.weierstrass_a₄]
  field_simp
  ring

/-- The tangent meets the curve in the point that is added up to with the formulas. -/
theorem tangent_abscissa {P : Point C} (h2 : (2 : C.Field) ≠ 0) (hz : (P.z : C.Field) ≠ 0)
    (hy : (P.y : C.Field) ≠ 0) :
    P.tangent.abscissa = C.weierstrass.toAffine.addX P.abscissa P.abscissa
      (C.weierstrass.toAffine.slope P.abscissa P.abscissa P.ordinate P.ordinate) := by
  rw [slope_tangent h2 hz hy, WeierstrassCurve.Affine.addX, abscissa, abscissa, cast_tangent_x,
    cast_tangent_z]
  simp only [Curve.weierstrass_a₁, Curve.weierstrass_a₂]
  field_simp
  ring

theorem tangent_ordinate {P : Point C} (h2 : (2 : C.Field) ≠ 0) (hz : (P.z : C.Field) ≠ 0)
    (hy : (P.y : C.Field) ≠ 0) :
    P.tangent.ordinate = C.weierstrass.toAffine.addY P.abscissa P.abscissa P.ordinate
      (C.weierstrass.toAffine.slope P.abscissa P.abscissa P.ordinate P.ordinate) := by
  rw [WeierstrassCurve.Affine.addY, Curve.weierstrass_negY, WeierstrassCurve.Affine.negAddY,
    ← tangent_abscissa h2 hz hy, slope_tangent h2 hz hy, abscissa, abscissa, ordinate, ordinate,
    cast_tangent_y, cast_tangent_z]
  field_simp
  ring

/-! ## The chord -/

/-- The run vanishes only if the two points have the same abscissa. -/
theorem run_ne_zero {P Q : Point C} (hP : (P.z : C.Field) ≠ 0) (hQ : (Q.z : C.Field) ≠ 0)
    (h : P.abscissa ≠ Q.abscissa) : run P Q ≠ 0 := by
  rw [abscissa, abscissa, Ne, div_eq_div_iff (pow_ne_zero 2 hP) (pow_ne_zero 2 hQ)] at h
  exact sub_ne_zero.mpr (Ne.symm h)

/-- The second point, in terms of the first one and the chord. -/
theorem abscissa_of_run {P Q : Point C} (hP : (P.z : C.Field) ≠ 0) (hQ : (Q.z : C.Field) ≠ 0) :
    Q.abscissa = P.abscissa + run P Q / (P.z ^ 2 * Q.z ^ 2) := by
  rw [run, abscissa, abscissa]
  field_simp
  ring

theorem slope_chord {P Q : Point C} (hP : (P.z : C.Field) ≠ 0) (hQ : (Q.z : C.Field) ≠ 0)
    (hne : P.abscissa ≠ Q.abscissa) :
    C.weierstrass.toAffine.slope P.abscissa Q.abscissa P.ordinate Q.ordinate =
      rise P Q / (P.z * Q.z * run P Q) := by
  have hrun := run_ne_zero hP hQ hne
  have hy : P.ordinate - Q.ordinate = -(rise P Q / (P.z ^ 3 * Q.z ^ 3)) := by
    rw [rise, ordinate, ordinate]
    field_simp
    ring
  rw [WeierstrassCurve.Affine.slope_of_X_ne hne, hy, abscissa_of_run hP hQ, sub_add_cancel_left,
    neg_div_neg_eq]
  field_simp

theorem chord_abscissa {P Q : Point C} (h2 : (2 : C.Field) ≠ 0) (hP : (P.z : C.Field) ≠ 0)
    (hQ : (Q.z : C.Field) ≠ 0) (hne : P.abscissa ≠ Q.abscissa) :
    (P.chord Q).abscissa = C.weierstrass.toAffine.addX P.abscissa Q.abscissa
      (C.weierstrass.toAffine.slope P.abscissa Q.abscissa P.ordinate Q.ordinate) := by
  have hrun := run_ne_zero hP hQ hne
  rw [slope_chord hP hQ hne, WeierstrassCurve.Affine.addX, abscissa_of_run hP hQ, abscissa,
    abscissa, cast_chord_x, cast_chord_z]
  simp only [Curve.weierstrass_a₁, Curve.weierstrass_a₂]
  field_simp
  ring

theorem chord_ordinate {P Q : Point C} (h2 : (2 : C.Field) ≠ 0) (hP : (P.z : C.Field) ≠ 0)
    (hQ : (Q.z : C.Field) ≠ 0) (hne : P.abscissa ≠ Q.abscissa) :
    (P.chord Q).ordinate = C.weierstrass.toAffine.addY P.abscissa Q.abscissa P.ordinate
      (C.weierstrass.toAffine.slope P.abscissa Q.abscissa P.ordinate Q.ordinate) := by
  have hrun := run_ne_zero hP hQ hne
  rw [WeierstrassCurve.Affine.addY, Curve.weierstrass_negY, WeierstrassCurve.Affine.negAddY,
    ← chord_abscissa h2 hP hQ hne, slope_chord hP hQ hne, abscissa, abscissa, ordinate, ordinate,
    cast_chord_y, cast_chord_z]
  field_simp
  ring

/-! ## What stays on the curve -/

/-- A reduced triple on the curve, with a denominator that does not vanish, is a finite point. -/
theorem isFinite_of_equation {P : Point C} (hx : 0 ≤ P.x ∧ P.x < C.p) (hy : 0 ≤ P.y ∧ P.y < C.p)
    (hz : 0 ≤ P.z ∧ P.z < C.p) (hne : (P.z : C.Field) ≠ 0)
    (h : C.weierstrass.toAffine.Equation P.abscissa P.ordinate) : P.IsFinite := by
  have hz0 : P.z ≠ 0 := (Curve.cast_eq_zero_iff hz).not.mp hne
  exact ⟨hx, hy, ⟨by omega, hz.2⟩, (equation_abscissa_ordinate hne).mp h⟩

theorem IsFinite.equation_affine {P : Point C} (h : P.IsFinite) :
    C.weierstrass.toAffine.Equation P.abscissa P.ordinate :=
  (equation_abscissa_ordinate h.z_ne_zero).mpr h.equation

theorem IsFinite.tangent {P : Point C} (h3 : 3 < C.p) (h : P.IsFinite) (hy : P.y ≠ 0) :
    P.tangent.IsFinite := by
  have h2 := Curve.two_ne_zero h3
  have hy' : (P.y : C.Field) ≠ 0 := (Curve.cast_eq_zero_iff h.y_range).not.mpr hy
  refine isFinite_of_equation ⟨Curve.reduce_nonneg _, Curve.reduce_lt _⟩
    ⟨Curve.reduce_nonneg _, Curve.reduce_lt _⟩ ⟨Curve.reduce_nonneg _, Curve.reduce_lt _⟩ ?_ ?_
  · rw [cast_tangent_z]
    exact mul_ne_zero (mul_ne_zero h2 hy') h.z_ne_zero
  · rw [tangent_abscissa h2 h.z_ne_zero hy', tangent_ordinate h2 h.z_ne_zero hy']
    exact WeierstrassCurve.Affine.equation_add h.equation_affine h.equation_affine
      fun hxy => ordinate_ne_negY h2 h.z_ne_zero hy' hxy.2

theorem IsFinite.chord {P Q : Point C} (h3 : 3 < C.p) (hP : P.IsFinite) (hQ : Q.IsFinite)
    (hne : P.abscissa ≠ Q.abscissa) : (P.chord Q).IsFinite := by
  have h2 := Curve.two_ne_zero h3
  refine isFinite_of_equation ⟨Curve.reduce_nonneg _, Curve.reduce_lt _⟩
    ⟨Curve.reduce_nonneg _, Curve.reduce_lt _⟩ ⟨Curve.reduce_nonneg _, Curve.reduce_lt _⟩ ?_ ?_
  · rw [cast_chord_z]
    exact mul_ne_zero (mul_ne_zero (mul_ne_zero h2 hP.z_ne_zero) hQ.z_ne_zero)
      (run_ne_zero hP.z_ne_zero hQ.z_ne_zero hne)
  · rw [chord_abscissa h2 hP.z_ne_zero hQ.z_ne_zero hne,
      chord_ordinate h2 hP.z_ne_zero hQ.z_ne_zero hne]
    exact WeierstrassCurve.Affine.equation_add hP.equation_affine hQ.equation_affine
      fun hxy => hne hxy.1

end Field

section Elliptic

variable [C.IsElliptic]

/-! ## What the operations add up to -/

/-- Doubling stays on the curve and doubles in the group. -/
theorem double_spec {P : Point C} (h : P.OnCurve) : StandsFor P.double (P.value + P.value) := by
  have h3 : 3 < C.p := Curve.IsElliptic.three_lt
  have h2 := Curve.two_ne_zero h3
  cases double_cases Curve.p_pos.ne' P with
  | vanishes hvan hR =>
    refine ⟨infinity, hR, onCurve_infinity, ?_⟩
    rcases h with hinf | hfin
    · rw [value_of_isInfinity hinf, value_infinity, add_zero]
    · -- the tangent is upright, and the point its own opposite
      have hy := hvan.resolve_left hfin.not_isInfinity
      rw [value_infinity, hfin.value, WeierstrassCurve.Affine.Point.add_self_of_Y_eq]
      simp [ordinate, hy]
  | tangent hP hy hR =>
    have hfin : P.IsFinite := h.resolve_left hP
    have hy' : (P.y : C.Field) ≠ 0 := (Curve.cast_eq_zero_iff hfin.y_range).not.mpr hy
    refine ⟨P.tangent, hR, Or.inr (hfin.tangent h3 hy), ?_⟩
    rw [hfin.value, WeierstrassCurve.Affine.Point.add_self_of_Y_ne
      (ordinate_ne_negY h2 hfin.z_ne_zero hy')]
    exact (hfin.tangent h3 hy).value_eq (tangent_abscissa h2 hfin.z_ne_zero hy')
      (tangent_ordinate h2 hfin.z_ne_zero hy')

/-- Two finite points with different abscissas are added by their chord. -/
theorem IsFinite.chord_value {P Q : Point C} (hP : P.IsFinite) (hQ : Q.IsFinite)
    (hne : P.abscissa ≠ Q.abscissa) : (P.chord Q).value = P.value + Q.value := by
  have h3 : 3 < C.p := Curve.IsElliptic.three_lt
  have h2 := Curve.two_ne_zero h3
  rw [hP.value, hQ.value, WeierstrassCurve.Affine.Point.add_of_X_ne hne]
  exact (hP.chord h3 hQ hne).value_eq (chord_abscissa h2 hP.z_ne_zero hQ.z_ne_zero hne)
    (chord_ordinate h2 hP.z_ne_zero hQ.z_ne_zero hne)

/-- Two finite points that share only their abscissa are opposite. -/
theorem IsFinite.value_add_of_ne {P Q : Point C} (hP : P.IsFinite) (hQ : Q.IsFinite)
    (hx : P.abscissa = Q.abscissa) (hy : P.ordinate ≠ Q.ordinate) : P.value + Q.value = 0 := by
  rw [hP.value, hQ.value]
  exact WeierstrassCurve.Affine.Point.add_of_Y_eq hx
    ((WeierstrassCurve.Affine.Y_eq_of_X_eq hP.equation_affine hQ.equation_affine hx).resolve_left hy)

/-- Adding stays on the curve and adds in the group. -/
theorem add_spec {P Q : Point C} (hP : P.OnCurve) (hQ : Q.OnCurve) :
    StandsFor (P.add Q) (P.value + Q.value) := by
  cases add_cases Curve.p_pos.ne' P Q with
  | leftInfinite hPi hR =>
    refine ⟨Q, hR, hQ, ?_⟩
    rw [value_of_isInfinity hPi, zero_add]
  | rightInfinite hQi hR =>
    refine ⟨P, hR, hP, ?_⟩
    rw [value_of_isInfinity hQi, add_zero]
  | equal hPi hQi hx hy hR =>
    -- equal points in possibly different coordinates
    have hPf : P.IsFinite := hP.resolve_left hPi
    have hQf : Q.IsFinite := hQ.resolve_left hQi
    have habs := (scaledX_eq_iff hPf.z_ne_zero hQf.z_ne_zero).mp hx
    have hord := (scaledY_eq_iff hPf.z_ne_zero hQf.z_ne_zero).mp hy
    have hval : Q.value = P.value := by
      rw [hPf.value]
      exact hQf.value_eq habs.symm hord.symm
    rw [hR, hval]
    exact double_spec hP
  | opposite hPi hQi hx hy hR =>
    have hPf : P.IsFinite := hP.resolve_left hPi
    have hQf : Q.IsFinite := hQ.resolve_left hQi
    have habs := (scaledX_eq_iff hPf.z_ne_zero hQf.z_ne_zero).mp hx
    have hord := (scaledY_eq_iff hPf.z_ne_zero hQf.z_ne_zero).not.mp hy
    refine ⟨infinity, hR, onCurve_infinity, ?_⟩
    rw [value_infinity, hPf.value_add_of_ne hQf habs hord]
  | chord hPi hQi hx hR =>
    have hPf : P.IsFinite := hP.resolve_left hPi
    have hQf : Q.IsFinite := hQ.resolve_left hQi
    have hne := (scaledX_eq_iff hPf.z_ne_zero hQf.z_ne_zero).not.mp hx
    exact ⟨P.chord Q, hR, Or.inr (hPf.chord Curve.IsElliptic.three_lt hQf hne),
      hPf.chord_value hQf hne⟩

/-- The sum of two computations stands for the sum of their points. -/
theorem StandsFor.add {r s : Except Fault (Point C)} {A B : C.Group} (hr : StandsFor r A)
    (hs : StandsFor s B) : StandsFor (r.bind fun P => s.bind P.add) (A + B) := by
  obtain ⟨P, rfl, hP, rfl⟩ := hr
  obtain ⟨Q, rfl, hQ, rfl⟩ := hs
  exact add_spec hP hQ

end Elliptic

end Ecdsa.Point
