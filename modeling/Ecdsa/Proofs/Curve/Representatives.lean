import Mathlib
import Ecdsa.Proofs.Curve.Affine
import Ecdsa.Proofs.Curve.Addition

/-!
# Triples for one affine point

Over a prime field a triple whose denominator is between zero and the modulus stands for exactly one
pair of residues, also where it is not on the curve (`toAffine_eq_some_iff`). The pair stays the same
if the triple is brought to a multiple of its denominator (`toAffine_rescale`), and two triples stand
for the same pair exactly if they agree over the common denominator (`toAffine_eq_iff`): these are
the comparisons by which adding tells equal points from others (`scaledX_eq_iff`,
`scaledY_eq_iff`).

All of it comes from two quotients in the field, `abscissa` and `ordinate`, which `toAffine` computes.
-/

namespace Ecdsa.Point

variable {C : Curve}

/-- Whether a pair of residues is what a triple stands for: multiplied by the square and the cube of
the denominator it gives the coordinates of the triple. -/
def Represents (P : Point C) (x y : ℤ) : Prop :=
  (0 ≤ x ∧ x < C.p) ∧ (0 ≤ y ∧ y < C.p) ∧
    x * P.z ^ 2 ≡ P.x [ZMOD C.p] ∧ y * P.z ^ 3 ≡ P.y [ZMOD C.p]

/-- A triple brought to a multiple of its denominator. -/
def rescale (P : Point C) (l : ℤ) : Point C :=
  ⟨C.reduce (l ^ 2 * P.x), C.reduce (l ^ 3 * P.y), C.reduce (l * P.z)⟩

variable [Fact C.p.toNat.Prime]

/-! ## The pair that a triple stands for -/

theorem represents_iff {P : Point C} (hz : 0 < P.z ∧ P.z < C.p) {x y : ℤ} :
    P.Represents x y ↔ (0 ≤ x ∧ x < C.p) ∧ (0 ≤ y ∧ y < C.p) ∧
      (x : C.Field) = P.abscissa ∧ (y : C.Field) = P.ordinate := by
  have hne := Curve.cast_ne_zero hz
  unfold Represents
  rw [← Curve.cast_eq_cast_iff, ← Curve.cast_eq_cast_iff, abscissa, ordinate,
    eq_div_iff (pow_ne_zero 2 hne), eq_div_iff (pow_ne_zero 3 hne)]
  push_cast
  exact Iff.rfl

/-- The affine coordinates of a triple are the pair that it stands for. -/
theorem toAffine_eq_some_iff {P : Point C} (hz : 0 < P.z ∧ P.z < C.p) {x y : ℤ} :
    P.toAffine = .ok (some (x, y)) ↔ P.Represents x y := by
  rw [toAffine_of_z_range hz, represents_iff hz, Except.ok.injEq, Option.some.injEq,
    Prod.mk.injEq, Curve.val_eq_iff, Curve.val_eq_iff]
  tauto

/-- The pair lies on the curve exactly if the triple satisfies the equation over its denominator. -/
theorem contains_iff_of_represents {P : Point C} (hz : 0 < P.z ∧ P.z < C.p) {x y : ℤ}
    (h : P.Represents x y) :
    C.Contains x y ↔ P.y ^ 2 ≡ P.x ^ 3 + C.a * P.x * P.z ^ 4 + C.b * P.z ^ 6 [ZMOD C.p] := by
  rw [← equation_abscissa_ordinate (Curve.cast_ne_zero hz), ← contains_val_iff]
  obtain ⟨hx, hy, habs, hord⟩ := (represents_iff hz).mp h
  rw [Curve.val_eq_iff.mpr ⟨hx, habs⟩, Curve.val_eq_iff.mpr ⟨hy, hord⟩]

/-! ## Triples that stand for the same pair -/

theorem rescale_z_range {P : Point C} (hz : 0 < P.z ∧ P.z < C.p) {l : ℤ} (hl : 0 < l ∧ l < C.p) :
    0 < (P.rescale l).z ∧ (P.rescale l).z < C.p := by
  have hne : ((P.rescale l).z : C.Field) ≠ 0 := by
    rw [rescale, Curve.cast_reduce, Int.cast_mul]
    exact mul_ne_zero (Curve.cast_ne_zero hl) (Curve.cast_ne_zero hz)
  have hrange : 0 ≤ (P.rescale l).z ∧ (P.rescale l).z < C.p :=
    ⟨Curve.reduce_nonneg _, Curve.reduce_lt _⟩
  have hz0 : (P.rescale l).z ≠ 0 := (Curve.cast_eq_zero_iff hrange).not.mp hne
  omega

theorem abscissa_rescale (P : Point C) {l : ℤ} (hl : (l : C.Field) ≠ 0) :
    (P.rescale l).abscissa = P.abscissa := by
  simp only [abscissa, rescale, Curve.cast_reduce, Int.cast_mul, Int.cast_pow]
  rw [mul_pow, mul_div_mul_left _ _ (pow_ne_zero 2 hl)]

theorem ordinate_rescale (P : Point C) {l : ℤ} (hl : (l : C.Field) ≠ 0) :
    (P.rescale l).ordinate = P.ordinate := by
  simp only [ordinate, rescale, Curve.cast_reduce, Int.cast_mul, Int.cast_pow]
  rw [mul_pow, mul_div_mul_left _ _ (pow_ne_zero 3 hl)]

/-- A multiple of the denominator leaves the affine coordinates as they are. -/
theorem toAffine_rescale {P : Point C} (hz : 0 < P.z ∧ P.z < C.p) {l : ℤ} (hl : 0 < l ∧ l < C.p) :
    (P.rescale l).toAffine = P.toAffine := by
  have hne := Curve.cast_ne_zero hl
  rw [toAffine_of_z_range (rescale_z_range hz hl), toAffine_of_z_range hz, abscissa_rescale P hne,
    ordinate_rescale P hne]

theorem abscissa_eq_iff {P Q : Point C} (hP : 0 < P.z ∧ P.z < C.p) (hQ : 0 < Q.z ∧ Q.z < C.p) :
    P.abscissa = Q.abscissa ↔ P.x * Q.z ^ 2 ≡ Q.x * P.z ^ 2 [ZMOD C.p] := by
  rw [abscissa, abscissa, div_eq_div_iff (pow_ne_zero 2 (Curve.cast_ne_zero hP))
    (pow_ne_zero 2 (Curve.cast_ne_zero hQ)), ← Curve.cast_eq_cast_iff]
  push_cast
  exact Iff.rfl

theorem ordinate_eq_iff {P Q : Point C} (hP : 0 < P.z ∧ P.z < C.p) (hQ : 0 < Q.z ∧ Q.z < C.p) :
    P.ordinate = Q.ordinate ↔ P.y * Q.z ^ 3 ≡ Q.y * P.z ^ 3 [ZMOD C.p] := by
  rw [ordinate, ordinate, div_eq_div_iff (pow_ne_zero 3 (Curve.cast_ne_zero hP))
    (pow_ne_zero 3 (Curve.cast_ne_zero hQ)), ← Curve.cast_eq_cast_iff]
  push_cast
  exact Iff.rfl

/-- Two triples have the same affine coordinates exactly if both quotients are equal. -/
theorem toAffine_eq_iff {P Q : Point C} (hP : 0 < P.z ∧ P.z < C.p) (hQ : 0 < Q.z ∧ Q.z < C.p) :
    P.toAffine = Q.toAffine ↔ P.abscissa = Q.abscissa ∧ P.ordinate = Q.ordinate := by
  rw [toAffine_of_z_range hP, toAffine_of_z_range hQ, Except.ok.injEq, Option.some.injEq,
    Prod.mk.injEq, Int.natCast_inj, Int.natCast_inj, (ZMod.val_injective _).eq_iff,
    (ZMod.val_injective _).eq_iff]

/-! ## Denominator one -/

theorem affine_z_range (x y : ℤ) :
    0 < (affine x y : Point C).z ∧ (affine x y : Point C).z < C.p :=
  ⟨one_pos, Curve.one_lt_p⟩

/-- A pair of residues over denominator one stands for itself. -/
theorem toAffine_affine {x y : ℤ} (hx : 0 ≤ x ∧ x < C.p) (hy : 0 ≤ y ∧ y < C.p) :
    (affine x y : Point C).toAffine = .ok (some (x, y)) := by
  rw [toAffine_eq_some_iff (affine_z_range x y)]
  refine ⟨hx, hy, ?_, ?_⟩
  · rw [affine, one_pow, mul_one]
  · rw [affine, one_pow, mul_one]

/-- **Affine coordinates are those of a class of triples.** A triple with a denominator in range has
exactly one pair of residues for affine coordinates, and the pair is on the curve exactly if the
triple is. Multiplying the denominator changes nothing; two triples have the same affine coordinates
exactly if they agree over the common denominator, which is what adding compares. Normalizing keeps
the affine coordinates, and does nothing the second time. -/
theorem toAffine_exact {P Q : Point C} (hP : 0 < P.z ∧ P.z < C.p) (hQ : 0 < Q.z ∧ Q.z < C.p) :
    (∃ x y, P.toAffine = .ok (some (x, y)) ∧ P.Represents x y ∧
      (∀ x' y', P.Represents x' y' → x' = x ∧ y' = y) ∧
      (C.Contains x y ↔
        P.y ^ 2 ≡ P.x ^ 3 + C.a * P.x * P.z ^ 4 + C.b * P.z ^ 6 [ZMOD C.p])) ∧
    (∀ l, 1 ≤ l ∧ l < C.p → (P.rescale l).toAffine = P.toAffine) ∧
    (P.toAffine = Q.toAffine ↔
      P.x * Q.z ^ 2 ≡ Q.x * P.z ^ 2 [ZMOD C.p] ∧ P.y * Q.z ^ 3 ≡ Q.y * P.z ^ 3 [ZMOD C.p]) ∧
    (P.toAffine = Q.toAffine ↔ P.scaledX Q = Q.scaledX P ∧ P.scaledY Q = Q.scaledY P) ∧
    P.normalize.bind toAffine = P.toAffine ∧ P.normalize.bind normalize = P.normalize := by
  obtain ⟨x, y, haff⟩ : ∃ x y, P.toAffine = .ok (some (x, y)) := ⟨_, _, toAffine_of_z_range hP⟩
  have hrep := (toAffine_eq_some_iff hP).mp haff
  have hone := toAffine_affine hrep.1 hrep.2.1
  refine ⟨⟨x, y, haff, hrep, ?_, contains_iff_of_represents hP hrep⟩, ?_, ?_, ?_, ?_, ?_⟩
  · intro x' y' hrep'
    rw [← toAffine_eq_some_iff hP, haff, Except.ok.injEq, Option.some.injEq, Prod.mk.injEq] at hrep'
    exact ⟨hrep'.1.symm, hrep'.2.symm⟩
  · intro l hl
    exact toAffine_rescale hP hl
  · rw [toAffine_eq_iff hP hQ, abscissa_eq_iff hP hQ, ordinate_eq_iff hP hQ]
  · rw [toAffine_eq_iff hP hQ, scaledX_eq_iff (Curve.cast_ne_zero hP) (Curve.cast_ne_zero hQ),
      scaledY_eq_iff (Curve.cast_ne_zero hP) (Curve.cast_ne_zero hQ)]
  · rw [normalize_of_some haff, haff]
    exact hone
  · rw [normalize_of_some haff]
    exact normalize_of_some hone

/-- On the small curve, for three triples of one class that is not on the curve, the first in
coordinates that are not reduced. -/
theorem small_toAffine_exact : ∃ x y,
    (⟨-5, 100, 24⟩ : Point (Curve.small 31)).toAffine = .ok (some (x, y)) ∧
      ((⟨-5, 100, 24⟩ : Point (Curve.small 31)).rescale 40).toAffine = .ok (some (x, y)) ∧
      (affine 25 15 : Point (Curve.small 31)).toAffine = .ok (some (x, y)) ∧
      ¬(Curve.small 31).Contains x y := by
  obtain ⟨⟨x, y, haff, -, -, hcurve⟩, hscale, -, hcompare, -⟩ :=
    toAffine_exact (C := Curve.small 31) (P := ⟨-5, 100, 24⟩) (Q := affine 25 15)
      (by decide) (by decide)
  have hsame := hcompare.mpr (by decide)
  refine ⟨x, y, haff, (hscale 40 (by decide)).trans haff, hsame.symm.trans haff, ?_⟩
  rw [hcurve]
  decide

end Ecdsa.Point
