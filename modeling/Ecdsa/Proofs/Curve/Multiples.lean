import Mathlib
import Ecdsa.Proofs.Curve.Addition
import Ecdsa.Proofs.Curve.Affine

/-!
# Multiples and affine coordinates

Of a triple on the curve, `scalarMult_spec` gives the multiples: the ladder keeps the sum of what it
has added and of what is left of the factor times the running double. `toAffine_eq` gives the affine
coordinates, and `normalize_eq` the triple with denominator one: both depend on nothing but the
point that the triple stands for.
-/

namespace Ecdsa

namespace Point

variable {C : Curve} [C.IsElliptic]

/-! ## Multiples -/

/-- One step of the ladder adds the addend where the lowest bit of the factor is set. -/
theorem addBit_spec (k : ℕ) {S A : Point C} (hS : S.OnCurve) (hA : A.OnCurve) :
    StandsFor (if k % 2 = 1 then S.add A else pure S) (S.value + (k % 2) • A.value) := by
  rcases Nat.mod_two_eq_zero_or_one k with hbit | hbit
  · rw [if_neg (by omega), hbit, zero_nsmul, add_zero]
    exact hS.standsFor
  · rw [if_pos hbit, hbit, one_nsmul]
    exact add_spec hS hA

omit [C.IsElliptic] in
/-- A factor that is not zero leaves one step and half the factor. -/
theorem ladder_of_ne_zero {k : ℕ} (hk : k ≠ 0) (S A : Point C) :
    ladder k S A = (if k % 2 = 1 then S.add A else pure S).bind fun sum =>
      A.double.bind (ladder (k / 2) sum) := by
  rw [ladder, dif_neg hk]
  split <;> rfl

/-- The ladder adds a multiple of the addend to the sum. -/
theorem ladder_spec (k : ℕ) {S A : Point C} (hS : S.OnCurve) (hA : A.OnCurve) :
    StandsFor (ladder k S A) (S.value + k • A.value) := by
  induction k using Nat.strongRecOn generalizing S A with
  | ind k ih =>
    by_cases hk : k = 0
    · rw [ladder, dif_pos hk, hk, zero_nsmul, add_zero]
      exact hS.standsFor
    · rw [ladder_of_ne_zero hk]
      refine (addBit_spec k hS hA).bind ?_
      intro S' hS' hS'v
      refine (double_spec hA).bind ?_
      intro A' hA' hA'v
      -- the sum takes the lowest bit, and half the factor of twice the addend is left
      have hrest := ih (k / 2) (by omega) hS' hA'
      rwa [hS'v, hA'v, ← two_nsmul, ← mul_nsmul', add_assoc, ← add_nsmul,
        Nat.mod_add_div' k 2] at hrest

/-- A multiple by a number that is not negative never fails, and is the multiple in the group. -/
theorem scalarMult_spec {P : Point C} (hP : P.OnCurve) {k : ℤ} (hk : 0 ≤ k) :
    StandsFor (P.scalarMult k) (k • P.value) := by
  have hladder := ladder_spec k.toNat onCurve_infinity hP
  rw [value_infinity, zero_add, ← natCast_zsmul, Int.toNat_of_nonneg hk] at hladder
  rw [scalarMult, if_neg (by omega)]
  exact hladder

/-- A multiple of a computation stands for the multiple of its point. -/
theorem StandsFor.scalarMult {r : Except Fault (Point C)} {A : C.Group} (hr : StandsFor r A)
    (k : ℕ) : StandsFor (r.bind (·.scalarMult k)) (k • A) := by
  obtain ⟨P, rfl, hP, rfl⟩ := hr
  rw [← natCast_zsmul]
  exact scalarMult_spec hP (Int.natCast_nonneg k)

/-- What a multiple that was computed stands for. -/
theorem value_of_scalarMult {P Q : Point C} (hP : P.OnCurve) {k : ℤ} (hk : 0 ≤ k)
    (h : P.scalarMult k = .ok Q) : Q.OnCurve ∧ Q.value = k • P.value := by
  obtain ⟨R, hR, hRc, hRv⟩ := scalarMult_spec hP hk
  rw [h, Except.ok.injEq] at hR
  rw [hR]
  exact ⟨hRc, hRv⟩

/-! ## Affine coordinates -/

/-- The affine coordinates of a triple are those of the point that it stands for. -/
theorem toAffine_eq {P : Point C} (hP : P.OnCurve) :
    P.toAffine = .ok (Curve.coordinates? P.value) := by
  rcases hP with hinf | hfin
  · rw [value_of_isInfinity hinf, toAffine, if_pos hinf]
    rfl
  · rw [toAffine_of_z_range hfin.z_range, hfin.value]
    rfl

theorem StandsFor.toAffine {r : Except Fault (Point C)} {A : C.Group} (hr : StandsFor r A) :
    r.bind Point.toAffine = .ok (Curve.coordinates? A) := by
  obtain ⟨P, rfl, hP, rfl⟩ := hr
  exact toAffine_eq hP

/-- The coordinates of a multiple that was computed. -/
theorem coordinates?_of_scalarMult {P : Point C} (hP : P.OnCurve) {k : ℤ} (hk : 0 ≤ k)
    {xy : Option (ℤ × ℤ)} (h : (P.scalarMult k).bind Point.toAffine = .ok xy) :
    Curve.coordinates? (k • P.value) = xy := by
  rw [(scalarMult_spec hP hk).toAffine] at h
  exact Except.ok.inj h

/-- The triple with denominator one that stands for a point of the group. -/
def ofGroup : C.Group → Point C
  | .zero => infinity
  | .some x y _ => affine x.val y.val

theorem onCurve_ofGroup (A : C.Group) : (ofGroup A).OnCurve := by
  cases A with
  | zero => exact onCurve_infinity
  | some x y h => exact Or.inr (isFinite_affine (contains_val h.1))

@[simp] theorem value_ofGroup (A : C.Group) : (ofGroup A).value = A := by
  cases A with
  | zero => exact value_infinity
  | some x y h =>
    obtain ⟨hxy, hval⟩ := value_affine (contains_val h.1)
    rw [ofGroup, hval]
    simp only [Curve.intCast_val]

/-- The triple is infinity in its own coordinates, or the affine coordinates over denominator one. -/
theorem ofGroup_cases (A : C.Group) :
    (A = 0 ∧ ofGroup A = infinity) ∨
      ∃ x y, Curve.coordinates? A = some (x, y) ∧ C.Contains x y ∧ ofGroup A = affine x y := by
  cases A with
  | zero => exact Or.inl ⟨rfl, rfl⟩
  | some x y h => exact Or.inr ⟨x.val, y.val, rfl, contains_val h.1, rfl⟩

/-- A point other than the neutral element has coordinates, and they stand for it. -/
theorem exists_coordinates {A : C.Group} (hA : A ≠ 0) :
    ∃ x y, Curve.coordinates? A = some (x, y) ∧ C.Contains x y ∧
      (affine x y : Point C).value = A := by
  cases A with
  | zero => exact absurd rfl hA
  | some x y h => exact ⟨x.val, y.val, rfl, contains_val h.1, value_ofGroup (.some x y h)⟩

/-- Normalizing leaves the point and brings its denominator to one. -/
theorem normalize_eq {P : Point C} (hP : P.OnCurve) : P.normalize = .ok (ofGroup P.value) := by
  have haff := toAffine_eq hP
  cases hval : P.value with
  | zero =>
    rw [hval] at haff
    exact normalize_of_none haff
  | some x y h =>
    rw [hval] at haff
    exact normalize_of_some haff

end Point

namespace Curve

variable {C : Curve} [C.IsElliptic]

/-- Factors that are congruent modulo the order give the same multiple. -/
theorem zsmul_eq_of_modEq {A : C.Group} {n a b : ℤ} (hn : n • A = 0) (h : a ≡ b [ZMOD n]) :
    a • A = b • A := by
  obtain ⟨t, ht⟩ := Int.modEq_iff_dvd.mp h
  calc a • A = (b + -t * n) • A := by rw [show a = b + -t * n by linear_combination -ht]
    _ = b • A := by rw [add_zsmul, mul_zsmul, hn, zsmul_zero, add_zero]

/-- What annihilates a point annihilates its multiples. -/
theorem zsmul_zsmul_eq_zero {A : C.Group} {n : ℤ} (hn : n • A = 0) (k : ℤ) : n • k • A = 0 := by
  rw [zsmul_comm, hn, zsmul_zero]

/-! ## On the small curve -/

/-- The base point of the small curve has order 31. -/
theorem small_base_order (n : ℤ) : (31 : ℤ) • (small n).base = 0 := by
  have hG := Point.onCurve_generator (small_contains n)
  have hrun : (Point.generator (small n)).scalarMult 31 = .ok Point.infinity := by cbv
  exact (Point.value_of_scalarMult hG (by norm_num) hrun).2.symm.trans Point.value_infinity

theorem small_order : (small 31).n • (small 31).base = 0 :=
  small_base_order 31

/-- Five times the base point of the small curve, in the coordinates that the ladder gives. -/
def smallKey : Point (small 31) :=
  ⟨32, 37, 24⟩

theorem smallKey_spec : smallKey.OnCurve ∧ smallKey.value = (5 : ℤ) • (small 31).base := by
  have hG := Point.onCurve_generator (small_contains 31)
  have hrun : (Point.generator (small 31)).scalarMult 5 = .ok smallKey := by cbv
  exact Point.value_of_scalarMult hG (by norm_num) hrun

end Curve

end Ecdsa
