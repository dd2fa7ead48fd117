import Mathlib
import Ecdsa.Proofs.Curve.Table

/-!
# Laws that hold up to affine coordinates

Points that are equal in the group are reached on triples in different coordinates, so no law of
addition holds of the triples themselves. It holds of what they stand for: two computations are
`SameAffine` if neither fails and both end at the same affine point. They are so if they stand for
the same point of the group (`StandsFor.sameAffine`), and the laws below are laws of the group:
addition is that of an abelian group (`add_abelian`), the ladder is repeated addition
(`scalarMult_addTimes`), and a multiple read off the table is the one that the ladder gives
(`GeneratorTable.build_mulGenerator_ladder`).
-/

namespace Ecdsa.Point

variable {C : Curve}

/-- Neither of two computations fails, and they end at the same affine point. -/
def SameAffine (r s : Except Fault (Point C)) : Prop :=
  ∃ u, r.bind toAffine = .ok u ∧ s.bind toAffine = .ok u

/-- The sum of so many copies of a point, added to infinity one after the other. -/
def addTimes (P : Point C) : ℕ → Except Fault (Point C)
  | 0 => .ok infinity
  | k + 1 => (P.addTimes k).bind (·.add P)

/-- The point with the opposite ordinate. -/
def opposite (P : Point C) : Point C :=
  ⟨P.x, C.reduce (C.p - P.y), P.z⟩

variable [C.IsElliptic]

theorem StandsFor.sameAffine {r s : Except Fault (Point C)} {A : C.Group} (hr : StandsFor r A)
    (hs : StandsFor s A) : SameAffine r s :=
  ⟨Curve.coordinates? A, hr.toAffine, hs.toAffine⟩

/-! ## Addition -/

theorem IsFinite.opposite {P : Point C} (h : P.IsFinite) : P.opposite.IsFinite := by
  refine ⟨h.x_range, ⟨Curve.reduce_nonneg _, Curve.reduce_lt _⟩, h.z_range, ?_⟩
  have hy : P.opposite.y ^ 2 ≡ P.y ^ 2 [ZMOD C.p] := by
    rw [← Curve.cast_eq_cast_iff, Int.cast_pow, Int.cast_pow, Point.opposite, Curve.cast_reduce,
      Curve.cast_p_sub, neg_sq]
  exact hy.trans h.equation

theorem OnCurve.opposite {P : Point C} (hP : P.OnCurve) : P.opposite.OnCurve :=
  hP.imp id IsFinite.opposite

/-- The opposite triple stands for the opposite point. -/
theorem value_opposite {P : Point C} (hP : P.OnCurve) : P.opposite.value = -P.value := by
  rcases hP with hinf | hfin
  · have hopp : P.opposite.IsInfinity := hinf
    rw [value_of_isInfinity hinf, value_of_isInfinity hopp, neg_zero]
  · have hord : P.opposite.ordinate = -P.ordinate := by
      rw [ordinate, ordinate, Point.opposite, Curve.cast_reduce, Curve.cast_p_sub, neg_div]
    rw [hfin.value, WeierstrassCurve.Affine.Point.neg_some]
    exact hfin.opposite.value_eq rfl (hord.trans (Curve.weierstrass_negY _ _).symm)

/-- **Addition is that of an abelian group, up to affine coordinates.** It is associative and
commutative, infinity is neutral, and a point and its opposite add up to infinity. -/
theorem add_abelian {P Q T : Point C} (hP : P.OnCurve) (hQ : Q.OnCurve) (hT : T.OnCurve) :
    SameAffine ((P.add Q).bind (·.add T)) ((Q.add T).bind P.add) ∧
      SameAffine (P.add Q) (Q.add P) ∧
      SameAffine (P.add infinity) (.ok P) ∧
      P.opposite.OnCurve ∧ ∃ R, P.add P.opposite = .ok R ∧ R.IsInfinity := by
  refine ⟨?_, ?_, ?_, hP.opposite, ?_⟩
  · have hleft := (add_spec hP hQ).add hT.standsFor
    rw [add_assoc] at hleft
    exact hleft.sameAffine (hP.standsFor.add (add_spec hQ hT))
  · have hswap := add_spec hQ hP
    rw [add_comm] at hswap
    exact (add_spec hP hQ).sameAffine hswap
  · have hneutral := add_spec hP onCurve_infinity
    rw [value_infinity, add_zero] at hneutral
    exact hneutral.sameAffine hP.standsFor
  · obtain ⟨R, hR, hRc, hRv⟩ := add_spec hP hP.opposite
    rw [value_opposite hP, add_neg_cancel] at hRv
    exact ⟨R, hR, hRc.value_eq_zero_iff.mp hRv⟩

/-- On the small curve, for two points that are opposite in different coordinates. -/
theorem small_add_abelian :
    SameAffine ((Curve.smallKey.add (affine 12 31)).bind (·.add (affine 2 12)))
        (((affine 12 31).add (affine 2 12)).bind Curve.smallKey.add) ∧
      SameAffine (Curve.smallKey.add (affine 12 31)) ((affine 12 31).add Curve.smallKey) ∧
      SameAffine (Curve.smallKey.add infinity) (.ok Curve.smallKey) ∧
      Curve.smallKey.opposite.OnCurve ∧
      ∃ R, Curve.smallKey.add Curve.smallKey.opposite = .ok R ∧ R.IsInfinity :=
  add_abelian Curve.smallKey_spec.1 (Or.inr (isFinite_affine (by decide)))
    (Or.inr (isFinite_affine (by decide)))

/-! ## Multiples -/

theorem standsFor_addTimes {P : Point C} (hP : P.OnCurve) (k : ℕ) :
    StandsFor (P.addTimes k) (k • P.value) := by
  induction k with
  | zero =>
    rw [zero_nsmul, ← value_infinity]
    exact onCurve_infinity.standsFor
  | succ k ih =>
    rw [succ_nsmul]
    exact ih.add hP.standsFor

/-- **The ladder is repeated addition.** So multiples add and multiply like their factors. -/
theorem scalarMult_addTimes {P : Point C} (hP : P.OnCurve) :
    (∀ k : ℕ, SameAffine (P.scalarMult k) (P.addTimes k)) ∧
      ∀ j k : ℕ,
        SameAffine (P.scalarMult (j + k))
          ((P.scalarMult j).bind fun R => (P.scalarMult k).bind R.add) ∧
        SameAffine ((P.scalarMult j).bind (·.scalarMult k)) (P.scalarMult (j * k)) := by
  have hmul (k : ℕ) : StandsFor (P.scalarMult k) (k • P.value) := hP.standsFor.scalarMult k
  refine ⟨?_, ?_⟩
  · intro k
    exact (hmul k).sameAffine (standsFor_addTimes hP k)
  · intro j k
    refine ⟨?_, ?_⟩
    · have hsum := hmul (j + k)
      rw [add_nsmul, Nat.cast_add] at hsum
      exact hsum.sameAffine ((hmul j).add (hmul k))
    · have hprod := hmul (j * k)
      rw [mul_nsmul, Nat.cast_mul] at hprod
      exact ((hmul j).scalarMult k).sameAffine hprod

/-- On the small curve, for a factor beyond the order of the point. -/
theorem small_scalarMult_addTimes :
    (Curve.smallKey.addTimes 64).bind toAffine = .ok (some (42, 7)) := by
  obtain ⟨u, hmul, hadd⟩ := (scalarMult_addTimes Curve.smallKey_spec.1).1 64
  have hrun : (Curve.smallKey.scalarMult 64).bind toAffine = .ok (some (42, 7)) := by cbv
  rw [hadd, ← hmul]
  exact hrun

end Ecdsa.Point

namespace Ecdsa.GeneratorTable

variable {C : Curve} [C.IsElliptic]

/-! ## Multiples read off the table -/

/-- **The table agrees with the ladder.** For every width of the windows, a multiple read off the
table is the one that the ladder gives for the factor modulo the order; and where the order takes the
base point to infinity, such multiples add like their factors. -/
theorem build_mulGenerator_ladder (hG : C.Contains C.gx C.gy) (hn : 1 ≤ C.n) {width : ℤ}
    (hw : 1 ≤ width) :
    ∃ T, build C width = .ok T ∧
      (∀ k, Point.SameAffine (T.mulGenerator k) ((Point.generator C).scalarMult (k % C.n))) ∧
      (C.n • C.base = 0 → ∀ j k, Point.SameAffine
        ((T.mulGenerator j).bind fun P => (T.mulGenerator k).bind P.add) (T.mulGenerator (j + k))) := by
  obtain ⟨T, hT, htable⟩ := build_spec hG hw
  have hmul := mulGenerator_spec htable hn
  refine ⟨T, hT, ?_, ?_⟩
  · intro k
    have hk := Int.emod_nonneg k (show C.n ≠ 0 by omega)
    exact (hmul k).sameAffine (Point.scalarMult_spec (Point.onCurve_generator hG) hk)
  · intro hbase j k
    have hmod : j % C.n + k % C.n ≡ (j + k) % C.n [ZMOD C.n] :=
      ((Int.mod_modEq j C.n).add (Int.mod_modEq k C.n)).trans (Int.mod_modEq (j + k) C.n).symm
    have hsum := (hmul j).add (hmul k)
    rw [← add_zsmul, Curve.zsmul_eq_of_modEq hbase hmod] at hsum
    exact hsum.sameAffine (hmul (j + k))

/-- On the small curve, for a width that does not divide the bits of the order, and a factor below
zero. -/
theorem small_build_mulGenerator_ladder : ∃ T, build (Curve.small 31) 3 = .ok T ∧
    (T.mulGenerator (-40)).bind Point.toAffine = .ok (some (20, 3)) ∧
    Point.SameAffine ((T.mulGenerator 20).bind fun P => (T.mulGenerator (-40)).bind P.add)
      (T.mulGenerator (-20)) := by
  obtain ⟨T, hT, hladder, hsum⟩ := build_mulGenerator_ladder (Curve.small_contains 31)
    (show (1 : ℤ) ≤ 31 by norm_num) (show (1 : ℤ) ≤ 3 by norm_num)
  obtain ⟨u, htable, hmul⟩ := hladder (-40)
  have hrun : ((Point.generator (Curve.small 31)).scalarMult (-40 % 31)).bind Point.toAffine =
      .ok (some (20, 3)) := by
    cbv
  refine ⟨T, hT, ?_, hsum Curve.small_order 20 (-40)⟩
  rw [htable, ← hmul]
  exact hrun

end Ecdsa.GeneratorTable
