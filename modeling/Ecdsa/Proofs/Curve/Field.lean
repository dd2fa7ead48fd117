import Mathlib
import Ecdsa.Curve.Point

/-!
# Coordinates as field elements

The coordinates of a point are integers, and every operation reduces its result modulo `p`. Read in
`ZMod p` a reduction changes nothing (`cast_reduce`), two residues are equal exactly if they are
equal there (`reduce_eq_iff`), and a number below `p` vanishes there only if it is zero
(`cast_eq_zero_iff`). So the branches that the operations take on integers are decided by field
elements, and what the operations compute is a formula over a field.
-/

namespace Ecdsa.Curve

variable {C : Curve}

/-- The ring that coordinates are computed in. -/
abbrev Field (C : Curve) := ZMod C.p.toNat

theorem reduce_range (hp : 0 < C.p) (v : ℤ) : 0 ≤ C.reduce v ∧ C.reduce v < C.p :=
  ⟨Int.fmod_nonneg_of_pos v hp, Int.fmod_lt_of_pos v hp⟩

variable [prime : Fact C.p.toNat.Prime]

include prime in
theorem p_pos : 0 < C.p := by
  have := prime.out.pos
  omega

include prime in
theorem one_lt_p : 1 < C.p := by
  have := prime.out.one_lt
  omega

theorem cast_p : (C.p.toNat : ℤ) = C.p :=
  Int.toNat_of_nonneg p_pos.le

theorem reduce_eq_emod (v : ℤ) : C.reduce v = v % C.p :=
  Int.fmod_eq_emod_of_nonneg v p_pos.le

/-- The reduction of a number is the number below the modulus that its field element is. -/
theorem reduce_eq_val (v : ℤ) : C.reduce v = ((v : C.Field).val : ℤ) := by
  rw [ZMod.val_intCast, cast_p, reduce_eq_emod]

theorem reduce_nonneg (v : ℤ) : 0 ≤ C.reduce v :=
  (reduce_range p_pos v).1

theorem reduce_lt (v : ℤ) : C.reduce v < C.p :=
  (reduce_range p_pos v).2

theorem cast_eq_cast_iff (u v : ℤ) :
    (u : C.Field) = v ↔ u ≡ v [ZMOD C.p] := by
  rw [ZMod.intCast_eq_intCast_iff, cast_p]

@[simp] theorem cast_reduce (v : ℤ) : (C.reduce v : C.Field) = v := by
  rw [cast_eq_cast_iff, reduce_eq_emod]
  exact Int.mod_modEq v C.p

theorem cast_p_sub (y : ℤ) : ((C.p - y : ℤ) : C.Field) = -y := by
  rw [← Int.cast_neg, cast_eq_cast_iff]
  exact Int.modEq_iff_dvd.mpr ⟨-1, by ring⟩

theorem reduce_eq_iff (u v : ℤ) :
    C.reduce u = C.reduce v ↔ (u : C.Field) = v := by
  rw [cast_eq_cast_iff, reduce_eq_emod, reduce_eq_emod]
  exact Iff.rfl

theorem eq_of_cast_eq {u v : ℤ} (hu : 0 ≤ u ∧ u < C.p)
    (hv : 0 ≤ v ∧ v < C.p) (h : (u : C.Field) = v) : u = v := by
  rw [cast_eq_cast_iff, Int.ModEq, Int.emod_eq_of_lt hu.1 hu.2, Int.emod_eq_of_lt hv.1 hv.2] at h
  exact h

theorem cast_eq_zero_iff {v : ℤ} (hv : 0 ≤ v ∧ v < C.p) :
    (v : C.Field) = 0 ↔ v = 0 := by
  refine ⟨?_, ?_⟩
  · intro h
    exact eq_of_cast_eq hv ⟨le_rfl, p_pos⟩ (by rw [h, Int.cast_zero])
  · intro h
    rw [h, Int.cast_zero]

theorem cast_ne_zero {v : ℤ} (hv : 0 < v ∧ v < C.p) : (v : C.Field) ≠ 0 :=
  (cast_eq_zero_iff ⟨hv.1.le, hv.2⟩).not.mpr hv.1.ne'

theorem cast_val {v : ℤ} (hv : 0 ≤ v ∧ v < C.p) :
    ((v : C.Field).val : ℤ) = v := by
  rw [ZMod.val_intCast, cast_p, Int.emod_eq_of_lt hv.1 hv.2]

theorem val_range (v : C.Field) : 0 ≤ (v.val : ℤ) ∧ (v.val : ℤ) < C.p := by
  have := ZMod.val_lt v
  have := cast_p (C := C)
  omega

theorem intCast_val (v : C.Field) : ((v.val : ℤ) : C.Field) = v := by
  rw [Int.cast_natCast, ZMod.natCast_zmod_val]

/-- The number below the modulus that a field element is. -/
theorem val_eq_iff {x : ℤ} {v : C.Field} :
    (v.val : ℤ) = x ↔ (0 ≤ x ∧ x < C.p) ∧ (x : C.Field) = v := by
  refine ⟨?_, ?_⟩
  · rintro rfl
    exact ⟨val_range v, intCast_val v⟩
  · intro h
    rw [← h.2, cast_val h.1]

/-- Above three the field has no characteristic two. -/
theorem two_ne_zero (h : 3 < C.p) : (2 : C.Field) ≠ 0 := by
  have h2 := (cast_eq_zero_iff (C := C) (v := 2) ⟨by norm_num, by omega⟩).not.mpr (by norm_num)
  simpa using h2

/-- A pair of coordinates lies on the curve exactly if it is reduced and satisfies the equation. -/
theorem contains_iff (x y : ℤ) :
    C.Contains x y ↔ (0 ≤ x ∧ x < C.p) ∧ (0 ≤ y ∧ y < C.p) ∧
      (y : C.Field) ^ 2 = (x : C.Field) ^ 3 + C.a * x + C.b := by
  unfold Contains cubic
  rw [reduce_eq_iff]
  push_cast
  rw [show (x : C.Field) * x * x + C.a * x + C.b = (x : C.Field) ^ 3 + C.a * x + C.b by ring,
    ← sq (y : C.Field)]
  tauto

end Ecdsa.Curve
