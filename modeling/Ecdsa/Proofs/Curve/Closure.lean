import Mathlib
import Ecdsa.Curve.PointStore
import Ecdsa.Proofs.Outcome
import Ecdsa.Proofs.Curve.Lift
import Ecdsa.Proofs.Curve.Multiples

/-!
# What runs of constructions find

A point is proper if it is infinity in its own coordinates or finite (`Point.IsProper`). Over a prime
field every construction that does not take coordinates on trust finds proper points only, from proper
points (`PointStore.proper_of_construct`); so a run keeps proper points only (`step_proper`), and all
that it finds is proper (`found_proper`). The test for a denominator of zero is then a test for
infinity: affine coordinates are missing there and nowhere else.

That the discriminant does not vanish is not asked for. On a curve with a singular point the chord and
the tangent still lead to the curve, and a denominator still vanishes only with the run or the ordinate.
-/

namespace Ecdsa

namespace Point

variable {C : Curve}

/-- Infinity in its own coordinates, or a finite point of the curve. -/
def IsProper (P : Point C) : Prop :=
  P = infinity ∨ P.IsFinite

/-- A computation does not fail, and ends at a proper point. -/
def EndsProper (r : Except Fault (Point C)) : Prop :=
  ∃ R, r = .ok R ∧ R.IsProper

theorem isProper_infinity : (infinity : Point C).IsProper :=
  Or.inl rfl

theorem IsProper.ends {P : Point C} (hP : P.IsProper) : EndsProper (.ok P) :=
  ⟨P, rfl, hP⟩

theorem EndsProper.bind {r : Except Fault (Point C)} {f : Point C → Except Fault (Point C)}
    (hr : EndsProper r) (hf : ∀ P : Point C, P.IsProper → EndsProper (f P)) :
    EndsProper (r.bind f) := by
  obtain ⟨P, rfl, hP⟩ := hr
  exact hf P hP

/-- What a computation ends at, if it is known to end at a proper point. -/
theorem EndsProper.proper_of_eq {r : Except Fault (Point C)} {P : Point C} (hr : EndsProper r)
    (h : r = .ok P) : P.IsProper := by
  obtain ⟨R, hR, hRp⟩ := hr
  rw [h, Except.ok.injEq] at hR
  rwa [hR]

theorem IsProper.isFinite {P : Point C} (hP : P.IsProper) (h : ¬P.IsInfinity) : P.IsFinite := by
  rcases hP with rfl | hfin
  · exact absurd isInfinity_infinity h
  · exact hfin

variable [Fact C.p.toNat.Prime]

/-! ## The operations -/

theorem double_proper (h3 : 3 < C.p) {P : Point C} (hP : P.IsProper) : EndsProper P.double := by
  cases double_cases Curve.p_pos.ne' P with
  | vanishes _ hR => exact ⟨_, hR, isProper_infinity⟩
  | tangent hPi hy hR => exact ⟨_, hR, Or.inr ((hP.isFinite hPi).tangent h3 hy)⟩

theorem add_proper (h3 : 3 < C.p) {P Q : Point C} (hP : P.IsProper) (hQ : Q.IsProper) :
    EndsProper (P.add Q) := by
  cases add_cases Curve.p_pos.ne' P Q with
  | leftInfinite _ hR => exact ⟨_, hR, hQ⟩
  | rightInfinite _ hR => exact ⟨_, hR, hP⟩
  | equal _ _ _ _ hR =>
    rw [hR]
    exact double_proper h3 hP
  | opposite _ _ _ _ hR => exact ⟨_, hR, isProper_infinity⟩
  | chord hPi hQi hx hR =>
    have hPf := hP.isFinite hPi
    have hQf := hQ.isFinite hQi
    have hne := (scaledX_eq_iff hPf.z_ne_zero hQf.z_ne_zero).not.mp hx
    exact ⟨_, hR, Or.inr (hPf.chord h3 hQf hne)⟩

/-- The ladder keeps the sum and the running double proper. -/
theorem ladder_proper (h3 : 3 < C.p) (k : ℕ) {S A : Point C} (hS : S.IsProper) (hA : A.IsProper) :
    EndsProper (ladder k S A) := by
  induction k using Nat.strongRecOn generalizing S A with
  | ind k ih =>
    by_cases hk : k = 0
    · rw [ladder, dif_pos hk]
      exact hS.ends
    · have hbit : EndsProper (if k % 2 = 1 then S.add A else pure S) := by
        split
        next => exact add_proper h3 hS hA
        next => exact hS.ends
      rw [ladder_of_ne_zero hk]
      refine hbit.bind ?_
      intro S' hS'
      refine (double_proper h3 hA).bind ?_
      intro A' hA'
      exact ih (k / 2) (by omega) hS' hA'

theorem proper_of_scalarMult (h3 : 3 < C.p) {P R : Point C} (hP : P.IsProper) {k : ℤ}
    (h : P.scalarMult k = .ok R) : R.IsProper := by
  unfold scalarMult at h
  split at h
  next => cases h
  next => exact (ladder_proper h3 k.toNat isProper_infinity hP).proper_of_eq h

/-- Where a proper point is not at infinity, its affine coordinates lie on the curve. -/
theorem toAffine_proper {P : Point C} (hP : P.IsProper) :
    (P = infinity ∧ P.toAffine = .ok none) ∨
      (P ≠ infinity ∧ ∃ x y, P.toAffine = .ok (some (x, y)) ∧ C.Contains x y) := by
  rcases hP with rfl | hfin
  · exact Or.inl ⟨rfl, toAffine_infinity⟩
  · refine Or.inr ⟨?_, _, _, toAffine_of_z_range hfin.z_range, contains_val hfin.equation_affine⟩
    rintro rfl
    exact hfin.not_isInfinity isInfinity_infinity

theorem normalize_proper {P : Point C} (hP : P.IsProper) : EndsProper P.normalize := by
  rcases toAffine_proper hP with ⟨-, haff⟩ | ⟨-, x, y, haff, hc⟩
  · exact ⟨infinity, normalize_of_none haff, isProper_infinity⟩
  · exact ⟨affine x y, normalize_of_some haff, Or.inr (isFinite_affine hc)⟩

end Point

/-! ## Runs -/

/-- Whether a construction finds points by itself, and takes no coordinates on trust. -/
def Construction.IsChecked : Construction → Prop
  | .coordinates _ _ _ => False
  | _ => True

/-- Whether a step keeps no coordinates that were taken on trust. -/
def PointStep.IsChecked : PointStep → Prop
  | .obtain _ how => how.IsChecked
  | _ => True

namespace PointStore

variable {C : Curve}

/-- The point that a step finds, if it obtains one and does not fail. -/
def foundBy (store : PointStore C) : PointStep → Option (Point C)
  | .obtain _ how =>
    match store.construct how with
    | .ok found => found
    | .error _ => none
  | _ => none

/-- The points that a run of steps finds, in order, whether they are kept or not. -/
def found (store : PointStore C) : List PointStep → List (Point C)
  | [] => []
  | s :: rest => (store.foundBy s).toList ++ (store.step s).1.found rest

/-- All points that are kept are proper. -/
def IsProper (store : PointStore C) : Prop :=
  ∀ entry ∈ store, entry.2.IsProper

theorem proper_of_find {store : PointStore C} (hstore : store.IsProper) {name : String}
    {P : Point C} (h : store.find name = .ok P) : P.IsProper := by
  unfold find at h
  split at h
  next Q hQ =>
    cases h
    obtain ⟨before, after, rfl, -⟩ := List.lookup_eq_some_iff.mp hQ
    exact hstore (name, P) (by simp)
  next => cases h

/-- What is kept after a step was kept before it or is what the step found. -/
theorem kept_or_found {store : PointStore C} {s : PointStep} {entry : String × Point C}
    (h : entry ∈ (store.step s).1) : entry ∈ store ∨ store.foundBy s = some entry.2 := by
  cases s with
  | obtain name how =>
    have hkept : entry ∈ store.keep name (store.construct how) := h
    unfold keep at hkept
    split at hkept
    next P hfound =>
      rcases List.mem_append.mp hkept with hnew | hold
      · obtain ⟨key, -, rfl⟩ := by simpa using hnew
        exact Or.inr (by simp only [foundBy, hfound])
      · exact Or.inl hold
    next => exact Or.inl hkept
  | toAffine of => exact Or.inl h
  | contains x y => exact Or.inl h
  | change of field => exact Or.inl h

variable [Fact C.p.toNat.Prime]

/-- From proper points every construction that takes no coordinates on trust finds a proper one. -/
theorem proper_of_construct (h3 : 3 < C.p) (hG : C.Contains C.gx C.gy) {store : PointStore C}
    (hstore : store.IsProper) {how : Construction} (hhow : how.IsChecked) {P : Point C}
    (h : store.construct how = .ok (some P)) : P.IsProper := by
  cases how with
  | coordinates x y z => exact absurd hhow id
  | generator =>
    cases h
    exact Or.inr (Point.isFinite_affine hG)
  | infinity =>
    cases h
    exact Point.isProper_infinity
  | ofAffine x y =>
    rw [construct, Except.ok.injEq, Point.ofAffine?, Option.ite_none_right_eq_some] at h
    obtain ⟨hc, h⟩ := h
    cases h
    exact Or.inr (Point.isFinite_affine hc)
  | liftX x odd =>
    obtain ⟨y, rfl, hc, -⟩ := Curve.contains_of_liftX h
    exact Or.inr (Point.isFinite_affine hc)
  | double of =>
    obtain ⟨Q, hQ, h⟩ := bind_eq_ok_iff.mp h
    obtain ⟨R, hR, h⟩ := map_eq_ok_iff.mp h
    cases h
    exact (Point.double_proper h3 (proper_of_find hstore hQ)).proper_of_eq hR
  | add of other =>
    obtain ⟨Q, hQ, h⟩ := bind_eq_ok_iff.mp h
    obtain ⟨T, hT, h⟩ := bind_eq_ok_iff.mp h
    obtain ⟨R, hR, h⟩ := map_eq_ok_iff.mp h
    cases h
    have hadd := Point.add_proper h3 (proper_of_find hstore hQ) (proper_of_find hstore hT)
    exact hadd.proper_of_eq hR
  | scalarMult of k =>
    obtain ⟨Q, hQ, h⟩ := bind_eq_ok_iff.mp h
    obtain ⟨R, hR, h⟩ := map_eq_ok_iff.mp h
    cases h
    exact Point.proper_of_scalarMult h3 (proper_of_find hstore hQ) hR
  | normalize of =>
    obtain ⟨Q, hQ, h⟩ := bind_eq_ok_iff.mp h
    obtain ⟨R, hR, h⟩ := map_eq_ok_iff.mp h
    cases h
    exact (Point.normalize_proper (proper_of_find hstore hQ)).proper_of_eq hR

/-- What a step finds is proper. -/
theorem foundBy_proper (h3 : 3 < C.p) (hG : C.Contains C.gx C.gy) {store : PointStore C}
    (hstore : store.IsProper) {s : PointStep} (hs : s.IsChecked) {P : Point C}
    (h : store.foundBy s = some P) : P.IsProper := by
  cases s with
  | obtain name how =>
    unfold foundBy at h
    dsimp only at h
    split at h
    next found hfound =>
      rw [h] at hfound
      exact proper_of_construct h3 hG hstore hs hfound
    next => cases h
  | toAffine of => cases h
  | contains x y => cases h
  | change of field => cases h

theorem step_proper (h3 : 3 < C.p) (hG : C.Contains C.gx C.gy) {store : PointStore C}
    (hstore : store.IsProper) {s : PointStep} (hs : s.IsChecked) : (store.step s).1.IsProper := by
  intro entry hentry
  rcases kept_or_found hentry with hold | hnew
  · exact hstore entry hold
  · exact foundBy_proper h3 hG hstore hs hnew

/-- By induction on the run; what is kept is proper before every step. -/
theorem found_proper (h3 : 3 < C.p) (hG : C.Contains C.gx C.gy) {store : PointStore C}
    (hstore : store.IsProper) {steps : List PointStep} (hsteps : ∀ s ∈ steps, s.IsChecked)
    {P : Point C} (hP : P ∈ store.found steps) : P.IsProper := by
  induction steps generalizing store with
  | nil => cases hP
  | cons s rest ih =>
    have hs := hsteps s (List.mem_cons_self ..)
    rcases List.mem_append.mp hP with hhead | hrest
    · exact foundBy_proper h3 hG hstore hs (Option.mem_toList.mp hhead)
    · exact ih (step_proper h3 hG hstore hs) (fun t ht => hsteps t (List.mem_cons_of_mem _ ht)) hrest

/-- **Runs of constructions stay on the curve.** Over a prime field above three, with a base point on
the curve, every point that a run finds is infinity in its own coordinates, or reduced, with a
denominator that is not zero, and a solution of the equation. Infinity alone has no affine coordinates;
those of any other point lie on the curve. -/
theorem found_onCurve (h3 : 3 < C.p) (hG : C.Contains C.gx C.gy) {steps : List PointStep}
    (hsteps : ∀ s ∈ steps, s.IsChecked) {P : Point C} (hP : P ∈ found [] steps) :
    (P = ⟨0, 1, 0⟩ ∨ P.IsFinite) ∧
      ((P = ⟨0, 1, 0⟩ ∧ P.toAffine = .ok none) ∨
        (P ≠ ⟨0, 1, 0⟩ ∧ ∃ x y, P.toAffine = .ok (some (x, y)) ∧ C.Contains x y)) := by
  have hproper : P.IsProper := found_proper h3 hG (fun _ h => absurd h List.not_mem_nil) hsteps hP
  exact ⟨hproper, Point.toAffine_proper hproper⟩

/-- The curve y² = x³ modulo 7. It is singular at the origin. -/
def cusp : Curve where
  p := 7
  n := 0
  a := 0
  b := 0
  gx := 1
  gy := 1

/-- Obtains the double of the base point, the singular point, and the sum of the two. -/
def cuspSteps : List PointStep :=
  [.obtain (some "base") .generator, .obtain (some "double") (.double "base"),
    .obtain (some "origin") (.liftX 0 false), .obtain none (.add "double" "origin")]

/-- On a singular curve: what is added to the singular point ends at it. -/
theorem found_onCurve_cusp :
    (⟨0, 0, 3⟩ : Point cusp) ∈ found [] cuspSteps ∧
      ∃ x y, (⟨0, 0, 3⟩ : Point cusp).toAffine = .ok (some (x, y)) ∧ cusp.Contains x y := by
  have : Fact cusp.p.toNat.Prime := ⟨show Nat.Prime 7 by norm_num⟩
  have hmem : (⟨0, 0, 3⟩ : Point cusp) ∈ found [] cuspSteps := by decide +kernel
  have hsteps : ∀ s ∈ cuspSteps, s.IsChecked := by
    simp [cuspSteps, PointStep.IsChecked, Construction.IsChecked]
  obtain ⟨-, hinf | hfin⟩ := found_onCurve (C := cusp) (by decide) (by decide) hsteps hmem
  · exact absurd hinf.1 (by decide)
  · exact ⟨hmem, hfin.2⟩

end PointStore

end Ecdsa
