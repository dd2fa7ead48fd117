import Mathlib
import Ecdsa.Proofs.Outcome
import Ecdsa.Proofs.Curve.Inverse
import Ecdsa.Proofs.Curve.Table

/-!
# Tables for parameters that nothing is known of

A table can be built, and read, for any parameters with a modulus other than zero: the modulus may be
composite or negative, the order zero or negative, the base point off the curve. None of the laws of
addition holds then, and this module uses none. What is left is arithmetic: a residue is in range
whatever was reduced, and a denominator without an inverse is turned into infinity. So every operation
ends (`add_total`, `normalize_total`), and every row has a normal point at every place
(`rowsFrom_total`).

Reading a multiple off a table is a sequence of lookups (`lookups`, `addDigits_eq_addEntries`). Each one
is at a digit, and a row has a place for every digit (`lt_length_of_mem_lookups`), for the digits of a
negative number too, which never run out.
-/

namespace Ecdsa

namespace Point

variable {C : Curve}

/-- Infinity in its own coordinates, or residues over denominator one. -/
def IsNormal (P : Point C) : Prop :=
  P = infinity ∨ ∃ x y, P = affine x y ∧ (0 ≤ x ∧ x < C.p) ∧ (0 ≤ y ∧ y < C.p)

/-- All three coordinates are residues of a positive modulus. -/
structure InRange (P : Point C) : Prop where
  x_range : 0 ≤ P.x ∧ P.x < C.p
  y_range : 0 ≤ P.y ∧ P.y < C.p
  z_range : 0 ≤ P.z ∧ P.z < C.p

theorem inRange_infinity (h1 : 1 < C.p) : (infinity : Point C).InRange := by
  have hpos : 0 < C.p := by omega
  exact ⟨⟨le_rfl, hpos⟩, ⟨zero_le_one, h1⟩, ⟨le_rfl, hpos⟩⟩

theorem IsNormal.inRange (h1 : 1 < C.p) {P : Point C} (hP : P.IsNormal) : P.InRange := by
  rcases hP with rfl | ⟨x, y, rfl, hx, hy⟩
  · exact inRange_infinity h1
  · exact ⟨hx, hy, zero_le_one, h1⟩

/-! ## The operations -/

theorem double_total (hp : C.p ≠ 0) (P : Point C) :
    ∃ R, P.double = .ok R ∧ (1 < C.p → R.InRange) := by
  cases double_cases hp P with
  | vanishes _ hR => exact ⟨_, hR, inRange_infinity⟩
  | tangent _ _ hR =>
    refine ⟨_, hR, ?_⟩
    intro h1
    have hpos : 0 < C.p := by omega
    exact ⟨Curve.reduce_range hpos _, Curve.reduce_range hpos _, Curve.reduce_range hpos _⟩

theorem add_total (hp : C.p ≠ 0) (P Q : Point C) :
    ∃ R, P.add Q = .ok R ∧ (1 < C.p → P.InRange → Q.InRange → R.InRange) := by
  cases add_cases hp P Q with
  | leftInfinite _ hR => exact ⟨_, hR, fun _ _ hQ => hQ⟩
  | rightInfinite _ hR => exact ⟨_, hR, fun _ hP _ => hP⟩
  | equal _ _ _ _ hR =>
    obtain ⟨D, hD, hDr⟩ := double_total hp P
    exact ⟨D, hR.trans hD, fun h1 _ _ => hDr h1⟩
  | opposite _ _ _ _ hR => exact ⟨_, hR, fun h1 _ _ => inRange_infinity h1⟩
  | chord _ _ _ hR =>
    refine ⟨_, hR, ?_⟩
    intro h1 _ _
    have hpos : 0 < C.p := by omega
    exact ⟨Curve.reduce_range hpos _, Curve.reduce_range hpos _, Curve.reduce_range hpos _⟩

/-- There is an inverse only modulo a positive number, and what is reduced then is in range. -/
theorem toAffine_total (hp : C.p ≠ 0) (P : Point C) :
    ∃ u, P.toAffine = .ok u ∧
      ∀ x y, u = some (x, y) → (0 ≤ x ∧ x < C.p) ∧ (0 ≤ y ∧ y < C.p) := by
  unfold toAffine
  split
  next => exact ⟨none, rfl, fun x y h => absurd h nofun⟩
  rw [inverse?_eq P.z hp, ok_bind]
  split
  next => exact ⟨none, rfl, fun x y h => absurd h nofun⟩
  next w hw =>
    refine ⟨_, rfl, ?_⟩
    intro x y h
    cases h
    have hpos : 0 < C.p := by
      split at hw
      next hinv => exact hinv.2.1
      next => cases hw
    exact ⟨Curve.reduce_range hpos _, Curve.reduce_range hpos _⟩

theorem normalize_total (hp : C.p ≠ 0) (P : Point C) :
    ∃ R, P.normalize = .ok R ∧ R.IsNormal := by
  obtain ⟨u, hu, hrange⟩ := toAffine_total hp P
  cases u with
  | none => exact ⟨infinity, normalize_of_none hu, Or.inl rfl⟩
  | some xy =>
    exact ⟨affine xy.1 xy.2, normalize_of_some hu, Or.inr ⟨_, _, rfl, hrange xy.1 xy.2 rfl⟩⟩

end Point

namespace GeneratorTable

variable {C : Curve}

/-! ## Building -/

/-- A place for every digit, infinity at the first of them, and a normal point at each. -/
structure IsRow (width : ℕ) (row : List (Point C)) : Prop where
  length_eq : row.length = digitCount width
  first : row[0]? = some Point.infinity
  normal : ∀ P ∈ row, P.IsNormal

theorem progression_total (hp : C.p ≠ 0) (base : Point C) (count : ℕ) {first : Point C}
    (hfirst : first.IsNormal) :
    ∃ row last, progression base count first = .ok (row, last) ∧ row.length = count ∧
      (0 < count → row[0]? = some first) ∧ ∀ P ∈ row, P.IsNormal := by
  induction count generalizing first with
  | zero => exact ⟨[], first, rfl, rfl, by simp, by simp⟩
  | succ count ih =>
    obtain ⟨S, hS, -⟩ := Point.add_total hp first base
    obtain ⟨next, hnext, hnormal⟩ := Point.normalize_total hp S
    obtain ⟨row, last, hrow, hlen, -, hrest⟩ := ih hnormal
    refine ⟨first :: row, last, progression_succ hS hnext hrow, by simp [hlen], by simp, ?_⟩
    intro P hP
    rcases List.mem_cons.mp hP with rfl | hmem
    · exact hfirst
    · exact hrest P hmem

/-- The base of a row may be any point: it is only ever added, and the sum normalized. -/
theorem rowsFrom_total (hp : C.p ≠ 0) (width count : ℕ) (base : Point C) :
    ∃ rows, rowsFrom width count base = .ok rows ∧ rows.length = count ∧
      ∀ row ∈ rows, IsRow width row := by
  induction count generalizing base with
  | zero => exact ⟨[], rfl, rfl, by simp⟩
  | succ count ih =>
    obtain ⟨row, last, hrow, hlen, hhead, hnormal⟩ :=
      progression_total hp base (digitCount width) (Or.inl rfl)
    obtain ⟨rest, hrest, hrestlen, hrows⟩ := ih last
    refine ⟨row :: rest, rowsFrom_succ hrow hrest, by simp [hrestlen], ?_⟩
    intro r hr
    rcases List.mem_cons.mp hr with rfl | hmem
    · exact ⟨hlen, hhead (digitCount_pos width), hnormal⟩
    · exact hrows r hmem

/-! ## Reading -/

/-- The lookups that adding up the digits of a number makes, in order: the row and the digit of each. -/
def lookups (width : ℕ) : List (List (Point C)) → ℤ → List (List (Point C) × ℕ)
  | [], _ => []
  | row :: rest, k =>
    if k = 0 then []
    else if (k % digitCount width).toNat = 0 then lookups width rest (k / digitCount width)
    else (row, (k % digitCount width).toNat) :: lookups width rest (k / digitCount width)

/-- Adds the entries that are looked up to a sum. -/
def addEntries (sum : Point C) (places : List (List (Point C) × ℕ)) : Except Fault (Point C) :=
  places.foldlM (fun sum place => (entry place.1 place.2).bind sum.add) sum

/-- Adding up the digits of a number is adding the entries of its lookups, and nothing else. -/
theorem addDigits_eq_addEntries (width : ℕ) (rows : List (List (Point C))) (k : ℤ)
    (sum : Point C) : addDigits width rows k sum = addEntries sum (lookups width rows k) := by
  induction rows generalizing k sum with
  | nil => rfl
  | cons row rest ih =>
    by_cases hk : k = 0
    · rw [addDigits, lookups, if_pos hk, if_pos hk]
      rfl
    · rw [addDigits_cons width row rest hk, lookups, if_neg hk]
      split
      next => exact ih _ _
      next =>
        rw [addEntries, List.foldlM_cons]
        exact congrArg _ (funext fun S => ih _ S)

/-- A digit is a place of its row, whatever the sign of the number. -/
theorem lt_length_of_mem_lookups {width : ℕ} {rows : List (List (Point C))}
    (hrows : ∀ row ∈ rows, row.length = digitCount width) {k : ℤ} {place : List (Point C) × ℕ}
    (h : place ∈ lookups width rows k) : place.1 ∈ rows ∧ place.2 < place.1.length := by
  induction rows generalizing k with
  | nil => cases h
  | cons row rest ih =>
    have hrest (hmem : place ∈ lookups width rest (k / digitCount width)) :
        place.1 ∈ row :: rest ∧ place.2 < place.1.length := by
      obtain ⟨hin, hlt⟩ := ih (fun r hr => hrows r (List.mem_cons_of_mem _ hr)) hmem
      exact ⟨List.mem_cons_of_mem _ hin, hlt⟩
    unfold lookups at h
    split at h
    next => cases h
    split at h
    next => exact hrest h
    next =>
      rcases List.mem_cons.mp h with rfl | hmem
      · have hpos : (0 : ℤ) < digitCount width := by exact_mod_cast digitCount_pos width
        have hlt := Int.emod_lt_of_pos k hpos
        refine ⟨List.mem_cons_self .., ?_⟩
        rw [hrows row (List.mem_cons_self ..)]
        omega
      · exact hrest hmem

/-- Entries at places within normal rows can be added up. -/
theorem addEntries_total (hp : C.p ≠ 0) {places : List (List (Point C) × ℕ)}
    (hplaces : ∀ place ∈ places, place.2 < place.1.length ∧ ∀ P ∈ place.1, P.IsNormal)
    (sum : Point C) :
    ∃ R, addEntries sum places = .ok R ∧ (1 < C.p → sum.InRange → R.InRange) := by
  induction places generalizing sum with
  | nil => exact ⟨sum, rfl, fun _ h => h⟩
  | cons place rest ih =>
    obtain ⟨hlt, hnormal⟩ := hplaces place (List.mem_cons_self ..)
    have hentry : entry place.1 place.2 = .ok place.1[place.2] := by
      rw [entry, List.getElem?_eq_getElem hlt]
    obtain ⟨S, hS, hSr⟩ := Point.add_total hp sum place.1[place.2]
    obtain ⟨R, hR, hRr⟩ := ih (fun q hq => hplaces q (List.mem_cons_of_mem _ hq)) S
    refine ⟨R, ?_, ?_⟩
    · rw [addEntries, List.foldlM_cons, hentry]
      show (sum.add place.1[place.2] >>= fun S => addEntries S rest) = .ok R
      rw [hS, ok_bind, hR]
    · intro h1 hsum
      exact hRr h1 (hSr h1 hsum ((hnormal _ (List.getElem_mem hlt)).inRange h1))

/-- **Building and reading a table is safe for any parameters with a modulus.** A table has a row for
every window up to the length of the order, and each row a place for every digit, with infinity at the
first and a normal point at every place. For an order other than zero a multiple can be read off for
every number: the entries of its lookups are added up, each lookup is within its row, and modulo a
number above one all coordinates of the sum are residues. -/
theorem build_unchecked (hp : C.p ≠ 0) {width : ℤ} (hw : 1 ≤ width) :
    ∃ T, build C width = .ok T ∧
      T.rows.length = C.n.natAbs.size ⌈/⌉ width.toNat ∧
      (∀ row ∈ T.rows, row.length = 2 ^ width.toNat ∧ row[0]? = some ⟨0, 1, 0⟩ ∧
        ∀ P ∈ row, P = ⟨0, 1, 0⟩ ∨
          ∃ x y, P = ⟨x, y, 1⟩ ∧ (0 ≤ x ∧ x < C.p) ∧ (0 ≤ y ∧ y < C.p)) ∧
      (C.n ≠ 0 → ∀ k,
        T.mulGenerator k =
          addEntries Point.infinity (lookups T.width T.rows (k.fmod C.n)) ∧
        (∀ place ∈ lookups T.width T.rows (k.fmod C.n),
          place.1 ∈ T.rows ∧ place.2 < place.1.length) ∧
        ∃ R, T.mulGenerator k = .ok R ∧ (1 < C.p → R.InRange)) := by
  obtain ⟨rows, hrows, hlen, hrow⟩ :=
    rowsFrom_total hp width.toNat (windows C width.toNat) (Point.generator C)
  refine ⟨⟨width.toNat, rows⟩, build_of_rowsFrom hw hrows, hlen.trans (windows_eq_ceilDiv _), ?_, ?_⟩
  · intro row hmem
    exact ⟨(hrow row hmem).length_eq.trans (digitCount_eq _), (hrow row hmem).first,
      (hrow row hmem).normal⟩
  · intro hn k
    have hread : mulGenerator ⟨width.toNat, rows⟩ k =
        addEntries Point.infinity (lookups width.toNat rows (k.fmod C.n)) := by
      rw [mulGenerator, if_neg hn, addDigits_eq_addEntries]
    have hplaces : ∀ place ∈ lookups width.toNat rows (k.fmod C.n),
        place.1 ∈ rows ∧ place.2 < place.1.length :=
      fun _ h => lt_length_of_mem_lookups (fun row hmem => (hrow row hmem).length_eq) h
    obtain ⟨R, hR, hRr⟩ := addEntries_total hp
      (fun place h => ⟨(hplaces place h).2, (hrow _ (hplaces place h).1).normal⟩) Point.infinity
    exact ⟨hread, hplaces, R, hread.trans hR, fun h1 => hRr h1 (Point.inRange_infinity h1)⟩

/-- For a composite modulus, an order below zero and a base point off the curve. The factor is reduced
to a number below zero, whose digits never run out. -/
theorem build_unchecked_composite : ∃ T, build ⟨15, -40, 2, 3, 4, 5⟩ 3 = .ok T ∧
    T.rows.length = 2 ∧ ∃ R, T.mulGenerator (-7) = .ok R ∧ R.InRange := by
  obtain ⟨T, hT, hlen, -, hread⟩ := build_unchecked (C := ⟨15, -40, 2, 3, 4, 5⟩)
    (show (15 : ℤ) ≠ 0 by decide) (show (1 : ℤ) ≤ 3 by decide)
  obtain ⟨-, -, R, hR, hrange⟩ := hread (show (-40 : ℤ) ≠ 0 by decide) (-7)
  refine ⟨T, hT, ?_, R, hR, hrange (show (1 : ℤ) < 15 by decide)⟩
  rw [hlen]
  decide

end GeneratorTable

end Ecdsa
