import Mathlib
import Ecdsa.Curve.GeneratorTable
import Ecdsa.Proofs.Outcome
import Ecdsa.Proofs.Curve.Multiples

/-!
# The table of generator multiples

`Tabulates` says what rows hold: place `j` of the first row the point `j • A`, and the rows after it
the same for the multiple of `A` that one more place would be. `rowsFrom_spec` shows that the rows
that are built do so, `addDigits_spec` that adding up the entries for the digits of a number gives
that multiple of `A`, whatever the width. A built table has a row for every digit below the order
(`lt_pow_windows`), so `mulGenerator_spec` holds for every factor. Read by row and place, its entries
are the multiples that the two numbers say (`build_entries`).
-/

namespace Ecdsa.GeneratorTable

variable {C : Curve}

theorem digitCount_eq (width : ℕ) : digitCount width = 2 ^ width := by
  rw [digitCount, Nat.one_shiftLeft]

theorem digitCount_pos (width : ℕ) : 0 < digitCount width := by
  rw [digitCount_eq]
  positivity

/-! ## Enough rows -/

theorem bitLength_eq_size (n : ℕ) : bitLength n = n.size := by
  unfold bitLength
  split
  next h => rw [h, Nat.size_zero]
  next h =>
    refine le_antisymm ?_ ?_
    · exact Nat.lt_size.mpr (Nat.log2_self_le h)
    · exact Nat.size_le.mpr Nat.lt_log2_self

theorem windows_eq_ceilDiv (width : ℕ) : windows C width = C.n.natAbs.size ⌈/⌉ width := by
  rw [windows, bitLength_eq_size, Nat.ceilDiv_eq_add_pred_div]

/-- The rows of a table have a digit for every bit of a number up to the order. -/
theorem lt_pow_windows {width : ℕ} (hw : 1 ≤ width) (k : ℕ) (hk : k ≤ C.n.natAbs) :
    k < digitCount width ^ windows C width := by
  have hbits : C.n.natAbs.size ≤ width * windows C width := by
    rw [windows_eq_ceilDiv]
    exact (ceilDiv_le_iff_le_mul hw).mp le_rfl
  rw [digitCount_eq, ← pow_mul]
  calc k ≤ C.n.natAbs := hk
    _ < 2 ^ C.n.natAbs.size := Nat.lt_size_self _
    _ ≤ 2 ^ (width * windows C width) := Nat.pow_le_pow_right (by norm_num) hbits

/-! ## One step of building -/

theorem progression_succ {base first sum next last : Point C} {count : ℕ} {row : List (Point C)}
    (hsum : first.add base = .ok sum) (hnext : sum.normalize = .ok next)
    (hrow : progression base count next = .ok (row, last)) :
    progression base (count + 1) first = .ok (first :: row, last) := by
  rw [progression, hsum, ok_bind, hnext, ok_bind, hrow]
  rfl

theorem rowsFrom_succ {width count : ℕ} {base next : Point C} {row : List (Point C)}
    {rest : List (List (Point C))}
    (hrow : progression base (digitCount width) Point.infinity = .ok (row, next))
    (hrest : rowsFrom width count next = .ok rest) :
    rowsFrom width (count + 1) base = .ok (row :: rest) := by
  rw [rowsFrom, hrow, ok_bind]
  dsimp only
  rw [hrest]
  rfl

theorem build_of_rowsFrom {width : ℤ} (hw : 1 ≤ width) {rows : List (List (Point C))}
    (hrows : rowsFrom width.toNat (windows C width.toNat) (Point.generator C) = .ok rows) :
    build C width = .ok ⟨width.toNat, rows⟩ := by
  rw [build, if_neg (by omega), hrows]
  rfl

variable [C.IsElliptic]

/-! ## What the rows hold -/

/-- Rows of the multiples of a point: the first one counts in steps of the point, and each one after
it in steps of what comes after the last entry of the row before. -/
def Tabulates (width : ℕ) : C.Group → List (List (Point C)) → Prop
  | _, [] => True
  | A, row :: rest =>
    (row.length = digitCount width ∧ ∀ j (hj : j < row.length), row[j] = Point.ofGroup (j • A)) ∧
      Tabulates width (digitCount width • A) rest

/-- A progression that starts at a point in normal form holds its multiples in normal form. -/
theorem progression_spec {base : Point C} (hbase : base.OnCurve) (count : ℕ) (A : C.Group) :
    ∃ row, progression base count (Point.ofGroup A) =
        .ok (row, Point.ofGroup (A + count • base.value)) ∧
      row.length = count ∧
      ∀ j (hj : j < row.length), row[j] = Point.ofGroup (A + j • base.value) := by
  induction count generalizing A with
  | zero => exact ⟨[], by simp [progression], rfl, by simp⟩
  | succ count ih =>
    obtain ⟨next, hnext, hnextc, hnextv⟩ := Point.add_spec (Point.onCurve_ofGroup A) hbase
    rw [Point.value_ofGroup] at hnextv
    obtain ⟨rest, hrest, hlen, hentries⟩ := ih (A + base.value)
    have hnormal := Point.normalize_eq hnextc
    rw [hnextv] at hnormal
    refine ⟨Point.ofGroup A :: rest, ?_, by simp [hlen], ?_⟩
    · rw [succ_nsmul', ← add_assoc]
      exact progression_succ hnext hnormal hrest
    · intro j hj
      cases j with
      | zero => simp
      | succ j =>
        rw [List.getElem_cons_succ, hentries j (by simpa using hj), succ_nsmul', add_assoc]

/-- Row `i` counts in steps of the point times the digits of the rows before it. -/
theorem Tabulates.getElem {width : ℕ} {A : C.Group} {rows : List (List (Point C))}
    (h : Tabulates width A rows) {i j : ℕ} (hi : i < rows.length) (hj : j < rows[i].length) :
    rows[i][j] = Point.ofGroup ((j * digitCount width ^ i) • A) := by
  induction rows generalizing A i with
  | nil => exact absurd hi (Nat.not_lt_zero i)
  | cons row rest ih =>
    cases i with
    | zero => simpa using h.1.2 j hj
    | succ i =>
      have hrest := ih h.2 (Nat.lt_of_succ_lt_succ hi) hj
      rw [← mul_nsmul', mul_assoc, ← pow_succ] at hrest
      exact hrest

theorem Tabulates.length_eq {width : ℕ} {A : C.Group} {rows : List (List (Point C))}
    (h : Tabulates width A rows) {row : List (Point C)} (hrow : row ∈ rows) :
    row.length = digitCount width := by
  induction rows generalizing A with
  | nil => exact absurd hrow List.not_mem_nil
  | cons first rest ih =>
    rcases List.mem_cons.mp hrow with rfl | hrest
    · exact h.1.1
    · exact ih h.2 hrest

/-- The rows that are built hold the multiples that they stand for. -/
theorem rowsFrom_spec (width count : ℕ) {base : Point C} (hbase : base.OnCurve) :
    ∃ rows, rowsFrom width count base = .ok rows ∧ rows.length = count ∧
      Tabulates width base.value rows := by
  induction count generalizing base with
  | zero => exact ⟨[], rfl, rfl, trivial⟩
  | succ count ih =>
    obtain ⟨row, hrow, hlen, hentries⟩ := progression_spec hbase (digitCount width) 0
    simp only [zero_add] at hrow hentries
    obtain ⟨rest, hrest, hrestlen, htab⟩ :=
      ih (Point.onCurve_ofGroup (digitCount width • base.value))
    rw [Point.value_ofGroup] at htab
    exact ⟨row :: rest, rowsFrom_succ hrow hrest, by simp [hrestlen], ⟨hlen, hentries⟩, htab⟩

/-! ## Adding up digits -/

theorem entry_spec {width : ℕ} {A : C.Group} {row : List (Point C)} {rest : List (List (Point C))}
    (h : Tabulates width A (row :: rest)) {digit : ℕ} (hd : digit < digitCount width) :
    entry row digit = .ok (Point.ofGroup (digit • A)) := by
  have hlt : digit < row.length := by rw [h.1.1]; exact hd
  rw [entry, List.getElem?_eq_getElem hlt, h.1.2 digit hlt]

omit [C.IsElliptic] in
/-- One row takes one digit of the factor; a zero digit adds nothing. -/
theorem addDigits_cons (width : ℕ) (row : List (Point C)) (rest : List (List (Point C))) {k : ℤ}
    (hk : k ≠ 0) (sum : Point C) :
    addDigits width (row :: rest) k sum =
      (if (k % digitCount width).toNat = 0 then pure sum
        else (entry row (k % digitCount width).toNat).bind sum.add).bind
          (addDigits width rest (k / digitCount width)) := by
  rw [addDigits, if_neg hk]
  dsimp only
  split
  · rfl
  · cases entry row (k % digitCount width).toNat <;> rfl

theorem addDigit_spec {width : ℕ} {A : C.Group} {row : List (Point C)}
    {rest : List (List (Point C))} (h : Tabulates width A (row :: rest)) {digit : ℕ}
    (hd : digit < digitCount width) {sum : Point C} (hsum : sum.OnCurve) :
    Point.StandsFor (if digit = 0 then pure sum else (entry row digit).bind sum.add)
      (sum.value + digit • A) := by
  by_cases hzero : digit = 0
  · rw [if_pos hzero, hzero, zero_nsmul, add_zero]
    exact hsum.standsFor
  · have hadd := Point.add_spec hsum (Point.onCurve_ofGroup (digit • A))
    rw [Point.value_ofGroup] at hadd
    rw [if_neg hzero, entry_spec h hd]
    exact hadd

/-- The entries for the digits of a number add up to that multiple, if there are rows enough. -/
theorem addDigits_spec {width : ℕ} {rows : List (List (Point C))} {A : C.Group}
    (h : Tabulates width A rows) {k : ℕ} (hk : k < digitCount width ^ rows.length)
    {sum : Point C} (hsum : sum.OnCurve) :
    Point.StandsFor (addDigits width rows k sum) (sum.value + k • A) := by
  induction rows generalizing A k sum with
  | nil =>
    have hk0 : k = 0 := by simpa using hk
    rw [addDigits, hk0, zero_nsmul, add_zero]
    exact hsum.standsFor
  | cons row rest ih =>
    by_cases hk0 : k = 0
    · rw [addDigits, if_pos (by exact_mod_cast hk0), hk0, zero_nsmul, add_zero]
      exact hsum.standsFor
    · have hd := Nat.mod_lt k (digitCount_pos width)
      have hrest : k / digitCount width < digitCount width ^ rest.length := by
        rw [List.length_cons, pow_succ] at hk
        exact Nat.div_lt_of_lt_mul (by rwa [mul_comm])
      rw [addDigits_cons width row rest (by exact_mod_cast hk0), ← Int.natCast_mod,
        ← Int.natCast_div, Int.toNat_natCast]
      refine (addDigit_spec h hd hsum).bind ?_
      intro S hS hSv
      -- the rows after the first count in steps of the multiple that one more digit would be
      have hdigits := ih h.2 hrest hS
      rwa [hSv, ← mul_nsmul', add_assoc, ← add_nsmul, mul_comm, Nat.mod_add_div] at hdigits

/-! ## Built tables -/

/-- A table of the multiples of the base point that covers every factor below the order. -/
structure IsTable (T : GeneratorTable C) : Prop where
  tabulates : Tabulates T.width C.base T.rows
  covers : ∀ k ≤ C.n.natAbs, k < digitCount T.width ^ T.rows.length

/-- For windows of at least one bit a table is built, with a row for each window. -/
theorem build_rows (hG : C.Contains C.gx C.gy) {width : ℤ} (hw : 1 ≤ width) :
    ∃ rows, build C width = .ok ⟨width.toNat, rows⟩ ∧ rows.length = windows C width.toNat ∧
      Tabulates width.toNat C.base rows := by
  obtain ⟨rows, hrows, hlen, htab⟩ :=
    rowsFrom_spec width.toNat (windows C width.toNat) (Point.onCurve_generator hG)
  exact ⟨rows, build_of_rowsFrom hw hrows, hlen, htab⟩

/-- What is built is a table of generator multiples. -/
theorem build_spec (hG : C.Contains C.gx C.gy) {width : ℤ} (hw : 1 ≤ width) :
    ∃ T, build C width = .ok T ∧ T.IsTable := by
  obtain ⟨rows, hT, hlen, htab⟩ := build_rows hG hw
  refine ⟨_, hT, htab, ?_⟩
  intro k hk
  show k < digitCount width.toNat ^ rows.length
  rw [hlen]
  exact lt_pow_windows (by omega) k hk

/-- A multiple read off the table is the multiple in the group, the factor taken modulo the order. -/
theorem mulGenerator_spec {T : GeneratorTable C} (hT : T.IsTable) (hn : 1 ≤ C.n) (k : ℤ) :
    Point.StandsFor (T.mulGenerator k) ((k % C.n) • C.base) := by
  have hmod := Int.emod_nonneg k (show C.n ≠ 0 by omega)
  have hlt := Int.emod_lt_of_pos k (show 0 < C.n by omega)
  have hdigits := addDigits_spec hT.tabulates (hT.covers (k % C.n).toNat (by omega))
    Point.onCurve_infinity
  rw [Point.value_infinity, zero_add, ← natCast_zsmul, Int.toNat_of_nonneg hmod] at hdigits
  rw [mulGenerator, if_neg (by omega), Int.fmod_eq_emod_of_nonneg _ (by omega)]
  exact hdigits

theorem mul_spec (T : GeneratorTable C) (hn : 1 ≤ C.n) {P : Point C} (hP : P.OnCurve) (k : ℤ) :
    Point.StandsFor (T.mul P k) ((k % C.n) • P.value) := by
  rw [mul, if_neg (by omega), Int.fmod_eq_emod_of_nonneg _ (by omega)]
  exact Point.scalarMult_spec hP (Int.emod_nonneg k (by omega))

/-- The sum of a multiple of the base point and a multiple of another point. -/
theorem addTwoMul_spec {T : GeneratorTable C} (hT : T.IsTable) (hn : 1 ≤ C.n) (u v : ℤ)
    {P : Point C} (hP : P.OnCurve) :
    Point.StandsFor (T.addTwoMul u v P) ((u % C.n) • C.base + (v % C.n) • P.value) :=
  (mulGenerator_spec hT hn u).add (mul_spec T hn hP v)

/-! ## Entries -/

omit [C.IsElliptic] in
theorem place?_natCast {length i : ℕ} (h : i < length) : place? length i = some i := by
  have hnonneg : ¬(i : ℤ) < 0 := by omega
  simp [place?, hnonneg, h]

omit [C.IsElliptic] in
theorem entryAt_natCast (T : GeneratorTable C) {i j : ℕ} (hi : i < T.rows.length)
    (hj : j < T.rows[i].length) : T.entryAt i j = .ok T.rows[i][j] := by
  simp [entryAt, place?_natCast hi, place?_natCast hj, entry, hi, hj]

/-- **An entry is the multiple of the base point that its place says.** Row `i` holds at place `j` the
multiple by `j · 2^(width · i)`: infinity in its own coordinates, or the affine coordinates over
denominator one. There is a row for every window up to the length of the order, whatever the sign of
the order, and each row has a place for every digit. -/
theorem build_entries (hG : C.Contains C.gx C.gy) {width : ℤ} (hw : 1 ≤ width) :
    ∃ T, build C width = .ok T ∧
      T.rows.length = C.n.natAbs.size ⌈/⌉ width.toNat ∧
      (∀ row ∈ T.rows, row.length = 2 ^ width.toNat) ∧
      ∀ i j : ℕ, i < T.rows.length → j < 2 ^ width.toNat →
        ((j * 2 ^ (width.toNat * i)) • C.base = 0 ∧ T.entryAt i j = .ok ⟨0, 1, 0⟩) ∨
          ∃ x y, Curve.coordinates? ((j * 2 ^ (width.toNat * i)) • C.base) = some (x, y) ∧
            C.Contains x y ∧ T.entryAt i j = .ok ⟨x, y, 1⟩ := by
  obtain ⟨rows, hT, hlen, htab⟩ := build_rows hG hw
  refine ⟨⟨width.toNat, rows⟩, hT, hlen.trans (windows_eq_ceilDiv _), ?_, ?_⟩
  · intro row hrow
    rw [← digitCount_eq]
    exact htab.length_eq hrow
  · intro i j hi hj
    have hj' : j < rows[i].length := by
      rw [htab.length_eq (List.getElem_mem hi), digitCount_eq]
      exact hj
    rw [entryAt_natCast ⟨width.toNat, rows⟩ hi hj', htab.getElem hi hj', digitCount_eq, ← pow_mul]
    rcases Point.ofGroup_cases ((j * 2 ^ (width.toNat * i)) • C.base) with
      ⟨hzero, hinf⟩ | ⟨x, y, hxy, hc, haff⟩
    · exact Or.inl ⟨hzero, congrArg Except.ok hinf⟩
    · exact Or.inr ⟨x, y, hxy, hc, congrArg Except.ok haff⟩

/-- On the small curve, for rows of 32 places and a base point of order 31: in the second row, which
counts in steps of 32, the second place is the base point itself and the last place is infinity. -/
theorem small_build_entries : ∃ T, build (Curve.small 1000) 5 = .ok T ∧ T.rows.length = 2 ∧
    T.entryAt 1 1 = .ok ⟨2, 12, 1⟩ ∧ T.entryAt 1 31 = .ok ⟨0, 1, 0⟩ := by
  obtain ⟨T, hT, hlen, -, hentries⟩ :=
    build_entries (Curve.small_contains 1000) (show (1 : ℤ) ≤ 5 by norm_num)
  have hrows : T.rows.length = 2 := by
    rw [hlen]
    decide
  have horder : (31 : ℕ) • (Curve.small 1000).base = 0 := by
    rw [← natCast_zsmul]
    exact Curve.small_base_order 1000
  have hbase : Curve.coordinates? ((32 : ℕ) • (Curve.small 1000).base) = some (2, 12) := by
    rw [← natCast_zsmul]
    exact Point.coordinates?_of_scalarMult (Point.onCurve_generator (Curve.small_contains 1000))
      (by norm_num) (by cbv)
  refine ⟨T, hT, hrows, ?_, ?_⟩
  · rcases hentries 1 1 (by omega) (by decide) with ⟨hzero, -⟩ | ⟨x, y, hxy, -, hentry⟩
    · rw [show 1 * 2 ^ (Int.toNat 5 * 1) = 32 by rfl] at hzero
      rw [hzero] at hbase
      cases hbase
    · rw [show 1 * 2 ^ (Int.toNat 5 * 1) = 32 by rfl, hbase] at hxy
      cases hxy
      exact hentry
  · rcases hentries 1 31 (by omega) (by decide) with ⟨-, hinf⟩ | ⟨x, y, hxy, -⟩
    · exact hinf
    · rw [mul_nsmul, horder, nsmul_zero] at hxy
      cases hxy

end Ecdsa.GeneratorTable
