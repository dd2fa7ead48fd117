import Mathlib
import Ecdsa.Word
import Ecdsa.Proofs.Outcome
import Ecdsa.Proofs.Radix

/-!
# Bytes and numbers

A byte string is what is written at its own length for its number (`ofNat_toNat`), and also what is
written without a width if it does not start with a zero byte (`minimal_toNat`); a number that fits
is read back (`toNat_ofNat`, `toNat_minimal`). Words are the case of 32 bytes: `Word.write_eq_ok_iff`
says what is written, `Word.write_eq_error_iff` that a number is refused only if it has no word, and
`Word.read_append` what is read in the middle of other bytes.
-/

namespace Ecdsa

namespace Bytes

theorem map_toNat_map_ofNat {ds : List ℕ} (h : ∀ d ∈ ds, d < 256) :
    (ds.map UInt8.ofNat).map UInt8.toNat = ds := by
  rw [List.map_map]
  refine (List.map_congr_left fun d hd => ?_).trans (List.map_id ds)
  exact UInt8.toNat_ofNat_of_lt' (h d hd)

theorem map_ofNat_map_toNat (data : Bytes) : (data.map UInt8.toNat).map UInt8.ofNat = data := by
  rw [List.map_map]
  exact (List.map_congr_left fun b _ => UInt8.ofNat_toNat).trans (List.map_id data)

theorem lt_of_mem_map_toNat (data : Bytes) : ∀ d ∈ data.map UInt8.toNat, d < 256 := by
  rw [List.forall_mem_map]
  exact fun b _ => b.toNat_lt

/-- So many bytes stand for a number below that power of 256. -/
theorem toNat_lt (data : Bytes) : toNat data < 256 ^ data.length := by
  have h := Radix.value_lt (by omega) (lt_of_mem_map_toNat data)
  rwa [List.length_map] at h

/-- Reading gives back the remainder that was written. -/
theorem toNat_ofNat (width n : ℕ) : toNat (ofNat width n) = n % 256 ^ width := by
  rw [toNat, ofNat, map_toNat_map_ofNat (Radix.lt_of_mem_fixedDigits (by omega) width n),
    Radix.value_fixedDigits]

/-- Bytes are what is written for their number at their own length. -/
theorem ofNat_toNat (data : Bytes) : ofNat data.length (toNat data) = data := by
  have h := Radix.fixedDigits_value (lt_of_mem_map_toNat data)
  rw [List.length_map] at h
  rw [ofNat, toNat, h, map_ofNat_map_toNat]

/-- Bytes of one length that stand for the same number are the same. -/
theorem eq_of_toNat_eq {a b : Bytes} (hlen : a.length = b.length) (h : toNat a = toNat b) :
    a = b := by
  rw [← ofNat_toNat a, ← ofNat_toNat b, hlen, h]

theorem toNat_replicate_zero_append (k : ℕ) (data : Bytes) :
    toNat (List.replicate k 0 ++ data) = toNat data := by
  rw [toNat, List.map_append, List.map_replicate]
  exact Radix.value_replicate_zero_append 256 k _

theorem toNat_minimal (n : ℕ) : toNat (minimal n) = n := by
  have hbase : 1 < 256 := by omega
  rw [toNat, minimal, map_toNat_map_ofNat (Radix.lt_of_mem_digits hbase n),
    Radix.value_digits hbase]

theorem head?_map_toNat {data : Bytes} (h : data.head? ≠ some 0) :
    (data.map UInt8.toNat).head? ≠ some 0 := by
  cases data with
  | nil => simp
  | cons b rest =>
    simp only [List.head?_cons, List.map_cons, ne_eq, Option.some.injEq] at h ⊢
    intro h0
    exact h (UInt8.toNat_inj.mp h0)

/-- Bytes that do not start with a zero are what is written for their number. -/
theorem minimal_toNat {data : Bytes} (h : data.head? ≠ some 0) : minimal (toNat data) = data := by
  rw [minimal, toNat, Radix.digits_value (by omega) (lt_of_mem_map_toNat data) (head?_map_toNat h),
    map_ofNat_map_toNat]

theorem head?_minimal (n : ℕ) : (minimal n).head? ≠ some 0 := by
  intro h
  have hbase : 1 < 256 := by omega
  apply Radix.head?_digits hbase n
  rw [← map_toNat_map_ofNat (Radix.lt_of_mem_digits hbase n), ← minimal, List.head?_map, h]
  rfl

end Bytes

namespace Word

/-- Whether bytes are the word of a number: there are 32, and they stand for it. -/
def Spells (data : Bytes) (v : ℤ) : Prop :=
  data.length = 32 ∧ (Bytes.toNat data : ℤ) = v

theorem Spells.range {data : Bytes} {v : ℤ} (h : Spells data v) : 0 ≤ v ∧ v < count := by
  obtain ⟨hlen, rfl⟩ := h
  have hlt := Bytes.toNat_lt data
  rw [hlen] at hlt
  exact ⟨Int.natCast_nonneg _, by exact_mod_cast hlt⟩

theorem Spells.unique {a b : Bytes} {v : ℤ} (ha : Spells a v) (hb : Spells b v) : a = b :=
  Bytes.eq_of_toNat_eq (ha.1.trans hb.1.symm) (by exact_mod_cast ha.2.trans hb.2.symm)

theorem spells_ofNat {v : ℤ} (h : 0 ≤ v ∧ v < count) : Spells (Bytes.ofNat 32 v.toNat) v := by
  refine ⟨Bytes.length_ofNat _ _, ?_⟩
  unfold count at h
  rw [Bytes.toNat_ofNat, Nat.mod_eq_of_lt (by omega), Int.toNat_of_nonneg h.1]

/-- A number is written as its word, if it has one. -/
theorem write_eq_ok_iff {v : ℤ} {data : Bytes} : write v = .ok data ↔ Spells data v := by
  refine ⟨?_, ?_⟩
  · intro h
    by_cases hv : 0 ≤ v ∧ v < count
    · rw [write, if_pos hv] at h
      rw [← Except.ok.inj h]
      exact spells_ofNat hv
    · rw [write, if_neg hv] at h
      exact absurd h (by simp)
  · intro h
    rw [write, if_pos h.range, (spells_ofNat h.range).unique h]

/-- Whether a number has a word. -/
def Fits (v : ℤ) : Prop :=
  0 ≤ v ∧ v < 2 ^ 256

theorem fits_iff_lt_count {v : ℤ} : Fits v ↔ 0 ≤ v ∧ v < count := by
  have hcount : (count : ℤ) = 2 ^ 256 := by norm_num [count, Nat.shiftLeft_eq]
  rw [Fits, hcount]

theorem exists_spells_iff {v : ℤ} : (∃ data, Spells data v) ↔ Fits v := by
  rw [fits_iff_lt_count]
  exact ⟨fun ⟨_, h⟩ => h.range, fun h => ⟨_, spells_ofNat h⟩⟩

theorem Spells.fits {data : Bytes} {v : ℤ} (h : Spells data v) : Fits v :=
  exists_spells_iff.mp ⟨data, h⟩

/-- A number is refused exactly if it has no word. -/
theorem write_eq_error_iff {v : ℤ} {fault : Fault} :
    write v = .error fault ↔ fault = .tooWide ∧ ¬Fits v := by
  rw [fits_iff_lt_count]
  unfold write
  split
  next h => simp [h]
  next h => simp [h, eq_comm]

/-- Two numbers are written as their words, if they have them. -/
theorem write_write_eq_ok_iff {v w : ℤ} {data : Bytes} (join : Bytes → Bytes → Bytes) :
    (write v >>= fun a => write w >>= fun b => .ok (join a b)) = .ok data ↔
      ∃ a b, Spells a v ∧ Spells b w ∧ data = join a b := by
  simp only [bind_eq_ok_iff, write_eq_ok_iff, Except.ok.injEq, @eq_comm _ data]
  exact ⟨fun ⟨a, ha, b, hb, h⟩ => ⟨a, b, ha, hb, h⟩,
    fun ⟨a, b, ha, hb, h⟩ => ⟨a, ha, b, hb, h⟩⟩

/-- Two numbers are refused exactly if one of them has no word. -/
theorem write_write_eq_error_iff {v w : ℤ} {fault : Fault} (join : Bytes → Bytes → Bytes) :
    (write v >>= fun a => write w >>= fun b => .ok (join a b)) = .error fault ↔
      fault = .tooWide ∧ ¬(Fits v ∧ Fits w) := by
  simp only [bind_eq_error_iff, write_eq_error_iff, write_eq_ok_iff, reduceCtorEq, and_false,
    exists_false, or_false, exists_and_right, exists_spells_iff]
  tauto

/-- 64 bytes are two words. -/
theorem exists_append {data : Bytes} (h : data.length = 64) :
    ∃ first second, data = first ++ second ∧ first.length = 32 ∧ second.length = 32 :=
  ⟨data.take 32, data.drop 32, (List.take_append_drop 32 data).symm, by simp [h], by simp [h]⟩

/-- A word is read where it stands between other bytes. -/
theorem read_append (before after : Bytes) {data : Bytes} (h : data.length = 32) :
    read (before ++ data ++ after) before.length =
      .ok (Bytes.toNat data, before.length + 32) := by
  have hstop : ((before.length : ℤ) + 32) = ((before ++ data).length : ℤ) := by
    rw [List.length_append, h]
    rfl
  have hslice : Bytes.slice (before ++ data ++ after) before.length (before.length + 32) = data := by
    rw [hstop, Bytes.slice, Bytes.bound, Bytes.bound, if_neg (by omega), if_neg (by omega),
      Int.toNat_natCast, Int.toNat_natCast, List.take_left, List.drop_left]
  have hle := (List.sublist_append_left (before ++ data) after).length_le
  rw [read, if_neg (by omega), hslice]

end Word

end Ecdsa
