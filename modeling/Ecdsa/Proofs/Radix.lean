import Mathlib
import Ecdsa.Radix

/-!
# Digits and numbers

At a fixed width the digits of a number write its remainder (`value_fixedDigits`), and every list of
digits is the one that is written for its value (`fixedDigits_value`). Without a width the same holds
of the lists that do not start with a zero (`digits_value`), which are the lists that are written
(`head?_digits`).

Lists are taken apart at their last digit, as the functions do it.
-/

namespace Ecdsa.Radix

variable {base : ℕ}

theorem value_replicate_zero_append (base k : ℕ) (ds : List ℕ) :
    value base (List.replicate k 0 ++ ds) = value base ds := by
  induction k with
  | zero => rfl
  | succ k ih =>
    rw [List.replicate_succ, List.cons_append]
    simpa [value] using ih

/-! ## At a fixed width -/

/-- The low digits of a number write its remainder. -/
theorem value_fixedDigits (base width n : ℕ) :
    value base (fixedDigits base width n) = n % base ^ width := by
  induction width generalizing n with
  | zero => simp [fixedDigits, value_nil, Nat.mod_one]
  | succ width ih =>
    rw [fixedDigits, value_concat, ih, pow_succ', Nat.mod_mul]
    ring

theorem lt_of_mem_fixedDigits (hb : 0 < base) (width n : ℕ) :
    ∀ d ∈ fixedDigits base width n, d < base := by
  induction width generalizing n with
  | zero => simp [fixedDigits]
  | succ width ih =>
    intro d hd
    rcases List.mem_append.mp hd with h | h
    · exact ih (n / base) d h
    · rw [List.mem_singleton.mp h]
      exact Nat.mod_lt n hb

theorem div_mod_concat {v d : ℕ} (hd : d < base) :
    (v * base + d) / base = v ∧ (v * base + d) % base = d := by
  have hb : 0 < base := by omega
  rw [mul_comm]
  exact ⟨by rw [Nat.mul_add_div hb, Nat.div_eq_of_lt hd, add_zero],
    by rw [Nat.mul_add_mod, Nat.mod_eq_of_lt hd]⟩

/-- Digits are what is written for their value at their own width. -/
theorem fixedDigits_value {ds : List ℕ} (h : ∀ d ∈ ds, d < base) :
    fixedDigits base ds.length (value base ds) = ds := by
  induction ds using List.reverseRecOn with
  | nil => rfl
  | append_singleton ds d ih =>
    obtain ⟨hds, hd⟩ := List.forall_mem_append.mp h
    obtain ⟨hdiv, hmod⟩ := div_mod_concat (v := value base ds) (hd d (List.mem_singleton_self d))
    rw [List.length_append, List.length_singleton, fixedDigits, value_concat, hdiv, hmod, ih hds]

/-- So many digits write a number below that power of the base. -/
theorem value_lt (hb : 0 < base) {ds : List ℕ} (h : ∀ d ∈ ds, d < base) :
    value base ds < base ^ ds.length := by
  have hval := value_fixedDigits base ds.length (value base ds)
  rw [fixedDigits_value h] at hval
  rw [hval]
  exact Nat.mod_lt _ (Nat.pow_pos hb)

/-! ## Without leading zeros -/

theorem lt_of_mem_digits (hb : 1 < base) (n : ℕ) : ∀ d ∈ digits base n, d < base := by
  induction n using Nat.strongRecOn with
  | ind n ih =>
    rcases eq_or_ne n 0 with rfl | hn
    · simp [digits_zero]
    · rw [digits_of_pos hb hn, List.forall_mem_append]
      refine ⟨ih _ (Nat.div_lt_self (Nat.pos_of_ne_zero hn) hb), ?_⟩
      simpa using Nat.mod_lt n (by omega)

theorem digits_eq_nil_iff (hb : 1 < base) {n : ℕ} : digits base n = [] ↔ n = 0 := by
  refine ⟨?_, ?_⟩
  · intro h
    rw [← value_digits hb n, h, value_nil]
  · intro h
    rw [h, digits_zero]

/-- What is written does not start with a zero. -/
theorem head?_digits (hb : 1 < base) (n : ℕ) : (digits base n).head? ≠ some 0 := by
  induction n using Nat.strongRecOn with
  | ind n ih =>
    rcases eq_or_ne n 0 with rfl | hn
    · simp [digits_zero]
    rw [digits_of_pos hb hn, List.head?_append]
    by_cases hsmall : n / base = 0
    · -- a number below the base is its only digit
      rw [hsmall, digits_zero, Nat.mod_eq_of_lt (Nat.lt_of_div_eq_zero (by omega) hsmall)]
      simpa using hn
    · rw [Option.or_of_isSome]
      · exact ih _ (Nat.div_lt_self (Nat.pos_of_ne_zero hn) hb)
      · rw [List.isSome_head?, Ne, digits_eq_nil_iff hb]
        exact hsmall

/-- Digits that do not start with a zero are what is written for their value. -/
theorem digits_value (hb : 1 < base) {ds : List ℕ} (h : ∀ d ∈ ds, d < base)
    (hhead : ds.head? ≠ some 0) : digits base (value base ds) = ds := by
  induction ds using List.reverseRecOn with
  | nil => exact digits_zero base
  | append_singleton ds d ih =>
    obtain ⟨hds, hd⟩ := List.forall_mem_append.mp h
    obtain ⟨hdiv, hmod⟩ := div_mod_concat (v := value base ds) (hd d (List.mem_singleton_self d))
    have hfront : digits base (value base ds) = ds := by
      refine ih hds ?_
      cases ds with
      | nil => simp
      | cons c ds => simpa using hhead
    have hne : value base ds * base + d ≠ 0 := by
      intro hzero
      obtain ⟨hv, rfl⟩ := Nat.add_eq_zero_iff.mp hzero
      rw [(Nat.mul_eq_zero.mp hv).resolve_right (by omega), digits_zero] at hfront
      rw [← hfront] at hhead
      exact hhead rfl
    rw [value_concat, digits_of_pos hb hne, hdiv, hmod, hfront]

end Ecdsa.Radix
