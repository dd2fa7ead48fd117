import Mathlib
import Ecdsa.Signature
import Ecdsa.Proofs.Base58

/-!
# The form of a signature

`IsForm` says which bytes are the form of a pair of numbers: the two words one after the other. A
signature is read from its form and from nothing else (`ofBytes_eq_ok_iff`), and all other bytes are
refused as a signature, for their length or for the range of a number (`ofBytes_error`).
-/

namespace Ecdsa.Signature

/-- Whether bytes are the words of two numbers, one after the other. -/
def IsForm (data : Bytes) (r s : ℤ) : Prop :=
  ∃ rs ss, Word.Spells rs r ∧ Word.Spells ss s ∧ data = rs ++ ss

theorem IsForm.length_eq {data : Bytes} {r s : ℤ} (h : IsForm data r s) : data.length = 64 := by
  obtain ⟨rs, ss, hr, hs, rfl⟩ := h
  rw [List.length_append, hr.1, hs.1]

theorem IsForm.ne_nil {data : Bytes} {r s : ℤ} (h : IsForm data r s) : data ≠ [] := by
  intro hnil
  have hlen := h.length_eq
  rw [hnil] at hlen
  cases hlen

theorem IsForm.numbers_unique {data : Bytes} {r s r' s' : ℤ} (h : IsForm data r s)
    (h' : IsForm data r' s') : r = r' ∧ s = s' := by
  obtain ⟨rs, ss, ⟨hr, rfl⟩, ⟨-, rfl⟩, rfl⟩ := h
  obtain ⟨rs', ss', ⟨hr', rfl⟩, ⟨-, rfl⟩, heq⟩ := h'
  obtain ⟨rfl, rfl⟩ := List.append_inj heq (hr.trans hr'.symm)
  exact ⟨rfl, rfl⟩

/-- What is written for two numbers is their form. -/
theorem writeCompact_eq_ok_iff {data : Bytes} {r s : ℤ} :
    writeCompact r s = .ok data ↔ IsForm data r s :=
  Word.write_write_eq_ok_iff (· ++ ·)

theorem parseCompact_append {rs ss : Bytes} (hr : rs.length = 32) (hs : ss.length = 32) :
    parseCompact (rs ++ ss) = .ok (Bytes.toNat rs, Bytes.toNat ss) := by
  have hlen : (rs ++ ss).length = 64 := by rw [List.length_append, hr, hs]
  have hfirst : Word.read (rs ++ ss) 0 = .ok (Bytes.toNat rs, 32) := by
    simpa using Word.read_append [] ss hr
  have hsecond : Word.read (rs ++ ss) 32 = .ok (Bytes.toNat ss, 64) := by
    simpa [hr] using Word.read_append rs [] hs
  simp only [parseCompact, if_pos hlen, bind, Except.bind, hfirst, hsecond]
  rfl

theorem ofNumbers_of_range {r s : ℤ} (hr : 0 < r ∧ r < secp256k1.n)
    (hs : 0 < s ∧ s ≤ secp256k1.n / 2) : ofNumbers r s = .ok ⟨r, s, hr, hs⟩ := by
  have hhalf : secp256k1.n / 2 < secp256k1.n := by decide
  rw [ofNumbers, dif_pos hr, dif_pos ⟨hs.1, hs.2.trans_lt hhalf⟩, dif_pos hs.2]

/-- Two numbers are a signature exactly if both are in range; otherwise they are refused. -/
theorem ofNumbers_spec (r s : ℤ) :
    (∃ sig, ofNumbers r s = .ok sig ∧ sig.r = r ∧ sig.s = s) ∨
      ∃ cause, ofNumbers r s = .error (.signature cause) := by
  unfold ofNumbers
  split
  · split
    · split
      · exact Or.inl ⟨_, rfl, rfl, rfl⟩
      · exact Or.inr ⟨_, rfl⟩
    · exact Or.inr ⟨_, rfl⟩
  · exact Or.inr ⟨_, rfl⟩

theorem ofSource_bytes (data : Bytes) (normalize : Bool) :
    ofSource data normalize = ofBytes data normalize := by
  rw [ofSource_eq]
  rfl

/-- A signature is what two numbers in range make. -/
theorem ofNumbers_eq_ok_iff {r s : ℤ} {sig : Signature} :
    ofNumbers r s = .ok sig ↔ sig.r = r ∧ sig.s = s := by
  refine ⟨?_, ?_⟩
  · intro h
    rcases ofNumbers_spec r s with ⟨sig', hok, hr, hs⟩ | ⟨cause, herror⟩
    · rw [h] at hok
      rw [Except.ok.inj hok]
      exact ⟨hr, hs⟩
    · rw [h] at herror
      cases herror
  · intro h
    obtain ⟨rfl, rfl⟩ := h
    exact ofNumbers_of_range sig.r_range sig.s_range

theorem exists_isForm_of_length {data : Bytes} (h : data.length = 64) : ∃ r s, IsForm data r s := by
  obtain ⟨rs, ss, rfl, hr, hs⟩ := Word.exists_append h
  exact ⟨_, _, rs, ss, ⟨hr, rfl⟩, ⟨hs, rfl⟩, rfl⟩

/-- The form of two numbers is read as the signature that they make. -/
theorem ofBytes_eq_ofNumbers {data : Bytes} {r s : ℤ} (h : IsForm data r s) (normalize : Bool) :
    ofBytes data normalize = ofNumbers r (if normalize then lowS s else s) := by
  obtain ⟨rs, ss, ⟨hr, rfl⟩, ⟨hs, rfl⟩, rfl⟩ := h
  simp only [ofBytes, parseCompact_append hr hs, bind, Except.bind]

theorem ofBytes_of_isForm {data : Bytes} {sig : Signature} (h : IsForm data sig.r sig.s) :
    ofBytes data false = .ok sig := by
  rw [ofBytes_eq_ofNumbers h]
  exact ofNumbers_of_range sig.r_range sig.s_range

theorem ofBytes_of_length {data : Bytes} (h : data.length ≠ 64) (normalize : Bool) :
    ofBytes data normalize = .error (.signature (.length data.length)) := by
  rw [ofBytes, parseCompact, if_neg h]
  rfl

/-- Bytes are the form of a signature, or are refused as a signature. -/
theorem ofBytes_spec (data : Bytes) :
    (∃ sig : Signature, IsForm data sig.r sig.s) ∨
      ∃ cause, ofBytes data false = .error (.signature cause) := by
  by_cases hlen : data.length = 64
  swap
  · exact Or.inr ⟨_, ofBytes_of_length hlen false⟩
  obtain ⟨r, s, hform⟩ := exists_isForm_of_length hlen
  rw [ofBytes_eq_ofNumbers hform]
  rcases ofNumbers_spec r s with ⟨sig, -, rfl, rfl⟩ | herror
  · exact Or.inl ⟨sig, hform⟩
  · exact Or.inr herror

/-- A signature is read from its form, and from nothing else. -/
theorem ofBytes_eq_ok_iff {data : Bytes} {sig : Signature} :
    ofBytes data false = .ok sig ↔ IsForm data sig.r sig.s := by
  refine ⟨fun h => ?_, ofBytes_of_isForm⟩
  rcases ofBytes_spec data with ⟨sig', hform⟩ | ⟨cause, herror⟩
  · rw [ofBytes_of_isForm hform] at h
    rw [← Except.ok.inj h]
    exact hform
  · rw [herror] at h
    cases h

theorem ofBytes_error {data : Bytes} (h : ∀ sig : Signature, ¬IsForm data sig.r sig.s) :
    ∃ cause, ofBytes data false = .error (.signature cause) :=
  (ofBytes_spec data).resolve_left fun ⟨sig, hform⟩ => h sig hform

/-- Numbers below the order have 32 bytes. -/
theorem exists_isForm {r s : ℤ} (hr : 0 ≤ r ∧ r < secp256k1.n) (hs : 0 ≤ s ∧ s < secp256k1.n) :
    ∃ data, IsForm data r s := by
  have hcount : secp256k1.n ≤ Word.count := by decide +kernel
  exact ⟨_, _, _, Word.spells_ofNat ⟨hr.1, hr.2.trans_le hcount⟩,
    Word.spells_ofNat ⟨hs.1, hs.2.trans_le hcount⟩, rfl⟩

/-- A signature is written as its form. -/
theorem serialize_spec (sig : Signature) :
    ∃ data, sig.serialize = .ok data ∧ IsForm data sig.r sig.s := by
  have hhalf : secp256k1.n / 2 < secp256k1.n := by decide
  obtain ⟨data, hform⟩ := exists_isForm ⟨sig.r_range.1.le, sig.r_range.2⟩
    ⟨sig.s_range.1.le, sig.s_range.2.trans_lt hhalf⟩
  exact ⟨data, writeCompact_eq_ok_iff.mpr hform, hform⟩

/-- The text of a signature spells its form. -/
theorem toText_spec [Base58.Package] [Base58.Documented] (sig : Signature) (checked : Bool) :
    ∃ t data, sig.toText checked = .ok t ∧ Base58.Spells t checked data ∧
      IsForm data sig.r sig.s := by
  obtain ⟨data, hdata, hform⟩ := sig.serialize_spec
  refine ⟨_, data, ?_, Base58.spells_encode (Or.inl hform.ne_nil), hform⟩
  rw [toText, hdata]
  rfl

end Ecdsa.Signature
