import Mathlib
import Ecdsa.Proofs.Sec1
import Ecdsa.Proofs.Signature

/-!
# What the readers of bytes accept

The bytes that are read as a point or as two numbers are the bytes that are written for one, and all
others are refused (`byteForms_exact`). A reader never runs out of bytes: whatever it refuses, it refuses
for the length, or for a tag that is there (`Sec1.Misfit`). Writing fails for numbers that have no word,
if they are to be written.
-/

namespace Ecdsa

namespace Sec1

/-- What is read is what the bytes are the form of. -/
theorem parse_eq_ok_iff {data : Bytes} {form : Sec1} :
    parse data = .ok form ↔ ∃ x y compressed, Word.Fits x ∧ Word.Fits y ∧
      write x y compressed = .ok data ∧ form = ofPair x y compressed := by
  simp only [write_eq_ok_iff]
  refine ⟨?_, ?_⟩
  · intro h
    rcases form_or_misfit data with ⟨x, y, compressed, hy, hform⟩ | ⟨cause, hmisfit⟩
    · rw [parse_of_isForm hform, Except.ok.injEq] at h
      exact ⟨x, y, compressed, hform.fits, hy, hform, h.symm⟩
    · rw [hmisfit.parse_eq] at h
      cases h
  · intro h
    obtain ⟨x, y, compressed, -, -, hform, rfl⟩ := h
    exact parse_of_isForm hform

/-- Bytes are refused exactly if they are no form, and for that reason. -/
theorem parse_eq_error_iff {data : Bytes} {fault : Fault} :
    parse data = .error fault ↔ ∃ cause, Misfit data cause ∧ fault = .publicKey cause := by
  refine ⟨?_, ?_⟩
  · intro h
    rcases form_or_misfit data with ⟨x, y, compressed, -, hform⟩ | ⟨cause, hmisfit⟩
    · rw [parse_of_isForm hform] at h
      cases h
    · rw [hmisfit.parse_eq, Except.error.injEq] at h
      exact ⟨cause, hmisfit, h.symm⟩
  · intro h
    obtain ⟨cause, hmisfit, rfl⟩ := h
    exact hmisfit.parse_eq

/-- Writing fails exactly for a number that has no word and is to be written. -/
theorem write_eq_error_iff {x y : ℤ} {compressed : Bool} {fault : Fault} :
    write x y compressed = .error fault ↔
      fault = .tooWide ∧ ¬(Word.Fits x ∧ (compressed = true ∨ Word.Fits y)) := by
  cases compressed with
  | true =>
    have hsteps : write x y true = Word.write x >>= fun xs =>
        .ok ((if y % 2 = 1 then 3 else 2) :: xs) := rfl
    simp [hsteps, bind_eq_error_iff, Word.write_eq_error_iff]
  | false =>
    have hsteps : write x y false = Word.write x >>= fun xs =>
        Word.write y >>= fun ys => .ok (4 :: (xs ++ ys)) := rfl
    rw [hsteps, Word.write_write_eq_error_iff]
    simp

end Sec1

namespace Signature

theorem parseCompact_of_isForm {data : Bytes} {r s : ℕ} (h : IsForm data r s) :
    parseCompact data = .ok (r, s) := by
  obtain ⟨rs, ss, ⟨hr, hrv⟩, ⟨hs, hsv⟩, rfl⟩ := h
  rw [parseCompact_append hr hs, Int.natCast_inj.mp hrv, Int.natCast_inj.mp hsv]

/-- Two numbers are read exactly from what is written for them. -/
theorem parseCompact_eq_ok_iff {data : Bytes} {r s : ℕ} :
    parseCompact data = .ok (r, s) ↔
      Word.Fits r ∧ Word.Fits s ∧ writeCompact r s = .ok data := by
  rw [writeCompact_eq_ok_iff]
  refine ⟨?_, ?_⟩
  · intro h
    by_cases hlen : data.length = 64
    · obtain ⟨rs, ss, rfl, hr, hs⟩ := Word.exists_append hlen
      rw [parseCompact_append hr hs, Except.ok.injEq, Prod.mk.injEq] at h
      obtain ⟨rfl, rfl⟩ := h
      have hrs : Word.Spells rs (Bytes.toNat rs) := ⟨hr, rfl⟩
      have hss : Word.Spells ss (Bytes.toNat ss) := ⟨hs, rfl⟩
      exact ⟨hrs.fits, hss.fits, rs, ss, hrs, hss, rfl⟩
    · rw [parseCompact, if_neg hlen] at h
      cases h
  · intro h
    exact parseCompact_of_isForm h.2.2

/-- Bytes are refused exactly for their length. -/
theorem parseCompact_eq_error_iff {data : Bytes} {fault : Fault} :
    parseCompact data = .error fault ↔
      data.length ≠ 64 ∧ fault = .signature (.length data.length) := by
  by_cases hlen : data.length = 64
  · obtain ⟨rs, ss, rfl, hr, hs⟩ := Word.exists_append hlen
    simp [parseCompact_append hr hs, hr, hs]
  · simp [parseCompact, hlen, eq_comm]

/-- Writing fails exactly for a number that has no word. -/
theorem writeCompact_eq_error_iff {r s : ℤ} {fault : Fault} :
    writeCompact r s = .error fault ↔ fault = .tooWide ∧ ¬(Word.Fits r ∧ Word.Fits s) :=
  Word.write_write_eq_error_iff (· ++ ·)

end Signature

/-- **The readers of bytes accept what the writers write, and nothing else.** Bytes are read as the form
of a point exactly if they are written for two numbers of 256 bits, and then as these, with only the
parity of the ordinate if it was left out. Bytes are read as two numbers exactly if they are written
for these. All others are refused as a public key, for their length or their tag, and as a signature,
for their length. Writing fails exactly for a number that does not fit and is to be written. -/
theorem byteForms_exact :
    (∀ (data : Bytes) (form : Sec1), Sec1.parse data = .ok form ↔
      ∃ x y compressed, Word.Fits x ∧ Word.Fits y ∧ Sec1.write x y compressed = .ok data ∧
        form = Sec1.ofPair x y compressed) ∧
    (∀ (data : Bytes) (fault : Fault), Sec1.parse data = .error fault ↔
      ∃ cause, Sec1.Misfit data cause ∧ fault = .publicKey cause) ∧
    (∀ (data : Bytes) (r s : ℕ), Signature.parseCompact data = .ok (r, s) ↔
      Word.Fits r ∧ Word.Fits s ∧ Signature.writeCompact r s = .ok data) ∧
    (∀ (data : Bytes) (fault : Fault), Signature.parseCompact data = .error fault ↔
      data.length ≠ 64 ∧ fault = .signature (.length data.length)) ∧
    (∀ (x y : ℤ) (compressed : Bool) (fault : Fault), Sec1.write x y compressed = .error fault ↔
      fault = .tooWide ∧ ¬(Word.Fits x ∧ (compressed = true ∨ Word.Fits y))) ∧
    ∀ (r s : ℤ) (fault : Fault), Signature.writeCompact r s = .error fault ↔
      fault = .tooWide ∧ ¬(Word.Fits r ∧ Word.Fits s) := by
  refine ⟨?_, ?_, ?_, ?_, ?_, ?_⟩
  · exact fun data form => Sec1.parse_eq_ok_iff
  · exact fun data fault => Sec1.parse_eq_error_iff
  · exact fun data r s => Signature.parseCompact_eq_ok_iff
  · exact fun data fault => Signature.parseCompact_eq_error_iff
  · exact fun x y compressed fault => Sec1.write_eq_error_iff
  · exact fun r s fault => Signature.writeCompact_eq_error_iff

end Ecdsa
