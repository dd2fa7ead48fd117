import Mathlib
import Ecdsa.Proofs.Base58
import Ecdsa.Proofs.Base58.Standard

/-!
# Canonical texts

`decode` and `encode` undo each other, and `decode` is defined exactly on the texts over the alphabet
(`decode_canonical`). What it gives is said without the package that reads and writes: a text is the
numeral of its payload (`IsNumeral`), one number in two bases behind as many zero symbols as there are
zero bytes. A checksum is read off the payload of the text without one (`decode_iff_framed`), so both
modes rest on the plain one.
-/

namespace Ecdsa.Base58

section Package

variable [Package] [Documented]

/-- Without a checksum every text over the alphabet is decoded, except the empty one. -/
theorem exists_decode_plain_iff (t : Text) :
    (∃ data, decode t false = .ok data) ↔ t ≠ [] ∧ ∀ c ∈ t, c ∈ bitcoinAlphabet := by
  simp only [decode_eq_ok_iff]
  rw [← isText_iff_exists_spells]
  unfold IsText
  simp

theorem decode_plain_iff {t : Text} {data : Bytes} :
    decode t false = .ok data ↔ t ≠ [] ∧ IsNumeral t data :=
  decode_eq_ok_iff

/-- Whatever the mode, a payload is decoded from the texts that stand, without a checksum, for what the
payload is written with. -/
theorem decode_iff_framed {t : Text} {checked : Bool} {data : Bytes} :
    decode t checked = .ok data ↔ decode t false = .ok (framed data checked) := by
  rw [decode_eq_ok_iff, decode_eq_ok_iff]
  exact Iff.rfl

theorem decode_encode {data : Bytes} {checked : Bool} (h : data ≠ [] ∨ checked = true) :
    decode (encode data checked) checked = .ok data :=
  decode_eq_ok_iff.mpr (spells_encode h)

theorem encode_of_decode {t : Text} {checked : Bool} {data : Bytes}
    (h : decode t checked = .ok data) : encode data checked = t :=
  (spells_iff_encode.mp (decode_eq_ok_iff.mp h)).2

end Package

/-- **Decoding accepts exactly the canonical texts, and undoes encoding.** Without a checksum these
are the texts over the alphabet that are not empty, each a numeral of its payload; with one, those
of them that stand for a payload and the first four bytes of its doubled digest. All others are
refused as texts. Encoding is undone except on no bytes without a checksum, which have no text, and
decoding always, so that a payload has one text in each mode. -/
theorem decode_canonical [Package] [Documented] :
    (∀ t, (∃ data, decode t false = .ok data) ↔ t ≠ [] ∧ ∀ c ∈ t, c ∈ bitcoinAlphabet) ∧
    (∀ t data, decode t false = .ok data ↔ t ≠ [] ∧ IsNumeral t data) ∧
    (∀ t data, decode t true = .ok data ↔ decode t false =
      .ok (data ++ (Sha256.digest (Sha256.digest data).bytes).bytes.take 4)) ∧
    (∀ t checked, (∃ data, decode t checked = .ok data) ∨
      ∃ cause, decode t checked = .error (.decode cause)) ∧
    (∀ data, data ≠ [] → decode (encode data false) false = .ok data) ∧
    (∀ data, decode (encode data true) true = .ok data) ∧
    (∀ t checked data, decode t checked = .ok data → encode data checked = t) ∧
    ∀ t t' checked data, decode t checked = .ok data → decode t' checked = .ok data → t = t' := by
  refine ⟨exists_decode_plain_iff, ?_, ?_, decode_spec, ?_, ?_, ?_, ?_⟩
  · intro t data
    exact decode_plain_iff
  · intro t data
    exact decode_iff_framed
  · intro data hne
    exact decode_encode (Or.inl hne)
  · intro data
    exact decode_encode (Or.inr rfl)
  · intro t checked data h
    exact encode_of_decode h
  · intro t t' checked data h h'
    rw [← encode_of_decode h, encode_of_decode h']

section Standard

open scoped Standard

/-- Through the package in use: two zero bytes are two zero symbols in front of the numeral of the
rest, the text with a blank behind it is refused, and the text of nothing with a checksum is read. -/
theorem decode_canonical_zeros :
    decode (Text.ofString "11StV1DL6CwTryKyV") false =
        .ok [0, 0, 0x68, 0x65, 0x6c, 0x6c, 0x6f, 0x20, 0x77, 0x6f, 0x72, 0x6c, 0x64] ∧
      (∃ cause, decode (Text.ofString "11StV1DL6CwTryKyV ") false = .error (.decode cause)) ∧
      decode (Text.ofString "3QJmnh") true = .ok [] := by
  obtain ⟨haccepts, -, -, hrefuses, hundo, hundoChecked, -⟩ := decode_canonical
  have henc : encode [0, 0, 0x68, 0x65, 0x6c, 0x6c, 0x6f, 0x20, 0x77, 0x6f, 0x72, 0x6c, 0x64] false =
      Text.ofString "11StV1DL6CwTryKyV" := by
    cbv
  have hsum : encode [] true = Text.ofString "3QJmnh" := by
    decide +kernel
  refine ⟨?_, (hrefuses _ false).resolve_left ?_, ?_⟩
  · rw [← henc]
    exact hundo _ (List.cons_ne_nil _ _)
  · rw [haccepts]
    intro h
    have hblank := h.2 (CodePoint.ofChar ' ') (by decide +kernel)
    exact absurd hblank (by decide)
  · rw [← hsum]
    exact hundoChecked []

end Standard

end Ecdsa.Base58
