import Mathlib
import Ecdsa.Base58
import Ecdsa.Proofs.Base58.Numeral

/-!
# Base58 text and bytes

Over every package that does what is documented, `decode` gives the payload that a text spells
(`decode_eq_ok_iff`) and refuses what is no text (`decode_error`); the texts are those that `encode`
gives (`spells_iff_encode`). What a text spells is said without the package: it is the numeral of its
payload, with the first four bytes of the payload's doubled digest behind it if there has to be a
checksum (`Spells`).

The package is held to little: that it writes numerals, reads numerals, and refuses all other texts.
That both fit each other is due to numerals being unique.
-/

namespace Ecdsa.Base58

/-! ## Texts of payloads -/

/-- What a payload is written with: itself, and the first four bytes of its doubled digest if there has
to be a checksum. -/
def framed (data : Bytes) (checked : Bool) : Bytes :=
  if checked then data ++ (Sha256.digest (Sha256.digest data).bytes).bytes.take 4 else data

theorem length_framed (data : Bytes) (checked : Bool) :
    (framed data checked).length = data.length + if checked then 4 else 0 := by
  cases checked with
  | true =>
    show (data ++ List.take 4 _).length = data.length + 4
    rw [List.length_append, List.length_take, Digest.length_bytes]
    rfl
  | false => rfl

/-- Whether a text spells a payload: it is not empty, and the numeral of the payload, with its checksum
if there has to be one. -/
def Spells (t : Text) (checked : Bool) (data : Bytes) : Prop :=
  t ≠ [] ∧ IsNumeral t (framed data checked)

/-- Whether a text is the text of anything: not empty, over the alphabet, and if there has to be a
checksum, the numeral of something and the first four bytes of its doubled digest. -/
def IsText (t : Text) (checked : Bool) : Prop :=
  t ≠ [] ∧ (∀ c ∈ t, c ∈ bitcoinAlphabet) ∧
    (checked = true → ∃ data,
      IsNumeral t (data ++ (Sha256.digest (Sha256.digest data).bytes).bytes.take 4))

theorem isText_iff_exists_spells {t : Text} {checked : Bool} :
    IsText t checked ↔ ∃ data, Spells t checked data := by
  refine ⟨?_, ?_⟩
  · intro h
    obtain ⟨hne, hmem, hsum⟩ := h
    cases checked with
    | false =>
      obtain ⟨data, hdata⟩ := exists_isNumeral hmem
      exact ⟨data, hne, hdata⟩
    | true =>
      obtain ⟨data, hdata⟩ := hsum rfl
      exact ⟨data, hne, hdata⟩
  · intro h
    obtain ⟨data, hne, hdata⟩ := h
    refine ⟨hne, hdata.mem_bitcoinAlphabet, fun hsum => ⟨data, ?_⟩⟩
    rwa [framed, if_pos hsum] at hdata

/-- Only no bytes without a checksum have an empty numeral. -/
theorem framed_ne_nil {data : Bytes} {checked : Bool} (h : data ≠ [] ∨ checked = true) :
    framed data checked ≠ [] := by
  intro hnil
  have hlen := congrArg List.length hnil
  rw [length_framed, List.length_nil] at hlen
  cases checked with
  | false => exact h.elim (fun hne => hne hnil) Bool.false_ne_true
  | true => exact absurd hlen (Nat.succ_ne_zero _)

section Package

variable [Package] [Documented]

/-! ## What the package does -/

theorem write_eq_iff {data : Bytes} {t : Text} : Package.write data = t ↔ IsNumeral t data := by
  refine ⟨?_, (Documented.write_isNumeral data).text_unique⟩
  rintro rfl
  exact Documented.write_isNumeral data

/-- A numeral is read as the bytes that it stands for. -/
theorem read_of_isNumeral {t : Text} {data : Bytes} (h : IsNumeral t data) :
    Package.read t = .ok data := by
  obtain ⟨data', hread, hdata'⟩ := Documented.read_symbols h.mem_bitcoinAlphabet
  rw [hread, hdata'.data_unique h]

/-- A text that is not made of symbols, blanks at its end apart, is refused. -/
theorem read_of_not_mem {t : Text} (h : ¬∀ c ∈ t.trimRight, c ∈ bitcoinAlphabet) :
    ∃ message, Package.read t = .error (.refusal message) := by
  cases hascii : Codec.ascii.failure? t.trimRight with
  | some failure => exact ⟨_, Documented.read_not_ascii hascii⟩
  | none => exact Documented.read_not_symbol hascii (by simpa using h)

/-- A text is read, or refused. -/
theorem read_spec (t : Text) :
    (∃ data, Package.read t = .ok data) ∨
      ∃ message, Package.read t = .error (.refusal message) := by
  by_cases h : ∀ c ∈ t.trimRight, c ∈ bitcoinAlphabet
  · obtain ⟨data, hread, -⟩ := Documented.read_symbols h
    exact Or.inl ⟨data, (Documented.read_trimRight t).symm.trans hread⟩
  · exact Or.inr (read_of_not_mem h)

theorem encode_eq (data : Bytes) (checked : Bool) :
    encode data checked = Package.write (framed data checked) := by
  cases checked with
  | true => exact Documented.writeChecked_eq data
  | false => rfl

/-- A checksum comes off exactly where it stands. -/
theorem readChecked_eq_ok_iff {t : Text} {data : Bytes} :
    Package.readChecked t = .ok data ↔ Package.read t = .ok (framed data true) := by
  cases hread : Package.read t with
  | error failure => simp [Documented.readChecked_of_failure hread]
  | ok raw =>
    rw [Documented.readChecked_of_read hread, Except.ok.injEq]
    have hsplit := List.take_append_drop (raw.length - 4) raw
    refine ⟨?_, ?_⟩
    · intro h
      dsimp only at h
      split at h
      next hsum =>
        cases h
        rw [framed, if_pos rfl, ← hsum, hsplit]
      next => cases h
    · intro h
      have hlen : raw.length - 4 = data.length := by
        rw [h, length_framed, if_pos rfl, Nat.add_sub_cancel]
      rw [hlen, h, framed, if_pos rfl, List.take_left, List.drop_left]
      exact if_pos rfl

/-- A payload is read where the package reads what the payload is written with. -/
theorem read_eq_ok_iff {t : Text} {checked : Bool} {data : Bytes} :
    read t checked = .ok data ↔ Package.read t = .ok (framed data checked) := by
  cases checked with
  | true => exact readChecked_eq_ok_iff
  | false => exact Iff.rfl

/-- In either mode the package fails by refusals only. -/
theorem exists_refusal {t : Text} {checked : Bool} {failure : Failure}
    (h : read t checked = .error failure) : ∃ message, failure = .refusal message := by
  rcases read_spec t with ⟨raw, hread⟩ | ⟨message, hread⟩
  · cases checked with
    | false => exact absurd (hread.symm.trans h) (by simp)
    | true =>
      -- what was read has no checksum
      have hsum := (Documented.readChecked_of_read hread).symm.trans h
      dsimp only at hsum
      split at hsum
      · cases hsum
      · exact ⟨_, (Except.error.inj hsum).symm⟩
  · refine ⟨message, ?_⟩
    cases checked with
    | false => exact Except.error.inj (h.symm.trans hread)
    | true => exact Except.error.inj (h.symm.trans (Documented.readChecked_of_failure hread))

/-! ## Decoding -/

/-- The texts that spell a payload are those that are written for it. -/
theorem spells_iff_encode {t : Text} {checked : Bool} {data : Bytes} :
    Spells t checked data ↔ t ≠ [] ∧ encode data checked = t := by
  rw [Spells, encode_eq, write_eq_iff]

omit [Documented] in
/-- The steps of decoding a text that is not empty. -/
theorem decode_of_ne_nil {t : Text} (h : t ≠ []) (checked : Bool) :
    decode t checked = (read t checked).mapError Failure.toFault >>= fun data =>
      if encode data checked ≠ t then .error (.decode .notCanonical) else .ok data := by
  rw [decode, if_neg h]
  refine bind_congr fun data => ?_
  split <;> rfl

omit [Documented] in
theorem decode_nil (checked : Bool) : decode [] checked = .error (.decode .empty) := rfl

/-- A payload is decoded exactly from the texts that spell it. -/
theorem decode_eq_ok_iff {t : Text} {checked : Bool} {data : Bytes} :
    decode t checked = .ok data ↔ Spells t checked data := by
  rcases eq_or_ne t [] with rfl | hne
  · simp [decode_nil, Spells]
  rw [decode_of_ne_nil hne, bind_eq_ok_iff]
  refine ⟨?_, ?_⟩
  · intro h
    obtain ⟨found, -, h⟩ := h
    split at h
    next => cases h
    next heq =>
      cases h
      exact spells_iff_encode.mpr ⟨hne, not_not.mp heq⟩
  · intro h
    refine ⟨data, ?_, if_neg (not_not.mpr (spells_iff_encode.mp h).2)⟩
    rw [read_eq_ok_iff.mpr (read_of_isNumeral h.2)]
    rfl

theorem Spells.data_unique {t : Text} {checked : Bool} {data data' : Bytes}
    (h : Spells t checked data) (h' : Spells t checked data') : data = data' := by
  rw [← decode_eq_ok_iff] at h h'
  exact Except.ok.inj (h.symm.trans h')

/-- A text is decoded, or refused as a text. -/
theorem decode_spec (t : Text) (checked : Bool) :
    (∃ data, decode t checked = .ok data) ∨ ∃ cause, decode t checked = .error (.decode cause) := by
  rcases eq_or_ne t [] with rfl | hne
  · exact Or.inr ⟨_, decode_nil checked⟩
  rw [decode_of_ne_nil hne]
  cases hread : read t checked with
  | error failure =>
    obtain ⟨message, rfl⟩ := exists_refusal hread
    exact Or.inr ⟨_, rfl⟩
  | ok data =>
    by_cases hsame : encode data checked = t
    · exact Or.inl ⟨data, if_neg (not_not.mpr hsame)⟩
    · exact Or.inr ⟨_, if_pos hsame⟩

/-- A text is refused as a text, whatever is wrong with it. -/
theorem decode_error {t : Text} {checked : Bool} (h : ¬IsText t checked) :
    ∃ cause, decode t checked = .error (.decode cause) := by
  refine (decode_spec t checked).resolve_left ?_
  rintro ⟨data, hdata⟩
  exact h (isText_iff_exists_spells.mpr ⟨data, decode_eq_ok_iff.mp hdata⟩)

/-- What is done with a payload is done with the one that the text spells. -/
theorem decode_bind_of_spells {β : Type} {t : Text} {checked : Bool} {data : Bytes}
    (h : Spells t checked data) (f : Bytes → Except Fault β) : decode t checked >>= f = f data := by
  rw [decode_eq_ok_iff.mpr h, ok_bind]

/-- Nothing is done with what is no text. -/
theorem decode_bind_error {β : Type} {t : Text} {checked : Bool} (h : ¬IsText t checked)
    (f : Bytes → Except Fault β) :
    ∃ cause, decode t checked >>= f = .error (.decode cause) := by
  obtain ⟨cause, hcause⟩ := decode_error h
  exact ⟨cause, by rw [hcause, error_bind]⟩

/-- The text that is written for a payload spells it, except that nothing spells no bytes without a
checksum. -/
theorem spells_encode {data : Bytes} {checked : Bool} (h : data ≠ [] ∨ checked = true) :
    Spells (encode data checked) checked data := by
  have hnumeral := Documented.write_isNumeral (framed data checked)
  rw [encode_eq]
  refine ⟨?_, hnumeral⟩
  intro hnil
  rw [hnil] at hnumeral
  exact framed_ne_nil h (hnumeral.data_unique isNumeral_nil)

end Package

end Ecdsa.Base58
