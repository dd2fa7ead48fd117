import Mathlib
import Ecdsa.Text

/-!
# Texts in UTF-8

The texts that UTF-8 can write are those of strings, since a string holds every code point but the
surrogates, and they are written as the strings are (`utf8_encode_ofString`). All other texts are
refused (`exists_ofString_of_utf8_encode`).
-/

namespace Ecdsa

theorem CodePoint.val_ofChar (c : Char) : (CodePoint.ofChar c).val = c.val.toNat := rfl

namespace Codec

/-- No character is a surrogate. -/
theorem utf8_admits_ofChar (c : Char) : Codec.utf8.admits (.ofChar c) = true := by
  have hvalid := c.valid
  simp only [UInt32.isValidChar, Nat.isValidChar] at hvalid
  rw [admits, CodePoint.isSurrogate, CodePoint.val_ofChar, Bool.not_eq_true',
    Bool.and_eq_false_iff, decide_eq_false_iff_not, decide_eq_false_iff_not]
  omega

/-- A character is written as it is in a string. -/
theorem utf8_units_ofChar (c : Char) :
    Codec.utf8.units (.ofChar c) = String.utf8EncodeChar c := by
  have hlt := (CodePoint.ofChar c).isLt
  have hval := CodePoint.val_ofChar c
  unfold units String.utf8EncodeChar
  dsimp only
  rw [hval] at hlt ⊢
  -- both cascades split at the same bounds; only the order of the sums differs
  by_cases h₁ : c.val.toNat < 0x80
  · rw [if_pos h₁, if_pos (by omega)]
  rw [if_neg h₁, if_neg (show ¬c.val.toNat ≤ 0x7f by omega)]
  by_cases h₂ : c.val.toNat < 0x800
  · rw [if_pos h₂, if_pos (by omega),
      show 0xc0 + c.val.toNat / 0x40 = c.val.toNat / 64 % 32 + 192 by omega, Nat.add_comm 0x80]
  rw [if_neg h₂, if_neg (show ¬c.val.toNat ≤ 0x7ff by omega)]
  by_cases h₃ : c.val.toNat < 0x10000
  · rw [if_pos h₃, if_pos (by omega),
      show 0xe0 + c.val.toNat / 0x1000 = c.val.toNat / 4096 % 16 + 224 by omega,
      Nat.add_comm 0x80, Nat.add_comm 0x80]
  · rw [if_neg h₃, if_neg (by omega),
      show 0xf0 + c.val.toNat / 0x40000 = c.val.toNat / 262144 % 8 + 240 by omega,
      Nat.add_comm 0x80, Nat.add_comm 0x80, Nat.add_comm 0x80]

end Codec

namespace Text

theorem toUTF8_data (s : String) :
    s.toUTF8.data.toList = s.toList.flatMap String.utf8EncodeChar := by
  conv =>
    lhs
    rw [← String.ofList_toList (s := s)]
  rw [String.toUTF8_eq_toByteArray, String.toByteArray_ofList]
  exact List.toList_data_toByteArray

/-- The text of a string is written as the string is. -/
theorem utf8_encode_ofString (s : String) :
    Codec.utf8.encode (ofString s) = .ok s.toUTF8.data.toList := by
  have hadmits : Codec.utf8.failure? (ofString s) = none := by
    rw [Codec.failure?_eq_none_iff, ofString, List.forall_mem_map]
    intro c _
    exact Codec.utf8_admits_ofChar c
  rw [Codec.encode, hadmits, ofString, List.flatMap_map, toUTF8_data]
  simp only [Codec.utf8_units_ofChar]

/-- A code point that is no surrogate is that of a character. -/
theorem ofChar_ofNat {c : CodePoint} (h : Codec.utf8.admits c = true) :
    CodePoint.ofChar (Char.ofNat c.val) = c := by
  simp only [Codec.admits, CodePoint.isSurrogate, Bool.not_eq_true', Bool.and_eq_false_iff,
    decide_eq_false_iff_not] at h
  have hvalid : c.val.isValidChar := by
    have hlt := c.isLt
    simp only [Nat.isValidChar]
    omega
  rw [Fin.ext_iff, CodePoint.val_ofChar, Char.ofNat, dif_pos hvalid]
  rfl

/-- Only texts of strings are written. -/
theorem exists_ofString_of_utf8_encode {t : Text} {data : Bytes}
    (h : Codec.utf8.encode t = .ok data) : ∃ s, ofString s = t := by
  refine ⟨t.toString, ?_⟩
  have hadmits : ∀ c ∈ t, Codec.utf8.admits c = true := by
    rw [← Codec.failure?_eq_none_iff]
    unfold Codec.encode at h
    split at h
    next => cases h
    next hnone => exact hnone
  rw [ofString, toString, String.toList_ofList, List.map_map]
  refine (List.map_congr_left fun c hc => ?_).trans (List.map_id t)
  exact ofChar_ofNat (hadmits c hc)

end Text

end Ecdsa
