import Mathlib
import Ecdsa.Base58.Standard
import Ecdsa.Proofs.Base58.Numeral

/-!
# The package in use does what is documented

`write` gives the numeral of its bytes (`write_isNumeral`), and `readSymbols` gives the bytes of a
numeral (`readSymbols_of_isNumeral`) and refuses all texts with another symbol
(`readSymbols_of_not_mem`). The other facts are read off the definitions.
-/

namespace Ecdsa

theorem Text.trimRight_trimRight (t : Text) : t.trimRight.trimRight = t.trimRight := by
  rw [Text.trimRight, Text.trimRight, List.reverse_reverse, List.dropWhile_idempotent]

namespace Base58.Standard

theorem map_const_replicate {α β : Type} (a : α) (b : β) (k : ℕ) :
    (List.replicate k a).map (fun _ => b) = List.replicate k b := by
  simp

theorem write_isNumeral (data : Bytes) : IsNumeral (write data) data := by
  obtain ⟨zeros, rest, rfl, hrest⟩ := exists_replicate_append (0 : UInt8) data
  have hbase : 1 < 58 := by omega
  refine ⟨zeros, Radix.digits 58 (Bytes.toNat rest), rest, ?_, rfl, Radix.lt_of_mem_digits hbase _,
    Radix.head?_digits hbase _, hrest, Radix.value_digits hbase _⟩
  rw [write, takeWhile_replicate_append hrest, map_const_replicate,
    Bytes.toNat_replicate_zero_append]

/-! ## Reading symbols -/

theorem idxOf?_symbol {d : ℕ} (h : d < 58) : bitcoinAlphabet.idxOf? (symbol d) = some d := by
  rw [← length_bitcoinAlphabet] at h
  rw [List.idxOf?_eq_some_iff]
  refine ⟨h, (symbol_eq h).symm, ?_⟩
  intro j hj heq
  rw [symbol_eq h, nodup_bitcoinAlphabet.getElem_inj_iff] at heq
  omega

theorem digits_map_symbol {ds : List ℕ} (h : ∀ d ∈ ds, d < 58) :
    digits (ds.map symbol) = .ok ds := by
  induction ds with
  | nil => rfl
  | cons d ds ih =>
    obtain ⟨hd, hds⟩ := List.forall_mem_cons.mp h
    unfold digits
    simp only [List.map_cons, idxOf?_symbol hd, ih hds, ok_map]

/-- The first symbol that is not in the alphabet is reported. -/
theorem digits_of_not_mem {t : Text} (h : ∃ c ∈ t, c ∉ bitcoinAlphabet) :
    ∃ message, digits t = .error (.refusal message) := by
  induction t with
  | nil => simp at h
  | cons c rest ih =>
    unfold digits
    cases hc : bitcoinAlphabet.idxOf? c with
    | none => exact ⟨_, rfl⟩
    | some d =>
      have hmem : c ∈ bitcoinAlphabet := by
        rw [← List.isSome_idxOf?, hc]
        rfl
      obtain ⟨b, hb, hbad⟩ := h
      have hrest : b ∈ rest := (List.mem_cons.mp hb).resolve_left fun heq => hbad (heq ▸ hmem)
      obtain ⟨message, hmessage⟩ := ih ⟨b, hrest, hbad⟩
      exact ⟨message, by rw [hmessage]; rfl⟩

/-- A numeral is read as the bytes that it stands for. -/
theorem readSymbols_of_isNumeral {t : Text} {data : Bytes} (h : IsNumeral t data) :
    readSymbols t = .ok data := by
  obtain ⟨zeros, ds, rest, rfl, rfl, hds, hhead, hrest, hvalue⟩ := h
  have hhead' := (head?_map_symbol hds).mpr hhead
  rw [readSymbols, takeWhile_replicate_append hhead', dropWhile_replicate_append hhead',
    digits_map_symbol hds, map_const_replicate, ok_bind, hvalue, Bytes.minimal_toNat hrest]
  rfl

theorem readSymbols_of_not_mem {t : Text} (h : ∃ c ∈ t, c ∉ bitcoinAlphabet) :
    ∃ message, readSymbols t = .error (.refusal message) := by
  obtain ⟨c, hc, hbad⟩ := h
  rw [← List.takeWhile_append_dropWhile (p := (· == zeroSymbol)) (l := t)] at hc
  have hdrop : c ∈ t.dropWhile (· == zeroSymbol) := by
    refine (List.mem_append.mp hc).resolve_left fun htake => hbad ?_
    have hzero : c = zeroSymbol := by simpa using List.mem_takeWhile_imp htake
    rw [hzero, ← symbol_zero]
    exact symbol_mem (by omega)
  obtain ⟨message, hmessage⟩ := digits_of_not_mem ⟨c, hdrop, hbad⟩
  exact ⟨message, by rw [readSymbols, hmessage, error_bind]⟩

/-! ## The documented facts -/

theorem read_eq {t : Text} (h : Codec.ascii.failure? t.trimRight = none) :
    read t = readSymbols t.trimRight := by
  rw [read, h]

/-- Symbols are neither blank nor outside ASCII, so all of them are read. -/
theorem read_of_mem {t : Text} (h : ∀ c ∈ t, c ∈ bitcoinAlphabet) : read t = readSymbols t := by
  have htrim : t.trimRight = t :=
    Text.trimRight_eq fun c hc => (plain_of_mem_bitcoinAlphabet c (h c hc)).1
  rw [read_eq, htrim]
  rw [htrim, Codec.failure?_eq_none_iff]
  exact fun c hc => (plain_of_mem_bitcoinAlphabet c (h c hc)).2

instance documented : Documented where
  write_isNumeral := write_isNumeral
  read_trimRight t := by
    simp only [Package.read, read, Text.trimRight_trimRight]
  read_symbols {t} h := by
    obtain ⟨data, hdata⟩ := exists_isNumeral h
    exact ⟨data, (read_of_mem h).trans (readSymbols_of_isNumeral hdata), hdata⟩
  read_not_ascii {t failure} h := by
    simp only [Package.read, read, h]
  read_not_symbol {t} hascii h := by
    obtain ⟨message, hmessage⟩ := readSymbols_of_not_mem h
    exact ⟨message, (read_eq hascii).trans hmessage⟩
  writeChecked_eq data := rfl
  readChecked_of_read {t raw} h := congrArg (Except.bind · removeChecksum) h
  readChecked_of_failure {t failure} h := congrArg (Except.bind · removeChecksum) h

end Base58.Standard

end Ecdsa
