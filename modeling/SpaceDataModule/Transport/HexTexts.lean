import SpaceDataModule.Bundle.Verifying
import SpaceDataModule.Transport.Pki

/-! Keys and signatures as hexadecimal text: which of the texts `hexToBytes` takes it reads as
written. -/
namespace SpaceDataModule.Transport
open Bundle (Bytes bytesToHex bytesToHex_injective mem_bytesToHex codeUnits_digits)
open Json (hexDigit)

def hexDigits : List Char := "0123456789abcdef".toList

/-- The text `hexToBytes` reads: trimmed, without one `0x`, in lower case. -/
def normalizedHex (hex : String) : String :=
  JavaScript.toLowerCase (String.ofList (withoutRadix (JavaScript.trim hex).toList))

/-- The text of the byte that two digits are read as has these digits. -/
theorem digits_parsePair : ∀ high ∈ hexDigits, ∀ low ∈ hexDigits,
    hexDigit ((parsePair high.toNat low.toNat).toNat / 16) = high ∧
      hexDigit ((parsePair high.toNat low.toNat).toNat % 16) = low := by
  simp only [← List.forall_iff_forall_mem]
  decide +kernel

theorem toList_parsePairs (even : text.length % 2 = 0) (digits : ∀ c ∈ text, c ∈ hexDigits) :
    (bytesToHex (parsePairs (text.map Char.toNat))).toList = text := by
  rw [bytesToHex, String.toList_ofList]
  induction text using List.twoStepInduction with
  | nil => rfl
  | singleton c => cases even
  | cons_cons high low rest ih _ =>
    obtain ⟨first, digits⟩ := List.forall_mem_cons.mp digits
    obtain ⟨second, digits⟩ := List.forall_mem_cons.mp digits
    obtain ⟨upper, lower⟩ := digits_parsePair high first low second
    rw [List.length_cons, List.length_cons, Nat.add_assoc, Nat.add_mod_right] at even
    simp only [List.map_cons, parsePairs, List.flatMap_cons, upper, lower, ih even digits]
    rfl

theorem hexToBytes_digits (digits : ∀ c ∈ (normalizedHex hex).toList, c ∈ hexDigits) :
    hexToBytes hex =
      if (normalizedHex hex).toList.length = 0 || (normalizedHex hex).toList.length % 2 != 0 then
        .error "Expected even-length hex string."
      else .ok (parsePairs ((normalizedHex hex).toList.map Char.toNat)) := by
  rw [← List.length_map Char.toNat, ← codeUnits_digits digits]
  rfl

/-- Digits are read as the bytes they are the text of. -/
theorem bytesToHex_of_digits (read : hexToBytes hex = .ok bytes)
    (digits : ∀ c ∈ (normalizedHex hex).toList, c ∈ hexDigits) :
    bytesToHex bytes = normalizedHex hex := by
  rw [hexToBytes_digits digits] at read
  split_ifs at read with odd
  rw [Bool.or_eq_true, not_or, bne_iff_ne, not_not] at odd
  rw [← Except.ok.inj read]
  exact String.toList_injective (toList_parsePairs odd.2 digits)

theorem normalizedHex_bytesToHex (bytes : Bytes) :
    normalizedHex (bytesToHex bytes) = bytesToHex bytes := by
  have plain : ∀ text : List Char, (∀ c ∈ text, c ∈ hexDigits) → withoutRadix text = text := by
    intro text digits
    rw [withoutRadix.eq_def]
    split
    · exact absurd (digits 'x' (by simp)) (by decide)
    · exact absurd (digits 'X' (by simp)) (by decide)
    · rfl
  rw [normalizedHex, Bundle.trim_bytesToHex, plain _ fun c => mem_bytesToHex, String.ofList_toList,
    Bundle.toLowerCase_bytesToHex]

/-- **Hexadecimal texts.** Bytes are read back from their text. A text that is read is the text of
its bytes exactly when it holds digits only, which `hexToBytes` does not check. -/
theorem hexToBytes_strict_iff (hex : String) (bytes : Bytes) :
    (bytes ≠ [] → hexToBytes (bytesToHex bytes) = .ok bytes) ∧
      (hexToBytes hex = .ok bytes →
        (bytesToHex bytes = normalizedHex hex ↔
          ∀ c ∈ (normalizedHex hex).toList, c ∈ hexDigits)) := by
  constructor
  · intro filled
    have digits : ∀ c ∈ (normalizedHex (bytesToHex bytes)).toList, c ∈ hexDigits := by
      rw [normalizedHex_bytesToHex]
      exact fun c => mem_bytesToHex
    obtain ⟨parsed, read⟩ : ∃ parsed, hexToBytes (bytesToHex bytes) = .ok parsed := by
      rw [hexToBytes_digits digits, normalizedHex_bytesToHex, Bundle.bytesToHex_length]
      refine ⟨_, if_neg ?_⟩
      simpa using filled
    have same := bytesToHex_of_digits read digits
    rw [normalizedHex_bytesToHex] at same
    rw [read, bytesToHex_injective same]
  · intro read
    constructor
    · intro same c member
      rw [← same] at member
      exact mem_bytesToHex member
    · exact bytesToHex_of_digits read

/-- A signature whose digits are not hexadecimal is read as zero bytes. -/
theorem foreign_digits_read : hexToBytes "zz-1" = .ok [0, 255] ∧
    bytesToHex [0, 255] ≠ normalizedHex "zz-1" := by
  decide +kernel

end SpaceDataModule.Transport
