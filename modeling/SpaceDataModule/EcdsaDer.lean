import SpaceDataModule.Checked
import SpaceDataModule.FlatBuffers

/-! Signatures of secp256k1 as 64 raw bytes and as DER: a sequence of two integers. -/
namespace SpaceDataModule.EcdsaDer
open Checked
open FlatBuffers (Bytes)

/-- Leading zero bytes are dropped as long as a byte is left. -/
def stripped : Bytes → Bytes
  | 0 :: next :: rest => stripped (next :: rest)
  | bytes => bytes

/-- A first byte with the high bit gets a zero byte before it. -/
def signed (value : Bytes) : Bytes := if 128 ≤ value.headD 0 then 0 :: value else value

def derInteger (content : Bytes) : Bytes := 2 :: .ofNat content.length :: content

def encodeDerInteger (component : Bytes) : Bytes := derInteger (signed (stripped component))

def rawSignatureToDer (raw : Bytes) : Except String Bytes := do
  require (raw.length == 64) ("secp256k1 raw signature must be 64 bytes, received " ++
    toString raw.length ++ ".")
  let body := encodeDerInteger (raw.take 32) ++ encodeDerInteger (raw.drop 32)
  .ok (0x30 :: .ofNat body.length :: body)

def normalizeComponent (component : Bytes) : Except String Bytes :=
  let value := stripped component
  if 32 < value.length then .error "Invalid DER signature: integer component exceeds 32 bytes."
  else .ok (List.replicate (32 - value.length) 0 ++ value)

/-- `readDerInteger`, on the bytes from the offset on. Nothing follows an integer whose length
byte is missing, since the offset behind it is NaN. -/
def readDerInteger : Bytes → Except String (Bytes × Bytes)
  | 2 :: length :: rest => do
    require (length.toNat ≤ rest.length) "Invalid DER signature: INTEGER length exceeds bounds."
    .ok (rest.take length.toNat, rest.drop length.toNat)
  | [2] => .ok ([], [])
  | _ => .error "Invalid DER signature: expected INTEGER."

def derSignatureToRaw (bytes : Bytes) : Except String Bytes := do
  require (8 ≤ bytes.length && bytes.head? == some 0x30)
    "Invalid DER signature: expected SEQUENCE."
  -- the bytes of a long length are skipped
  let r ← readDerInteger (bytes.drop (if 128 ≤ (bytes.getD 1 0).toNat then
    2 + (bytes.getD 1 0).toNat % 128 else 2))
  let s ← readDerInteger r.2
  let rRaw ← normalizeComponent r.1
  let sRaw ← normalizeComponent s.1
  .ok (rRaw ++ sRaw)

/-- The content of an integer that is not negative and has no byte too many. -/
def Minimal : Bytes → Prop
  | [] => False
  | [only] => only < 128
  | first :: second :: _ => first < 128 ∧ (first = 0 → 128 ≤ second)

/-- One sequence of two such integers, each length the rest of what it counts. -/
def StrictDer (der : Bytes) : Prop := ∃ r s, Minimal r ∧ Minimal s ∧
  (derInteger r ++ derInteger s).length < 128 ∧
  der = 0x30 :: .ofNat (derInteger r ++ derInteger s).length :: (derInteger r ++ derInteger s)

theorem exists_zeros (filled : bytes ≠ []) : ∃ zeros first rest,
    bytes = List.replicate zeros 0 ++ first :: rest ∧ (first = (0 : UInt8) → rest = []) := by
  induction bytes with
  | nil => exact absurd rfl filled
  | cons first rest ih =>
    by_cases more : first = 0 ∧ rest ≠ []
    · obtain ⟨zeros, next, others, same, zero⟩ := ih more.2
      exact ⟨zeros + 1, next, others, by rw [more.1, same]; rfl, zero⟩
    · exact ⟨0, first, rest, rfl, fun zero => by_contra fun filled => more ⟨zero, filled⟩⟩

theorem stripped_zeros (zero : first = 0 → rest = []) :
    stripped (List.replicate zeros 0 ++ first :: rest) = first :: rest := by
  induction zeros with
  | zero =>
    rw [List.replicate_zero, List.nil_append, stripped.eq_2]
    rintro next others ⟨rfl, rfl⟩
    cases zero rfl
  | succ zeros ih =>
    cases zeros with
    | zero => rwa [List.replicate_one]
    | succ zeros =>
      rwa [List.replicate_succ, List.replicate_succ, List.cons_append, List.cons_append, stripped]

/-- An encoded component is a minimal integer that is read back as the component. -/
theorem encodeDerInteger_spec (length : component.length = 32) :
    ∃ content, encodeDerInteger component = derInteger content ∧ Minimal content ∧
      0 < content.length ∧ content.length ≤ 33 ∧
      normalizeComponent content = .ok component := by
  obtain ⟨zeros, first, rest, rfl, zero⟩ :=
    exists_zeros (List.ne_nil_of_length_pos (by omega : 0 < component.length))
  rw [List.length_append, List.length_replicate] at length
  have back (more : Nat) : normalizeComponent (List.replicate more 0 ++ first :: rest) =
      .ok (List.replicate zeros 0 ++ first :: rest) := by
    rw [normalizeComponent, stripped_zeros zero, if_neg (by omega), ← length, Nat.add_sub_cancel]
  rw [encodeDerInteger, stripped_zeros zero, signed]
  split_ifs with high
  · refine ⟨0 :: first :: rest, rfl, ⟨by decide, fun _ => high⟩, Nat.succ_pos _, ?_, back 1⟩
    rw [List.length_cons]
    omega
  · refine ⟨first :: rest, rfl, ?_, Nat.succ_pos _, by omega, back 0⟩
    cases rest with
    | nil => exact UInt8.not_le.mp high
    | cons second others => exact ⟨UInt8.not_le.mp high, fun same => absurd (zero same) nofun⟩

theorem readDerInteger_derInteger (small : content.length < 256) :
    readDerInteger (derInteger content ++ back) = .ok (content, back) := by
  have size : (UInt8.ofNat content.length).toNat = content.length := UInt8.toNat_ofNat_of_lt' small
  rw [derInteger, List.cons_append, List.cons_append, readDerInteger, size, List.take_left,
    List.drop_left, require_of_true (by simp), ok_bind]

/-- **DER signatures.** A raw signature is written as strict DER and read back from it. -/
theorem rawSignatureToDer_strict (raw : Bytes) (length : raw.length = 64) :
    ∃ der, rawSignatureToDer raw = .ok der ∧ derSignatureToRaw der = .ok raw ∧ StrictDer der := by
  obtain ⟨r, encodedR, minimalR, filledR, shortR, backR⟩ :=
    encodeDerInteger_spec (List.length_take_of_le (by omega : 32 ≤ raw.length))
  obtain ⟨s, encodedS, minimalS, filledS, shortS, backS⟩ :=
    encodeDerInteger_spec (List.length_drop.trans (by rw [length] : raw.length - 32 = 32))
  have total : (derInteger r ++ derInteger s).length = r.length + s.length + 4 := by
    simp only [List.length_append, derInteger, List.length_cons]
    omega
  refine ⟨_, ?_, ?_, r, s, minimalR, minimalS, by omega, rfl⟩
  · rw [rawSignatureToDer, length, encodedR, encodedS]
    rfl
  · have size := UInt8.toNat_ofNat_of_lt' (show (derInteger r ++ derInteger s).length < 256 by omega)
    have readS : readDerInteger (derInteger s) = .ok (s, []) :=
      List.append_nil (derInteger s) ▸ readDerInteger_derInteger (by omega)
    rw [derSignatureToRaw, require_of_true, ok_bind, List.getD_cons_succ, List.getD_cons_zero,
      if_neg (by omega), List.drop_succ_cons, List.drop_succ_cons, List.drop_zero,
      readDerInteger_derInteger (by omega), ok_bind, readS, ok_bind, backR, ok_bind, backS, ok_bind,
      List.take_append_drop]
    simp [total]
    omega

/-- Components of zeros alone. -/
theorem zero_signature_strict : ∃ der, rawSignatureToDer (List.replicate 64 0) = .ok der ∧
    derSignatureToRaw der = .ok (List.replicate 64 0) ∧ StrictDer der :=
  rawSignatureToDer_strict _ List.length_replicate

end SpaceDataModule.EcdsaDer
