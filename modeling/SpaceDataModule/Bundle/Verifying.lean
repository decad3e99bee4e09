import SpaceDataModule.Bundle.Signing
import SpaceDataModule.Checked

/-! How `verifyModuleArtifact` decides on a signature entry that says what it should: hexadecimal
texts read back, and what is left is one comparison of hashes and one call of Ed25519. -/
namespace SpaceDataModule.Bundle
open Json

section Checks

export Checked (bind_eq_ok ok_bind)

theorem require_eq_ok {failure : Failure} : require holds failure = .ok done ↔ holds = true :=
  Checked.require_eq_ok

theorem orThrow_eq_ok (ok : orThrow value = .ok result) :
    value = some result := by
  cases value with
  | none => cases ok
  | some value =>
    cases ok
    rfl

theorem require_true (failure : Failure) : require true failure = .ok () := by
  rw [require, if_pos rfl]

end Checks

section Hex

theorem hexValue_digits (byte : UInt8) : UInt8.ofNat
    (hexValue (hexDigit (byte.toNat / 16)) * 16 + hexValue (hexDigit (byte.toNat % 16))) = byte := by
  have small := byte.toNat_lt
  rw [hexValue_hexDigit _ (by omega), hexValue_hexDigit _ (by omega), Nat.div_add_mod',
    UInt8.ofNat_toNat]

theorem hexPairs_digits (bytes : Bytes) : hexPairs (bytes.flatMap fun byte =>
    [hexDigit (byte.toNat / 16), hexDigit (byte.toNat % 16)]) = bytes := by
  induction bytes with
  | nil => rfl
  | cons byte bytes ih =>
    simp only [List.flatMap_cons, List.cons_append, List.nil_append, hexPairs, ih,
      hexValue_digits]

theorem bytesToHex_injective : Function.Injective bytesToHex := by
  intro left right same
  rw [← hexPairs_digits left, String.ofList_injective same, hexPairs_digits right]

theorem mem_bytesToHex (member : c ∈ (bytesToHex bytes).toList) :
    c ∈ "0123456789abcdef".toList := by
  rw [bytesToHex, String.toList_ofList, List.mem_flatMap] at member
  obtain ⟨byte, _, digit⟩ := member
  have small := byte.toNat_lt
  have listed : ∀ value < 16, hexDigit value ∈ "0123456789abcdef".toList := by decide
  rcases List.mem_pair.mp digit with rfl | rfl
  · exact listed _ (by omega)
  · exact listed _ (by omega)

theorem codeUnits_digits {text : String}
    (digits : ∀ c ∈ text.toList, c ∈ "0123456789abcdef".toList) :
    JavaScript.codeUnits text = text.toList.map Char.toNat := by
  have small : ∀ c ∈ "0123456789abcdef".toList, c.toNat < 0x10000 :=
    List.forall_iff_forall_mem.mp (by decide)
  exact JavaScript.codeUnits_of_small fun c member => small c (digits c member)

theorem toLowerCase_bytesToHex (bytes : Bytes) :
    JavaScript.toLowerCase (bytesToHex bytes) = bytesToHex bytes := by
  have lower : ∀ c ∈ "0123456789abcdef".toList, c.toNat < 128 ∧ c.toLower = c :=
    List.forall_iff_forall_mem.mp (by decide)
  have kept : (bytesToHex bytes).toList.map Char.toLower = (bytesToHex bytes).toList.map id :=
    List.map_congr_left fun c member => (lower c (mem_bytesToHex member)).2
  rw [JavaScript.toLowerCase_of_small fun c member => (lower c (mem_bytesToHex member)).1, kept,
    List.map_id, String.ofList_toList]

theorem trim_bytesToHex (bytes : Bytes) :
    JavaScript.trim (bytesToHex bytes) = bytesToHex bytes := by
  have dense : ∀ c ∈ "0123456789abcdef".toList, JavaScript.isSpace c = false :=
    List.forall_iff_forall_mem.mp (by decide)
  exact JavaScript.trim_eq_of_plain fun c member => dense c (mem_bytesToHex member)

theorem bytesToHex_length (bytes : Bytes) : (bytesToHex bytes).toList.length = 2 * bytes.length := by
  rw [bytesToHex, String.toList_ofList]
  induction bytes with
  | nil => rfl
  | cons byte bytes ih =>
    rw [List.flatMap_cons, List.length_append]
    simp only [List.length_cons, List.length_nil]
    omega

theorem hexToBytes_bytesToHex (bytes : Bytes) : hexToBytes (bytesToHex bytes) = .ok bytes := by
  have digits : (bytesToHex bytes).toList.all (· ∈ "0123456789abcdef".toList) = true := by
    rw [List.all_eq_true]
    intro c member
    exact decide_eq_true (mem_bytesToHex member)
  have even : ((bytesToHex bytes).toList.length % 2 == 0) = true := by
    rw [bytesToHex_length, beq_iff_eq]
    omega
  unfold hexToBytes
  simp only [trim_bytesToHex, toLowerCase_bytesToHex, digits, even]
  rw [bytesToHex, String.toList_ofList, hexPairs_digits]
  rfl

end Hex

section Payload
variable {Manifest : Type}

theorem checkKeys_of_known
    (known : ∀ member ∈ members, signaturePayloadKeys.contains member.1 = true) :
    checkKeys members = .ok () := by
  induction members with
  | nil => rfl
  | cons member rest ih =>
    obtain ⟨first, later⟩ := List.forall_mem_cons.mp known
    rw [checkKeys, keyVariant, if_pos first, ih later]

/-- The payload of a signature entry: these texts under known keys, and no statement domain. -/
structure Describes (payload : Value) (publicKey signature digest : Bytes)
    (signedHashAlgorithm : String) : Prop where
  known : ∃ members, payload = .object members ∧
    ∀ member ∈ members, signaturePayloadKeys.contains member.1 = true
  algorithm : property "algorithm" payload = some (.string "ed25519")
  publicKeyHex : property "publicKeyHex" payload = some (.string (bytesToHex publicKey))
  signatureHex : property "signatureHex" payload = some (.string (bytesToHex signature))
  signedHashHex : property "signedHashHex" payload = some (.string (bytesToHex digest))
  signedHashAlgorithm :
    property "signedHashAlgorithm" payload = some (.string signedHashAlgorithm)
  statementDomain : property "statementDomain" payload = none

theorem payloadText_of_string (stored : property key payload = some (.string value)) :
    payloadText host payload key = value := by
  rw [payloadText, stored]

variable {signedHashAlgorithm : String}

namespace Describes

section
variable (describes : Describes payload publicKey signature digest signedHashAlgorithm)
include describes

theorem decodes (parsed : host.parseJson entry.payload = some payload) :
    decodeSignaturePayload host entry = .ok payload := by
  obtain ⟨members, rfl, known⟩ := describes.known
  rw [decodeSignaturePayload, parsed]
  dsimp only
  rw [checkKeys_of_known known]
  rfl

theorem material (parsed : host.parseJson entry.payload = some payload)
    (signatureLength : signature.length = 64) (nonzero : signature.all (· == 0) = false)
    (keyLength : publicKey.length = 32) :
    signatureMaterial host entry = .ok ⟨payload, signature, bytesToHex publicKey, publicKey⟩ := by
  rw [signatureMaterial, describes.decodes parsed]
  simp only [payloadText_of_string describes.algorithm,
    payloadText_of_string describes.signatureHex, payloadText_of_string describes.publicKeyHex,
    trim_bytesToHex, toLowerCase_bytesToHex, hexToBytes_bytesToHex, signatureLength, keyLength,
    nonzero, ok_bind]
  rfl

theorem domain :
    trimGoWhitespace (payloadText host payload "statementDomain") = "" := by
  rw [payloadText, describes.statementDomain]
  rfl

/-- A signature entry that says what it should is held against the digest. -/
theorem verifySigned_eq (parsed : host.parseJson entry.payload = some payload)
    (signatureLength : signature.length = 64) (nonzero : signature.all (· == 0) = false)
    (keyLength : publicKey.length = 32) (keys : List String) :
    verifySigned host bytes artifact bundle entry keys = verifyDigest host bytes artifact bundle
      ⟨payload, signature, bytesToHex publicKey, publicKey⟩ (normalizeTrustedPublicKeys keys) := by
  rw [verifySigned, describes.material parsed signatureLength nonzero keyLength]
  simp only [describes.domain, bne_self_eq_false, Bool.false_and, Bool.not_false, require_true,
    ok_bind]
  rw [if_neg (by simp)]

/-- The digest is accepted where the module has the recorded hash and the signature is genuine. -/
theorem verifyDigest_ok
    (hashed : computeCanonicalModuleHash host artifact.payloadBytes sdsCustomSectionPrefix = some canonical)
    (recorded : bundle.canonicalModuleHash = canonical.2)
    (digested : signedDigest host bytes canonical.2 signedHashAlgorithm = .ok (digest, scope))
    (listed : trusted.contains (bytesToHex publicKey) = true)
    (genuine : host.ed25519Verify digest signature publicKey = true) :
    ∃ report, verifyDigest host bytes artifact bundle
        ⟨payload, signature, bytesToHex publicKey, publicKey⟩ trusted = .ok (.verified report) ∧
      report.signatureScope = scope ∧ report.publicKeyHex = bytesToHex publicKey ∧
        report.signedHashHex = bytesToHex digest := by
  rw [verifyDigest, hashed]
  simp only [orThrow, ok_bind, recorded, beq_self_eq_true,
    payloadText_of_string describes.signedHashAlgorithm, digested,
    payloadText_of_string describes.signedHashHex, toLowerCase_bytesToHex, requireTrustedSigner,
    listed, genuine]
  exact ⟨_, rfl, rfl, rfl, rfl⟩

end

end Describes

/-- A key in lower case hexadecimal text is a trusted one as it is. -/
theorem trusted_of_mem (keyLength : publicKey.length = 32) (listed : bytesToHex publicKey ∈ keys) :
    (normalizeTrustedPublicKeys keys).contains (bytesToHex publicKey) = true := by
  have units : (JavaScript.codeUnits (bytesToHex publicKey)).length = 64 := by
    rw [codeUnits_digits fun c => mem_bytesToHex, List.length_map, bytesToHex_length, keyLength]
  rw [List.contains_iff_mem, normalizeTrustedPublicKeys, List.mem_filter, List.mem_map]
  refine ⟨⟨_, listed, ?_⟩, beq_iff_eq.mpr units⟩
  rw [trim_bytesToHex, toLowerCase_bytesToHex]

end Payload

end SpaceDataModule.Bundle
