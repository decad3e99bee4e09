import SpaceDataModule.Transport.Decoded
import SpaceDataModule.Transport.Pki

/-! What is encrypted for a recipient is decrypted again. The record that travels with the
ciphertext holds the context trimmed, and the decoder takes fewer records than the encoder. -/
namespace SpaceDataModule.Transport
open Bundle (Bytes utf8)
open FlatBuffers hiding Bytes

/-- The primitives do what they are for. -/
structure Crypto.Correct (crypto : Crypto) : Prop where
  agreement : ∀ {first second firstPublic secondPublic : Bytes},
    crypto.x25519PublicKey first = .ok firstPublic →
    crypto.x25519PublicKey second = .ok secondPublic →
    crypto.x25519SharedSecret first secondPublic = crypto.x25519SharedSecret second firstPublic
  publicKey_length : ∀ {secret key : Bytes}, crypto.x25519PublicKey secret = .ok key →
    key.length = 32
  opens : ∀ {key plaintext nonce ciphertext tag : Bytes} {aad : Option Bytes},
    crypto.aesGcmEncrypt key plaintext nonce aad = .ok (ciphertext, tag) →
    crypto.aesGcmDecrypt key ciphertext tag nonce aad = .ok plaintext
  ciphertext_length : ∀ {key plaintext nonce ciphertext tag : Bytes} {aad : Option Bytes},
    crypto.aesGcmEncrypt key plaintext nonce aad = .ok (ciphertext, tag) →
    ciphertext.length = plaintext.length
  tag_length : ∀ {key plaintext nonce ciphertext tag : Bytes} {aad : Option Bytes},
    crypto.aesGcmEncrypt key plaintext nonce aad = .ok (ciphertext, tag) → tag.length = 16

def IsKeyPair (crypto : Crypto) (privateKey publicKey : KeyInput) : Prop :=
  ∃ secret key, normalizePrivateKey privateKey = .ok secret ∧
    crypto.x25519PublicKey secret = .ok key ∧ normalizePublicKey publicKey = .ok key

section Base64

/-- The limit on a text of base64 is one of 192 MiB on the bytes. -/
theorem base64ToBytes_bytesToBase64 (bytes : Bytes) :
    base64ToBytes (some (bytesToBase64 bytes)) =
      if bytes.length ≤ 201326592 then .ok bytes
      else .error "Base64 input exceeds 268435456 character limit." := by
  have characters : ∀ c ∈ '=' :: Base64.alphabet,
      JavaScript.isSpace c = false ∧ c.toNat < 0x10000 :=
    List.forall_iff_forall_mem.mp (by decide +kernel)
  have plain : JavaScript.trim (bytesToBase64 bytes) = bytesToBase64 bytes := by
    apply JavaScript.trim_eq_of_plain
    intro c member
    rw [bytesToBase64, String.toList_ofList] at member
    exact (characters c (Base64.mem_encode member)).1
  have length : (JavaScript.codeUnits (bytesToBase64 bytes)).length =
      4 * ((bytes.length + 2) / 3) := by
    rw [JavaScript.codeUnits_of_small, List.length_map, bytesToBase64, String.toList_ofList,
      Base64.length_encode]
    intro c member
    rw [bytesToBase64, String.toList_ofList] at member
    exact (characters c (Base64.mem_encode member)).2
  rw [base64ToBytes, Option.getD_some, plain, maxBase64Length]
  by_cases small : bytes.length ≤ 201326592
  · rw [if_neg (by omega), if_pos small, bytesToBase64, String.toList_ofList, Base64.decode_encode]
  · rw [if_pos (by omega), if_neg small]
    rfl

end Base64

section Records

theorem nameOfCode_gcm (codes : Codes) : nameOfCode codes.symmetricAlgorithms 1 = "AES_256_GCM" := by
  simp [nameOfCode, Codes.symmetricAlgorithms, codes.aes256Ctr_ne_gcm]

/-- A decoded record is packed from the table it was read from. -/
theorem encTableFromObject_record (exchange : table.keyExchange = codes.x25519)
    (symmetric : table.symmetric = 1) (derivation : table.keyDerivation = codes.hkdfSha256)
    (settled : table.Settled) (admissible : table.Admissible codes)
    (early : table.timestamp.toNat < 2 ^ 53) :
    encTableFromObject codes (table.record codes) = .ok table := by
  have exchanged : codes.normalizeKeyExchange (table.record codes).keyExchange =
      table.keyExchange := by
    have named : nameOfCode codes.keyExchanges codes.x25519 = "X25519" := by
      simp [nameOfCode, Codes.keyExchanges]
    rw [EncTable.record, exchange, named]
    rfl
  have sealing : codes.normalizeSymmetricAlgorithm (table.record codes).symmetric =
      .ok table.symmetric := by
    rw [EncTable.record, symmetric, nameOfCode_gcm]
    rfl
  have derived : codes.normalizeKdf (table.record codes).keyDerivation = table.keyDerivation := by
    have named : nameOfCode codes.keyDerivations codes.hkdfSha256 = "HKDF_SHA256" := by
      simp [nameOfCode, Codes.keyDerivations]
    rw [EncTable.record, derivation, named]
    rfl
  have stamped : UInt64.ofInt (table.record codes).timestamp = table.timestamp := by
    have whole : (table.record codes).timestamp = table.timestamp.toNat :=
      congrArg Nat.cast (JavaScript.nearestDouble_of_lt early)
    rw [whole, ← UInt64.toNat_inj, UInt64.ofInt, UInt64.toNat_ofNat']
    omega
  rw [encTableFromObject_decoded admissible settled sealing, exchanged, derived, stamped]

end Records

section Sealing

structure SealedBy (platform : Platform) (crypto : Crypto) (options : EncryptOptions)
    (draws : Draws) (sealed : Sealed) (sender : KeyPair) (plaintext aad : Bytes) : Prop where
  pair : IsKeyPair crypto sender.privateKey (.bytes sender.publicKey)
  record : sealed.enc = encRecordFor options sender draws
  sharedSecret : deriveSharedSecret crypto sender.privateKey options.recipientPublicKey =
    .ok sealed.sharedSecret
  given : toUint8Array options.plaintext = .ok plaintext
  encoded : encodeEncRecord platform sealed.enc = .ok aad
  encrypted : crypto.aesGcmEncrypt (deriveAesKey crypto sealed.sharedSecret [] options.context)
    plaintext draws.nonceStart (some aad) = .ok (sealed.ciphertext, sealed.tag)

theorem senderKeyPair_isKeyPair (chosen : senderKeyPair crypto given seed = .ok sender)
    (pairs : ∀ pair ∈ given, IsKeyPair crypto pair.privateKey (.bytes pair.publicKey)) :
    IsKeyPair crypto sender.privateKey (.bytes sender.publicKey) := by
  cases given with
  | none =>
    obtain ⟨key, derived, ⟨⟩⟩ := bind_eq_ok.mp chosen
    exact ⟨_, key, rfl, derived, rfl⟩
  | some pair =>
    cases chosen
    exact pairs _ rfl

theorem sealForRecipient_ok
    (pairs : ∀ pair ∈ options.senderKeyPair,
      IsKeyPair crypto pair.privateKey (.bytes pair.publicKey))
    (sealing : sealForRecipient platform crypto options draws = .ok sealed) :
    ∃ sender plaintext aad, SealedBy platform crypto options draws sealed sender plaintext aad := by
  obtain ⟨-, sealing⟩ := require_bind_eq_ok.mp sealing
  simp only [bind_eq_ok] at sealing
  obtain ⟨sender, chosen, secret, shared, plaintext, plain, aad, encoded, ⟨ciphertext, tag⟩,
    encrypted, made⟩ := sealing
  cases made
  exact ⟨sender, plaintext, aad, senderKeyPair_isKeyPair chosen pairs, rfl, shared, plain, encoded,
    encrypted⟩

end Sealing

section Keys

theorem given_of_normalizeKey (normalized : normalizeKey key = .ok bytes) : key.given = true := by
  cases key with
  | text hex =>
    rw [KeyInput.given, bne_iff_ne]
    rintro rfl
    cases normalized
  | bytes value =>
    rw [KeyInput.given, bne_iff_ne]
    rintro rfl
    cases normalized

/-- Both sides of a pair of key pairs derive one secret. -/
theorem deriveSharedSecret_comm (correct : crypto.Correct)
    (first : IsKeyPair crypto firstPrivate firstPublic)
    (second : IsKeyPair crypto secondPrivate secondPublic) :
    deriveSharedSecret crypto firstPrivate secondPublic =
      deriveSharedSecret crypto secondPrivate firstPublic := by
  obtain ⟨secret, key, hidden, derived, shown⟩ := first
  obtain ⟨otherSecret, otherKey, otherHidden, otherDerived, otherShown⟩ := second
  rw [deriveSharedSecret, deriveSharedSecret, hidden, otherShown, otherHidden, shown]
  exact correct.agreement derived otherDerived

theorem splitGcmPayload_append (length : tag.length = 16) :
    splitGcmPayload (ciphertext ++ tag) = .ok (ciphertext, tag) := by
  have split : (ciphertext ++ tag).length - gcmTagLength = ciphertext.length := by
    rw [List.length_append, length, gcmTagLength, Nat.add_sub_cancel]
  rw [splitGcmPayload, require_of_true, split, List.splitAt_eq, List.take_left, List.drop_left]
  · rfl
  · rw [decide_eq_true_iff, List.length_append, gcmTagLength]
    omega

end Keys

theorem getD_normalizeStringField (text : String) :
    (normalizeStringField (some text)).getD "" = JavaScript.trim text := by
  rw [normalizeStringField_text]
  split_ifs with blank
  · exact blank.symm
  · rfl

structure Fitting (options : EncryptOptions) : Prop where
  recipientKeyId : ∀ id, normalizeByteField options.recipientKeyId = .ok (some id) →
    id.length ≤ 32
  schemaHash : ∀ hash, normalizeByteField options.schemaHash = .ok (some hash) → hash.length = 32

theorem SealedBy.admissible_iff (correct : crypto.Correct) (drawn : draws.nonceStart.length = 12)
    (sealing : SealedBy platform crypto options draws sealed sender plaintext aad)
    {table : EncTable} (origin : table.From platform.codes sealed.enc) :
    table.Admissible platform.codes ↔ Fitting options := by
  have keyLength : ∀ key, toUint8Array sealed.enc.ephemeralPublicKey = .ok key →
      key.length = 32 := by
    obtain ⟨secret, key, -, derived, shown⟩ := sealing.pair
    intro other given
    rw [sealing.record] at given
    have matching : (Except.ok key : Except String Bytes) = .ok other := shown.symm.trans given
    cases matching
    exact correct.publicKey_length derived
  constructor
  · intro admissible
    have conforms := origin.conforms admissible (keyLength _ origin.ephemeralPublicKey)
    rw [sealing.record] at conforms
    exact ⟨conforms.recipientKeyId, conforms.schemaHash⟩
  · intro fitting
    refine origin.admissible ⟨keyLength, ?_, ?_, ?_⟩
    all_goals rw [sealing.record]
    · rintro nonce ⟨⟩
      exact drawn
    · exact fitting.recipientKeyId
    · exact fitting.schemaHash

section RoundTrip
variable {platform : Platform} {crypto : Crypto} {options : EncryptOptions} {draws : Draws}
  {sealed : Sealed} {plaintext blob recordCollection : Bytes} {recipientPrivateKey : KeyInput}

theorem protectedBlob_ok (packaged : protectedBlob platform sealed = .ok (blob, recordCollection)) :
    encodePublicationRecordCollection platform { enc := some sealed.enc } =
        .ok recordCollection ∧
      appendPublicationRecordCollection sealed.payloadBytes recordCollection = .ok blob := by
  simp only [protectedBlob, bind_eq_ok] at packaged
  obtain ⟨collection, packed, bytes, appended, made⟩ := packaged
  cases made
  exact ⟨packed, appended⟩

section
variable (packaged : protectedBlob platform sealed = .ok (blob, recordCollection))
  (faithful : ∀ collection, collectionTable platform { enc := some sealed.enc } = .ok collection →
    RecAt platform recordCollection collection)
include packaged faithful

/-- What a blob decodes to. -/
theorem extract_blob
    (made : encTableFromObject platform.codes sealed.enc = .ok table) :
    (table.Admissible platform.codes → ∃ extracted,
      extractPublicationRecordCollection platform blob = some extracted ∧
        extracted.enc = some (table.record platform.codes) ∧
        extracted.payloadBytes = sealed.payloadBytes) ∧
    (¬ table.Admissible platform.codes →
      extractPublicationRecordCollection platform blob = none) := by
  obtain ⟨packed, appended⟩ := protectedBlob_ok packaged
  obtain ⟨mbl, enc, collection, origin, found, lost⟩ := extract_encoded packed faithful appended
  obtain rfl : mbl = none := (Except.ok.inj origin.bundle).symm
  obtain rfl : enc = some table := by
    obtain ⟨other, listed, same⟩ := rel_mem_left (rel_of_mapM origin.encryption) rfl
    rw [made] at same
    cases same
    exact listed
  constructor
  · intro admissible
    obtain ⟨extracted, present, holds⟩ := found (.of_encryption admissible)
    exact ⟨extracted, present, holds.enc, holds.payload⟩
  · intro refused
    exact lost fun readable => refused (readable.encryption table rfl)

/-- Decryption of a blob: under the key of the trimmed context, or not at all. -/
theorem decryptProtectedBytes_blob (correct : crypto.Correct)
    (recipient : IsKeyPair crypto recipientPrivateKey options.recipientPublicKey)
    (drawn : draws.nonceStart.length = 12)
    (sealing : SealedBy platform crypto options draws sealed sender plaintext aad) :
    (Fitting options →
      decryptProtectedBytes platform crypto blob { recipientPrivateKey := recipientPrivateKey } =
        crypto.aesGcmDecrypt
          (deriveAesKey crypto sealed.sharedSecret [] (JavaScript.trim options.context))
          sealed.ciphertext sealed.tag draws.nonceStart (some aad)) ∧
    (¬ Fitting options →
      decryptProtectedBytes platform crypto blob { recipientPrivateKey := recipientPrivateKey } =
        .ok blob) := by
  obtain ⟨table, made, rfl⟩ := map_eq_ok.mp sealing.encoded
  have origin := encTableFromObject_from made
  obtain ⟨found, missing⟩ := extract_blob packaged faithful made
  rw [sealing.admissible_iff correct drawn origin] at found missing
  constructor
  · intro fitting
    obtain ⟨extracted, extraction, enc, payload⟩ := found fitting
    have admissible := (sealing.admissible_iff correct drawn origin).mpr fitting
    have keyLength := admissible.keyLength
    have nonceLength := admissible.nonceStart
    have given := origin
    rw [sealing.record] at given
    have exchange : table.keyExchange = platform.codes.x25519 := given.keyExchange
    have symmetric : table.symmetric = 1 := (Except.ok.inj given.symmetric).symm
    have derivation : table.keyDerivation = platform.codes.hkdfSha256 := given.keyDerivation
    have early : table.timestamp.toNat < 2 ^ 53 := by
      have now_le := draws.now_le
      have stored : table.timestamp = .ofInt draws.now := given.timestamp
      rw [stored, UInt64.ofInt, UInt64.toNat_ofNat']
      omega
    have gcm : assertGcmEncRecord (table.record platform.codes) = .ok () := by
      apply require_of_true
      rw [EncTable.record, symmetric, nameOfCode_gcm]
      rfl
    have context : (table.record platform.codes).context.getD "" =
        JavaScript.trim options.context := by
      rw [← getD_normalizeStringField]
      exact congrArg (Option.getD · "") given.context
    have key : toUint8Array (table.record platform.codes).ephemeralPublicKey =
        toUint8Array sender.publicKey :=
      (toUint8Array_bytesLike (by omega)).trans given.ephemeralPublicKey.symm
    have nonce : toUint8Array (table.record platform.codes).nonceStart = .ok draws.nonceStart :=
      (toUint8Array_bytesLike (by omega)).trans given.nonceStart.symm
    have secret : deriveSharedSecret crypto recipientPrivateKey
        (.bytes (table.record platform.codes).ephemeralPublicKey) = .ok sealed.sharedSecret := by
      rw [← sealing.sharedSecret, ← deriveSharedSecret_comm correct recipient sealing.pair,
        deriveSharedSecret, deriveSharedSecret]
      simp only [normalizePublicKey, normalizeKey, key]
    obtain ⟨hidden, -, opened, -⟩ := recipient
    have encoded : encodeEncRecord platform (table.record platform.codes) =
        .ok (platform.packEnc table) := by
      rw [encodeEncRecord, encTableFromObject_record exchange symmetric derivation origin.settled
        admissible early]
      rfl
    rw [decryptProtectedBytes, extraction]
    dsimp only
    rw [enc]
    dsimp only
    rw [gcm, ok_bind, resolveSharedSecret]
    rw [require_of_true (given_of_normalizeKey opened), ok_bind, secret, ok_bind, payload,
      Sealed.payloadBytes, splitGcmPayload_append (correct.tag_length sealing.encrypted), ok_bind,
      encoded, ok_bind, context, aesGcmDecrypt, nonce]
    rfl
  · intro refused
    rw [decryptProtectedBytes, missing refused]

end

theorem length_blob (correct : crypto.Correct)
    (sealing : SealedBy platform crypto options draws sealed sender plaintext aad)
    (packaged : protectedBlob platform sealed = .ok (blob, recordCollection)) :
    blob.length = plaintext.length + recordCollection.length + 24 := by
  obtain ⟨word, rfl, length, -⟩ :=
    appendPublicationRecordCollection_ok (protectedBlob_ok packaged).2
  have magic : trailerMagic.length = 4 := by decide
  simp only [Sealed.payloadBytes, List.length_append, correct.ciphertext_length sealing.encrypted,
    correct.tag_length sealing.encrypted]
  omega

/-- An envelope is decrypted through its blob, if the text is not too long. -/
theorem decryptBytesFromEnvelope_blob (filled : blob ≠ [])
    (given : recipientPrivateKey.given = true)
    (carried : envelope.protectedBlobBase64 = some (bytesToBase64 blob)) :
    decryptBytesFromEnvelope platform crypto envelope recipientPrivateKey =
      if blob.length ≤ 201326592 then
        decryptProtectedBytes platform crypto blob { recipientPrivateKey := recipientPrivateKey }
      else .error "Base64 input exceeds 268435456 character limit." := by
  have present : truthy (some (bytesToBase64 blob)) = true := by
    have length := Base64.length_encode blob
    have positive := List.length_pos_iff.mpr filled
    rw [truthy, Option.any_some, bne_iff_ne, bytesToBase64, ne_eq, ← String.toList_inj,
      String.toList_ofList]
    intro empty
    rw [empty] at length
    simp at length
    omega
  rw [decryptBytesFromEnvelope, require_of_true given, carried, base64ToBytes_bytesToBase64]
  split_ifs
  · rfl
  · rfl

/-- What survives the way through the record. -/
structure Deliverable (options : EncryptOptions) : Prop extends Fitting options where
  context : JavaScript.trim options.context = options.context

/-- **Encryption for a recipient.** The plaintext comes back exactly when the context is trimmed
and the lengths are those the decoder takes; from an envelope, if its text is not too long. -/
theorem decrypts_iff (correct : crypto.Correct)
    (recipient : IsKeyPair crypto recipientPrivateKey options.recipientPublicKey)
    (pairs : ∀ pair ∈ options.senderKeyPair,
      IsKeyPair crypto pair.privateKey (.bytes pair.publicKey))
    (drawn : draws.nonceStart.length = 12)
    (given : toUint8Array options.plaintext = .ok plaintext)
    (sealing : sealForRecipient platform crypto options draws = .ok sealed)
    (packaged : protectedBlob platform sealed = .ok (blob, recordCollection))
    (encrypted : encryptBytesForRecipient platform crypto options draws = .ok envelope)
    (faithful : ∀ collection,
      collectionTable platform { enc := some sealed.enc } = .ok collection →
      RecAt platform recordCollection collection)
    (separated : ∀ other aad, other ≠ options.context →
      crypto.aesGcmDecrypt (deriveAesKey crypto sealed.sharedSecret [] other) sealed.ciphertext
        sealed.tag draws.nonceStart aad ≠ .ok plaintext) :
    (decryptProtectedBytes platform crypto blob { recipientPrivateKey := recipientPrivateKey } =
        .ok plaintext ↔ Deliverable options) ∧
    (decryptBytesFromEnvelope platform crypto envelope recipientPrivateKey = .ok plaintext ↔
      Deliverable options ∧ plaintext.length + recordCollection.length + 24 ≤ 201326592) := by
  obtain ⟨sender, other, aad, sealedBy⟩ := sealForRecipient_ok pairs sealing
  obtain rfl : other = plaintext := Except.ok.inj (sealedBy.given.symm.trans given)
  have length := length_blob correct sealedBy packaged
  have filled : blob ≠ [] := by
    rintro rfl
    simp at length
  obtain ⟨fits, refuses⟩ :=
    decryptProtectedBytes_blob packaged faithful correct recipient drawn sealedBy
  have fromBlob : decryptProtectedBytes platform crypto blob
      { recipientPrivateKey := recipientPrivateKey } = .ok other ↔ Deliverable options := by
    by_cases fitting : Fitting options
    · rw [fits fitting]
      by_cases trimmed : JavaScript.trim options.context = options.context
      · rw [trimmed, correct.opens sealedBy.encrypted]
        exact ⟨fun _ => ⟨fitting, trimmed⟩, fun _ => rfl⟩
      · exact ⟨fun opened => absurd opened (separated _ _ trimmed),
          fun deliverable => absurd deliverable.context trimmed⟩
    · rw [refuses fitting]
      constructor
      · intro same
        cases same
        omega
      · exact fun deliverable => absurd deliverable.toFitting fitting
  refine ⟨fromBlob, ?_⟩
  have carried : envelope.protectedBlobBase64 = some (bytesToBase64 blob) := by
    rw [encryptBytesForRecipient, sealing, ok_bind, packaged, ok_bind] at encrypted
    simp only [createEncryptedEnvelopePayload, bind_eq_ok] at encrypted
    obtain ⟨_, -, _, -, _, -, _, -, made⟩ := encrypted
    cases made
    rfl
  obtain ⟨secret, -, opened, -⟩ := recipient
  rw [decryptBytesFromEnvelope_blob filled (given_of_normalizeKey opened) carried, ← fromBlob,
    ← length]
  split_ifs with small
  · exact (and_iff_left small).symm
  · constructor
    · intro refused
      cases refused
    · exact fun both => absurd both.2 small

end RoundTrip

section Practice

/-- Keys of one repeated byte; the cipher knows one key and hides nothing. -/
def practiceCrypto (known : Bytes) : Crypto where
  x25519PublicKey secret := .ok (List.replicate 32 (secret.headD 0))
  x25519SharedSecret secret key := .ok [secret.headD 0 * key.headD 0]
  hkdf secret salt info _ := secret ++ salt ++ info
  aesGcmEncrypt key plaintext _ _ :=
    if key = known then .ok (plaintext, List.replicate 16 0) else .error "unknown key"
  aesGcmDecrypt key ciphertext _ _ _ :=
    if key = known then .ok ciphertext else .error "authentication failed"

theorem practiceCrypto_correct (known : Bytes) : (practiceCrypto known).Correct where
  agreement := by
    rintro first second _ _ ⟨⟩ ⟨⟩
    exact congrArg (fun byte => Except.ok [byte]) (UInt8.mul_comm ..)
  publicKey_length := by
    rintro secret _ ⟨⟩
    rfl
  opens := by
    intro key plaintext nonce ciphertext tag aad encrypted
    simp only [practiceCrypto] at encrypted ⊢
    split_ifs at encrypted ⊢
    cases encrypted
    rfl
  ciphertext_length := by
    intro key plaintext nonce ciphertext tag aad encrypted
    simp only [practiceCrypto] at encrypted
    split_ifs at encrypted
    cases encrypted
    rfl
  tag_length := by
    intro key plaintext nonce ciphertext tag aad encrypted
    simp only [practiceCrypto] at encrypted
    split_ifs at encrypted
    cases encrypted
    rfl

theorem practiceCrypto_refuses (foreign : key ≠ known) (ciphertext tag nonce : Bytes)
    (aad : Option Bytes) :
    (practiceCrypto known).aesGcmDecrypt key ciphertext tag nonce aad =
      .error "authentication failed" := if_neg foreign

variable (context : String)

def practiceOptions : EncryptOptions where
  plaintext := .bytes [1, 2, 3]
  recipientPublicKey := .bytes (.bytes (List.replicate 32 3))
  context := context

def practiceDraws : Draws := ⟨[2], List.replicate 12 9, 0, by decide⟩

/-- The ENC record of `practiceOptions` in a REC buffer; the context is trimmed in it. -/
def encBuffer : Bytes :=
  [16, 0, 0, 0, 36, 82, 69, 67, 8, 0, 12, 0, 4, 0, 8, 0, 8, 0, 0, 0, 8, 0, 0, 0, 14, 0, 0, 0, 5,
    0, 0, 0, 49, 46, 48, 46, 48, 0, 1, 0, 0, 0, 14, 0, 0, 0, 10, 0, 13, 0, 4, 0, 5, 0, 9, 0, 10,
    0, 0, 0, 2, 38, 0, 0, 0, 4, 0, 0, 0, 3, 0, 0, 0, 69, 78, 67, 0, 22, 0, 25, 0, 0, 0, 0, 0, 4,
    0, 0, 0, 5, 0, 9, 0, 13, 0, 17, 0, 21, 0, 22, 0, 0, 0, 1, 20, 0, 0, 0, 52, 0, 0, 0, 64, 0, 0,
    0, 64, 0, 0, 0, 70, 0, 0, 0, 32, 0, 0, 0, 2, 2, 2, 2, 2, 2, 2, 2, 2, 2, 2, 2, 2, 2, 2, 2, 2,
    2, 2, 2, 2, 2, 2, 2, 2, 2, 2, 2, 2, 2, 2, 2, 12, 0, 0, 0, 9, 9, 9, 9, 9, 9, 9, 9, 9, 9, 9, 9,
    0, 0, 0, 0, 5, 0, 0, 0, 111, 114, 98, 105, 116, 0, 0, 0, 0, 0]

noncomputable def encPlatform : Platform := practicePlatform encBuffer {}

def practiceSealed : Sealed where
  enc := encRecordFor (practiceOptions context)
    ⟨.bytes (List.replicate 32 2), .bytes (.bytes [2])⟩ practiceDraws
  sharedSecret := [6]
  ciphertext := [1, 2, 3]
  tag := List.replicate 16 0

theorem practice_seals :
    sealForRecipient encPlatform (practiceCrypto ([6] ++ [] ++ utf8 context))
      (practiceOptions context) practiceDraws = .ok (practiceSealed context) := by
  rw [sealForRecipient]
  simp only [bind_eq_ok]
  exact ⟨(), rfl, _, rfl, _, rfl, _, rfl, _, rfl, _, if_pos rfl, rfl⟩

def practiceBlob : Bytes :=
  [1, 2, 3] ++ List.replicate 16 0 ++ encBuffer ++ [194, 0, 0, 0, 36, 82, 69, 67]

theorem practice_packaged :
    protectedBlob encPlatform (practiceSealed context) = .ok (practiceBlob, encBuffer) := by
  have appended : appendPublicationRecordCollection ([1, 2, 3] ++ List.replicate 16 0) encBuffer =
      .ok practiceBlob := by decide +kernel
  simp only [protectedBlob, bind_eq_ok]
  exact ⟨encBuffer, rfl, practiceBlob, appended, rfl⟩

theorem practice_recipient (known : Bytes) (context : String) :
    IsKeyPair (practiceCrypto known) (.bytes (.bytes [3]))
      (practiceOptions context).recipientPublicKey :=
  ⟨[3], List.replicate 32 3, rfl, rfl, rfl⟩

theorem practice_fitting (context : String) : Fitting (practiceOptions context) := by
  constructor
  · rintro _ ⟨⟩
  · rintro _ ⟨⟩

/-- With a trimmed context the plaintext comes back both ways. -/
theorem decrypts_practice : ∃ envelope,
    encryptBytesForRecipient encPlatform (practiceCrypto ([6] ++ [] ++ utf8 "orbit"))
        (practiceOptions "orbit") practiceDraws = .ok envelope ∧
      decryptProtectedBytes encPlatform (practiceCrypto ([6] ++ [] ++ utf8 "orbit"))
        practiceBlob { recipientPrivateKey := .bytes (.bytes [3]) } = .ok [1, 2, 3] ∧
      decryptBytesFromEnvelope encPlatform (practiceCrypto ([6] ++ [] ++ utf8 "orbit")) envelope
        (.bytes (.bytes [3])) = .ok [1, 2, 3] := by
  have faithful : ∀ collection,
      collectionTable encPlatform { enc := some (practiceSealed "orbit").enc } =
        .ok collection → RecAt encPlatform encBuffer collection := by
    rintro collection ⟨⟩
    decide +kernel
  have separated (other : String) (aad : Option Bytes) (differs : other ≠ "orbit") :
      (practiceCrypto ([6] ++ [] ++ utf8 "orbit")).aesGcmDecrypt
        (deriveAesKey (practiceCrypto ([6] ++ [] ++ utf8 "orbit")) [6] [] other) [1, 2, 3]
        (List.replicate 16 0) practiceDraws.nonceStart aad ≠ .ok [1, 2, 3] := by
    have foreign : [6] ++ [] ++ utf8 other ≠ [6] ++ [] ++ utf8 "orbit" := by
      intro same
      exact differs (Bundle.utf8_injective (List.append_cancel_left same))
    intro opened
    cases (practiceCrypto_refuses foreign _ _ _ _).symm.trans opened
  have deliverable : Deliverable (practiceOptions "orbit") :=
    ⟨practice_fitting _, by decide +kernel⟩
  obtain ⟨envelope, encrypted⟩ : ∃ envelope, encryptBytesForRecipient encPlatform
      (practiceCrypto ([6] ++ [] ++ utf8 "orbit")) (practiceOptions "orbit") practiceDraws =
        .ok envelope := by
    rw [encryptBytesForRecipient, practice_seals, ok_bind, practice_packaged]
    exact ⟨_, rfl⟩
  obtain ⟨fromBlob, fromEnvelope⟩ := decrypts_iff (practiceCrypto_correct _)
    (practice_recipient _ _) nofun rfl rfl (practice_seals "orbit") (practice_packaged "orbit")
    encrypted faithful separated
  exact ⟨envelope, encrypted, fromBlob.mpr deliverable,
    fromEnvelope.mpr ⟨deliverable, by decide +kernel⟩⟩

/-- A context with a blank before it is stored without it: what was encrypted is not decrypted. -/
theorem padded_context_lost :
    let crypto := practiceCrypto ([6] ++ [] ++ utf8 " orbit")
    sealForRecipient encPlatform crypto (practiceOptions " orbit") practiceDraws =
        .ok (practiceSealed " orbit") ∧
      protectedBlob encPlatform (practiceSealed " orbit") = .ok (practiceBlob, encBuffer) ∧
      decryptProtectedBytes encPlatform crypto practiceBlob
        { recipientPrivateKey := .bytes (.bytes [3]) } = .error "authentication failed" := by
  intro crypto
  have faithful : ∀ collection,
      collectionTable encPlatform { enc := some (practiceSealed " orbit").enc } =
        .ok collection → RecAt encPlatform encBuffer collection := by
    rintro collection ⟨⟩
    decide +kernel
  have foreign : [6] ++ [] ++ utf8 (JavaScript.trim " orbit") ≠ [6] ++ [] ++ utf8 " orbit" := by
    decide +kernel
  have generated : ∀ pair ∈ (practiceOptions " orbit").senderKeyPair,
      IsKeyPair crypto pair.privateKey (.bytes pair.publicKey) := nofun
  obtain ⟨sender, plaintext, aad, sealedBy⟩ :=
    sealForRecipient_ok generated (practice_seals " orbit")
  refine ⟨practice_seals " orbit", practice_packaged " orbit", ?_⟩
  rw [(decryptProtectedBytes_blob (practice_packaged " orbit") faithful (practiceCrypto_correct _)
    (practice_recipient _ _) rfl sealedBy).1 (practice_fitting _)]
  exact practiceCrypto_refuses foreign _ _ _ _

end Practice

end SpaceDataModule.Transport
