import SpaceDataModule.Transport.Marketplace

/-! Unwrapping a content key. The key of a wrap is derived for the recipient's key id as it was
given, and derived again for the id in the wrap, which is trimmed. -/
namespace SpaceDataModule.Transport
open Bundle (Bytes utf8)

/-- KMF is read back as it was written. -/
structure KeyMaterialFormat.Faithful (kmf : KeyMaterialFormat) : Prop where
  identified : ∀ keyId keyBytes expiry, kmf.bufferHasIdentifier (kmf.createKMF keyId keyBytes expiry)
  readBack : ∀ keyId keyBytes expiry, kmf.getRootAsKMF (kmf.createKMF keyId keyBytes expiry) =
    some ⟨kmf.publicationContent, kmf.aes256Gcm, some keyBytes⟩

def Recipient.spelled (recipient : Recipient) : String := recipient.recipientKeyId.getD ""

/-- The context a wrap was made for. -/
def Wrap.madeFor (wrap : Wrap) (recipient : Recipient) : String :=
  wrapContext wrap.providerId wrap.contentKeyId recipient.spelled

/-- A key derived for another context does not open what the wrap carries. -/
def Wrap.Separated (crypto : Crypto) (wrap : Wrap) (privateKey : KeyInput) (context : String) :
    Prop :=
  ∀ secret other message,
    deriveSharedSecret crypto privateKey wrap.providerEphemeralPublicKey = .ok secret →
    other ≠ context →
    aesGcmDecrypt crypto (deriveAesKey crypto secret [] other) wrap.ciphertext wrap.tag wrap.nonce
      wrap.aad ≠ .ok message

section Unwrapping
variable {engine : Auth.Engine} {crypto : Crypto} {kmf : KeyMaterialFormat}
  {options : ProtectOptions} {recipient : Recipient} {wrap : Wrap}

theorem decodeContentKeyMaterial_encoded (faithful : kmf.Faithful) (length : keyBytes.length = 32)
    (encoded : encodeContentKeyMaterial kmf keyId keyBytes expiry = .ok material) :
    decodeContentKeyMaterial kmf material = .ok keyBytes := by
  unfold encodeContentKeyMaterial at encoded
  split at encoded
  · split_ifs at encoded
    cases encoded
    rw [decodeContentKeyMaterial, require_of_true (faithful.identified ..), faithful.readBack]
    simp [length]
  · cases encoded
  · cases encoded

/-- What a wrap carries: key material under the key of the recipient's id as it was given. -/
theorem wrapContentKey_seals (correct : crypto.Correct)
    (pairs : ∀ pair ∈ options.providerWrapKeyPair,
      IsKeyPair crypto pair.privateKey (.bytes pair.publicKey))
    (holder : IsKeyPair crypto privateKey recipient.publicKey)
    (wrapped : wrapContentKey engine crypto kmf options binding keyBytes draws recipient =
      .ok wrap) :
    wrap.recipientKeyId = JavaScript.trim recipient.spelled ∧ ∃ secret material,
      deriveSharedSecret crypto privateKey wrap.providerEphemeralPublicKey = .ok secret ∧
      encodeContentKeyMaterial kmf binding.contentKeyId keyBytes recipient.expiresAtMs =
        .ok material ∧
      aesGcmDecrypt crypto (deriveAesKey crypto secret [] (wrap.madeFor recipient)) wrap.ciphertext
        wrap.tag wrap.nonce wrap.aad = .ok material := by
  rw [wrapContentKey] at wrapped
  simp only [bind_eq_ok] at wrapped
  obtain ⟨sender, paired, key, normalized, iv, -, _, -, aad, -, secret, shared, material, encoded,
    ⟨ciphertext, tag⟩, encrypted, peer, -, terms, named, made⟩ := wrapped
  have own := senderKeyPair_isKeyPair paired pairs
  have its : IsKeyPair crypto privateKey (.bytes (.bytes key)) := by
    obtain ⟨hidden, shown, first, derived, read⟩ := holder
    cases normalized.symm.trans read
    exact ⟨hidden, _, first, derived, rfl⟩
  cases made
  refine ⟨?_, secret, material, ?_, encoded, correct.opens encrypted⟩
  · simp only [normalizeTerms, bind_eq_ok] at named
    obtain ⟨_, -, id, spelled, _, -, made⟩ := named
    cases made
    rw [normalizeRequiredString] at spelled
    split_ifs at spelled
    exact (Except.ok.inj spelled).symm
  · rw [← shared]
    exact (deriveSharedSecret_comm correct own its).symm

/-- **Unwrapping.** The holder of the recipient's private key gets the content key exactly when
the recipient's key id was given without white space around it. -/
theorem unwraps_iff (correct : crypto.Correct) (faithful : kmf.Faithful)
    (pairs : ∀ pair ∈ options.providerWrapKeyPair,
      IsKeyPair crypto pair.privateKey (.bytes pair.publicKey))
    (protects : protectMarketplaceContent engine crypto kmf options draws = .ok content)
    (chosen : givenOr options.contentKey draws.contentKey = .ok contentKey)
    (listed : (recipient, wrap) ∈ options.recipients.zip content.wrappedKeys)
    (holder : IsKeyPair crypto privateKey recipient.publicKey)
    (separated : wrap.Separated crypto privateKey (wrap.madeFor recipient)) :
    decryptMarketplaceContentKeyWrap crypto kmf wrap { recipientPrivateKey := privateKey } =
        .ok contentKey ↔
      JavaScript.trim recipient.spelled = recipient.spelled := by
  obtain ⟨binding, _, drawn, length, wraps⟩ := protectMarketplaceContent_wraps protects
  cases chosen.symm.trans drawn
  obtain ⟨_, wrapped⟩ := List.forall₂_zip wraps listed
  obtain ⟨named, secret, material, shared, encoded, opens⟩ :=
    wrapContentKey_seals correct pairs holder wrapped
  obtain ⟨_, _, hidden, -⟩ := holder
  have resolved (request : Agreement) : resolveSharedSecret crypto
      "decryptMarketplaceContentKeyWrap" { recipientPrivateKey := privateKey } request =
        deriveSharedSecret crypto privateKey request.ephemeralPublicKey := by
    rw [resolveSharedSecret, require_of_true (given_of_normalizeKey hidden), ok_bind]
  rw [decryptMarketplaceContentKeyWrap, resolved, shared, ok_bind, named]
  constructor
  · intro returned
    by_contra differs
    obtain ⟨message, opened, -⟩ := bind_eq_ok.mp returned
    exact separated secret _ message shared (mt (String.append_right_inj _).mp differs) opened
  · intro same
    rw [same]
    exact bind_eq_ok.mpr
      ⟨material, opens, decodeContentKeyMaterial_encoded faithful length encoded⟩

end Unwrapping

section Practice

/-- The one key the cipher knows: the content key, and the key of its wrap. -/
def unwrapKey (spelled : String) : Bytes := [6] ++ [] ++ utf8 (wrapContext "p" "k1" spelled)

def unwrapBinding : ArtifactBinding :=
  { practiceBinding with providerId := "p", contentKeyId := "k1" }

def spelledRecipient (spelled : String) : Recipient :=
  { practiceRecipient with recipientKeyId := some spelled }

def spelledProtection (spelled : String) : ProtectOptions where
  plaintext := .bytes [1, 2, 3]
  artifact := unwrapBinding.artifact
  recipients := [spelledRecipient spelled]
  contentKey := .bytes (unwrapKey spelled)

def spelledWrap (spelled named : String) (aad : Bytes) : Wrap :=
  { practiceWrap aad with
    providerId := "p", contentKeyId := "k1", recipientKeyId := named
    ciphertext := .bytes (unwrapKey spelled), tag := .bytes (List.replicate 16 0) }

theorem spelled_protects (spelled named : String) (length : (unwrapKey spelled).length = 32)
    (terms : normalizeTerms unwrapBinding (spelledRecipient spelled) =
      .ok { practiceTerms with providerId := "p", contentKeyId := "k1", recipientKeyId := named }) :
    ∃ aad content, protectMarketplaceContent practiceEngine (practiceCrypto (unwrapKey spelled))
        rawKeyMaterial (spelledProtection spelled) protectionDraws = .ok content ∧
      content.wrappedKeys = [spelledWrap spelled named aad] := by
  have bound : normalizeArtifactBinding unwrapBinding.artifact = .ok unwrapBinding := by
    decide +kernel
  have peer : normalizeRequiredString (spelledRecipient spelled).recipientPeerId
      "recipient.recipientPeerId" = .ok "peer" :=
    (by decide +kernel : normalizeRequiredString (some "peer") _ = _)
  obtain ⟨aad, sealedWith⟩ : ∃ aad, createWrapAad practiceEngine unwrapBinding
      (spelledRecipient spelled) wrapAlgorithm = .ok aad := by
    rw [createWrapAad, terms, ok_bind]
    exact ⟨_, Auth.canonicalBytes_of_finite rfl⟩
  refine ⟨aad, protects_single bound bound rfl length rfl rfl rfl (fun _ => ⟨_, if_pos rfl⟩) rfl ?_⟩
  rw [wrapContentKey]
  simp only [bind_eq_ok]
  exact ⟨_, rfl, _, rfl, _, rfl, _, rfl, _, sealedWith, _, rfl, _, rfl, _, if_pos rfl, _, peer, _,
    terms, rfl⟩

theorem spelled_refuses (foreign : key ≠ unwrapKey spelled) (named : String) (aad : Bytes) :
    let wrap := spelledWrap spelled named aad
    aesGcmDecrypt (practiceCrypto (unwrapKey spelled)) key wrap.ciphertext wrap.tag wrap.nonce
      wrap.aad = .error "authentication failed" :=
  practiceCrypto_refuses foreign (unwrapKey spelled) (List.replicate 16 0) (List.replicate 12 6)
    (some aad)

theorem unwraps_plain : ∃ aad,
    decryptMarketplaceContentKeyWrap (practiceCrypto (unwrapKey "r1")) rawKeyMaterial
      (spelledWrap "r1" "r1" aad) { recipientPrivateKey := .bytes (.bytes [3]) } =
        .ok (unwrapKey "r1") := by
  obtain ⟨aad, content, protects, wraps⟩ :=
    spelled_protects "r1" "r1" (by decide +kernel) (by decide +kernel)
  have listed : (spelledRecipient "r1", spelledWrap "r1" "r1" aad) ∈
      (spelledProtection "r1").recipients.zip content.wrappedKeys := by
    rw [wraps]
    exact List.mem_singleton_self _
  have faithful : rawKeyMaterial.Faithful := ⟨fun _ _ _ => rfl, fun _ _ _ => rfl⟩
  have generated : ∀ pair ∈ (spelledProtection "r1").providerWrapKeyPair,
      IsKeyPair (practiceCrypto (unwrapKey "r1")) pair.privateKey (.bytes pair.publicKey) := nofun
  refine ⟨aad, (unwraps_iff (practiceCrypto_correct _) faithful generated protects rfl listed
    ⟨[3], _, rfl, rfl, rfl⟩ ?_).mpr (by decide +kernel)⟩
  rintro _ other message ⟨⟩ differs opened
  have foreign : [6] ++ [] ++ utf8 other ≠ unwrapKey "r1" := by
    intro same
    exact differs (Bundle.utf8_injective (List.append_cancel_left same))
  cases (spelled_refuses foreign "r1" aad).symm.trans opened

/-- A key id with a blank before it: the wrap is accepted, and its key is not derived again. -/
theorem padded_key_id_lost : ∃ aad content,
    protectMarketplaceContent practiceEngine (practiceCrypto (unwrapKey " r")) rawKeyMaterial
        (spelledProtection " r") protectionDraws = .ok content ∧
      content.wrappedKeys = [spelledWrap " r" "r" aad] ∧
      decryptMarketplaceContentKeyWrap (practiceCrypto (unwrapKey " r")) rawKeyMaterial
        (spelledWrap " r" "r" aad) { recipientPrivateKey := .bytes (.bytes [3]) } =
          .error "authentication failed" := by
  obtain ⟨aad, content, protects, wraps⟩ :=
    spelled_protects " r" "r" (by decide +kernel) (by decide +kernel)
  have foreign : unwrapKey "r" ≠ unwrapKey " r" := by decide +kernel
  exact ⟨aad, content, protects, wraps, congrArg (· >>= decodeContentKeyMaterial rawKeyMaterial)
    (spelled_refuses foreign "r" aad)⟩

end Practice

end SpaceDataModule.Transport
