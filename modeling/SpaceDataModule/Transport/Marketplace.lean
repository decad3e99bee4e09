import SpaceDataModule.Transport.Encryption

/-! Content for a marketplace: one content key, wrapped for each recipient together with the terms
of a grant. -/
namespace SpaceDataModule.Transport
open Bundle (Bytes)
open Json

section Bindings

def normalizeRequiredString (value : Option String) (name : String) : Except String String :=
  let normalized := JavaScript.trim (value.getD "")
  if normalized = "" then .error (name ++ " is required.") else .ok normalized

/-- `normalizeOptionalBytes`: hexadecimal text, bytes, or nothing. -/
def normalizeOptionalBytes : KeyInput → Except String Bytes
  | .bytes .null => .ok []
  | value => normalizeKey value

structure Artifact where
  listingId : Option String
  moduleId : Option String
  version : Option String
  encryptedCid : Option String
  encryptedHash : KeyInput
  providerId : Option String
  policyId : Option String
  keyEpoch : Option String
  manifestHash : KeyInput
  contentKeyId : Option String := none

structure ArtifactBinding where
  listingId : String
  moduleId : String
  version : String
  encryptedCid : String
  encryptedHash : String
  providerId : String
  policyId : String
  keyEpoch : String
  manifestHash : String
  contentKeyId : String
  deriving DecidableEq

def normalizeArtifactBinding (artifact : Artifact) : Except String ArtifactBinding := do
  let listingId ← normalizeRequiredString artifact.listingId "artifact.listingId"
  let moduleId ← normalizeRequiredString artifact.moduleId "artifact.moduleId"
  let version ← normalizeRequiredString artifact.version "artifact.version"
  let encryptedCid ← normalizeRequiredString artifact.encryptedCid "artifact.encryptedCid"
  let providerId ← normalizeRequiredString artifact.providerId "artifact.providerId"
  let policyId ← normalizeRequiredString artifact.policyId "artifact.policyId"
  let keyEpoch ← normalizeRequiredString artifact.keyEpoch "artifact.keyEpoch"
  let given := JavaScript.trim (artifact.contentKeyId.getD "")
  let encryptedHash ← normalizeOptionalBytes artifact.encryptedHash
  require (encryptedHash.length == 32) "artifact.encryptedHash must be 32 bytes."
  let manifestHash ← normalizeOptionalBytes artifact.manifestHash
  require (manifestHash.length == 32) "artifact.manifestHash must be 32 bytes."
  return {
    listingId := listingId, moduleId := moduleId, version := version, encryptedCid := encryptedCid
    encryptedHash := Bundle.bytesToHex encryptedHash, providerId := providerId
    policyId := policyId, keyEpoch := keyEpoch, manifestHash := Bundle.bytesToHex manifestHash
    contentKeyId := if given = "" then
        listingId ++ ":" ++ moduleId ++ ":" ++ version ++ ":" ++ keyEpoch
      else given }

/-- A binding where an artifact is expected. -/
def ArtifactBinding.artifact (binding : ArtifactBinding) : Artifact where
  listingId := some binding.listingId
  moduleId := some binding.moduleId
  version := some binding.version
  encryptedCid := some binding.encryptedCid
  encryptedHash := .text binding.encryptedHash
  providerId := some binding.providerId
  policyId := some binding.policyId
  keyEpoch := some binding.keyEpoch
  manifestHash := .text binding.manifestHash
  contentKeyId := some binding.contentKeyId

def createMarketplaceContentAad (engine : Auth.Engine) (artifact : Artifact) :
    Except String Bytes := do
  let binding ← normalizeArtifactBinding artifact
  Auth.canonicalBytes engine (.object [
    ("encryptedCid", .string binding.encryptedCid),
    ("encryptedHash", .string binding.encryptedHash),
    ("keyEpoch", .string binding.keyEpoch), ("listingId", .string binding.listingId),
    ("manifestHash", .string binding.manifestHash), ("moduleId", .string binding.moduleId),
    ("policyId", .string binding.policyId), ("providerId", .string binding.providerId),
    ("version", .string binding.version)])

end Bindings

section Terms

structure Recipient where
  publicKey : KeyInput
  recipientPeerId : Option String
  recipientKeyId : Option String
  grantId : Option String
  scope : Option String
  expiresAtMs : JavaScript.Number := .finite 0

structure Terms where
  grantId : String
  scope : String
  expiresAtMs : JavaScript.Number
  encryptedCid : String
  providerId : String
  contentKeyId : String
  recipientKeyId : String
  deriving DecidableEq

/-- The members of the object whose canonical bytes a wrap is sealed with. -/
def Terms.members (terms : Terms) (keyEpoch algorithm : String) : List (String × Value) :=
  [("algorithm", .string algorithm), ("contentKeyId", .string terms.contentKeyId),
    ("encryptedCid", .string terms.encryptedCid), ("expiresAtMs", .number terms.expiresAtMs),
    ("grantId", .string terms.grantId), ("keyEpoch", .string keyEpoch),
    ("providerId", .string terms.providerId), ("recipientKeyId", .string terms.recipientKeyId),
    ("scope", .string terms.scope)]

def normalizeTerms (binding : ArtifactBinding) (recipient : Recipient) : Except String Terms := do
  let grantId ← normalizeRequiredString recipient.grantId "recipient.grantId"
  let recipientKeyId ← normalizeRequiredString recipient.recipientKeyId "recipient.recipientKeyId"
  let scope ← normalizeRequiredString recipient.scope "recipient.scope"
  return {
    grantId := grantId, scope := scope, expiresAtMs := recipient.expiresAtMs
    encryptedCid := binding.encryptedCid, providerId := binding.providerId
    contentKeyId := binding.contentKeyId, recipientKeyId := recipientKeyId }

def createWrapAad (engine : Auth.Engine) (binding : ArtifactBinding) (recipient : Recipient)
    (algorithm : String) : Except String Bytes := do
  let terms ← normalizeTerms binding recipient
  Auth.canonicalBytes engine (.object (terms.members binding.keyEpoch algorithm))

end Terms

section KeyMaterial

/-- What the accessors of a KMF table return. -/
structure KeyMaterial where
  role : UInt8
  algorithm : UInt8
  keyBytes : Option Bytes

/-- KMF of the standards package. -/
structure KeyMaterialFormat where
  publicationContent : UInt8
  aes256Gcm : UInt8
  /-- Key id, key bytes and expiry, with the role, algorithm and encoding of a content key. -/
  createKMF : String → Bytes → Int → Bytes
  bufferHasIdentifier : Bytes → Bool
  /-- `none` where an accessor throws. -/
  getRootAsKMF : Bytes → Option KeyMaterial

variable (kmf : KeyMaterialFormat)

/-- `BigInt` takes no fraction. -/
def encodeContentKeyMaterial (keyId : String) (keyBytes : Bytes) :
    JavaScript.Number → Except String Bytes
  | .finite value =>
    if value.den = 1 then .ok (kmf.createKMF keyId keyBytes value.num)
    else .error "cannot be converted to a BigInt because it is not an integer"
  | .nan | .infinity _ => .error "cannot be converted to a BigInt because it is not an integer"

def decodeContentKeyMaterial (payload : Bytes) : Except String Bytes := do
  require (kmf.bufferHasIdentifier payload)
    "Wrapped marketplace content key payload is not a KMF record."
  let material ← match kmf.getRootAsKMF payload with
    | some material => Except.ok material
    | none => .error "RangeError"
  require (material.role == kmf.publicationContent)
    "Wrapped marketplace key material is not a publication content key."
  require (material.algorithm == kmf.aes256Gcm)
    "Wrapped marketplace key material is not an AES-256-GCM key."
  let keyBytes := material.keyBytes.getD []
  require (keyBytes.length == 32) "Wrapped marketplace content key must be 32 bytes."
  return keyBytes

end KeyMaterial

section Wraps

structure Wrap where
  algorithm : Option String
  contentKeyId : String
  recipientPeerId : String
  recipientKeyId : String
  providerId : String
  encryptedCid : String
  grantId : String
  scope : String
  expiresAtMs : JavaScript.Number
  providerEphemeralPublicKey : KeyInput
  nonce : BytesLike
  aad : BytesLike
  ciphertext : BytesLike
  tag : BytesLike

def Wrap.terms (wrap : Wrap) : Terms where
  grantId := wrap.grantId
  scope := wrap.scope
  expiresAtMs := wrap.expiresAtMs
  encryptedCid := wrap.encryptedCid
  providerId := wrap.providerId
  contentKeyId := wrap.contentKeyId
  recipientKeyId := wrap.recipientKeyId

def wrapAlgorithm : String := "X25519-HKDF-SHA256-AES-256-GCM-KMF"

def wrapContext (providerId contentKeyId recipientKeyId : String) : String :=
  "marketplace-content-key:" ++ providerId ++ ":" ++ contentKeyId ++ ":" ++ recipientKeyId

structure ProtectOptions where
  plaintext : BytesLike
  artifact : Artifact
  recipients : List Recipient
  contentKey : BytesLike := .null
  contentNonce : BytesLike := .null
  providerWrapKeyPair : Option KeyPair := none
  wrapNonce : BytesLike := .null

/-- What is drawn for the content, and for each recipient: the seed of a key pair and a nonce. -/
structure ProtectDraws where
  contentKey : Bytes
  contentNonce : Bytes
  wraps : Nat → Bytes × Bytes

def givenOr (value : BytesLike) (drawn : Bytes) : Except String Bytes :=
  if value = .null then .ok drawn else toUint8Array value

variable (engine : Auth.Engine) (crypto : Crypto) (kmf : KeyMaterialFormat)

/-- One turn of the loop over the recipients. The context of the key has the recipient's key id
as it was given, the wrap has it trimmed. -/
def wrapContentKey (options : ProtectOptions) (binding : ArtifactBinding) (keyBytes : Bytes)
    (draws : Bytes × Bytes) (recipient : Recipient) : Except String Wrap := do
  let sender ← senderKeyPair crypto options.providerWrapKeyPair draws.1
  let recipientPublicKey ← normalizePublicKey recipient.publicKey
  let wrapIv ← givenOr options.wrapNonce draws.2
  require (wrapIv.length == 12) "AES-256-GCM key wrapping requires a 12-byte nonce."
  let wrapAad ← createWrapAad engine binding recipient wrapAlgorithm
  let sharedSecret ← deriveSharedSecret crypto sender.privateKey
    (.bytes (.bytes recipientPublicKey))
  let wrapKey := deriveAesKey crypto sharedSecret [] (wrapContext binding.providerId
    binding.contentKeyId (recipient.recipientKeyId.getD ""))
  let keyMaterial ← encodeContentKeyMaterial kmf binding.contentKeyId keyBytes
    recipient.expiresAtMs
  let (ciphertext, tag) ← crypto.aesGcmEncrypt wrapKey keyMaterial wrapIv (some wrapAad)
  let recipientPeerId ← normalizeRequiredString recipient.recipientPeerId
    "recipient.recipientPeerId"
  let terms ← normalizeTerms binding recipient
  return {
    algorithm := some wrapAlgorithm, contentKeyId := binding.contentKeyId
    recipientPeerId := recipientPeerId, recipientKeyId := terms.recipientKeyId
    providerId := binding.providerId, encryptedCid := binding.encryptedCid
    grantId := terms.grantId, scope := terms.scope, expiresAtMs := recipient.expiresAtMs
    providerEphemeralPublicKey := .bytes sender.publicKey
    nonce := .bytes wrapIv, aad := .bytes wrapAad, ciphertext := .bytes ciphertext
    tag := .bytes tag }

structure ProtectedContent where
  contentKeyId : String
  artifact : ArtifactBinding
  aad : Bytes
  nonce : Bytes
  ciphertext : Bytes
  tag : Bytes
  wrappedKeys : List Wrap

def protectMarketplaceContent (options : ProtectOptions) (draws : ProtectDraws) :
    Except String ProtectedContent := do
  require (!options.recipients.isEmpty)
    "protectMarketplaceContent requires at least one recipient."
  let binding ← normalizeArtifactBinding options.artifact
  let keyBytes ← givenOr options.contentKey draws.contentKey
  require (keyBytes.length == 32) "Marketplace content keys must be 32 bytes."
  let nonce ← givenOr options.contentNonce draws.contentNonce
  require (nonce.length == 12) "AES-256-GCM content encryption requires a 12-byte nonce."
  let aad ← createMarketplaceContentAad engine binding.artifact
  let plaintext ← toUint8Array options.plaintext
  let (ciphertext, tag) ← crypto.aesGcmEncrypt keyBytes plaintext nonce (some aad)
  let wrappedKeys ← options.recipients.zipIdx.mapM fun (recipient, index) =>
    wrapContentKey engine crypto kmf options binding keyBytes (draws.wraps index) recipient
  return ⟨binding.contentKeyId, binding, aad, nonce, ciphertext, tag, wrappedKeys⟩

def keyExchangeFromAlgorithm (algorithm : Option String) : String :=
  let first := ((JavaScript.split '-' (algorithm.getD "")).head?).getD ""
  if first = "" then "X25519" else first

def decryptMarketplaceContentKeyWrap (wrap : Wrap) (custody : Custody) : Except String Bytes := do
  let context := wrapContext wrap.providerId wrap.contentKeyId wrap.recipientKeyId
  let sharedSecret ← resolveSharedSecret crypto "decryptMarketplaceContentKeyWrap" custody
    ⟨wrap.providerEphemeralPublicKey, context, .name (keyExchangeFromAlgorithm wrap.algorithm)⟩
  let wrapKey := deriveAesKey crypto sharedSecret [] context
  let keyMaterial ← aesGcmDecrypt crypto wrapKey wrap.ciphertext wrap.tag wrap.nonce wrap.aad
  decodeContentKeyMaterial kmf keyMaterial

end Wraps

section Authentication

theorem property_terms (terms : Terms) (epoch algorithm key : String) :
    Bundle.property key (seen (Auth.canonical engine (.object (terms.members epoch algorithm)))) =
      ((terms.members epoch algorithm).lookup key).map fun value =>
        seen (Auth.canonical engine value) := by
  apply Auth.property_canonical
  rw [Terms.members]
  simp

/-- The canonical bytes of the terms tell them apart. -/
theorem terms_eq_of_canonicalBytes {first second : Terms}
    (left : Auth.canonicalBytes engine (.object (first.members epoch algorithm)) = .ok bytes)
    (right : Auth.canonicalBytes engine (.object (second.members otherEpoch otherAlgorithm)) =
      .ok bytes) : first = second := by
  have finite {terms : Terms} {epoch algorithm : String}
      (written : Auth.canonicalBytes engine (.object (terms.members epoch algorithm)) = .ok bytes) :
      ∃ value, terms.expiresAtMs = .finite value := by
    have numbers := Auth.finite_of_canonicalBytes written
    cases expiry : terms.expiresAtMs with
    | finite value => exact ⟨value, rfl⟩
    | nan => simp [Terms.members, expiry, Auth.finite, Auth.finiteMembers] at numbers
    | infinity positive => simp [Terms.members, expiry, Auth.finite, Auth.finiteMembers] at numbers
  obtain ⟨expiry, firstExpiry⟩ := finite left
  obtain ⟨otherExpiry, secondExpiry⟩ := finite right
  have member (key : String) :=
    congrArg (Bundle.property key) (Auth.seen_eq_of_canonicalBytes left right)
  simp only [property_terms] at member
  have contentKeyId := member "contentKeyId"
  have encryptedCid := member "encryptedCid"
  have expiresAtMs := member "expiresAtMs"
  have grantId := member "grantId"
  have providerId := member "providerId"
  have recipientKeyId := member "recipientKeyId"
  have scope := member "scope"
  simp only [Terms.members, List.lookup_cons, String.reduceBEq, Option.map_some, Auth.canonical,
    seen, firstExpiry, secondExpiry, Option.some.injEq, Value.string.injEq, Value.number.injEq]
    at contentKeyId encryptedCid expiresAtMs grantId providerId recipientKeyId scope
  rw [← firstExpiry, ← secondExpiry] at expiresAtMs
  cases first
  cases second
  simp only [Terms.mk.injEq]
  exact ⟨grantId, scope, expiresAtMs, encryptedCid, providerId, contentKeyId, recipientKeyId⟩

/-- A wrap is sealed with the canonical bytes of its own terms. -/
theorem wrapContentKey_aad
    (wrapped : wrapContentKey engine crypto kmf options binding keyBytes draws recipient =
      .ok wrap) :
    ∃ aad, Auth.canonicalBytes engine
        (.object (wrap.terms.members binding.keyEpoch wrapAlgorithm)) = .ok aad ∧
      wrap.aad = .bytes aad := by
  rw [wrapContentKey] at wrapped
  simp only [bind_eq_ok] at wrapped
  obtain ⟨sender, -, key, -, iv, -, _, -, aad, sealedWith, secret, -, material, -, ⟨ciphertext, tag⟩,
    -, peer, -, terms, named, made⟩ := wrapped
  rw [createWrapAad, named] at sealedWith
  cases made
  refine ⟨aad, ?_, rfl⟩
  have own : terms = ⟨terms.grantId, terms.scope, recipient.expiresAtMs, binding.encryptedCid,
      binding.providerId, binding.contentKeyId, terms.recipientKeyId⟩ := by
    simp only [normalizeTerms, bind_eq_ok] at named
    obtain ⟨grantId, -, recipientKeyId, -, scope, -, made⟩ := named
    cases made
    rfl
  rw [own] at sealedWith
  exact sealedWith

/-- The content key is wrapped for each recipient. -/
theorem protectMarketplaceContent_wraps
    (protects : protectMarketplaceContent engine crypto kmf options draws = .ok content) :
    ∃ binding keyBytes, givenOr options.contentKey draws.contentKey = .ok keyBytes ∧
      keyBytes.length = 32 ∧ List.Forall₂ (fun recipient wrap => ∃ draws, wrapContentKey engine
        crypto kmf options binding keyBytes draws recipient = .ok wrap) options.recipients
          content.wrappedKeys := by
  rw [protectMarketplaceContent] at protects
  simp only [bind_eq_ok, require_eq_ok, beq_iff_eq] at protects
  obtain ⟨_, -, binding, -, keyBytes, chosen, _, length, nonce, -, _, -, aad, -, plaintext, -,
    sealedContent, -, wraps, mapped, made⟩ := protects
  cases made
  refine ⟨binding, keyBytes, chosen, length, ?_⟩
  rw [← List.zipIdx_map_fst 0 options.recipients, List.forall₂_map_left_iff]
  exact (Checked.mapM_eq_ok.mp mapped).imp fun _ _ wrapped => ⟨_, wrapped⟩

/-- Whoever opens what the wrap carries uses the additional data it was sealed with. -/
def Wrap.Unforgeable (crypto : Crypto) (wrap : Wrap) : Prop :=
  ∀ ciphertext tag aad, toUint8Array wrap.ciphertext = .ok ciphertext →
    toUint8Array wrap.tag = .ok tag → toUint8Array wrap.aad = .ok aad →
    ∀ key nonce other message, crypto.aesGcmDecrypt key ciphertext tag nonce other = .ok message →
      other = some aad

/-- The additional data of the wrap are those of the terms it shows. -/
def Wrap.StatesTerms (engine : Auth.Engine) (wrap : Wrap) : Prop :=
  ∃ epoch algorithm aad,
    Auth.canonicalBytes engine (.object (wrap.terms.members epoch algorithm)) = .ok aad ∧
      toUint8Array wrap.aad = .ok aad

theorem decrypt_accepts
    (accepted : decryptMarketplaceContentKeyWrap crypto kmf wrap custody = .ok contentKey) :
    ∃ key ciphertext tag nonce aad message, toUint8Array wrap.ciphertext = .ok ciphertext ∧
      toUint8Array wrap.tag = .ok tag ∧
      (∀ bytes, aad = some bytes → toUint8Array wrap.aad = .ok bytes) ∧
      crypto.aesGcmDecrypt key ciphertext tag nonce aad = .ok message := by
  rw [decryptMarketplaceContentKeyWrap] at accepted
  simp only [bind_eq_ok] at accepted
  obtain ⟨secret, -, message, opened, -⟩ := accepted
  rw [aesGcmDecrypt] at opened
  simp only [bind_eq_ok] at opened
  obtain ⟨ciphertext, carried, tag, tagged, nonce, -, aad, given, opened⟩ := opened
  refine ⟨_, ciphertext, tag, nonce, aad, message, carried, tagged, ?_, opened⟩
  rintro bytes rfl
  rw [additionalData] at given
  split_ifs at given
  · cases given
  · obtain ⟨other, read, ⟨⟩⟩ := map_eq_ok.mp given
    exact read

/-- **Marketplace key wraps.** An accepted wrap with a ciphertext of the provider shows the terms
of that ciphertext exactly when its additional data are those of the terms it shows, which
decryption does not check. -/
theorem accepted_terms_iff {options : ProtectOptions} {draws : ProtectDraws}
    {content : ProtectedContent} {original wrap : Wrap} {custody : Custody} {contentKey : Bytes}
    (protects : protectMarketplaceContent engine crypto kmf options draws = .ok content)
    (listed : original ∈ content.wrappedKeys) (unforgeable : original.Unforgeable crypto)
    (accepted : decryptMarketplaceContentKeyWrap crypto kmf wrap custody = .ok contentKey)
    (ciphertext : toUint8Array wrap.ciphertext = toUint8Array original.ciphertext)
    (tag : toUint8Array wrap.tag = toUint8Array original.tag) :
    wrap.terms = original.terms ↔ wrap.StatesTerms engine := by
  obtain ⟨binding, keyBytes, -, -, wraps⟩ := protectMarketplaceContent_wraps protects
  obtain ⟨recipient, -, _, wrapped⟩ := Checked.forall₂_mem_right wraps listed
  obtain ⟨aad, sealedWith, stored⟩ := wrapContentKey_aad wrapped
  obtain ⟨key, found, mark, nonce, given, message, carried, tagged, read, opened⟩ :=
    decrypt_accepts accepted
  have same : given = some aad := by
    refine unforgeable found mark aad ?_ ?_ ?_ key nonce given message opened
    · rw [← ciphertext, carried]
    · rw [← tag, tagged]
    · rw [stored]
      rfl
  have shown := read aad same
  constructor
  · intro equal
    rw [← equal] at sealedWith
    exact ⟨binding.keyEpoch, wrapAlgorithm, aad, sealedWith, shown⟩
  · rintro ⟨otherEpoch, algorithm, other, stated, attached⟩
    obtain rfl : other = aad := Except.ok.inj (attached.symm.trans shown)
    exact terms_eq_of_canonicalBytes stated sealedWith

/-- Content for one recipient is protected if its key is wrapped. -/
theorem protects_single (bound : normalizeArtifactBinding options.artifact = .ok binding)
    (again : normalizeArtifactBinding binding.artifact = .ok binding)
    (key : givenOr options.contentKey draws.contentKey = .ok keyBytes)
    (keyLength : keyBytes.length = 32)
    (nonce : givenOr options.contentNonce draws.contentNonce = .ok nonceBytes)
    (nonceLength : nonceBytes.length = 12) (read : toUint8Array options.plaintext = .ok plaintext)
    (encrypts : ∀ aad, ∃ result, crypto.aesGcmEncrypt keyBytes plaintext nonceBytes aad = .ok result)
    (only : options.recipients = [recipient])
    (wrapped : wrapContentKey engine crypto kmf options binding keyBytes (draws.wraps 0) recipient =
      .ok wrap) :
    ∃ content, protectMarketplaceContent engine crypto kmf options draws = .ok content ∧
      content.wrappedKeys = [wrap] := by
  obtain ⟨aad, written⟩ : ∃ aad, createMarketplaceContentAad engine binding.artifact = .ok aad := by
    rw [createMarketplaceContentAad, again, ok_bind]
    exact ⟨_, Auth.canonicalBytes_of_finite rfl⟩
  obtain ⟨⟨ciphertext, tag⟩, encrypted⟩ := encrypts (some aad)
  have mapped : options.recipients.zipIdx.mapM (fun (recipient, index) => wrapContentKey engine
      crypto kmf options binding keyBytes (draws.wraps index) recipient) = .ok [wrap] := by
    rw [only]
    exact Checked.mapM_eq_ok.mpr (.cons wrapped .nil)
  rw [protectMarketplaceContent, only]
  simp only [bind_eq_ok, require_eq_ok, beq_iff_eq]
  exact ⟨_, ⟨(), rfl, _, bound, _, key, (), keyLength, _, nonce, (), nonceLength, _, written, _,
    read, _, encrypted, _, only ▸ mapped, rfl⟩, rfl⟩

end Authentication

section Practice

/-- A cipher that hides nothing; its tag is the additional data. -/
def taggingCrypto : Crypto where
  x25519PublicKey secret := .ok (List.replicate 32 (secret.headD 0))
  x25519SharedSecret secret key := .ok [secret.headD 0 * key.headD 0]
  hkdf secret salt info _ := secret ++ salt ++ info
  aesGcmEncrypt _ plaintext _ aad := .ok (plaintext, aad.getD [])
  aesGcmDecrypt _ ciphertext tag _ aad :=
    if aad = some tag then .ok ciphertext else .error "authentication failed"

def rawKeyMaterial : KeyMaterialFormat where
  publicationContent := 1
  aes256Gcm := 2
  createKMF _ keyBytes _ := keyBytes
  bufferHasIdentifier _ := true
  getRootAsKMF bytes := some ⟨1, 2, some bytes⟩

def practiceArtifact : Artifact where
  listingId := some "catalog"
  moduleId := some "orbits"
  version := some "1"
  encryptedCid := some "bafy"
  encryptedHash := .bytes (.bytes (List.replicate 32 4))
  providerId := some "provider"
  policyId := some "paid"
  keyEpoch := some "5"
  manifestHash := .bytes (.bytes (List.replicate 32 7))
  contentKeyId := some "key"

def practiceBinding : ArtifactBinding :=
  ⟨"catalog", "orbits", "1", "bafy", Bundle.bytesToHex (List.replicate 32 4), "provider", "paid",
    "5", Bundle.bytesToHex (List.replicate 32 7), "key"⟩

def practiceRecipient : Recipient where
  publicKey := .bytes (.bytes (List.replicate 32 3))
  recipientPeerId := some "peer"
  recipientKeyId := some "alpha"
  grantId := some "grant-a"
  scope := some "read"

def practiceProtection : ProtectOptions where
  plaintext := .bytes [1, 2, 3]
  artifact := practiceArtifact
  recipients := [practiceRecipient]

def protectionDraws : ProtectDraws :=
  ⟨List.replicate 32 8, List.replicate 12 9, fun _ => ([2], List.replicate 12 6)⟩

noncomputable def practiceEngine : Auth.Engine := (practicePlatform [] {}).toEngine

def practiceTerms : Terms :=
  ⟨"grant-a", "read", .finite 0, "bafy", "provider", "key", "alpha"⟩

def practiceWrap (aad : Bytes) : Wrap where
  algorithm := some wrapAlgorithm
  contentKeyId := "key"
  recipientPeerId := "peer"
  recipientKeyId := "alpha"
  providerId := "provider"
  encryptedCid := "bafy"
  grantId := "grant-a"
  scope := "read"
  expiresAtMs := .finite 0
  providerEphemeralPublicKey := .bytes (.bytes (List.replicate 32 2))
  nonce := .bytes (List.replicate 12 6)
  aad := .bytes aad
  ciphertext := .bytes (List.replicate 32 8)
  tag := .bytes aad

theorem practice_wraps : ∃ aad, wrapContentKey practiceEngine taggingCrypto rawKeyMaterial
    practiceProtection practiceBinding (List.replicate 32 8) (protectionDraws.wraps 0)
    practiceRecipient = .ok (practiceWrap aad) := by
  have terms : normalizeTerms practiceBinding practiceRecipient = .ok practiceTerms := by
    decide +kernel
  obtain ⟨aad, sealedWith⟩ : ∃ aad,
      createWrapAad practiceEngine practiceBinding practiceRecipient wrapAlgorithm = .ok aad := by
    rw [createWrapAad, terms, ok_bind]
    exact ⟨_, Auth.canonicalBytes_of_finite rfl⟩
  have peer : normalizeRequiredString practiceRecipient.recipientPeerId
      "recipient.recipientPeerId" = .ok "peer" := by decide +kernel
  refine ⟨aad, ?_⟩
  rw [wrapContentKey]
  simp only [bind_eq_ok]
  exact ⟨_, rfl, _, rfl, _, rfl, _, rfl, _, sealedWith, _, rfl, _, rfl, _, rfl, _, peer, _, terms,
    rfl⟩

theorem practice_protects : ∃ aad content,
    protectMarketplaceContent practiceEngine taggingCrypto rawKeyMaterial practiceProtection
      protectionDraws = .ok content ∧ content.wrappedKeys = [practiceWrap aad] := by
  have bound : normalizeArtifactBinding practiceArtifact = .ok practiceBinding := by decide +kernel
  have again : normalizeArtifactBinding practiceBinding.artifact = .ok practiceBinding := by
    decide +kernel
  obtain ⟨aad, wrapped⟩ := practice_wraps
  exact ⟨aad, protects_single bound again rfl rfl rfl rfl rfl (fun _ => ⟨_, rfl⟩) rfl wrapped⟩

theorem practice_unforgeable (aad : Bytes) : (practiceWrap aad).Unforgeable taggingCrypto := by
  rintro _ _ _ ⟨⟩ ⟨⟩ ⟨⟩ key nonce other message opened
  rw [taggingCrypto] at opened
  dsimp only at opened
  split_ifs at opened with same
  exact same

theorem practice_accepts (aad : Bytes) : decryptMarketplaceContentKeyWrap taggingCrypto
    rawKeyMaterial (practiceWrap aad) { recipientPrivateKey := .bytes (.bytes [3]) } =
      .ok (List.replicate 32 8) := by
  rw [decryptMarketplaceContentKeyWrap]
  simp only [bind_eq_ok]
  exact ⟨_, rfl, List.replicate 32 8, if_pos rfl, rfl⟩

theorem accepted_terms_practice : ∃ aad, (practiceWrap aad).StatesTerms practiceEngine := by
  obtain ⟨aad, content, protects, wraps⟩ := practice_protects
  exact ⟨aad, (accepted_terms_iff protects (wraps ▸ List.mem_singleton_self _)
    (practice_unforgeable aad) (practice_accepts aad) rfl rfl).mp rfl⟩

/-- The grant of a wrap is replaced by another one, and the key is unwrapped all the same. -/
theorem grant_replaced : ∃ content, ∃ original ∈ content.wrappedKeys, ∃ wrap : Wrap,
    protectMarketplaceContent practiceEngine taggingCrypto rawKeyMaterial practiceProtection
        protectionDraws = .ok content ∧
      original.Unforgeable taggingCrypto ∧
      wrap = { original with grantId := "grant-b", expiresAtMs := .finite 1 } ∧
      wrap.terms ≠ original.terms ∧
      decryptMarketplaceContentKeyWrap taggingCrypto rawKeyMaterial wrap
        { recipientPrivateKey := .bytes (.bytes [3]) } = .ok (List.replicate 32 8) := by
  obtain ⟨aad, content, protects, wraps⟩ := practice_protects
  refine ⟨content, practiceWrap aad, wraps ▸ List.mem_singleton_self _, _, protects,
    practice_unforgeable aad, rfl, ?_, ?_⟩
  · intro same
    have grants := congrArg Terms.grantId same
    exact absurd grants (by decide : "grant-b" ≠ "grant-a")
  · -- Decryption does not read the grant.
    exact practice_accepts aad

end Practice

end SpaceDataModule.Transport
