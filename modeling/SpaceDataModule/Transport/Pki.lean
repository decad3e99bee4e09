import SpaceDataModule.Base64
import SpaceDataModule.Transport.Records

/-! Encryption for one recipient. X25519, HKDF and AES-GCM stand in `Crypto`; what is drawn at
random and the time are arguments. -/
namespace SpaceDataModule.Transport
open Bundle (Bytes utf8)

section Texts

def hexUnit (unit : Nat) : Option Nat :=
  if 48 ≤ unit ∧ unit ≤ 57 then some (unit - 48)
  else if 97 ≤ unit ∧ unit ≤ 102 then some (unit - 87)
  else none

/-- The byte that `parseInt` of two code units leaves in an array: it stops at what is no digit,
takes a sign or white space before the first one, and NaN is stored as zero. -/
def parsePair (first second : Nat) : UInt8 :=
  match hexUnit first, hexUnit second with
  | some high, some low => UInt8.ofNat (high * 16 + low)
  | some high, none => UInt8.ofNat high
  | none, some low =>
    if first = 45 then UInt8.ofNat (256 - low)
    else if first = 43 || JavaScript.isSpace (Char.ofNat first) then UInt8.ofNat low
    else 0
  | none, none => 0

def parsePairs : List Nat → Bytes
  | first :: second :: rest => parsePair first second :: parsePairs rest
  | _ => []

def withoutRadix : List Char → List Char
  | '0' :: 'x' :: rest => rest
  | '0' :: 'X' :: rest => rest
  | text => text

/-- `hexToBytes` of the encoding utilities. -/
def hexToBytes (hex : String) : Except String Bytes :=
  let normalized := JavaScript.codeUnits (JavaScript.toLowerCase
    (String.ofList (withoutRadix (JavaScript.trim hex).toList)))
  if normalized.length = 0 || normalized.length % 2 != 0 then
    .error "Expected even-length hex string."
  else .ok (parsePairs normalized)

def bytesToBase64 (bytes : Bytes) : String := String.ofList (Base64.encode bytes)

def maxBase64Length : Nat := 256 * 1024 * 1024

def base64ToBytes (base64 : Option String) : Except String Bytes :=
  let str := JavaScript.trim (base64.getD "")
  if (JavaScript.codeUnits str).length > maxBase64Length then
    .error ("Base64 input exceeds " ++ toString maxBase64Length ++ " character limit.")
  else .ok (Base64.decode str.toList)

def truthy (text : Option String) : Bool := text.any (· != "")

end Texts

section Keys

/-- A key as a caller gives it: hexadecimal text or bytes. -/
inductive KeyInput where
  | text (hex : String)
  | bytes (value : BytesLike)
  deriving DecidableEq

def KeyInput.given : KeyInput → Bool
  | .text hex => hex != ""
  | .bytes value => value != .null

def normalizeKey : KeyInput → Except String Bytes
  | .text hex => hexToBytes hex
  | .bytes value => toUint8Array value

def normalizePublicKey : KeyInput → Except String Bytes := normalizeKey

def normalizePrivateKey : KeyInput → Except String Bytes := normalizeKey

/-- The wallet's primitives; they throw on keys and nonces they do not take. -/
structure Crypto where
  x25519PublicKey : Bytes → Except String Bytes
  x25519SharedSecret : Bytes → Bytes → Except String Bytes
  /-- Key material, salt, info, length. -/
  hkdf : Bytes → Bytes → Bytes → Nat → Bytes
  /-- Key, plaintext, nonce and additional data, to ciphertext and tag. -/
  aesGcmEncrypt : Bytes → Bytes → Bytes → Option Bytes → Except String (Bytes × Bytes)
  /-- Key, ciphertext, tag, nonce and additional data. -/
  aesGcmDecrypt : Bytes → Bytes → Bytes → Bytes → Option Bytes → Except String Bytes

variable (crypto : Crypto)

def deriveSharedSecret (privateKey publicKey : KeyInput) : Except String Bytes := do
  let privateKey ← normalizePrivateKey privateKey
  let publicKey ← normalizePublicKey publicKey
  crypto.x25519SharedSecret privateKey publicKey

def deriveAesKey (sharedSecret salt : Bytes) (context : String) : Bytes :=
  crypto.hkdf sharedSecret salt (utf8 context) 32

/-- What a key agreement provider is asked for. -/
structure Agreement where
  ephemeralPublicKey : KeyInput
  context : String
  keyExchange : Algorithm

/-- What the recipient holds: the private key, or a provider that keeps it. -/
structure Custody where
  recipientPrivateKey : KeyInput := .bytes .null
  keyAgreement : Option (Agreement → Except String BytesLike) := none

def resolveSharedSecret (label : String) (custody : Custody) (request : Agreement) :
    Except String Bytes :=
  match custody.keyAgreement with
  | some keyAgreement => do
    require (!custody.recipientPrivateKey.given)
      (label ++ " accepts either recipientPrivateKey or keyAgreement, not both.")
    let sharedSecret ← toUint8Array (← keyAgreement request)
    require (sharedSecret.length == 32)
      (label ++ " keyAgreement provider must resolve a 32-byte shared secret.")
    return sharedSecret
  | none => do
    require custody.recipientPrivateKey.given
      (label ++ " requires recipientPrivateKey or keyAgreement.")
    deriveSharedSecret crypto custody.recipientPrivateKey request.ephemeralPublicKey

structure KeyPair where
  publicKey : BytesLike
  privateKey : KeyInput

/-- `seed` is what `randomBytes(32)` returns. -/
def generateX25519Keypair (seed : Bytes) : Except String KeyPair := do
  let publicKey ← crypto.x25519PublicKey seed
  return ⟨.bytes publicKey, .bytes (.bytes seed)⟩

def senderKeyPair (given : Option KeyPair) (seed : Bytes) : Except String KeyPair :=
  match given with
  | some pair => .ok pair
  | none => generateX25519Keypair crypto seed

end Keys

section Payloads
variable (crypto : Crypto)

def gcmTagLength : Nat := 16

/-- Ciphertext and tag. -/
def splitGcmPayload (payload : Bytes) : Except String (Bytes × Bytes) := do
  require (gcmTagLength ≤ payload.length) "AES-256-GCM protected payload is truncated."
  return payload.splitAt (payload.length - gcmTagLength)

def Algorithm.display : Algorithm → String
  | .code value => toString value.toNat
  | .name text => text

def assertGcmEncRecord (enc : EncRecord) : Except String Unit :=
  require (enc.symmetric == .name "AES_256_GCM")
    ("Unsupported ENC symmetric algorithm \"" ++ enc.symmetric.display ++
      "\"; only AES_256_GCM is supported.")

/-- Additional data that is null is left out. -/
def additionalData (aad : BytesLike) : Except String (Option Bytes) :=
  if aad = .null then .ok none else (toUint8Array aad).map some

def aesGcmDecrypt (key : Bytes) (ciphertext tag iv aad : BytesLike) : Except String Bytes := do
  let ciphertext ← toUint8Array ciphertext
  let tag ← toUint8Array tag
  let iv ← toUint8Array iv
  let aad ← additionalData aad
  crypto.aesGcmDecrypt key ciphertext tag iv aad

end Payloads

section Recipient
variable (platform : Platform) (crypto : Crypto)

/-- Bytes without an ENC record behind them are returned as they are. -/
def decryptProtectedBytes (protectedBytes : Bytes) (custody : Custody) : Except String Bytes :=
  match extractPublicationRecordCollection platform protectedBytes with
  | none => .ok protectedBytes
  | some parsed =>
    match parsed.enc with
    | none => .ok protectedBytes
    | some enc => do
      assertGcmEncRecord enc
      let context := enc.context.getD ""
      let sharedSecret ← resolveSharedSecret crypto "decryptProtectedBytes" custody
        ⟨.bytes enc.ephemeralPublicKey, context, enc.keyExchange⟩
      let aesKey := deriveAesKey crypto sharedSecret [] context
      let (ciphertext, tag) ← splitGcmPayload parsed.payloadBytes
      let aad ← encodeEncRecord platform enc
      aesGcmDecrypt crypto aesKey (.bytes ciphertext) (.bytes tag) enc.nonceStart (.bytes aad)

structure ParsedBlob where
  payloadBytes : Bytes
  recordCollectionBytes : Bytes
  enc : Option EncRecord
  pnm : Option PnmRecord

def Extracted.parsed (extracted : Extracted) : ParsedBlob :=
  ⟨extracted.payloadBytes, extracted.recordCollectionBytes, extracted.enc, extracted.pnm⟩

structure EnvelopeOptions where
  protectedBlobBytes : Bytes
  parsedProtectedBlob : Option ParsedBlob := none
  enc : Option EncRecord := none
  version : Nat := 2
  scheme : Option String := none
  context : Option String := none

/-- An envelope; the salt and the IV are those of the format without a record. -/
structure Envelope where
  version : Nat
  scheme : String
  context : Option String := none
  protectedBlobBase64 : Option String := none
  recordCollectionBase64 : Option String := none
  ciphertextBase64 : Option String := none
  senderPublicKeyBase64 : Option String := none
  nonceStartBase64 : Option String := none
  recipientKeyIdBase64 : Option String := none
  encRecordBase64 : Option String := none
  pnmRecordBase64 : Option String := none
  saltBase64 : Option String := none
  ivBase64 : Option String := none

/-- The text of a field of the record, if it is there. -/
def base64Field : Option BytesLike → Except String (Option String)
  | none | some .null => .ok none
  | some value => do return some (bytesToBase64 (← toUint8Array value))

def createEncryptedEnvelopePayload (options : EnvelopeOptions) : Except String Envelope := do
  let parsed := options.parsedProtectedBlob.or
    ((extractPublicationRecordCollection platform options.protectedBlobBytes).map
      Extracted.parsed)
  let enc := options.enc.or (parsed.bind ParsedBlob.enc)
  let senderPublicKey ← base64Field (enc.map EncRecord.ephemeralPublicKey)
  let nonceStart ← base64Field (enc.map EncRecord.nonceStart)
  let recipientKeyId ← base64Field (enc.map EncRecord.recipientKeyId)
  let encRecord ← enc.mapM (encodeEncRecord platform)
  return {
    version := options.version
    scheme := (normalizeStringField options.scheme).getD "x25519-hkdf-aes-256-gcm-rec"
    context := some
      ((normalizeStringField (options.context.or (enc.bind EncRecord.context))).getD "")
    protectedBlobBase64 := some (bytesToBase64 options.protectedBlobBytes)
    recordCollectionBase64 := parsed.map (bytesToBase64 ·.recordCollectionBytes)
    ciphertextBase64 := parsed.map (bytesToBase64 ·.payloadBytes)
    senderPublicKeyBase64 := senderPublicKey
    nonceStartBase64 := nonceStart
    recipientKeyIdBase64 := recipientKeyId
    encRecordBase64 := encRecord.map bytesToBase64
    pnmRecordBase64 := (parsed.bind ParsedBlob.pnm).map fun pnm =>
      bytesToBase64 (encodePnmRecord platform pnm) }

structure EncryptOptions where
  plaintext : BytesLike
  recipientPublicKey : KeyInput
  context : String := "space-data-module-sdk/package"
  senderKeyPair : Option KeyPair := none
  recipientKeyId : BytesLike := .null
  schemaHash : BytesLike := .null
  rootType : Option String := none

/-- What a call draws: the seed of a generated key pair, the nonce, and the time in milliseconds,
which is at most 8.64e15. -/
structure Draws where
  seed : Bytes
  nonceStart : Bytes
  now : Nat
  now_le : now ≤ 8640000000000000

structure Sealed where
  enc : EncRecord
  sharedSecret : Bytes
  ciphertext : Bytes
  tag : Bytes

def Sealed.payloadBytes (sealed : Sealed) : Bytes := sealed.ciphertext ++ sealed.tag

variable (options : EncryptOptions)

def encRecordFor (sender : KeyPair) (draws : Draws) : EncRecord where
  ephemeralPublicKey := sender.publicKey
  nonceStart := .bytes draws.nonceStart
  recipientKeyId := options.recipientKeyId
  context := some options.context
  schemaHash := options.schemaHash
  rootType := options.rootType
  timestamp := draws.now

/-- The part of `encryptBytesForRecipient` before the records: the encoded ENC record is the
additional data. -/
def sealForRecipient (draws : Draws) : Except String Sealed := do
  require options.recipientPublicKey.given "encryptBytesForRecipient requires recipientPublicKey."
  let sender ← senderKeyPair crypto options.senderKeyPair draws.seed
  let sharedSecret ← deriveSharedSecret crypto sender.privateKey options.recipientPublicKey
  let aesKey := deriveAesKey crypto sharedSecret [] options.context
  let enc := encRecordFor options sender draws
  let plaintext ← toUint8Array options.plaintext
  let aad ← encodeEncRecord platform enc
  let (ciphertext, tag) ← crypto.aesGcmEncrypt aesKey plaintext draws.nonceStart (some aad)
  return ⟨enc, sharedSecret, ciphertext, tag⟩

def protectedBlob (sealed : Sealed) : Except String (Bytes × Bytes) := do
  let recordCollectionBytes ←
    encodePublicationRecordCollection platform { enc := some sealed.enc }
  let blob ← appendPublicationRecordCollection sealed.payloadBytes recordCollectionBytes
  return (blob, recordCollectionBytes)

def encryptBytesForRecipient (draws : Draws) :
    Except String Envelope := do
  let sealed ← sealForRecipient platform crypto options draws
  let (blob, recordCollectionBytes) ← protectedBlob platform sealed
  createEncryptedEnvelopePayload platform {
    protectedBlobBytes := blob
    parsedProtectedBlob := some ⟨sealed.payloadBytes, recordCollectionBytes, some sealed.enc, none⟩
    enc := some sealed.enc
    context := some options.context }

/-- The three formats an envelope may have. -/
def decryptBytesFromEnvelope (envelope : Envelope) (recipientPrivateKey : KeyInput) :
    Except String Bytes := do
  require recipientPrivateKey.given
    "decryptBytesFromEnvelope requires envelope and recipientPrivateKey."
  if truthy envelope.protectedBlobBase64 then
    let blob ← base64ToBytes envelope.protectedBlobBase64
    decryptProtectedBytes platform crypto blob { recipientPrivateKey := recipientPrivateKey }
  else if truthy envelope.ciphertextBase64 && truthy envelope.encRecordBase64 then
    let encRecordBytes ← base64ToBytes envelope.encRecordBase64
    let enc ← decodeEncRecord platform encRecordBytes
    assertGcmEncRecord enc
    let sharedSecret ← deriveSharedSecret crypto recipientPrivateKey (.bytes enc.ephemeralPublicKey)
    let aesKey := deriveAesKey crypto sharedSecret [] ((enc.context.or envelope.context).getD "")
    let (ciphertext, tag) ← splitGcmPayload (← base64ToBytes envelope.ciphertextBase64)
    aesGcmDecrypt crypto aesKey (.bytes ciphertext) (.bytes tag) enc.nonceStart
      (.bytes encRecordBytes)
  else
    let senderPublicKey ← base64ToBytes envelope.senderPublicKeyBase64
    let sharedSecret ← deriveSharedSecret crypto recipientPrivateKey (.bytes (.bytes senderPublicKey))
    let salt ← base64ToBytes envelope.saltBase64
    let aesKey := deriveAesKey crypto sharedSecret salt (envelope.context.getD "")
    let packedCiphertext ← base64ToBytes envelope.ciphertextBase64
    require (16 ≤ packedCiphertext.length) "Encrypted envelope payload is truncated."
    let (ciphertext, tag) := packedCiphertext.splitAt (packedCiphertext.length - 16)
    let iv ← base64ToBytes envelope.ivBase64
    aesGcmDecrypt crypto aesKey (.bytes ciphertext) (.bytes tag) (.bytes iv) .null

end Recipient

end SpaceDataModule.Transport
