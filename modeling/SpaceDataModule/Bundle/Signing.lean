import SpaceDataModule.Bundle.Entries

/-! The whole-bundle digest and `verifyModuleArtifact`. A check that throws is
`require`; errors keep their code, message and statement domain. -/
namespace SpaceDataModule.Bundle
open Json

inductive ErrorCode where
  | invalidHex | invalidSignaturePayload | invalidBundle | hashMismatch | missingSignature
  | unsupportedAlgorithm | invalidSignature | invalidPublicKey | untrustedSigner
  | ambiguousSignatureScope | unsupportedStatementDomain | unsupportedHashAlgorithm
  | invalidContentHash
  deriving DecidableEq

/-- A `ModuleSignatureError`, a `SignatureDomainError`, or an error of the module walk. -/
inductive Failure where
  | signature (code : ErrorCode) (message : String) (statementDomain : Option String := none)
  | thrown

def require (holds : Bool) (failure : Failure) : Except Failure Unit :=
  if holds then .ok () else .error failure

def orThrow {α : Type} : Option α → Except Failure α
  | some value => .ok value
  | none => .error .thrown

section Text

def bytesToHex (bytes : Bytes) : String :=
  String.ofList (bytes.flatMap fun byte => [hexDigit (byte.toNat / 16), hexDigit (byte.toNat % 16)])

def hexPairs : List Char → Bytes
  | high :: low :: rest => UInt8.ofNat (hexValue high * 16 + hexValue low) :: hexPairs rest
  | _ => []

def hexToBytes (hex : String) : Except Failure Bytes := do
  let normalized := (JavaScript.toLowerCase (JavaScript.trim hex)).toList
  require (normalized.all (· ∈ "0123456789abcdef".toList) && normalized.length % 2 == 0)
    (.signature .invalidHex "signature material must be even-length hex")
  return hexPairs normalized

/-- Go's white space: no byte order mark, but the next-line character. -/
def isGoSpace (c : Char) : Bool :=
  (decide (0x9 ≤ c.toNat) && decide (c.toNat ≤ 0xD)) ||
    [0x20, 0x85, 0xA0, 0x1680, 0x2028, 0x2029, 0x202F, 0x205F, 0x3000].contains c.toNat ||
    (decide (0x2000 ≤ c.toNat) && decide (c.toNat ≤ 0x200A))

def trimGoWhitespace (text : String) : String :=
  String.ofList ((text.toList.dropWhile isGoSpace).reverse.dropWhile isGoSpace).reverse

/-- `JSON.stringify` of a string, for messages. -/
def quoted (text : String) : String := String.ofList (quote escapeChar text)

end Text

section Digest
variable {Manifest : Type} (host : Host Manifest) (bundle : ModuleBundle)

def coveredEntries : List Entry :=
  bundle.entries.filter fun entry => !isSignatureEntry host entry

def checkEntries (seen : List String) : List Entry → Except Failure Unit
  | [] => .ok ()
  | entry :: rest => do
    let entryId := entry.entryId.getD ""
    require (entryId != "")
      (.signature .invalidBundle "module bundle contains an entry without an entryId")
    require (!seen.contains entryId) (.signature .invalidBundle
      ("module bundle contains duplicate entryId " ++ quoted entryId))
    require (host.sha256 entry.payload == entry.sha256) (.signature .hashMismatch
      ("module bundle entry " ++ quoted entryId ++
        " payload hash does not match its recorded sha256"))
    checkEntries (entryId :: seen) rest

def nullable : Option String → Value
  | some text => .string text
  | none => .null

def integer (value : Int) : Value := .number (.finite value)

def entryMembers (entry : Entry) : List (String × Value) :=
  [("entryId", nullable entry.entryId),
    ("role", integer entry.role),
    ("sectionName", nullable entry.sectionName),
    ("typeRef", entry.typeRef),
    ("payloadEncoding", integer entry.payloadEncoding),
    ("mediaType", nullable entry.mediaType),
    ("flags", integer entry.flags),
    ("sha256Hex", .string (bytesToHex entry.sha256)),
    ("payloadLength", integer entry.payload.length),
    ("description", nullable entry.description)]

def normalizedBundleEntryForSignature (entry : Entry) : Value := .object (entryMembers entry)

/-- `sort` of the covered entries by `compareUtf8Keys` of their ids. -/
def sortedById (entries : List Entry) : List Entry :=
  entries.insertionSort fun left right =>
    utf8Ordered (left.entryId.getD "") (right.entryId.getD "")

def canonicalizationStatement : Value :=
  let rule := bundle.canonicalization
  .object [
    ("version", integer ((rule.map (·.version)).getD 1)),
    ("strippedCustomSectionPrefix", nullable (rule.map (·.strippedCustomSectionPrefix))),
    ("bundleSectionName", nullable (rule.map (·.bundleSectionName))),
    ("hashAlgorithm", nullable (rule.map (·.hashAlgorithm)))]

def statementMembers : List (String × Value) :=
  [("version", integer 1),
    ("bundleVersion", integer bundle.bundleVersion),
    ("moduleFormat", .string bundle.moduleFormat),
    ("canonicalization", canonicalizationStatement bundle),
    ("canonicalModuleHashHex", .string (bytesToHex bundle.canonicalModuleHash)),
    ("manifestHashHex", .string (bytesToHex bundle.manifestHash)),
    ("manifestExportSymbol", .string bundle.manifestExportSymbol),
    ("manifestSizeSymbol", .string bundle.manifestSizeSymbol),
    ("entries", .array ((sortedById (coveredEntries host bundle)).map
      normalizedBundleEntryForSignature))]

def bundleStatement : Value := .object (statementMembers host bundle)

def manifestEntry : Option Entry :=
  (coveredEntries host bundle).find? fun entry =>
    entry.entryId == some "manifest" || entry.role == host.roles.manifest

def checkManifestHash : Except Failure Unit :=
  match manifestEntry host bundle with
  | some entry => require (host.sha256 entry.payload == bundle.manifestHash)
      (.signature .hashMismatch
        "module manifest payload hash does not match the bundle's manifestHash")
  | none => require (bundle.manifestHash.length == 0) (.signature .hashMismatch
      "module bundle records a manifestHash but contains no manifest entry")

structure BundleHash where
  statement : Value
  hashBytes : Bytes
  hashHex : String

def computeModuleBundleSignatureHash (wasmBytes : Bytes) :
    Except Failure BundleHash := do
  checkEntries host [] (coveredEntries host bundle)
  require (bundle.canonicalModuleHash.length == 32)
    (.signature .invalidBundle "module bundle canonicalModuleHash must be 32 bytes")
  let canonical ← orThrow (computeCanonicalModuleHash host wasmBytes (strippedPrefix bundle))
  require (canonical.2 == bundle.canonicalModuleHash) (.signature .hashMismatch
    "module canonical hash does not match the bundle's recorded hash")
  checkManifestHash host bundle
  let statement := bundleStatement host bundle
  let hashBytes := host.sha256 (canonicalBundleStatementBytes host.numbers statement)
  return ⟨statement, hashBytes, bytesToHex hashBytes⟩

end Digest

section Verification
variable {Manifest : Type} (host : Host Manifest)

/-- `String(payload[key] ?? "")`. -/
def payloadText (payload : Value) (key : String) : String :=
  match property key payload with
  | none | some .null => ""
  | some (.string text) => text
  | some other => host.stringOf other

/-- `payload[key]` in a template. -/
def interpolated (payload : Value) (key : String) : String :=
  match property key payload with
  | none => "undefined"
  | some .null => "null"
  | some (.string text) => text
  | some other => host.stringOf other

def signaturePayloadKeys : List String :=
  ["algorithm", "keyId", "publicKeyHex", "signatureHex", "signedHashHex", "signedHashAlgorithm",
    "statementDomain"]

def keyVariant (key : String) : Option String :=
  if signaturePayloadKeys.contains key then none
  else signaturePayloadKeys.find? fun known =>
    JavaScript.toLowerCase known == JavaScript.toLowerCase key

def checkKeys : List (String × Value) → Except Failure Unit
  | [] => .ok ()
  | (key, _) :: rest =>
    match keyVariant key with
    | some variant => .error (.signature .invalidSignaturePayload
        ("module signature entry payload spells \"" ++ key ++
          "\"; the wire form is the module SDK's camelCase JSON and the correct spelling is \"" ++
          variant ++ "\""))
    | none => checkKeys rest

def decodeSignaturePayload (entry : Entry) : Except Failure Value :=
  match host.parseJson entry.payload with
  | none => .error (.signature .invalidSignaturePayload
      "module signature entry payload is not valid JSON")
  | some (.object members) => (checkKeys members).map fun _ => .object members
  | some _ => .error (.signature .invalidSignaturePayload
      "module signature entry payload is not a JSON object")

structure SignatureMaterial where
  payload : Value
  signatureBytes : Bytes
  publicKeyHex : String
  publicKeyBytes : Bytes

def signatureMaterial (entry : Entry) : Except Failure SignatureMaterial := do
  let payload ← decodeSignaturePayload host entry
  let algorithm := trimGoWhitespace (payloadText host payload "algorithm")
  require (JavaScript.toLowerCase algorithm == "ed25519") (.signature .unsupportedAlgorithm
    ("unsupported module signature algorithm: " ++ interpolated host payload "algorithm"))
  let signatureBytes ← hexToBytes (payloadText host payload "signatureHex")
  require (signatureBytes.length == 64)
    (.signature .invalidSignature "module signature must be 64 bytes")
  require (!signatureBytes.all (· == 0))
    (.signature .invalidSignature "module signature must not be all zeroes")
  let publicKeyHex :=
    JavaScript.toLowerCase (JavaScript.trim (payloadText host payload "publicKeyHex"))
  let publicKeyBytes ← hexToBytes publicKeyHex
  require (publicKeyBytes.length == 32)
    (.signature .invalidPublicKey "module signer public key must be 32 bytes")
  return ⟨payload, signatureBytes, publicKeyHex, publicKeyBytes⟩

def normalizeTrustedPublicKeys (keys : List String) : List String :=
  (keys.map fun key => JavaScript.toLowerCase (JavaScript.trim key)).filter fun key =>
    (JavaScript.codeUnits key).length == 64

def requireTrustedSigner (trusted : List String) (publicKeyHex : String)
    (resolvedStatementDomain : Option String) : Except Failure Unit :=
  require (trusted.contains publicKeyHex) (.signature .untrustedSigner
    "module signer public key is not in the trusted signer set" resolvedStatementDomain)

inductive Scope where
  | module | bundle
  deriving DecidableEq

structure Report where
  keyId : Value
  publicKeyHex : String
  statementDomain : Option String
  contentHashHex : String
  canonicalModuleHashHex : Option String
  signatureScope : Scope
  signedHashHex : String

/-- What `verifyModuleArtifact` returns: unsigned, or verified. -/
inductive Verdict where
  | unsigned
  | verified (report : Report)

def bundleSignatureHashAlgorithm : String := "sha256-sdn-module-bundle-v1"
def legacyModuleSignatureHashAlgorithm : String := "sha256-canonical-module-hash"
def domainModulePublicationV1 : String := "SDN-MODULE-PUBLICATION-V1"

/-- `domain || 0x00 || contentHash` for a registered domain. -/
def signatureStatement (domain : String) (contentHash : Bytes) : Except Failure Bytes := do
  require (contentHash.length == 32) (.signature .invalidContentHash
    ("signature statement content hash must be 32 raw bytes, got " ++ toString contentHash.length))
  return utf8 domain ++ 0 :: contentHash

/-- The node-signed form: a domain-separated statement over the portable payload. -/
def verifyStatement (artifact : ProtectedArtifact) (material : SignatureMaterial)
    (trusted : List String) (declaredStatementDomain : String) : Except Failure Verdict := do
  let contentHash := host.sha256 artifact.payloadBytes
  let contentHashHex := bytesToHex contentHash
  let declaredHashHex :=
    JavaScript.toLowerCase (trimGoWhitespace (payloadText host material.payload "signedHashHex"))
  require (declaredHashHex == "" || declaredHashHex == contentHashHex) (.signature .hashMismatch
    ("module signature covers content hash " ++ declaredHashHex ++
      ", portable artifact hashes to " ++ contentHashHex))
  require (declaredStatementDomain == domainModulePublicationV1)
    (.signature .unsupportedStatementDomain
      ("module signature declares statement domain " ++ quoted declaredStatementDomain ++
        "; a module artifact must be signed under " ++ quoted domainModulePublicationV1)
      (some declaredStatementDomain))
  let statementBytes ← signatureStatement domainModulePublicationV1 contentHash
  requireTrustedSigner trusted material.publicKeyHex (some domainModulePublicationV1)
  require (host.ed25519Verify statementBytes material.signatureBytes material.publicKeyBytes)
    (.signature .invalidSignature "module publication signature verification failed"
      (some domainModulePublicationV1))
  return .verified {
    keyId := (property "keyId" material.payload).getD .null
    publicKeyHex := material.publicKeyHex
    statementDomain := some domainModulePublicationV1
    contentHashHex := contentHashHex
    canonicalModuleHashHex :=
      (computeCanonicalModuleHash host artifact.payloadBytes sdsCustomSectionPrefix).map
        fun canonical => bytesToHex canonical.2
    signatureScope := .module
    signedHashHex := contentHashHex }

/-- The digest a legacy signature declares to cover, with its scope. -/
def signedDigest (bytes canonicalHash : Bytes) (signedHashAlgorithm : String) :
    Except Failure (Bytes × Scope) := do
  if signedHashAlgorithm = bundleSignatureHashAlgorithm then
    let parsed ← orThrow (parseSingleFileBundle host bytes)
    let hash ← computeModuleBundleSignatureHash host parsed.bundle parsed.wasmBytes
    return (hash.hashBytes, .bundle)
  else
    require (signedHashAlgorithm == legacyModuleSignatureHashAlgorithm)
      (.signature .unsupportedHashAlgorithm
        ("unsupported module signature hash algorithm: " ++ signedHashAlgorithm))
    return (canonicalHash, .module)

variable (bytes : Bytes)

/-- The legacy form: a bare canonical module or bundle digest. -/
def verifyDigest (artifact : ProtectedArtifact) (bundle : ModuleBundle)
    (material : SignatureMaterial) (trusted : List String) : Except Failure Verdict := do
  let canonical ←
    orThrow (computeCanonicalModuleHash host artifact.payloadBytes sdsCustomSectionPrefix)
  require (bundle.canonicalModuleHash == canonical.2) (.signature .hashMismatch
    "module canonical hash does not match the bundle's recorded hash")
  let digest ← signedDigest host bytes canonical.2
    (payloadText host material.payload "signedHashAlgorithm")
  require
    (JavaScript.toLowerCase (payloadText host material.payload "signedHashHex") ==
      bytesToHex digest.1)
    (.signature .hashMismatch "module or bundle hash does not match the signed digest")
  requireTrustedSigner trusted material.publicKeyHex none
  require (host.ed25519Verify digest.1 material.signatureBytes material.publicKeyBytes)
    (.signature .invalidSignature "module signature verification failed")
  return .verified {
    keyId := (property "keyId" material.payload).getD .null
    publicKeyHex := material.publicKeyHex
    statementDomain := none
    contentHashHex := bytesToHex (host.sha256 artifact.payloadBytes)
    canonicalModuleHashHex := some (bytesToHex canonical.2)
    signatureScope := digest.2
    signedHashHex := bytesToHex digest.1 }

/-- An artifact declares exactly one basis, and that decides the form. -/
def verifySigned (artifact : ProtectedArtifact) (bundle : ModuleBundle)
    (entry : Entry) (trustedPublicKeys : List String) : Except Failure Verdict := do
  let material ← signatureMaterial host entry
  let trusted := normalizeTrustedPublicKeys trustedPublicKeys
  let domain := trimGoWhitespace (payloadText host material.payload "statementDomain")
  let algorithm := trimGoWhitespace (payloadText host material.payload "signedHashAlgorithm")
  require (!(domain != "" && algorithm == bundleSignatureHashAlgorithm))
    (.signature .ambiguousSignatureScope
      ("module signature declares statement domain " ++ quoted domain ++ " AND hash algorithm " ++
        quoted bundleSignatureHashAlgorithm ++
        "; these are different preimages and an artifact must declare exactly one")
      (some domain))
  if domain ≠ "" then verifyStatement host artifact material trusted domain
  else verifyDigest host bytes artifact bundle material trusted

def signatureOf : Option (ProtectedArtifact × ModuleBundle × Entry) := do
  let artifact ← host.extractPublicationRecordCollection bytes
  let bundle ← artifact.mbl
  let entry ← findSignatureEntry host bundle.entries
  return (artifact, bundle, entry)

def verifyModuleArtifact (trustedPublicKeys : List String)
    (requireSignature : Bool) : Except Failure Verdict :=
  match signatureOf host bytes with
  | some (artifact, bundle, entry) => verifySigned host bytes artifact bundle entry trustedPublicKeys
  | none =>
    if requireSignature then
      .error (.signature .missingSignature
        "module artifact has no signature entry but signature is required")
    else .ok .unsigned

end Verification

end SpaceDataModule.Bundle
