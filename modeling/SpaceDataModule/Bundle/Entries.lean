import SpaceDataModule.Bundle.Statement

/-! Decoded module bundles and the lookups over their entries. What the FlatBuffers
decoder, the platform's cryptography and the JavaScript engine compute stands in
`Host`. -/
namespace SpaceDataModule.Bundle
open Json

/-- `ModuleBundleEntryRole` of the standards package. -/
structure RoleCodes where
  manifest : Int
  authorization : Int
  signature : Int
  transport : Int
  attestation : Int
  auxiliary : Int
  distinct : [manifest, authorization, signature, transport, attestation, auxiliary].Nodup

/-- `ModulePayloadEncoding` of the standards package. -/
structure EncodingCodes where
  rawBytes : Int
  flatbuffer : Int
  jsonUtf8 : Int
  cbor : Int
  distinct : [rawBytes, flatbuffer, jsonUtf8, cbor].Nodup

/-- An entry as `normalizeDecodedEntry` leaves it: the role is a number. -/
structure Entry where
  entryId : Option String
  role : Int
  sectionName : Option String := none
  typeRef : Value := .null
  payloadEncoding : Int
  mediaType : Option String := none
  flags : Nat := 0
  sha256 : Bytes
  payload : Bytes
  description : Option String := none

structure Canonicalization where
  version : Nat
  strippedCustomSectionPrefix : String
  bundleSectionName : String
  hashAlgorithm : String

/-- A bundle as `normalizeDecodedBundle` leaves it. -/
structure ModuleBundle where
  bundleVersion : Nat
  moduleFormat : String
  canonicalization : Option Canonicalization
  canonicalModuleHash : Bytes
  manifestHash : Bytes
  manifestExportSymbol : String
  manifestSizeSymbol : String
  entries : List Entry

/-- The parts of `extractPublicationRecordCollection` that are read here. -/
structure ProtectedArtifact where
  payloadBytes : Bytes
  mbl : Option ModuleBundle

structure Host (Manifest : Type) where
  roles : RoleCodes
  encodings : EncodingCodes
  /-- `Number.prototype.toString`. -/
  numbers : NumberFormat
  sha256 : Bytes → Bytes
  ed25519Verify : (message signature publicKey : Bytes) → Bool
  extractPublicationRecordCollection : Bytes → Option ProtectedArtifact
  /-- Name and contents of each custom section; `none` where the walk throws. -/
  listWasmCustomSections : Bytes → Option (List (String × Bytes))
  /-- The module without its custom sections under a prefix; `none` where the walk throws. -/
  stripWasmCustomSections : Bytes → (customSectionPrefix : String) → Option Bytes
  /-- `JSON.parse` of decoded bytes; `none` where it throws. -/
  parseJson : Bytes → Option Value
  /-- `String(value)` for a value that is neither null nor a string. -/
  stringOf : Value → String
  decodeBundleManifest : Bytes → Option Manifest

section Lookups
variable {Manifest : Type} (host : Host Manifest)

def moduleBundleRoleToName (role : Int) : String :=
  if role = host.roles.manifest then "manifest"
  else if role = host.roles.authorization then "authorization"
  else if role = host.roles.signature then "signature"
  else if role = host.roles.transport then "transport"
  else if role = host.roles.attestation then "attestation"
  else "auxiliary"

def moduleBundleEncodingToName (encoding : Int) : String :=
  if encoding = host.encodings.flatbuffer then "flatbuffer"
  else if encoding = host.encodings.jsonUtf8 then "json-utf8"
  else if encoding = host.encodings.cbor then "cbor"
  else "raw-bytes"

/-- The test of `findSignatureEntry`. -/
def isSignatureEntry (entry : Entry) : Bool :=
  entry.role == host.roles.signature || entry.entryId == some "signature" ||
    entry.sectionName == some "sds.signature"

variable (entries : List Entry)

def findSignatureEntry : Option Entry := entries.find? (isSignatureEntry host)

/-- `findModuleBundleEntry` for a name. -/
def findModuleBundleEntry (name : String) : Option Entry :=
  let normalized := String.ofList
    ((JavaScript.toLowerCase (JavaScript.trim name)).toList.map fun c => if c = '_' then '-' else c)
  (entries.find? fun entry => entry.entryId == some name).or
    (entries.find? fun entry => moduleBundleRoleToName host entry.role == normalized)

theorem manifest_roleName (role : Int) :
    moduleBundleRoleToName host role = "manifest" ↔ role = host.roles.manifest := by
  unfold moduleBundleRoleToName
  split_ifs with isManifest <;> simp [isManifest]

abbrev hasManifestId (entry : Entry) : Bool := entry.entryId == some "manifest"

abbrev hasManifestRole (entry : Entry) : Bool := entry.role == host.roles.manifest

/-- The manifest lookup: an entry with that id, else one with that role. -/
theorem findModuleBundleEntry_manifest :
    findModuleBundleEntry host entries "manifest" =
      (entries.find? hasManifestId).or (entries.find? (hasManifestRole host)) := by
  have plain : String.ofList ((JavaScript.toLowerCase (JavaScript.trim "manifest")).toList.map
      fun c => if c = '_' then '-' else c) = "manifest" := by decide
  unfold findModuleBundleEntry
  simp only [plain]
  congr 2
  funext entry
  rw [Bool.eq_iff_iff, beq_iff_eq, beq_iff_eq, manifest_roleName]

end Lookups

inductive DecodedPayload where
  | json (value : Value)
  | bytes (payload : Bytes)

/-- An entry as `buildParsedEntries` extends it. The copies of payload and hash as
byte arrays are not repeated. -/
structure ParsedEntry (Manifest : Type) where
  entry : Entry
  roleName : String
  payloadEncodingName : String
  decodedPayload : DecodedPayload
  decodedManifest : Option Manifest
  decodedDeploymentPlan : Option DecodedPayload

/-- What `parseSingleFileBundle` returns of the bundle. -/
structure ParsedBundle (Manifest : Type) where
  wasmBytes : Bytes
  bundle : ModuleBundle
  entries : List (ParsedEntry Manifest)
  manifest : Option Manifest
  deploymentPlan : Option DecodedPayload
  customSections : List (String × Bytes)
  canonicalWasmBytes : Bytes
  canonicalModuleHash : Bytes

section Parsing
variable {Manifest : Type} (host : Host Manifest) (entry : Entry)

/-- `decodeModuleBundleEntryPayload`, with the bytes where it throws. -/
def decodedPayloadOf : DecodedPayload :=
  if entry.payloadEncoding = host.encodings.jsonUtf8 then
    match host.parseJson entry.payload with
    | some value => .json value
    | none => .bytes entry.payload
  else .bytes entry.payload

def isDeploymentEntry : Bool :=
  entry.entryId == some "deployment-plan" || entry.sectionName == some "sds.deployment"

/-- The plan of a deployment entry: whatever decoded to a JavaScript object. Bytes
that are no JSON text stay bytes, and those are an object too. -/
def deploymentPlanOf : Option DecodedPayload :=
  if isDeploymentEntry entry && moduleBundleEncodingToName host entry.payloadEncoding == "json-utf8"
  then
    match decodedPayloadOf host entry with
    | .json (.object members) => some (.json (.object members))
    | .json (.array items) => some (.json (.array items))
    | .json _ => none
    | .bytes payload => some (.bytes payload)
  else none

def buildParsedEntry : ParsedEntry Manifest where
  entry := entry
  roleName := moduleBundleRoleToName host entry.role
  payloadEncodingName := moduleBundleEncodingToName host entry.payloadEncoding
  decodedPayload := decodedPayloadOf host entry
  decodedManifest :=
    if moduleBundleRoleToName host entry.role == "manifest" &&
        moduleBundleEncodingToName host entry.payloadEncoding == "flatbuffer" then
      host.decodeBundleManifest entry.payload
    else none
  decodedDeploymentPlan := deploymentPlanOf host entry

variable (bundle : ModuleBundle)

def buildParsedEntries : List (ParsedEntry Manifest) :=
  bundle.entries.map (buildParsedEntry host)

def sdsCustomSectionPrefix : String := "sds."

/-- `computeCanonicalModuleHash`: the stripped module and its hash. -/
def computeCanonicalModuleHash (bytes : Bytes) (customSectionPrefix : String) :
    Option (Bytes × Bytes) :=
  let candidate := match host.extractPublicationRecordCollection bytes with
    | some artifact => artifact.payloadBytes
    | none => bytes
  (host.stripWasmCustomSections candidate customSectionPrefix).map fun stripped =>
    (stripped, host.sha256 stripped)

def strippedPrefix : String :=
  match bundle.canonicalization with
  | some rule => rule.strippedCustomSectionPrefix
  | none => sdsCustomSectionPrefix

/-- The `manifest` of a parsed bundle: what the lookup's entry decodes to. -/
def manifestOf : Option Manifest :=
  (findModuleBundleEntry host bundle.entries "manifest").bind fun entry =>
    host.decodeBundleManifest entry.payload

def parseSingleFileBundle (bytes : Bytes) : Option (ParsedBundle Manifest) := do
  let artifact ← host.extractPublicationRecordCollection bytes
  let bundle ← artifact.mbl
  let customSections ← host.listWasmCustomSections artifact.payloadBytes
  let canonical ← computeCanonicalModuleHash host artifact.payloadBytes (strippedPrefix bundle)
  return {
    wasmBytes := artifact.payloadBytes
    bundle := bundle
    entries := buildParsedEntries host bundle
    manifest := manifestOf host bundle
    deploymentPlan := (bundle.entries.find? isDeploymentEntry).bind (deploymentPlanOf host)
    customSections := customSections
    canonicalWasmBytes := canonical.1
    canonicalModuleHash := canonical.2 }

end Parsing

end SpaceDataModule.Bundle
