import SpaceDataModule.Artifact.Sections

/-! Single-file bundles: the module without its `sds.` sections, with the bundle behind it in a REC
trailer. -/
namespace SpaceDataModule.Artifact
open Json
open Bundle (Bytes utf8 Code EntryObject BundleObject sdsCustomSectionPrefix sdsMblContainerName
  defaultModuleFormat defaultManifestExportSymbol defaultManifestSizeSymbol)
open Transport (Platform extractPublicationRecordCollection moduleBundleTable
  encodePublicationRecordCollection appendPublicationRecordCollection bind_eq_ok)

/-- The platform with its hash, the encoder of manifests and the deployment plans. -/
structure Toolchain (Manifest : Type) extends Platform where
  sha256 : Bytes → Bytes
  encodeBundleManifest : Manifest → Except String Bytes
  isPlgManifestBuffer : Bytes → Bool
  normalizeDeploymentPlan : Value → Except String Value

instance : CoeOut (Toolchain Manifest) Platform := ⟨Toolchain.toPlatform⟩

variable {Manifest : Type} (toolchain : Toolchain Manifest)

/-- `computeCanonicalModuleHash`: the stripped module and its hash. -/
def computeCanonicalModuleHash (bytes : Bytes) (customSectionPrefix : String) :
    Except String (Bytes × Bytes) :=
  (canonicalWasmBytes toolchain.toPlatform bytes customSectionPrefix).map fun canonical =>
    (canonical, toolchain.sha256 canonical)

section Entries

inductive PayloadLike where
  | bytes (contents : Bytes)
  | value (json : Value)

/-- An entry as a caller gives it; the payload and hash of `object` are not read. -/
structure EntryInput where
  object : EntryObject
  payload : PayloadLike
  /-- The object has no property `entryId`. -/
  unnamed : Bool := false

inductive JsonPayload where
  | null
  | bytes (contents : Bytes)
  | text (contents : String)
  | value (json : Value)

def normalizeJsonPayload : JsonPayload → Except String (Option Bytes)
  | .null => .ok none
  | .bytes contents => .ok (some contents)
  | .text contents => .ok (some (utf8 contents))
  | .value json => (Auth.canonicalBytes toolchain.toEngine json).map some

def manifestTypeRef (schemaName fileIdentifier : String) : Value :=
  .object [("schemaName", .string schemaName), ("fileIdentifier", .string fileIdentifier)]

/-- `normalizeManifestEntry` for manifest bytes. -/
def manifestEntryInput (payload : Bytes) : EntryInput where
  object := {
    entryId := some "manifest"
    role := .name "manifest"
    sectionName := some "sds.manifest"
    payloadEncoding := .name "flatbuffer"
    typeRef :=
      if toolchain.isPlgManifestBuffer payload then manifestTypeRef "PLG.fbs" "$PLG"
      else manifestTypeRef "PluginManifest.fbs" "PMAN"
    description := some "Canonical plugin manifest." }
  payload := .bytes payload

/-- The entries of `normalizeStandardEntries` that hold JSON text differ in names only. -/
def standardEntry (name description : String) (payload : Bytes) : EntryInput where
  object := {
    entryId := some name
    role := .name name
    sectionName := some ("sds." ++ name)
    payloadEncoding := .name "json-utf8"
    mediaType := some "application/json"
    description := some description }
  payload := .bytes payload

def deploymentEntry (plan : Value) : EntryInput where
  object := {
    entryId := some "deployment-plan"
    role := .name "auxiliary"
    sectionName := some "sds.deployment"
    payloadEncoding := .name "json-utf8"
    mediaType := some "application/vnd.space-data.module.deployment+json"
    description := some ("Resolved deployment plan with protocol installations, bindings, " ++
      "schedules, services, auth policy, and publication policy.") }
  payload := .value plan

/-- The options of `createSingleFileBundle`. -/
structure BundleOptions (Manifest : Type) where
  wasmBytes : Bytes
  manifestBytes : Option Bytes := none
  manifest : Option Manifest := none
  authorization : Option JsonPayload := none
  signature : Option JsonPayload := none
  transportEnvelope : Option JsonPayload := none
  deploymentPlan : Option Value := none
  entries : List EntryInput := []
  customSectionPrefix : Option String := none
  bundleSectionName : Option String := none
  bundleVersion : Nat := 1
  moduleFormat : Option String := none
  manifestExportSymbol : Option String := none
  manifestSizeSymbol : Option String := none

def optionalStandardEntry (name description : String) (option : Option JsonPayload) :
    Except String (List EntryInput) := do
  let payload ← normalizeJsonPayload toolchain (option.getD .null)
  return (payload.map (standardEntry name description)).toList

def optionalDeploymentEntry (plan : Option Value) : Except String (List EntryInput) := do
  let normalized ← plan.mapM toolchain.normalizeDeploymentPlan
  return (normalized.map deploymentEntry).toList

def normalizeStandardEntries (options : BundleOptions Manifest) :
    Except String (List EntryInput) := do
  let authorization ← optionalStandardEntry toolchain "authorization"
    "Deployment authorization envelope." options.authorization
  let signature ← optionalStandardEntry toolchain "signature" "Detached signature payload."
    options.signature
  let transport ← optionalStandardEntry toolchain "transport" "Transport envelope metadata."
    options.transportEnvelope
  let deployment ← optionalDeploymentEntry toolchain options.deploymentPlan
  return authorization ++ signature ++ transport ++ deployment

/-- The spread of the entry comes last: only a missing property gets the default. -/
def normalizeAdditionalEntries (entries : List EntryInput) : List EntryInput :=
  entries.mapIdx fun index input =>
    if input.unnamed then
      { input with object.entryId := some ("entry-" ++ toString (index + 1)) }
    else input

def isJsonEncoding : Code → Bool
  | .name text => text == "json-utf8"
  | .number value => value == toolchain.encodings.jsonUtf8

def payloadBytes (input : EntryInput) : Except String Bytes :=
  match input.payload with
  | .bytes contents => .ok contents
  | .value json =>
    if isJsonEncoding toolchain input.object.payloadEncoding then
      Auth.canonicalBytes toolchain.toEngine json
    else .error ("entry \"" ++ input.object.entryId.getD "null" ++
      "\" payload must be a Uint8Array, ArrayBufferView, or ArrayBuffer.")

def withSha256 (input : EntryInput) : Except String EntryObject := do
  let payload ← payloadBytes toolchain input
  return { input.object with payload := payload, sha256 := toolchain.sha256 payload }

end Entries

section Bundling

structure SingleFileBundle where
  bundle : BundleObject
  bundleBytes : Bytes
  canonicalWasmBytes : Bytes
  canonicalModuleHash : Bytes
  manifestHash : Bytes
  wasmBytes : Bytes

def manifestBytesOf (options : BundleOptions Manifest) : Except String (Option Bytes) :=
  match options.manifestBytes with
  | some bytes => .ok (some bytes)
  | none => options.manifest.mapM toolchain.encodeBundleManifest

def bundleEntries (options : BundleOptions Manifest) (manifestBytes : Option Bytes) :
    Except String (List EntryObject) := do
  let standard ← normalizeStandardEntries toolchain options
  let manifest := manifestBytes.map (manifestEntryInput toolchain)
  (manifest.toList ++ standard ++ normalizeAdditionalEntries options.entries).mapM
    (withSha256 toolchain)

def bundleObject (options : BundleOptions Manifest) (manifestBytes : Option Bytes)
    (entries : List EntryObject) (canonicalModuleHash : Bytes) : BundleObject where
  bundleVersion := options.bundleVersion
  moduleFormat := some (options.moduleFormat.getD defaultModuleFormat)
  canonicalization := some {
    version := 1
    strippedCustomSectionPrefix :=
      some (options.customSectionPrefix.getD sdsCustomSectionPrefix)
    bundleSectionName := some (options.bundleSectionName.getD sdsMblContainerName)
    hashAlgorithm := some "sha256" }
  canonicalModuleHash := canonicalModuleHash
  manifestHash := (manifestBytes.map toolchain.sha256).getD []
  manifestExportSymbol := some (options.manifestExportSymbol.getD defaultManifestExportSymbol)
  manifestSizeSymbol := some (options.manifestSizeSymbol.getD defaultManifestSizeSymbol)
  entries := entries

/-- The records behind the module: the bundle, and what the trailer of the input has beside one. -/
def bundleRecords (protectedArtifact : Option Transport.Extracted) (bundle : BundleObject) :
    Transport.Records where
  version := protectedArtifact.map (·.version)
  mbl := some (.object bundle)
  enc := protectedArtifact.bind (·.enc)
  pnm := protectedArtifact.bind (·.pnm)

def createSingleFileBundle (options : BundleOptions Manifest) :
    Except String SingleFileBundle := do
  let platform := toolchain.toPlatform
  let protectedArtifact := extractPublicationRecordCollection platform options.wasmBytes
  let wasmBytes := withoutTrailer platform options.wasmBytes
  let manifestBytes ← manifestBytesOf toolchain options
  let entries ← bundleEntries toolchain options manifestBytes
  let customSectionPrefix := options.customSectionPrefix.getD sdsCustomSectionPrefix
  let canonical ← computeCanonicalModuleHash toolchain wasmBytes customSectionPrefix
  let bundle := bundleObject toolchain options manifestBytes entries canonical.2
  let bundleTable ← moduleBundleTable platform (.object bundle)
  let baseWasmBytes ← stripWasmCustomSections platform wasmBytes customSectionPrefix
  let recordCollection ← encodePublicationRecordCollection platform
    (bundleRecords protectedArtifact bundle)
  let outputWasmBytes ← appendPublicationRecordCollection baseWasmBytes recordCollection
  return {
    bundle := bundle
    bundleBytes := platform.packMbl bundleTable
    canonicalWasmBytes := canonical.1
    canonicalModuleHash := canonical.2
    manifestHash := bundle.manifestHash
    wasmBytes := outputWasmBytes }

structure Built (options : BundleOptions Manifest) (manifestBytes : Option Bytes)
    (entries : List EntryObject) (base recordCollection : Bytes) (built : SingleFileBundle) :
    Prop where
  manifest : manifestBytesOf toolchain options = .ok manifestBytes
  listed : bundleEntries toolchain options manifestBytes = .ok entries
  canonical : computeCanonicalModuleHash toolchain
    (withoutTrailer toolchain.toPlatform options.wasmBytes)
    (options.customSectionPrefix.getD sdsCustomSectionPrefix) =
      .ok (built.canonicalWasmBytes, built.canonicalModuleHash)
  bundle : built.bundle =
    bundleObject toolchain options manifestBytes entries built.canonicalModuleHash
  stripped : stripWasmCustomSections toolchain.toPlatform
    (withoutTrailer toolchain.toPlatform options.wasmBytes)
    (options.customSectionPrefix.getD sdsCustomSectionPrefix) = .ok base
  encoded : encodePublicationRecordCollection toolchain.toPlatform (bundleRecords
    (extractPublicationRecordCollection toolchain.toPlatform options.wasmBytes) built.bundle) =
      .ok recordCollection
  appended : appendPublicationRecordCollection base recordCollection = .ok built.wasmBytes

theorem createSingleFileBundle_built (made : createSingleFileBundle toolchain options = .ok built) :
    ∃ manifestBytes entries base recordCollection,
      Built toolchain options manifestBytes entries base recordCollection built := by
  simp only [createSingleFileBundle, bind_eq_ok] at made
  obtain ⟨manifestBytes, manifest, entries, listed, ⟨canonical, hash⟩, hashed, table, -, base,
    stripped, recordCollection, encoded, wasmBytes, appended, made⟩ := made
  cases made
  exact ⟨manifestBytes, entries, base, recordCollection, manifest, listed, hashed, rfl, stripped,
    encoded, appended⟩

end Bundling

end SpaceDataModule.Artifact
