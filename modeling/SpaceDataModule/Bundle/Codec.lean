import SpaceDataModule.Auth.Canonicalize
import SpaceDataModule.Bundle.Entries

/-! Module bundles on their way into and out of an MBL table. The tables are what the FlatBuffers
object API carries: texts may be absent, the type of a payload is a text. -/
namespace SpaceDataModule.Bundle
open Json Auth

structure EntryTable where
  entryId : Option String := none
  role : Int
  sectionName : Option String := none
  typeRef : Option String := none
  payloadEncoding : Int
  mediaType : Option String := none
  flags : Nat := 0
  sha256 : Bytes := []
  payload : Bytes := []
  description : Option String := none
  deriving DecidableEq

structure CanonicalizationTable where
  version : Nat := 1
  strippedCustomSectionPrefix : Option String := none
  bundleSectionName : Option String := none
  hashAlgorithm : Option String := none
  deriving DecidableEq

/-- `MBLT`. -/
structure MblTable where
  bundleVersion : Nat := 1
  moduleFormat : Option String := none
  canonicalization : Option CanonicalizationTable := none
  canonicalModuleHash : Bytes := []
  manifestHash : Bytes := []
  manifestExportSymbol : Option String := none
  manifestSizeSymbol : Option String := none
  entries : List EntryTable := []
  deriving DecidableEq

section Names
/-- `value.trim().toLowerCase().replace(/_/g, "-")`. -/
def dashed (text : String) : String :=
  String.ofList ((JavaScript.toLowerCase (JavaScript.trim text)).toList.map fun c =>
    if c = '_' then '-' else c)

inductive Code where
  | number (value : Int)
  | name (text : String)

/-- The number that a code is given by, if its name is in the table. -/
def Code.numberIn (names : List (String × Int)) : Code → Option Int
  | .number value => some value
  | .name text => names.lookup (dashed text)

/-- `ROLE_NAME_TO_ENUM`. -/
def RoleCodes.names (roles : RoleCodes) : List (String × Int) :=
  [("manifest", roles.manifest), ("authorization", roles.authorization),
    ("signature", roles.signature), ("transport", roles.transport),
    ("attestation", roles.attestation), ("auxiliary", roles.auxiliary)]

/-- `ENCODING_NAME_TO_ENUM`. -/
def EncodingCodes.names (encodings : EncodingCodes) : List (String × Int) :=
  [("raw-bytes", encodings.rawBytes), ("flatbuffer", encodings.flatbuffer),
    ("json-utf8", encodings.jsonUtf8), ("cbor", encodings.cbor)]

def normalizeRole (roles : RoleCodes) (value : Code) : Int :=
  (value.numberIn roles.names).getD roles.auxiliary

def normalizePayloadEncoding (encodings : EncodingCodes) (value : Code) : Int :=
  (value.numberIn encodings.names).getD encodings.rawBytes

end Names

structure EntryObject where
  entryId : Option String := none
  role : Code := .name "auxiliary"
  sectionName : Option String := none
  typeRef : Value := .null
  payloadEncoding : Code := .name "raw-bytes"
  mediaType : Option String := none
  flags : Nat := 0
  sha256 : Bytes := []
  payload : Bytes := []
  description : Option String := none

structure BundleObject where
  bundleVersion : Nat := 1
  moduleFormat : Option String := none
  /-- `none` for an explicit null, which has no version. -/
  canonicalization : Option CanonicalizationTable := some {}
  canonicalModuleHash : Bytes := []
  manifestHash : Bytes := []
  manifestExportSymbol : Option String := none
  manifestSizeSymbol : Option String := none
  entries : List EntryObject := []

section TypeRefs
variable (engine : Engine) (members : List (String × Value))

/-- `object[key] = value`. -/
def setMember (key : String) (value : Value) :
    List (String × Value) :=
  if members.any (·.1 == key) then
    members.map fun member => if member.1 == key then (key, value) else member
  else members ++ [(key, value)]

def normalizePayloadWireFormat (value : Option Value) : String :=
  if value matches some (.number (.finite 1)) then "aligned-binary"
  else
    let text := match value with
      | none | some .null => ""
      | some (.string text) => text
      | some other => engine.stringOf other
    if dashed text = "aligned-binary" then "aligned-binary" else "flatbuffer"

/-- `Math.max(0, Math.trunc(Number(value ?? 0)))`, with 0 for what is no finite number. -/
def normalizeUnsignedInteger (value : Option Value) : Nat :=
  match value with
  | none | some .null => 0
  | some other =>
    match engine.numberOf other with
    | .finite number => ⌊number⌋₊
    | .nan | .infinity _ => 0

/-- The spread of a parsed type with its four normalized properties. -/
def withTypeDefaults : List (String × Value) :=
  let count (key : String) : Value :=
    .number (.finite (normalizeUnsignedInteger engine (members.lookup key)))
  let wireFormat : Value := .string (normalizePayloadWireFormat engine (members.lookup "wireFormat"))
  setMember (setMember (setMember (setMember members "wireFormat" wireFormat)
    "fixedStringLength" (count "fixedStringLength")) "byteLength" (count "byteLength"))
    "requiredAlignment" (count "requiredAlignment")

/-- `parseTypeRef` on a text of a table: a text that is JSON of an object becomes that object. -/
def parseTypeRef : Option String → Value
  | none => .null
  | some text =>
    if text = "" then .null
    else
      match engine.parseJson text with
      | some (.object members) => .object (withTypeDefaults engine members)
      | some (.array items) => .object (withTypeDefaults engine
          (items.mapIdx fun index item => (toString index, item)))
      | _ => .string text

def stringifyTypeRef : Value → Except String (Option String)
  | .null => .ok none
  | .string text => .ok (some text)
  | value => (canonicalBytes engine value).map fun bytes => some (engine.decodeText bytes)

end TypeRefs

section Defaults
def defaultModuleFormat : String := "space-data-module"
def defaultManifestExportSymbol : String := "plugin_get_manifest_flatbuffer"
def defaultManifestSizeSymbol : String := "plugin_get_manifest_flatbuffer_size"
def sdsMblContainerName : String := "rec.mbl"
def defaultHashAlgorithm : String := "sha256"

end Defaults

section Decoding
variable (engine : Engine)

def normalizeDecodedEntry (entry : EntryTable) : Entry where
  entryId := entry.entryId
  role := entry.role
  sectionName := entry.sectionName
  typeRef := parseTypeRef engine entry.typeRef
  payloadEncoding := entry.payloadEncoding
  mediaType := entry.mediaType
  flags := entry.flags
  sha256 := entry.sha256
  payload := entry.payload
  description := entry.description

def normalizeDecodedCanonicalization (rule : CanonicalizationTable) : Canonicalization where
  version := rule.version
  strippedCustomSectionPrefix := rule.strippedCustomSectionPrefix.getD sdsCustomSectionPrefix
  bundleSectionName := rule.bundleSectionName.getD sdsMblContainerName
  hashAlgorithm := rule.hashAlgorithm.getD defaultHashAlgorithm

def normalizeDecodedBundle (table : MblTable) : ModuleBundle where
  bundleVersion := table.bundleVersion
  moduleFormat := table.moduleFormat.getD defaultModuleFormat
  canonicalization := table.canonicalization.map normalizeDecodedCanonicalization
  canonicalModuleHash := table.canonicalModuleHash
  manifestHash := table.manifestHash
  manifestExportSymbol := table.manifestExportSymbol.getD defaultManifestExportSymbol
  manifestSizeSymbol := table.manifestSizeSymbol.getD defaultManifestSizeSymbol
  entries := table.entries.map (normalizeDecodedEntry engine)

end Decoding

section Encoding
variable (engine : Engine) (roles : RoleCodes) (encodings : EncodingCodes)

def normalizeCanonicalization : Option CanonicalizationTable → Except String CanonicalizationTable
  | none => .error "Cannot read properties of null (reading 'version')"
  | some rule => .ok {
      version := rule.version
      strippedCustomSectionPrefix :=
        some (rule.strippedCustomSectionPrefix.getD sdsCustomSectionPrefix)
      bundleSectionName := some (rule.bundleSectionName.getD sdsMblContainerName)
      hashAlgorithm := some (rule.hashAlgorithm.getD defaultHashAlgorithm) }

def normalizeEntry (entry : EntryObject) : Except String EntryTable := do
  let typeRef ← stringifyTypeRef engine entry.typeRef
  return {
    entryId := entry.entryId
    role := normalizeRole roles entry.role
    sectionName := entry.sectionName
    typeRef := typeRef
    payloadEncoding := normalizePayloadEncoding encodings entry.payloadEncoding
    mediaType := entry.mediaType
    flags := entry.flags
    sha256 := entry.sha256
    payload := entry.payload
    description := entry.description }

/-- `moduleBundleTableFromObject` on a plain object. -/
def moduleBundleTableFromObject (bundle : BundleObject) : Except String MblTable := do
  let canonicalization ← normalizeCanonicalization bundle.canonicalization
  let entries ← bundle.entries.mapM (normalizeEntry engine roles encodings)
  return {
    bundleVersion := bundle.bundleVersion
    moduleFormat := some (bundle.moduleFormat.getD defaultModuleFormat)
    canonicalization := some canonicalization
    canonicalModuleHash := bundle.canonicalModuleHash
    manifestHash := bundle.manifestHash
    manifestExportSymbol :=
      some (bundle.manifestExportSymbol.getD defaultManifestExportSymbol)
    manifestSizeSymbol := some (bundle.manifestSizeSymbol.getD defaultManifestSizeSymbol)
    entries := entries }

def Entry.object (entry : Entry) : EntryObject where
  entryId := entry.entryId
  role := .number entry.role
  sectionName := entry.sectionName
  typeRef := entry.typeRef
  payloadEncoding := .number entry.payloadEncoding
  mediaType := entry.mediaType
  flags := entry.flags
  sha256 := entry.sha256
  payload := entry.payload
  description := entry.description

def Canonicalization.object (rule : Canonicalization) : CanonicalizationTable where
  version := rule.version
  strippedCustomSectionPrefix := some rule.strippedCustomSectionPrefix
  bundleSectionName := some rule.bundleSectionName
  hashAlgorithm := some rule.hashAlgorithm

/-- A decoded bundle, as the object it is: a missing canonicalization is null. -/
def ModuleBundle.object (bundle : ModuleBundle) : BundleObject where
  bundleVersion := bundle.bundleVersion
  moduleFormat := some bundle.moduleFormat
  canonicalization := bundle.canonicalization.map Canonicalization.object
  canonicalModuleHash := bundle.canonicalModuleHash
  manifestHash := bundle.manifestHash
  manifestExportSymbol := some bundle.manifestExportSymbol
  manifestSizeSymbol := some bundle.manifestSizeSymbol
  entries := bundle.entries.map Entry.object

end Encoding

end SpaceDataModule.Bundle
