import SpaceDataModule.Leb128
import SpaceDataModule.Transport.RecordRoundTrip

/-! The sections of a WebAssembly module: the walk over them, custom sections, and the module
without its custom sections under a prefix. A REC trailer behind the module is taken off first. -/
namespace SpaceDataModule.Artifact
open Bundle (Bytes utf8)
open Transport (Platform require extractPublicationRecordCollection)

section Numbers

/-- `decodeUnsignedLeb128`, from what is left of the bytes to what is left behind the number. It
reads eight bytes at most. -/
def decodeUnsignedLeb128 (bytes : Bytes) : Except String (Nat × Bytes) :=
  match Leb128.decode 8 bytes with
  | some decoded => .ok decoded
  | none =>
    if 8 ≤ bytes.length then .error "ULEB128 value exceeds supported integer range."
    else .error "Unexpected end of data while decoding ULEB128."

def encodeUnsignedLeb128 (value : Nat) : Except String Bytes := do
  require (value < 2 ^ 53) "ULEB128 value must be a non-negative safe integer."
  return Leb128.encode value

end Numbers

section Scanning
variable (engine : Auth.Engine)

/-- The name of a custom section; positions count from the byte behind the id. -/
structure SectionName where
  text : String
  start : Nat
  stop : Nat

/-- What is read of one section behind its id: where the payload starts, its size, the name. -/
structure Scan where
  payloadStart : Nat
  size : Nat
  name : Option SectionName

def Scan.extent (scan : Scan) : Nat := scan.payloadStart + scan.size

/-- The length of a name is read from the whole file, and only then held against the payload. -/
def scanName (payloadStart size : Nat) (payload : Bytes) : Except String SectionName := do
  let (length, named) ← decodeUnsignedLeb128 payload
  let nameStart := payloadStart + (payload.length - named.length)
  require (nameStart + length ≤ payloadStart + size)
    "WASM custom section name extends past payload."
  return ⟨engine.decodeText (named.take length), nameStart, nameStart + length⟩

def scanOptionalName (id : UInt8) (payloadStart size : Nat) (payload : Bytes) :
    Except String (Option SectionName) :=
  if id = 0 then (scanName engine payloadStart size payload).map some else .ok none

def scanSection (id : UInt8) (rest : Bytes) : Except String Scan := do
  let (size, payload) ← decodeUnsignedLeb128 rest
  let payloadStart := rest.length - payload.length
  require (size ≤ payload.length) "WASM section extends past end of file."
  let name ← scanOptionalName engine id payloadStart size payload
  return ⟨payloadStart, size, name⟩

/-- A section as `parseWasmModuleSections` lists it. -/
structure WasmSection where
  id : UInt8
  start : Nat
  stop : Nat
  payloadStart : Nat
  size : Nat
  rawBytes : Bytes
  name : Option String
  nameStart : Option Nat
  nameEnd : Option Nat
  dataBytes : Option Bytes

def Scan.section (scan : Scan) (offset : Nat) (id : UInt8) (rest : Bytes) : WasmSection where
  id := id
  start := offset
  stop := offset + 1 + scan.extent
  payloadStart := offset + 1 + scan.payloadStart
  size := scan.size
  rawBytes := id :: rest.take scan.extent
  name := scan.name.map (·.text)
  nameStart := scan.name.map (offset + 1 + ·.start)
  nameEnd := scan.name.map (offset + 1 + ·.stop)
  dataBytes := scan.name.map fun name => (rest.take scan.extent).drop name.stop

def parseSections (offset : Nat) (bytes : Bytes) : Except String (List WasmSection) :=
  match bytes with
  | [] => .ok []
  | id :: rest => do
    let scan ← scanSection engine id rest
    let sections ← parseSections (offset + 1 + scan.extent) (rest.drop scan.extent)
    return scan.section offset id rest :: sections
termination_by bytes.length
decreasing_by
  simp only [List.length_drop, List.length_cons]
  omega

end Scanning

section Modules
variable (platform : Platform)

def wasmMagic : Bytes := [0x00, 0x61, 0x73, 0x6d]
def wasmVersion1 : Bytes := [0x01, 0x00, 0x00, 0x00]

def checkHeaderByte (wasmBytes : Bytes) (index : Nat) : Except String Unit := do
  require (wasmBytes[index]? == wasmMagic[index]?) "WASM magic header mismatch."
  require (wasmBytes[index + 4]? == wasmVersion1[index]?) "Unsupported WASM version header."

variable (bytes : Bytes)

def withoutTrailer : Bytes :=
  match extractPublicationRecordCollection platform bytes with
  | some artifact => artifact.payloadBytes
  | none => bytes

structure ParsedModule where
  bytes : Bytes
  headerBytes : Bytes
  sections : List WasmSection

def parseWasmModuleSections : Except String ParsedModule := do
  let wasmBytes := withoutTrailer platform bytes
  require (8 ≤ wasmBytes.length) "WASM module is truncated."
  [0, 1, 2, 3].forM (checkHeaderByte wasmBytes)
  let sections ← parseSections platform.toEngine 8 (wasmBytes.drop 8)
  return ⟨wasmBytes, wasmBytes.take 8, sections⟩

def listWasmCustomSections : Except String (List (String × Bytes × Nat × Nat)) := do
  let parsed ← parseWasmModuleSections platform bytes
  return (parsed.sections.filter (·.id == 0)).map fun part =>
    (part.name.getD "", part.dataBytes.getD [], part.start, part.stop)

def getWasmCustomSections (name : String) : Except String (List Bytes) := do
  let sections ← listWasmCustomSections platform bytes
  return (sections.filter (·.1 == name)).map (·.2.1)

def encodeWasmCustomSection (name : String) (payload : Bytes) : Except String Bytes := do
  let normalizedName := JavaScript.trim name
  require (normalizedName != "") "Custom section name is required."
  let nameBytes := utf8 normalizedName
  let nameLengthBytes ← encodeUnsignedLeb128 nameBytes.length
  let sectionSizeBytes ← encodeUnsignedLeb128
    (nameLengthBytes.length + nameBytes.length + payload.length)
  return 0 :: (sectionSizeBytes ++ nameLengthBytes ++ nameBytes ++ payload)

def startsWith (start text : String) : Bool := start.toList.isPrefixOf text.toList

def WasmSection.strippedBy (part : WasmSection) (customSectionPrefix : String) : Bool :=
  part.id == 0 && part.name.any (startsWith customSectionPrefix)

/-- `stripWasmCustomSections` with the test `computeCanonicalModuleHash` makes. -/
def stripWasmCustomSections (customSectionPrefix : String) :
    Except String Bytes := do
  let parsed ← parseWasmModuleSections platform bytes
  return parsed.headerBytes ++ (parsed.sections.filter fun part =>
    !part.strippedBy customSectionPrefix).flatMap fun part =>
      (parsed.bytes.drop part.start).take (part.stop - part.start)

/-- The `canonicalWasmBytes` of `computeCanonicalModuleHash`. The trailer is taken off here and
once more in the walk. -/
def canonicalWasmBytes (customSectionPrefix : String) : Except String Bytes :=
  stripWasmCustomSections platform (withoutTrailer platform bytes) customSectionPrefix

end Modules

end SpaceDataModule.Artifact
