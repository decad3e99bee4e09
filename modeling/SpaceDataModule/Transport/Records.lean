import SpaceDataModule.Bundle.Codec
import SpaceDataModule.Doubles
import SpaceDataModule.FlatBuffers

/-! Publication records: ENC, PNM and MBL records in a REC collection, and the trailer that
carries a collection behind a payload. The FlatBuffers builder and the code that unpacks an MBL
table stand in `Platform`; every check on a buffer is the one the source makes. -/
namespace SpaceDataModule.Transport
open Bundle (Bytes utf8 MblTable ModuleBundle)
open FlatBuffers hiding Bytes

section Values

inductive BytesLike where
  | null
  | bytes (contents : Bytes)
  | array (values : List Int)
  | other
  deriving DecidableEq

def toUint8Array : BytesLike → Except String Bytes
  | .bytes contents => .ok contents
  | .array values =>
    if values.all fun value => decide (0 ≤ value) && decide (value ≤ 255) then
      .ok (values.map fun value => UInt8.ofNat value.toNat)
    else .error "Expected byte values in range 0..255."
  | .null | .other => .error "Expected Uint8Array, ArrayBuffer, ArrayBufferView, or byte array."

/-- `normalizeByteField`: no bytes are null. -/
def normalizeByteField (value : BytesLike) : Except String (Option Bytes) :=
  if value = .null then .ok none
  else (toUint8Array value).map fun bytes => if bytes = [] then none else some bytes

/-- `normalizeStringField`: a blank text is null. -/
def normalizeStringField (value : Option String) : Option String :=
  value.bind fun text =>
    let normalized := JavaScript.trim text
    if normalized = "" then none else some normalized

/-- An algorithm as a caller gives it: by its code or by its name. -/
inductive Algorithm where
  | code (value : UInt8)
  | name (text : String)
  deriving DecidableEq

/-- `replace(/[^A-Za-z0-9]+/g, "_").toUpperCase()`. -/
def underscored (afterRun : Bool) : List Char → List Char
  | [] => []
  | c :: rest =>
    if c.isAlphanum then c.toUpper :: underscored false rest
    else if afterRun then underscored true rest
    else '_' :: underscored true rest

def algorithmName (text : String) : String :=
  String.ofList (underscored false (JavaScript.trim text).toList)

/-- The code that an algorithm is given by, if its name is in the table. -/
def Algorithm.codeIn (names : List (String × UInt8)) : Algorithm → Option UInt8
  | .code value => some value
  | .name text => names.lookup (algorithmName text)

/-- The name a code has in a table of names, else the code as a decimal number. -/
def nameOfCode (codes : List (String × UInt8)) (value : UInt8) : String :=
  match codes.find? (·.2 == value) with
  | some (name, _) => name
  | none => toString value.toNat

end Values

section Tables

/-- `ENCT`. -/
structure EncTable where
  version : UInt8
  keyExchange : UInt8
  symmetric : UInt8
  keyDerivation : UInt8
  ephemeralPublicKey : Bytes
  nonceStart : Bytes
  recipientKeyId : Bytes
  context : Option String
  schemaHash : Bytes
  rootType : Option String
  timestamp : UInt64
  deriving DecidableEq

/-- `PNMT`, and the record it is made from and decoded to. -/
structure PnmRecord where
  multiformatAddress : Option String := none
  publishTimestamp : Option String := none
  cid : Option String := none
  fileName : Option String := none
  fileId : Option String := none
  signature : Option String := none
  timestampSignature : Option String := none
  signatureType : Option String := none
  timestampSignatureType : Option String := none
  deriving DecidableEq

/-- The value of a record: `RecordT` with the union's table. -/
inductive RecordValue where
  | mbl (table : MblTable)
  | enc (table : EncTable)
  | pnm (table : PnmRecord)
  deriving DecidableEq

structure RecordTable where
  valueType : UInt8
  value : RecordValue
  standard : Option String
  deriving DecidableEq

/-- `RECT`. -/
structure RecTable where
  version : Option String
  records : List RecordTable
  deriving DecidableEq

/-- An ENC record. A missing field has its default; the timestamp is as `BigInt` takes it. -/
structure EncRecord where
  version : UInt8 := 1
  keyExchange : Algorithm := .name "X25519"
  symmetric : Algorithm := .name "AES_256_GCM"
  keyDerivation : Algorithm := .name "HKDF_SHA256"
  ephemeralPublicKey : BytesLike
  nonceStart : BytesLike
  recipientKeyId : BytesLike := .null
  context : Option String := none
  schemaHash : BytesLike := .null
  rootType : Option String := none
  timestamp : Int := 0
  deriving DecidableEq

structure Codes where
  x25519 : UInt8
  secp256k1 : UInt8
  p256 : UInt8
  aes256Ctr : UInt8
  hkdfSha256 : UInt8
  mbl : UInt8
  enc : UInt8
  pnm : UInt8
  exchanges_distinct : [x25519, secp256k1, p256].Nodup
  aes256Ctr_ne_gcm : aes256Ctr ≠ 1
  records_distinct : [mbl, enc, pnm].Nodup

structure Platform extends Auth.Engine where
  roles : Bundle.RoleCodes
  encodings : Bundle.EncodingCodes
  codes : Codes
  /-- `pack` and `finish` of the builder, with the file identifier. -/
  packEnc : EncTable → Bytes
  packPnm : PnmRecord → Bytes
  packMbl : MblTable → Bytes
  packRec : RecTable → Bytes
  /-- `unpack` of the MBL table at an offset; `none` where it throws. -/
  unpackMbl : Bytes → Nat → Option MblTable

instance : Coe Platform Auth.Engine := ⟨Platform.toEngine⟩

namespace Codes
variable (codes : Codes)

/-- `KEY_EXCHANGE_BY_NAME`. -/
def keyExchanges : List (String × UInt8) :=
  [("X25519", codes.x25519), ("SECP256K1", codes.secp256k1), ("P256", codes.p256)]

/-- `SYMMETRIC_ALGO_BY_NAME`. -/
def symmetricAlgorithms : List (String × UInt8) :=
  [("AES_256_CTR", codes.aes256Ctr), ("AES_256_GCM", 1)]

/-- `KDF_BY_NAME`. -/
def keyDerivations : List (String × UInt8) := [("HKDF_SHA256", codes.hkdfSha256)]

/-- `STANDARD_BY_RECORD_TYPE`. -/
def standardOf (recordType : UInt8) : Option String :=
  if recordType = codes.mbl then some "MBL"
  else if recordType = codes.enc then some "ENC"
  else if recordType = codes.pnm then some "PNM"
  else none

def normalizeKeyExchange (value : Algorithm) : UInt8 :=
  (value.codeIn codes.keyExchanges).getD codes.x25519

def normalizeSymmetricAlgorithm : Algorithm → Except String UInt8
  | .code value => .ok value
  | .name text =>
    match codes.symmetricAlgorithms.lookup (algorithmName text) with
    | some value => .ok value
    | none => .error ("Unsupported ENC symmetric algorithm \"" ++ text ++ "\".")

def normalizeKdf (value : Algorithm) : UInt8 :=
  (value.codeIn codes.keyDerivations).getD codes.hkdfSha256

end Codes

/-- The builder stores the low 64 bits of the timestamp. -/
def encTableFromObject (codes : Codes) (record : EncRecord) : Except String EncTable := do
  let symmetric ← codes.normalizeSymmetricAlgorithm record.symmetric
  let ephemeralPublicKey ← toUint8Array record.ephemeralPublicKey
  let nonceStart ← toUint8Array record.nonceStart
  let recipientKeyId ← normalizeByteField record.recipientKeyId
  let schemaHash ← normalizeByteField record.schemaHash
  return {
    version := record.version
    keyExchange := codes.normalizeKeyExchange record.keyExchange
    symmetric := symmetric
    keyDerivation := codes.normalizeKdf record.keyDerivation
    ephemeralPublicKey := ephemeralPublicKey
    nonceStart := nonceStart
    recipientKeyId := recipientKeyId.getD []
    context := normalizeStringField record.context
    schemaHash := schemaHash.getD []
    rootType := normalizeStringField record.rootType
    timestamp := .ofInt record.timestamp }

def pnmTableFromObject (record : PnmRecord) : PnmRecord where
  multiformatAddress := normalizeStringField record.multiformatAddress
  publishTimestamp := normalizeStringField record.publishTimestamp
  cid := normalizeStringField record.cid
  fileName := normalizeStringField record.fileName
  fileId := normalizeStringField record.fileId
  signature := normalizeStringField record.signature
  timestampSignature := normalizeStringField record.timestampSignature
  signatureType := normalizeStringField record.signatureType
  timestampSignatureType := normalizeStringField record.timestampSignatureType

end Tables

section Checks
variable (buffer : Bytes)

def require (holds : Bool) (message : String) : Except String Unit :=
  if holds then .ok () else .error message

/-- Offsets and lengths are far below the safe integers. -/
def assertBounds (offset length : Nat) (label : String) : Except String Unit :=
  require (offset + length ≤ buffer.length) (label ++ " is out of bounds.")

variable (offset : Nat)

def readUint16LE (label : String) : Except String Nat := do
  assertBounds buffer offset 2 label
  return uint16 buffer offset

def readUint32LE (label : String) : Except String Nat := do
  assertBounds buffer offset 4 label
  return uint32 buffer offset

def readInt32LE (label : String) : Except String Int := do
  assertBounds buffer offset 4 label
  return int32 buffer offset

structure TableMeta where
  label : String
  tableStart : Nat
  objectLength : Nat
  vtableStart : Nat
  vtableLength : Nat

variable (tableMeta : TableMeta) (slot : Nat)

def readTableFieldOffset : Except String Nat :=
  if tableMeta.vtableStart + slot + 2 > tableMeta.vtableStart + tableMeta.vtableLength then .ok 0
  else readUint16LE buffer (tableMeta.vtableStart + slot) (tableMeta.label ++ " field offset")

def resolveRelativeOffset (label : String) : Except String Nat := do
  let relativeOffset ← readInt32LE buffer offset label
  let target : Int := offset + relativeOffset
  require (0 ≤ target && target ≤ buffer.length - 4)
    (label ++ " points outside the FlatBuffer.")
  return target.toNat

def assertFlatbufferIdentifier (identifier : Bytes) (name label : String) :
    Except String Unit := do
  assertBounds buffer 4 4 (label ++ " identifier")
  require ((buffer.drop 4).take 4 == identifier)
    (label ++ " is missing the " ++ name ++ " file identifier.")

/-- One turn of the loop over the vtable's entries. -/
def assertFieldEntry (vtableStart objectLength : Nat) (label : String) (index : Nat) :
    Except String Unit := do
  let fieldOffset ← readUint16LE buffer (vtableStart + 4 + 2 * index) (label ++ " field entry")
  require (fieldOffset == 0 || (4 ≤ fieldOffset && fieldOffset < objectLength))
    (label ++ " field offset is invalid.")

def assertFlatbufferTable (tableStart : Nat) (label : String) : Except String TableMeta := do
  assertBounds buffer tableStart 4 (label ++ " table header")
  let vtableDistance ← readInt32LE buffer tableStart (label ++ " vtable offset")
  let vtableStart : Int := tableStart - vtableDistance
  require (0 ≤ vtableStart && vtableStart ≤ buffer.length - 4)
    (label ++ " vtable offset is invalid.")
  let vtableStart := vtableStart.toNat
  let vtableLength ← readUint16LE buffer vtableStart (label ++ " vtable length")
  let objectLength ← readUint16LE buffer (vtableStart + 2) (label ++ " object length")
  require (4 ≤ vtableLength && vtableLength % 2 == 0) (label ++ " vtable length is invalid.")
  require (4 ≤ objectLength) (label ++ " object length is invalid.")
  assertBounds buffer vtableStart vtableLength (label ++ " vtable")
  assertBounds buffer tableStart objectLength (label ++ " object")
  (List.range ((vtableLength - 4) / 2)).forM
    (assertFieldEntry buffer vtableStart objectLength label)
  return ⟨label, tableStart, objectLength, vtableStart, vtableLength⟩

def assertRootFlatbufferTable (identifier : Bytes) (name label : String) :
    Except String TableMeta := do
  assertFlatbufferIdentifier buffer identifier name label
  let rootTableStart ← readUint32LE buffer 0 (label ++ " root offset")
  require (8 ≤ rootTableStart && (rootTableStart : Int) ≤ buffer.length - 4)
    (label ++ " root offset is invalid.")
  assertFlatbufferTable buffer rootTableStart label

variable (label : String)

/-- The string and vector checks differ in the bounds they put on the length. -/
def assertOptionalField (lengthAllowed : Nat → Bool) : Except String Unit := do
  let fieldOffset ← readTableFieldOffset buffer tableMeta slot
  if fieldOffset = 0 then return ()
  let start ← resolveRelativeOffset buffer (tableMeta.tableStart + fieldOffset) label
  let length ← readUint32LE buffer start (label ++ " length")
  require (lengthAllowed length) (label ++ " length is invalid.")
  assertBounds buffer (start + 4) length (label ++ " data")

def assertOptionalStringField :
    Except String Unit :=
  assertOptionalField buffer tableMeta slot label fun _ => true

def assertOptionalByteVectorField (minLength maxLength : Nat) : Except String Unit :=
  assertOptionalField buffer tableMeta slot label fun length =>
    minLength ≤ length && length ≤ maxLength

/-- The number of elements, once each of them is a table. -/
def assertTableVectorField :
    Except String Nat := do
  let fieldOffset ← readTableFieldOffset buffer tableMeta slot
  if fieldOffset = 0 then return 0
  let vectorStart ← resolveRelativeOffset buffer (tableMeta.tableStart + fieldOffset) label
  let vectorLength ← readUint32LE buffer vectorStart (label ++ " length")
  assertBounds buffer (vectorStart + 4) (vectorLength * 4) (label ++ " offsets")
  (List.range vectorLength).forM fun index => do
    let name := label ++ "[" ++ toString index ++ "]"
    let tableStart ← resolveRelativeOffset buffer (vectorStart + 4 + 4 * index) name
    discard (assertFlatbufferTable buffer tableStart name)
  return vectorLength

/-- Whether the field is there, once it refers to a table. -/
def assertUnionTableField :
    Except String Bool := do
  let fieldOffset ← readTableFieldOffset buffer tableMeta slot
  if fieldOffset = 0 then return false
  let tableStart ← resolveRelativeOffset buffer (tableMeta.tableStart + fieldOffset) label
  discard (assertFlatbufferTable buffer tableStart label)
  return true

end Checks

section Reading
variable (platform : Platform) (buffer : Bytes)

/-- A string field as the generated accessor returns it, normalized. -/
def textField (table slot : Nat) : Option String :=
  normalizeStringField ((bytesField buffer table slot).map platform.decodeText)

/-- `normalizeByteField` of what the accessor of a byte vector returns. -/
def byteField (table slot : Nat) : Option Bytes :=
  (bytesField buffer table slot).filter (· ≠ [])

def bytesLike : Option Bytes → BytesLike
  | none => .null
  | some bytes => .bytes bytes

/-- The record an ENC table stands for, once its byte fields pass the checks. -/
def checkedEncRecord (label : String) (record : EncRecord)
    (ephemeralPublicKey nonceStart recipientKeyId schemaHash : Option Bytes) :
    Except String EncRecord := do
  let keyLength := (ephemeralPublicKey.getD []).length
  require (keyLength != 0) (label ++ " is missing the ephemeral public key.")
  require ((nonceStart.getD []).length == 12) (label ++ " nonce start must be 12 bytes.")
  require (record.keyExchange != .name "X25519" || keyLength == 32)
    (label ++ " X25519 ephemeral public key must be 32 bytes.")
  require (record.keyExchange == .name "X25519" || (32 ≤ keyLength && keyLength ≤ 65))
    (label ++ " ephemeral public key length is invalid.")
  require ((recipientKeyId.getD []).length ≤ 32) (label ++ " recipient key id is too large.")
  require (schemaHash.all (·.length == 32))
    (label ++ " schema hash must be 32 bytes when present.")
  return record

def validateEncTable (table : Nat) (label : String) : Except String EncRecord := do
  let tableMeta ← assertFlatbufferTable buffer table label
  assertOptionalByteVectorField buffer tableMeta 12 (label ++ " ephemeral public key") 1 65
  assertOptionalByteVectorField buffer tableMeta 14 (label ++ " nonce start") 12 12
  assertOptionalByteVectorField buffer tableMeta 16 (label ++ " recipient key id") 0 32
  assertOptionalStringField buffer tableMeta 18 (label ++ " context")
  assertOptionalByteVectorField buffer tableMeta 20 (label ++ " schema hash") 0 32
  assertOptionalStringField buffer tableMeta 22 (label ++ " root type")
  let codes := platform.codes
  let ephemeralPublicKey := byteField buffer table 12
  let nonceStart := byteField buffer table 14
  let recipientKeyId := byteField buffer table 16
  let schemaHash := byteField buffer table 20
  checkedEncRecord label
    { version := uint8Field buffer table 4 1
      keyExchange := .name (nameOfCode codes.keyExchanges (uint8Field buffer table 6 0))
      symmetric := .name (nameOfCode codes.symmetricAlgorithms (uint8Field buffer table 8 0))
      keyDerivation := .name (nameOfCode codes.keyDerivations (uint8Field buffer table 10 0))
      ephemeralPublicKey := bytesLike ephemeralPublicKey
      nonceStart := bytesLike nonceStart
      recipientKeyId := bytesLike recipientKeyId
      context := textField platform buffer table 18
      schemaHash := bytesLike schemaHash
      rootType := textField platform buffer table 22
      timestamp := JavaScript.nearestDouble (uint64Field buffer table 24).toNat }
    ephemeralPublicKey nonceStart recipientKeyId schemaHash

/-- Slot and name of the string fields of a PNM table. -/
def pnmFields : List (Nat × String) :=
  [(4, " multiformat address"), (6, " publish timestamp"), (8, " cid"), (10, " file name"),
    (12, " file id"), (14, " signature"), (16, " timestamp signature"), (18, " signature type"),
    (20, " timestamp signature type")]

def PnmRecord.fields (record : PnmRecord) : List (Option String) :=
  [record.multiformatAddress, record.publishTimestamp, record.cid, record.fileName, record.fileId,
    record.signature, record.timestampSignature, record.signatureType,
    record.timestampSignatureType]

def validatePnmTable (table : Nat) (label : String) : Except String PnmRecord := do
  let tableMeta ← assertFlatbufferTable buffer table label
  pnmFields.forM fun field => assertOptionalStringField buffer tableMeta field.1 (label ++ field.2)
  let text := textField platform buffer table
  let record : PnmRecord :=
    { multiformatAddress := text 4, publishTimestamp := text 6, cid := text 8, fileName := text 10
      fileId := text 12, signature := text 14, timestampSignature := text 16
      signatureType := text 18, timestampSignatureType := text 20 }
  require (record.fields.any Option.isSome)
    (label ++ " must contain at least one populated field.")
  return record

end Reading

section Collections
variable (platform : Platform)

def encodeEncRecord (record : EncRecord) : Except String Bytes :=
  (encTableFromObject platform.codes record).map platform.packEnc

def decodeEncRecord (buffer : Bytes) : Except String EncRecord := do
  discard (assertRootFlatbufferTable buffer (utf8 "$ENC") "$ENC" "ENC record")
  validateEncTable platform buffer (uint32 buffer 0) "ENC record"

def encodePnmRecord (record : PnmRecord) : Bytes := platform.packPnm (pnmTableFromObject record)

/-- A bundle where an MBL record is expected: a table of the object API, or a plain object. -/
inductive BundleLike where
  | table (table : MblTable)
  | object (bundle : Bundle.BundleObject)

def moduleBundleTable : BundleLike → Except String MblTable
  | .table table => .ok table
  | .object bundle =>
    Bundle.moduleBundleTableFromObject platform.toEngine platform.roles platform.encodings bundle

def encodeModuleBundle (bundle : ModuleBundle) : Except String Bytes :=
  (moduleBundleTable platform (.object bundle.object)).map platform.packMbl

/-- The options of `encodePublicationRecordCollection`. -/
structure Records where
  version : Option String := none
  mbl : Option BundleLike := none
  enc : Option EncRecord := none
  pnm : Option PnmRecord := none

def defaultRecordCollectionVersion : String := "1.0.0"

variable (records : Records)

/-- The records that are pushed, in the order MBL, ENC, PNM. -/
def recordTables : Except String (List RecordTable) := do
  let mbl ← records.mbl.mapM (moduleBundleTable platform)
  let enc ← records.enc.mapM (encTableFromObject platform.codes)
  let codes := platform.codes
  return (mbl.map fun table => ⟨codes.mbl, .mbl table, some "MBL"⟩).toList ++
    (enc.map fun table => ⟨codes.enc, .enc table, some "ENC"⟩).toList ++
    (records.pnm.map fun record =>
      ⟨codes.pnm, .pnm (pnmTableFromObject record), some "PNM"⟩).toList

/-- The table `encodePublicationRecordCollection` packs. -/
def collectionTable : Except String RecTable := do
  let tables ← recordTables platform records
  require (!tables.isEmpty) "At least one MBL, ENC, or PNM record is required."
  return {
    version := some
      ((normalizeStringField records.version).getD defaultRecordCollectionVersion)
    records := tables }

def encodePublicationRecordCollection : Except String Bytes :=
  (collectionTable platform records).map platform.packRec

inductive DecodedValue where
  | unknown
  | mbl (bundle : ModuleBundle)
  | enc (record : EncRecord)
  | pnm (record : PnmRecord)

structure DecodedRecord where
  standard : Option String
  recordType : UInt8
  value : DecodedValue

/-- What `decodePublicationRecordCollection` returns of the records. -/
structure Decoded where
  records : List DecodedRecord := []
  mbl : Option ModuleBundle := none
  mblBytes : Option Bytes := none
  enc : Option EncRecord := none
  pnm : Option PnmRecord := none

/-- The value of a record that says it follows a standard. -/
def decodeValue (buffer : Bytes) (decoded : Decoded) (standard : Option String)
    (table : Nat) (label : String) : Except String (Decoded × DecodedValue) :=
  if standard = some "MBL" then do
    require decoded.mbl.isNone "REC trailer contains multiple MBL records."
    let unpacked ← match platform.unpackMbl buffer table with
      | some unpacked => Except.ok unpacked
      | none => .error (label ++ " MBL payload is missing.")
    let mbl := Bundle.normalizeDecodedBundle platform.toEngine unpacked
    let mblBytes ← encodeModuleBundle platform mbl
    return ({ decoded with mbl := some mbl, mblBytes := some mblBytes }, .mbl mbl)
  else if standard = some "ENC" then do
    require decoded.enc.isNone "REC trailer contains multiple ENC records."
    let enc ← validateEncTable platform buffer table (label ++ " ENC payload")
    return ({ decoded with enc := some enc }, .enc enc)
  else if standard = some "PNM" then do
    require decoded.pnm.isNone "REC trailer contains multiple PNM records."
    let pnm ← validatePnmTable platform buffer table (label ++ " PNM payload")
    return ({ decoded with pnm := some pnm }, .pnm pnm)
  else return (decoded, .unknown)

/-- One turn of the loop over the records; `records` is the place of the vector's reference. -/
def decodeRecord (buffer : Bytes) (records : Nat) (decoded : Decoded) (index : Nat) :
    Except String Decoded := do
  let table := elementTable buffer records index
  let label := "REC trailer record " ++ toString index
  let recordMeta ← assertFlatbufferTable buffer table label
  assertOptionalStringField buffer recordMeta 8 (label ++ " standard")
  let recordType := uint8Field buffer table 4 0
  let standard := (textField platform buffer table 8).or (platform.codes.standardOf recordType)
  let present ← assertUnionTableField buffer recordMeta 6 (label ++ " value")
  require present (label ++ " is missing a value.")
  let value := target buffer (table + fieldOffset buffer table 6)
  let (decoded, decodedValue) ← decodeValue platform buffer decoded standard value label
  return { decoded with records := decoded.records ++ [⟨standard, recordType, decodedValue⟩] }

structure Collection extends Decoded where
  version : String
  recordCollectionBytes : Bytes

def decodePublicationRecordCollection (buffer : Bytes) : Except String Collection := do
  let _ ← assertRootFlatbufferTable buffer (utf8 "$REC") "$REC" "REC trailer"
  let root := uint32 buffer 0
  let collectionMeta ← assertFlatbufferTable buffer root "REC trailer"
  assertOptionalStringField buffer collectionMeta 4 "REC trailer version"
  let count ← assertTableVectorField buffer collectionMeta 6 "REC trailer records"
  require (count != 0) "REC trailer does not contain any records."
  let decoded ← (List.range count).foldlM
    (decodeRecord platform buffer (root + fieldOffset buffer root 6)) {}
  return { decoded with
    version := (textField platform buffer root 4).getD defaultRecordCollectionVersion
    recordCollectionBytes := buffer }

end Collections

section Trailer
variable (platform : Platform)

def trailerMagic : Bytes := utf8 "$REC"

/-- The length in the footer, if the magic is there. -/
def readFooterLength (bytes : Bytes) : Option Nat :=
  if bytes.length < 8 then none
  else if bytes.drop (bytes.length - 4) = trailerMagic then some (uint32 bytes (bytes.length - 8))
  else none

def encodeFooter (recordCollectionLength : Nat) : Except String Bytes := do
  require (recordCollectionLength ≤ 4294967295) "REC trailer length must fit in uint32."
  return [UInt8.ofNat recordCollectionLength, UInt8.ofNat (recordCollectionLength / 256),
    UInt8.ofNat (recordCollectionLength / 65536),
    UInt8.ofNat (recordCollectionLength / 16777216)] ++ trailerMagic

def appendPublicationRecordCollection (payload recordCollection : Bytes) : Except String Bytes := do
  let footer ← encodeFooter recordCollection.length
  return payload ++ recordCollection ++ footer

structure Extracted extends Collection where
  payloadBytes : Bytes
  protectedBytes : Bytes
  footerBytes : Bytes
  recordCollectionLength : Nat

/-- A trailer that does not decode is no trailer. -/
def extractPublicationRecordCollection (bytes : Bytes) : Option Extracted := do
  let recordCollectionLength ← readFooterLength bytes
  let footerOffset := bytes.length - 8
  if footerOffset < recordCollectionLength then none
  let recordCollectionOffset := footerOffset - recordCollectionLength
  match decodePublicationRecordCollection platform
      ((bytes.drop recordCollectionOffset).take recordCollectionLength) with
  | .error _ => none
  | .ok decoded => some { decoded with
      payloadBytes := bytes.take recordCollectionOffset
      protectedBytes := bytes
      footerBytes := bytes.drop footerOffset
      recordCollectionLength := recordCollectionLength }

end Trailer

end SpaceDataModule.Transport
