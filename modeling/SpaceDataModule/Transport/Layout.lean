import SpaceDataModule.Checked
import SpaceDataModule.Transport.Records

/-! What a faithful FlatBuffers encoding of the record tables is, and that the checks of the
decoder pass on it and read the tables back. -/
namespace SpaceDataModule.Transport
open Bundle (Bytes utf8)
open FlatBuffers hiding Bytes

section Layouts
variable (platform : Platform) (buffer : Bytes) (table : Nat)

@[mk_iff]
structure EncAt (enc : EncTable) : Prop where
  wellFormed : Table buffer table
  version : uint8Field buffer table 4 1 = enc.version
  keyExchange : uint8Field buffer table 6 0 = enc.keyExchange
  symmetric : uint8Field buffer table 8 0 = enc.symmetric
  keyDerivation : uint8Field buffer table 10 0 = enc.keyDerivation
  ephemeralPublicKey : VectorField buffer table 12 (some enc.ephemeralPublicKey)
  nonceStart : VectorField buffer table 14 (some enc.nonceStart)
  recipientKeyId : VectorField buffer table 16 (some enc.recipientKeyId)
  context : VectorField buffer table 18 (enc.context.map utf8)
  schemaHash : VectorField buffer table 20 (some enc.schemaHash)
  rootType : VectorField buffer table 22 (enc.rootType.map utf8)
  timestamp : uint64Field buffer table 24 = enc.timestamp

@[mk_iff]
structure PnmAt (pnm : PnmRecord) : Prop where
  wellFormed : Table buffer table
  multiformatAddress : VectorField buffer table 4 (pnm.multiformatAddress.map utf8)
  publishTimestamp : VectorField buffer table 6 (pnm.publishTimestamp.map utf8)
  cid : VectorField buffer table 8 (pnm.cid.map utf8)
  fileName : VectorField buffer table 10 (pnm.fileName.map utf8)
  fileId : VectorField buffer table 12 (pnm.fileId.map utf8)
  signature : VectorField buffer table 14 (pnm.signature.map utf8)
  timestampSignature : VectorField buffer table 16 (pnm.timestampSignature.map utf8)
  signatureType : VectorField buffer table 18 (pnm.signatureType.map utf8)
  timestampSignatureType : VectorField buffer table 20 (pnm.timestampSignatureType.map utf8)

def ValueAt : RecordValue → Prop
  | .mbl mbl => Table buffer table ∧ platform.unpackMbl buffer table = some mbl
  | .enc enc => EncAt buffer table enc
  | .pnm pnm => PnmAt buffer table pnm

@[mk_iff]
structure RecordAt (record : RecordTable) : Prop where
  wellFormed : Table buffer table
  valueType : uint8Field buffer table 4 0 = record.valueType
  standard : VectorField buffer table 8 (record.standard.map utf8)
  value : TableField buffer table 6
  holds : ValueAt platform buffer (target buffer (table + fieldOffset buffer table 6)) record.value

/-- The place of the reference to the vector of records. -/
def recordsPlace : Nat := uint32 buffer 0 + fieldOffset buffer (uint32 buffer 0) 6

/-- The bytes are an encoding of the collection. -/
@[mk_iff]
structure RecAt (collection : RecTable) : Prop where
  identifier : (buffer.drop 4).take 4 = utf8 "$REC"
  root : 8 ≤ uint32 buffer 0
  wellFormed : Table buffer (uint32 buffer 0)
  version : VectorField buffer (uint32 buffer 0) 4 (collection.version.map utf8)
  records : TableField buffer (uint32 buffer 0) 6
  count : vectorLength buffer (recordsPlace buffer) = collection.records.length
  fits : target buffer (recordsPlace buffer) + 4 + 4 * collection.records.length ≤ buffer.length
  refers : ∀ index < collection.records.length,
    References buffer (target buffer (recordsPlace buffer) + 4 + 4 * index)
  elements : ∀ element ∈ collection.records.zipIdx,
    RecordAt platform buffer (elementTable buffer (recordsPlace buffer) element.2) element.1

instance (enc : EncTable) : Decidable (EncAt buffer table enc) :=
  decidable_of_iff _ (encAt_iff ..).symm

instance (pnm : PnmRecord) : Decidable (PnmAt buffer table pnm) :=
  decidable_of_iff _ (pnmAt_iff ..).symm

instance (value : RecordValue) : Decidable (ValueAt platform buffer table value) := by
  unfold ValueAt
  split <;> infer_instance

instance (record : RecordTable) :
    Decidable (RecordAt platform buffer table record) :=
  decidable_of_iff _ (recordAt_iff ..).symm

instance (collection : RecTable) : Decidable (RecAt platform buffer collection) :=
  decidable_of_iff _ (recAt_iff ..).symm

end Layouts

section Steps

export Checked (ok_bind bind_eq_ok map_eq_ok)

@[simp]
theorem require_of_true (true : holds = true) (message : String) :
    require holds message = .ok () := if_pos true

theorem require_eq_ok :
    require holds message = .ok done ↔ holds = true := Checked.require_eq_ok

theorem require_bind_eq_ok {β : Type} {next : Unit → Except String β} {result : β} :
    (require holds message >>= next) = .ok result ↔ holds = true ∧ next () = .ok result :=
  Checked.require_bind_eq_ok

theorem forM_ok {ε α : Type} {items : List α} {check : α → Except ε Unit}
    (passes : ∀ item ∈ items, check item = .ok ()) : items.forM check = .ok () := by
  induction items with
  | nil => rfl
  | cons item items ih =>
    change (check item >>= fun _ => items.forM check) = _
    rw [passes item List.mem_cons_self]
    exact ih fun other member => passes other (List.mem_cons_of_mem _ member)

end Steps

section Checks

theorem assertBounds_ok (inside : offset + length ≤ buffer.length) :
    assertBounds buffer offset length label = .ok () :=
  require_of_true (decide_eq_true inside) _

theorem readUint16LE_ok (inside : offset + 2 ≤ buffer.length) :
    readUint16LE buffer offset label = .ok (uint16 buffer offset) := by
  rw [readUint16LE, assertBounds_ok inside]
  rfl

theorem readUint32LE_ok (inside : offset + 4 ≤ buffer.length) :
    readUint32LE buffer offset label = .ok (uint32 buffer offset) := by
  rw [readUint32LE, assertBounds_ok inside]
  rfl

theorem readInt32LE_ok (inside : offset + 4 ≤ buffer.length) :
    readInt32LE buffer offset label = .ok (int32 buffer offset) := by
  rw [readInt32LE, assertBounds_ok inside]
  rfl

theorem resolveRelativeOffset_ok (refers : References buffer place) :
    resolveRelativeOffset buffer place label = .ok (target buffer place) := by
  have leads := refers.leads
  have forward := refers.forward
  rw [resolveRelativeOffset, readInt32LE_ok refers.inside, ok_bind]
  dsimp only
  rw [require_of_true]
  · rfl
  · rw [target] at leads
    rw [Bool.and_eq_true, decide_eq_true_iff, decide_eq_true_iff]
    omega

/-- The checks of a table leave the offsets the accessors use. -/
def metaOf (buffer : Bytes) (table : Nat) (label : String) : TableMeta :=
  ⟨label, table, objectLength buffer table, (vtable buffer table).toNat, vtableLength buffer table⟩

section
variable (wellFormed : Table buffer table)
include wellFormed

theorem assertFieldEntry_ok (listed : index < (vtableLength buffer table - 4) / 2) :
    assertFieldEntry buffer (vtable buffer table).toNat (objectLength buffer table) label index =
      .ok () := by
  have inside := wellFormed.vtable_inside
  rw [assertFieldEntry, readUint16LE_ok (by omega)]
  apply require_of_true
  have field := wellFormed.fields index listed
  simpa only [Bool.or_eq_true, beq_iff_eq, Bool.and_eq_true, decide_eq_true_iff] using field

theorem assertFlatbufferTable_ok :
    assertFlatbufferTable buffer table label = .ok (metaOf buffer table label) := by
  have object := wellFormed.object
  have objectInside := wellFormed.object_inside
  have header := wellFormed.header
  have vtableInside := wellFormed.vtable_inside
  have nonneg := wellFormed.vtable_nonneg
  have even := wellFormed.even
  rw [assertFlatbufferTable, assertBounds_ok (by omega), ok_bind, readInt32LE_ok (by omega),
    ok_bind]
  have start : (table : Int) - int32 buffer table = vtable buffer table := rfl
  have vtableWord : uint16 buffer (vtable buffer table).toNat = vtableLength buffer table := rfl
  have objectWord : uint16 buffer ((vtable buffer table).toNat + 2) = objectLength buffer table :=
    rfl
  dsimp only
  rw [start, require_of_true, ok_bind, readUint16LE_ok (by omega), ok_bind,
    readUint16LE_ok (by omega), vtableWord, objectWord]
  · rw [require_of_true, ok_bind, require_of_true, assertBounds_ok vtableInside,
      assertBounds_ok objectInside, forM_ok]
    · rfl
    · intro index listed
      exact assertFieldEntry_ok wellFormed (List.mem_range.mp listed)
    · exact decide_eq_true object
    · rw [Bool.and_eq_true, decide_eq_true_iff, beq_iff_eq]
      exact ⟨header, even⟩
  · rw [Bool.and_eq_true, decide_eq_true_iff, decide_eq_true_iff]
    omega

section
variable (slots : slot % 2 = 0)
include slots

/-- The field lookup of the checks is the accessors' own, on the slots of a vtable. -/
theorem readTableFieldOffset_ok :
    readTableFieldOffset buffer (metaOf buffer table label) slot =
      .ok (fieldOffset buffer table slot) := by
  have inside := wellFormed.vtable_inside
  have even := wellFormed.even
  rw [readTableFieldOffset, metaOf]
  dsimp only
  change _ = Except.ok (if slot < vtableLength buffer table then _ else 0)
  by_cases listed : slot < vtableLength buffer table
  · rw [if_neg (by omega), if_pos listed, readUint16LE_ok (by omega)]
  · rw [if_pos (by omega), if_neg listed]

theorem assertOptionalField_ok (field : VectorField buffer table slot bytes)
    {lengthAllowed : Nat → Bool} (allowed : ∀ found ∈ bytes, lengthAllowed found.length = true) :
    assertOptionalField buffer (metaOf buffer table label) slot name lengthAllowed = .ok () := by
  rw [assertOptionalField, readTableFieldOffset_ok wellFormed slots, ok_bind]
  cases bytes with
  | none =>
    have absent : fieldOffset buffer table slot = 0 := field
    rw [if_pos absent]
    rfl
  | some bytes =>
    obtain ⟨present, vector⟩ := field
    have length : uint32 buffer (target buffer (table + fieldOffset buffer table slot)) =
        bytes.length := vector.length
    rw [if_neg present, metaOf]
    rw [resolveRelativeOffset_ok vector.toReferences, ok_bind, readUint32LE_ok vector.leads,
      ok_bind, length, require_of_true (allowed bytes rfl)]
    exact assertBounds_ok vector.fits

theorem assertOptionalStringField_ok (field : VectorField buffer table slot bytes) :
    assertOptionalStringField buffer (metaOf buffer table label) slot name = .ok () :=
  assertOptionalField_ok wellFormed slots field fun _ _ => rfl

theorem assertUnionTableField_ok (field : TableField buffer table slot)
    (value : Table buffer (target buffer (table + fieldOffset buffer table slot))) :
    assertUnionTableField buffer (metaOf buffer table label) slot name = .ok true := by
  rw [assertUnionTableField, readTableFieldOffset_ok wellFormed slots, ok_bind,
    if_neg field.present, metaOf]
  rw [resolveRelativeOffset_ok field.refers, ok_bind, assertFlatbufferTable_ok value]
  rfl

end

end

end Checks

section Texts

theorem normalizeStringField_text (text : String) : normalizeStringField (some text) =
    if JavaScript.trim text = "" then none else some (JavaScript.trim text) := rfl

/-- A text field of a table: null, or trimmed and not blank. -/
def Settled (value : Option String) : Prop := normalizeStringField value = value

theorem settled_normalizeStringField (value : Option String) :
    Settled (normalizeStringField value) := by
  cases value with
  | none => rfl
  | some text =>
    by_cases blank : JavaScript.trim text = ""
    · rw [normalizeStringField_text, if_pos blank]
      rfl
    · rw [normalizeStringField_text, if_neg blank]
      rw [Settled, normalizeStringField_text, JavaScript.trim_trim, if_neg blank]

theorem Settled.trimmed (settled : Settled (some text)) : JavaScript.trim text = text := by
  rw [Settled, normalizeStringField_text] at settled
  split_ifs at settled
  exact Option.some.inj settled

/-- The decoder gives a trimmed text back: it starts with no byte order mark. -/
theorem decodeText_trim {engine : Auth.Engine} (text : String) :
    engine.decodeText (utf8 (JavaScript.trim text)) = JavaScript.trim text := by
  apply engine.decodeText_utf8
  intro marked
  have plain := JavaScript.isSpace_head_trim marked
  exact absurd plain (by decide)

theorem Settled.decoded {engine : Auth.Engine} (settled : Settled (some text)) :
    engine.decodeText (utf8 text) = text := by
  rw [← settled.trimmed]
  exact decodeText_trim text

theorem textField_read (settled : Settled value)
    (field : VectorField buffer table slot (value.map utf8)) :
    textField platform buffer table slot = value := by
  rw [textField, field.read]
  cases value with
  | none => rfl
  | some text =>
    rw [Option.map_some, Option.map_some, settled.decoded]
    exact settled

theorem byteField_read (field : VectorField buffer table slot (some bytes)) :
    byteField buffer table slot = (some bytes).filter (· ≠ []) := by
  rw [byteField, field.read]

end Texts

section Enc

def EncTable.record (codes : Codes) (enc : EncTable) : EncRecord where
  version := enc.version
  keyExchange := .name (nameOfCode codes.keyExchanges enc.keyExchange)
  symmetric := .name (nameOfCode codes.symmetricAlgorithms enc.symmetric)
  keyDerivation := .name (nameOfCode codes.keyDerivations enc.keyDerivation)
  ephemeralPublicKey := bytesLike ((some enc.ephemeralPublicKey).filter (· ≠ []))
  nonceStart := bytesLike ((some enc.nonceStart).filter (· ≠ []))
  recipientKeyId := bytesLike ((some enc.recipientKeyId).filter (· ≠ []))
  context := enc.context
  schemaHash := bytesLike ((some enc.schemaHash).filter (· ≠ []))
  rootType := enc.rootType
  timestamp := JavaScript.nearestDouble enc.timestamp.toNat

/-- The lengths an ENC table may have. -/
@[mk_iff]
structure EncTable.Admissible (codes : Codes) (enc : EncTable) : Prop where
  exchanged : nameOfCode codes.keyExchanges enc.keyExchange = "X25519" →
    enc.ephemeralPublicKey.length = 32
  otherwise : nameOfCode codes.keyExchanges enc.keyExchange ≠ "X25519" →
    32 ≤ enc.ephemeralPublicKey.length ∧ enc.ephemeralPublicKey.length ≤ 65
  nonceStart : enc.nonceStart.length = 12
  recipientKeyId : enc.recipientKeyId.length ≤ 32
  schemaHash : enc.schemaHash = [] ∨ enc.schemaHash.length = 32

structure EncTable.Settled (enc : EncTable) : Prop where
  context : Transport.Settled enc.context
  rootType : Transport.Settled enc.rootType

theorem EncTable.Admissible.keyLength {enc : EncTable} (admissible : enc.Admissible codes) :
    32 ≤ enc.ephemeralPublicKey.length ∧ enc.ephemeralPublicKey.length ≤ 65 := by
  by_cases exchanged : nameOfCode codes.keyExchanges enc.keyExchange = "X25519"
  · have length := admissible.exchanged exchanged
    omega
  · exact admissible.otherwise exchanged

theorem length_filter_getD (bytes : Bytes) :
    (((some bytes).filter (· ≠ [])).getD []).length = bytes.length := by
  cases bytes with
  | nil => rfl
  | cons byte bytes => rfl

theorem checkedEncRecord_iff {enc : EncTable} {record result : EncRecord}
    (exchange : record.keyExchange = .name (nameOfCode codes.keyExchanges enc.keyExchange)) :
    checkedEncRecord label record ((some enc.ephemeralPublicKey).filter (· ≠ []))
        ((some enc.nonceStart).filter (· ≠ [])) ((some enc.recipientKeyId).filter (· ≠ []))
        ((some enc.schemaHash).filter (· ≠ [])) = .ok result ↔
      enc.Admissible codes ∧ result = record := by
  have present : ((some enc.schemaHash).filter (· ≠ [])).all (·.length == 32) = true ↔
      enc.schemaHash = [] ∨ enc.schemaHash.length = 32 := by
    cases enc.schemaHash with
    | nil => simp
    | cons byte bytes => simp
  have named : record.keyExchange = .name "X25519" ↔
      nameOfCode codes.keyExchanges enc.keyExchange = "X25519" := by
    rw [exchange, Algorithm.name.injEq]
  simp only [checkedEncRecord, length_filter_getD, require_bind_eq_ok, present, bne_iff_ne,
    beq_iff_eq, Bool.or_eq_true, Bool.and_eq_true, decide_eq_true_iff, named, ne_eq]
  constructor
  · rintro ⟨filled, nonce, short, long, recipient, schema, done⟩
    have admissible : enc.Admissible codes := by
      constructor
      · exact fun exchanged => short.resolve_left (absurd exchanged)
      · exact fun other => long.resolve_left other
      · exact nonce
      · exact recipient
      · exact schema
    exact ⟨admissible, (Except.ok.inj done).symm⟩
  · rintro ⟨admissible, rfl⟩
    have length := admissible.keyLength
    refine ⟨by omega, admissible.nonceStart, ?_, ?_, admissible.recipientKeyId,
      admissible.schemaHash, rfl⟩
    · exact Decidable.not_or_of_imp admissible.exchanged
    · exact .inr length

theorem validateEncTable_iff (encoded : EncAt buffer table enc) (settled : enc.Settled)
    {result : EncRecord} :
    validateEncTable platform buffer table label = .ok result ↔
      enc.Admissible platform.codes ∧ result = enc.record platform.codes := by
  have checked := @checkedEncRecord_iff label platform.codes enc (enc.record platform.codes)
    result rfl
  rw [← checked, validateEncTable, assertFlatbufferTable_ok encoded.wellFormed, ok_bind]
  -- the accessors read the fields of `enc.record`
  rw [encoded.version, encoded.keyExchange, encoded.symmetric, encoded.keyDerivation,
    byteField_read encoded.ephemeralPublicKey, byteField_read encoded.nonceStart,
    byteField_read encoded.recipientKeyId, textField_read settled.context encoded.context,
    byteField_read encoded.schemaHash, textField_read settled.rootType encoded.rootType,
    encoded.timestamp]
  constructor
  · intro accepted
    simp only [bind_eq_ok] at accepted
    obtain ⟨_, -, _, -, _, -, _, -, _, -, _, -, accepted⟩ := accepted
    exact accepted
  · intro accepted
    have admissible := (checked.mp accepted).1
    have field {slot minLength maxLength : Nat} {name : String} {bytes : Bytes}
        (slots : slot % 2 = 0) (vector : VectorField buffer table slot (some bytes))
        (low : minLength ≤ bytes.length) (high : bytes.length ≤ maxLength) :
        assertOptionalByteVectorField buffer (metaOf buffer table label) slot name minLength
          maxLength = .ok () := by
      apply assertOptionalField_ok encoded.wellFormed slots vector
      intro found same
      cases same
      simp only [low, high, decide_true, Bool.and_self]
    have key := admissible.keyLength
    have nonce := admissible.nonceStart
    have schema : enc.schemaHash.length ≤ 32 := by
      rcases admissible.schemaHash with empty | full
      · simp [empty]
      · omega
    rw [field rfl encoded.ephemeralPublicKey (by omega) key.2,
      field rfl encoded.nonceStart nonce.ge nonce.le,
      field rfl encoded.recipientKeyId (Nat.zero_le _) admissible.recipientKeyId,
      assertOptionalStringField_ok encoded.wellFormed rfl encoded.context,
      field rfl encoded.schemaHash (Nat.zero_le _) schema,
      assertOptionalStringField_ok encoded.wellFormed rfl encoded.rootType]
    exact accepted

end Enc

section Pnm

def PnmRecord.Settled (pnm : PnmRecord) : Prop := ∀ field ∈ pnm.fields, Transport.Settled field

theorem PnmRecord.settled_tableFromObject (record : PnmRecord) :
    (pnmTableFromObject record).Settled := by
  intro field member
  simp only [fields, List.mem_cons, List.not_mem_nil, or_false] at member
  rcases member with rfl | rfl | rfl | rfl | rfl | rfl | rfl | rfl | rfl
  all_goals exact settled_normalizeStringField _

section
variable (encoded : PnmAt buffer table pnm)
include encoded

theorem PnmAt.vectors : ∀ field ∈ pnmFields,
    field.1 % 2 = 0 ∧ ∃ bytes, VectorField buffer table field.1 bytes := by
  intro field member
  simp only [pnmFields, List.mem_cons, List.not_mem_nil, or_false] at member
  rcases member with rfl | rfl | rfl | rfl | rfl | rfl | rfl | rfl | rfl
  · exact ⟨rfl, _, encoded.multiformatAddress⟩
  · exact ⟨rfl, _, encoded.publishTimestamp⟩
  · exact ⟨rfl, _, encoded.cid⟩
  · exact ⟨rfl, _, encoded.fileName⟩
  · exact ⟨rfl, _, encoded.fileId⟩
  · exact ⟨rfl, _, encoded.signature⟩
  · exact ⟨rfl, _, encoded.timestampSignature⟩
  · exact ⟨rfl, _, encoded.signatureType⟩
  · exact ⟨rfl, _, encoded.timestampSignatureType⟩

theorem validatePnmTable_iff (settled : pnm.Settled) {result : PnmRecord} :
    validatePnmTable platform buffer table label = .ok result ↔
      pnm.fields.any Option.isSome = true ∧ result = pnm := by
  rw [validatePnmTable, assertFlatbufferTable_ok encoded.wellFormed, ok_bind, forM_ok, ok_bind]
  · have text {slot : Nat} {value : Option String} (member : value ∈ pnm.fields)
        (field : VectorField buffer table slot (value.map utf8)) :
        textField platform buffer table slot = value := textField_read (settled value member) field
    dsimp only
    rw [text (by simp [PnmRecord.fields]) encoded.multiformatAddress,
      text (by simp [PnmRecord.fields]) encoded.publishTimestamp,
      text (by simp [PnmRecord.fields]) encoded.cid,
      text (by simp [PnmRecord.fields]) encoded.fileName,
      text (by simp [PnmRecord.fields]) encoded.fileId,
      text (by simp [PnmRecord.fields]) encoded.signature,
      text (by simp [PnmRecord.fields]) encoded.timestampSignature,
      text (by simp [PnmRecord.fields]) encoded.signatureType,
      text (by simp [PnmRecord.fields]) encoded.timestampSignatureType, require_bind_eq_ok]
    exact and_congr_right fun _ => ⟨fun same => (Except.ok.inj same).symm, congrArg _ ∘ Eq.symm⟩
  · intro field member
    obtain ⟨slots, bytes, vector⟩ := encoded.vectors field member
    exact assertOptionalStringField_ok encoded.wellFormed slots vector

end

end Pnm

end SpaceDataModule.Transport
