import SpaceDataModule.Bundle.Binding
import SpaceDataModule.Bundle.TypeRefs
import SpaceDataModule.Transport.Trailer

/-! Publication records behind a payload come back from it. The one thing that stands between is
the MBL record: the decoder packs it again, and what cannot be packed again takes the whole
trailer with it. -/
namespace SpaceDataModule.Transport
open Bundle (Bytes utf8 MblTable ModuleBundle)
open FlatBuffers hiding Bytes

section Bundles

/-- The decoded bundle can be packed again: it has a canonicalization, and no type of a payload
holds a number beyond the finite ones. -/
@[mk_iff]
structure Repackable (engine : Auth.Engine) (table : MblTable) : Prop where
  canonicalization : table.canonicalization ≠ none
  typeRefs : ∀ entry ∈ table.entries, Auth.finite (Bundle.parseTypeRef engine entry.typeRef) = true

theorem exists_stringifyTypeRef_ok (engine : Auth.Engine) :
    (∃ text, Bundle.stringifyTypeRef engine value = .ok text) ↔ Auth.finite value = true := by
  have written (other : Json.Value) : (∃ text, (Auth.canonicalBytes engine other).map
      (fun bytes => some (engine.decodeText bytes)) = .ok text) ↔ Auth.finite other = true := by
    rw [Auth.canonicalBytes, Auth.stableStringify, Auth.normalizeCanonicalValue]
    by_cases numbers : Auth.finite other = true
    · rw [if_pos numbers]
      exact ⟨fun _ => numbers, fun _ => ⟨_, rfl⟩⟩
    · rw [if_neg numbers]
      exact ⟨by rintro ⟨_, ⟨⟩⟩, fun holds => absurd holds numbers⟩
  cases value with
  | null | string text => simp [Bundle.stringifyTypeRef, Auth.finite]
  | bool value => exact written (.bool value)
  | number value => exact written (.number value)
  | array items => exact written (.array items)
  | object members => exact written (.object members)

theorem exists_tableFromObject_ok :
    (∃ table, moduleBundleTable platform (.object bundle) = .ok table) ↔
      bundle.canonicalization ≠ none ∧
        ∀ entry ∈ bundle.entries, Auth.finite entry.typeRef = true := by
  have entry_ok (entry : Bundle.EntryObject) : (∃ table, Bundle.normalizeEntry platform
      platform.roles platform.encodings entry = .ok table) ↔ Auth.finite entry.typeRef = true := by
    rw [← exists_stringifyTypeRef_ok platform, Bundle.normalizeEntry]
    simp only [bind_eq_ok]
    constructor
    · rintro ⟨_, text, ok, _⟩
      exact ⟨text, ok⟩
    · rintro ⟨text, ok⟩
      exact ⟨_, text, ok, rfl⟩
  have entries_ok := Checked.exists_mapM_ok bundle.entries
    (Bundle.normalizeEntry platform platform.roles platform.encodings)
  simp only [entry_ok] at entries_ok
  rw [← entries_ok, moduleBundleTable, Bundle.moduleBundleTableFromObject]
  cases bundle.canonicalization with
  | none =>
    constructor
    · rintro ⟨table, failed⟩
      cases failed
    · rintro ⟨impossible, -⟩
      exact absurd rfl impossible
  | some rule =>
    simp only [Bundle.normalizeCanonicalization, ok_bind, bind_eq_ok]
    constructor
    · rintro ⟨table, entries, ok, -⟩
      exact ⟨Option.some_ne_none _, entries, ok⟩
    · rintro ⟨-, entries, ok⟩
      exact ⟨_, entries, ok, rfl⟩

theorem exists_encodeModuleBundle_ok :
    (∃ bytes, encodeModuleBundle platform
      (Bundle.normalizeDecodedBundle platform table) = .ok bytes) ↔
      Repackable platform table := by
  have packed (result : Except String MblTable) :
      (∃ bytes, result.map platform.packMbl = .ok bytes) ↔ ∃ table, result = .ok table := by
    cases result with
    | error failure => exact ⟨nofun, nofun⟩
    | ok table => exact ⟨fun _ => ⟨table, rfl⟩, fun _ => ⟨_, rfl⟩⟩
  rw [encodeModuleBundle, packed, exists_tableFromObject_ok]
  simp only [ModuleBundle.object, Bundle.normalizeDecodedBundle, List.forall_mem_map,
    ne_eq, Option.map_eq_none_iff]
  exact (repackable_iff ..).symm

end Bundles

section Enc
variable {record : EncRecord} {table : EncTable}

/-- What a publisher has to give: a key of 32 bytes, a nonce of 12, a key id of at most 32, and
no schema hash or one of 32. -/
structure EncRecord.Conforms (record : EncRecord) : Prop where
  ephemeralPublicKey : ∀ key, toUint8Array record.ephemeralPublicKey = .ok key → key.length = 32
  nonceStart : ∀ nonce, toUint8Array record.nonceStart = .ok nonce → nonce.length = 12
  recipientKeyId : ∀ id, normalizeByteField record.recipientKeyId = .ok (some id) → id.length ≤ 32
  schemaHash : ∀ hash, normalizeByteField record.schemaHash = .ok (some hash) → hash.length = 32

/-- The decoded record is the given one: texts trimmed, algorithms by the names of their codes. -/
structure EncRecord.Recovered (codes : Codes) (record decoded : EncRecord) : Prop where
  version : decoded.version = record.version
  keyExchange : ∃ code ∈ record.keyExchange.codeIn codes.keyExchanges,
    decoded.keyExchange = .name (nameOfCode codes.keyExchanges code)
  symmetric : ∃ code ∈ record.symmetric.codeIn codes.symmetricAlgorithms,
    decoded.symmetric = .name (nameOfCode codes.symmetricAlgorithms code)
  keyDerivation : ∃ code ∈ record.keyDerivation.codeIn codes.keyDerivations,
    decoded.keyDerivation = .name (nameOfCode codes.keyDerivations code)
  ephemeralPublicKey :
    toUint8Array decoded.ephemeralPublicKey = toUint8Array record.ephemeralPublicKey
  nonceStart : toUint8Array decoded.nonceStart = toUint8Array record.nonceStart
  recipientKeyId : normalizeByteField decoded.recipientKeyId = normalizeByteField record.recipientKeyId
  context : decoded.context = normalizeStringField record.context
  schemaHash : normalizeByteField decoded.schemaHash = normalizeByteField record.schemaHash
  rootType : decoded.rootType = normalizeStringField record.rootType
  timestamp : decoded.timestamp = record.timestamp

/-- The algorithms have names that are known, and the timestamp is a double in the range of 64
bits. An unknown symmetric algorithm is refused. -/
structure EncRecord.Storable (codes : Codes) (record : EncRecord) : Prop where
  keyExchange : record.keyExchange.codeIn codes.keyExchanges ≠ none
  keyDerivation : record.keyDerivation.codeIn codes.keyDerivations ≠ none
  timestamp_lt : record.timestamp < 2 ^ 64
  timestamp : (JavaScript.nearestDouble record.timestamp.toNat : Int) = record.timestamp

structure EncTable.From (codes : Codes) (record : EncRecord) (table : EncTable) : Prop where
  version : table.version = record.version
  keyExchange : table.keyExchange = codes.normalizeKeyExchange record.keyExchange
  symmetric : codes.normalizeSymmetricAlgorithm record.symmetric = .ok table.symmetric
  keyDerivation : table.keyDerivation = codes.normalizeKdf record.keyDerivation
  ephemeralPublicKey : toUint8Array record.ephemeralPublicKey = .ok table.ephemeralPublicKey
  nonceStart : toUint8Array record.nonceStart = .ok table.nonceStart
  recipientKeyId :
    normalizeByteField record.recipientKeyId = .ok ((some table.recipientKeyId).filter (· ≠ []))
  context : table.context = normalizeStringField record.context
  schemaHash : normalizeByteField record.schemaHash = .ok ((some table.schemaHash).filter (· ≠ []))
  rootType : table.rootType = normalizeStringField record.rootType
  timestamp : table.timestamp = .ofInt record.timestamp

theorem filter_getD_of_normalizeByteField (normalized : normalizeByteField value = .ok field) :
    (some (field.getD [])).filter (· ≠ []) = field := by
  cases field with
  | none => rfl
  | some bytes =>
    have filled : bytes ≠ [] := by
      rintro rfl
      rw [normalizeByteField] at normalized
      split_ifs at normalized
      · cases normalized
      · obtain ⟨contents, -, same⟩ := map_eq_ok.mp normalized
        split_ifs at same with empty
        exact empty (Option.some.inj same)
    simp [filled]

theorem toUint8Array_bytesLike {contents : Bytes} (filled : contents.length ≠ 0) :
    toUint8Array (bytesLike ((some contents).filter (· ≠ []))) = .ok contents := by
  cases contents with
  | nil => exact absurd rfl filled
  | cons byte contents => rfl

theorem normalizeByteField_bytesLike (contents : Bytes) :
    normalizeByteField (bytesLike ((some contents).filter (· ≠ []))) =
      .ok ((some contents).filter (· ≠ [])) := by
  cases contents with
  | nil => rfl
  | cons byte contents => rfl

theorem encTableFromObject_from (made : encTableFromObject codes record = .ok table) :
    table.From codes record := by
  simp only [encTableFromObject, bind_eq_ok] at made
  obtain ⟨symmetric, algorithm, key, keyOk, nonce, nonceOk, id, idOk, hash, hashOk, made⟩ := made
  cases made
  constructor
  · rfl
  · rfl
  · exact algorithm
  · rfl
  · exact keyOk
  · exact nonceOk
  · rw [filter_getD_of_normalizeByteField idOk]
    exact idOk
  · rfl
  · rw [filter_getD_of_normalizeByteField hashOk]
    exact hashOk
  · rfl
  · rfl

theorem codeIn_of_normalizeSymmetricAlgorithm {value : Algorithm} {codes : Codes}
    (known : codes.normalizeSymmetricAlgorithm value = .ok code) :
    value.codeIn codes.symmetricAlgorithms = some code := by
  cases value with
  | code value => exact congrArg some (Except.ok.inj known)
  | name text =>
    rw [Codes.normalizeSymmetricAlgorithm] at known
    rw [Algorithm.codeIn]
    cases found : codes.symmetricAlgorithms.lookup (algorithmName text) with
    | none =>
      rw [found] at known
      cases known
    | some other =>
      rw [found] at known
      exact congrArg some (Except.ok.inj known)

namespace EncTable.From

section
variable (origin : table.From codes record)
include origin

theorem settled : table.Settled := by
  constructor
  · rw [origin.context]
    exact settled_normalizeStringField _
  · rw [origin.rootType]
    exact settled_normalizeStringField _

theorem admissible (conforms : record.Conforms) :
    table.Admissible codes := by
  have key := conforms.ephemeralPublicKey _ origin.ephemeralPublicKey
  have optional {value : BytesLike} {bytes : Bytes} {P : Bytes → Prop}
      (normalized : normalizeByteField value = .ok ((some bytes).filter (· ≠ [])))
      (given : ∀ found, normalizeByteField value = .ok (some found) → P found) :
      bytes = [] ∨ P bytes := by
    cases bytes with
    | nil => exact .inl rfl
    | cons byte bytes => exact .inr (given _ normalized)
  constructor
  · exact fun _ => key
  · intro _
    omega
  · exact conforms.nonceStart _ origin.nonceStart
  · rcases optional origin.recipientKeyId conforms.recipientKeyId with empty | short
    · simp [empty]
    · exact short
  · exact optional origin.schemaHash conforms.schemaHash

theorem conforms (admissible : table.Admissible codes)
    (keyLength : table.ephemeralPublicKey.length = 32) : record.Conforms := by
  constructor
  · intro key given
    rw [origin.ephemeralPublicKey] at given
    cases given
    exact keyLength
  · intro nonce given
    rw [origin.nonceStart] at given
    cases given
    exact admissible.nonceStart
  · intro id given
    rw [origin.recipientKeyId, Except.ok.injEq, Option.filter_eq_some_iff] at given
    cases given.1
    exact admissible.recipientKeyId
  · intro hash given
    rw [origin.schemaHash, Except.ok.injEq, Option.filter_eq_some_iff] at given
    cases given.1
    exact admissible.schemaHash.resolve_left (by simpa using given.2)

theorem storable_of_recovered (recovered : record.Recovered codes (table.record codes)) :
    record.Storable codes := by
  obtain ⟨exchange, exchanged, -⟩ := recovered.keyExchange
  obtain ⟨derivation, derived, -⟩ := recovered.keyDerivation
  have timestamp := recovered.timestamp
  rw [EncTable.record, origin.timestamp, JavaScript.nearestDouble_ofInt_iff] at timestamp
  exact ⟨Option.ne_none_iff_exists'.mpr ⟨_, exchanged⟩,
    Option.ne_none_iff_exists'.mpr ⟨_, derived⟩, timestamp.1, timestamp.2⟩

theorem recovered (admissible : table.Admissible codes) (storable : record.Storable codes) :
    record.Recovered codes (table.record codes) := by
  have keyLength := admissible.keyLength
  have nonceLength := admissible.nonceStart
  constructor
  · exact origin.version
  · obtain ⟨code, known⟩ := Option.ne_none_iff_exists'.mp storable.keyExchange
    exact ⟨code, known, by
      rw [EncTable.record, origin.keyExchange, Codes.normalizeKeyExchange, known, Option.getD_some]⟩
  · exact ⟨table.symmetric, codeIn_of_normalizeSymmetricAlgorithm origin.symmetric, rfl⟩
  · obtain ⟨code, known⟩ := Option.ne_none_iff_exists'.mp storable.keyDerivation
    exact ⟨code, known, by
      rw [EncTable.record, origin.keyDerivation, Codes.normalizeKdf, known, Option.getD_some]⟩
  · rw [origin.ephemeralPublicKey]
    exact toUint8Array_bytesLike (by omega)
  · rw [origin.nonceStart]
    exact toUint8Array_bytesLike (by omega)
  · rw [origin.recipientKeyId]
    exact normalizeByteField_bytesLike _
  · exact origin.context
  · rw [origin.schemaHash]
    exact normalizeByteField_bytesLike _
  · exact origin.rootType
  · rw [EncTable.record, origin.timestamp, JavaScript.nearestDouble_ofInt_iff]
    exact ⟨storable.timestamp_lt, storable.timestamp⟩

end

end EncTable.From
end Enc

section Records

/-- The records of a collection with at most one of each standard. -/
def tablesOf (codes : Codes) (mbl : Option MblTable) (enc : Option EncTable)
    (pnm : Option PnmRecord) : List RecordTable :=
  (mbl.map fun table => ⟨codes.mbl, .mbl table, some "MBL"⟩).toList ++
    (enc.map fun table => ⟨codes.enc, .enc table, some "ENC"⟩).toList ++
    (pnm.map fun table => ⟨codes.pnm, .pnm table, some "PNM"⟩).toList

/-- A record that may be missing is admitted, or nothing happens. -/
theorem foldlM_toList (step : σ → RecordTable → Option σ) (record : α → RecordTable)
    (value : Option α) (state : σ) : (value.map record).toList.foldlM step state =
      value.elim (some state) fun table => step state (record table) := by
  cases value with
  | none => rfl
  | some table => exact Option.bind_fun_some _

/-- A collection that decodes: its bundle can be packed again, its ENC record has the right lengths
and its PNM record is not blank. -/
@[mk_iff]
structure Readable (platform : Platform) (mbl : Option MblTable) (enc : Option EncTable)
    (pnm : Option PnmRecord) : Prop where
  bundle : ∀ table ∈ mbl, Repackable platform.toEngine table
  encryption : ∀ table ∈ enc, table.Admissible platform.codes
  notice : ∀ table ∈ pnm, table.fields.any Option.isSome = true

theorem Readable.of_bundle (repackable : Repackable platform.toEngine table) :
    Readable platform (some table) none none := by
  refine ⟨?_, by simp, by simp⟩
  rintro _ ⟨⟩
  exact repackable

theorem Readable.of_encryption (admissible : table.Admissible platform.codes) :
    Readable platform none (some table) none := by
  refine ⟨by simp, ?_, by simp⟩
  rintro _ ⟨⟩
  exact admissible

theorem exists_admitted :
    (∃ decoded, (tablesOf platform.codes mbl enc pnm).foldlM (admitRecord platform) {} =
      some decoded) ↔ Readable platform mbl enc pnm := by
  rw [readable_iff]
  simp only [tablesOf, ← exists_encodeModuleBundle_ok]
  cases mbl <;> cases enc <;> cases pnm <;>
    simp [admitRecord, toOption_eq_some, Option.bind_eq_some_iff]

/-- Admitting a record sets the field of its standard and no other. -/
theorem admitRecord_eq (admitted : admitRecord platform decoded record = some after) :
    match record.value with
    | .mbl table => after.mbl = some (Bundle.normalizeDecodedBundle platform table) ∧
        after.enc = decoded.enc ∧ after.pnm = decoded.pnm
    | .enc table => after.mbl = decoded.mbl ∧
        after.enc = some (table.record platform.codes) ∧ after.pnm = decoded.pnm
    | .pnm table => after.mbl = decoded.mbl ∧ after.enc = decoded.enc ∧ after.pnm = some table := by
  obtain ⟨valueType, value, standard⟩ := record
  rw [admitRecord] at admitted
  cases value with
  | mbl table =>
    split_ifs at admitted
    obtain ⟨mblBytes, -, rfl⟩ := Option.map_eq_some_iff.mp admitted
    exact ⟨rfl, rfl, rfl⟩
  | enc table =>
    dsimp only at admitted ⊢
    split_ifs at admitted
    cases admitted
    exact ⟨rfl, rfl, rfl⟩
  | pnm table =>
    dsimp only at admitted ⊢
    split_ifs at admitted
    cases admitted
    exact ⟨rfl, rfl, rfl⟩

theorem admitted_eq
    (admitted : (tablesOf platform.codes mbl enc pnm).foldlM (admitRecord platform) {} =
      some decoded) :
    decoded.mbl = mbl.map (Bundle.normalizeDecodedBundle platform) ∧
      decoded.enc = enc.map (EncTable.record platform.codes) ∧ decoded.pnm = pnm := by
  simp only [tablesOf, List.foldlM_append, foldlM_toList, Option.bind_eq_bind,
    Option.bind_eq_some_iff] at admitted
  obtain ⟨second, ⟨first, bundle, encryption⟩, notice⟩ := admitted
  have afterBundle : first.mbl = mbl.map (Bundle.normalizeDecodedBundle platform) ∧
      first.enc = none ∧ first.pnm = none := by
    cases mbl with
    | none =>
      cases bundle
      exact ⟨rfl, rfl, rfl⟩
    | some table =>
      rw [Option.elim_some] at bundle
      exact admitRecord_eq bundle
  have afterEncryption : second.mbl = first.mbl ∧
      second.enc = enc.map (EncTable.record platform.codes) ∧ second.pnm = first.pnm := by
    cases enc with
    | none =>
      cases encryption
      exact ⟨rfl, afterBundle.2.1, rfl⟩
    | some table =>
      rw [Option.elim_some] at encryption
      exact admitRecord_eq encryption
  have afterNotice : decoded.mbl = second.mbl ∧ decoded.enc = second.enc ∧ decoded.pnm = pnm := by
    cases pnm with
    | none =>
      cases notice
      exact ⟨rfl, rfl, afterEncryption.2.2.trans afterBundle.2.2⟩
    | some table =>
      rw [Option.elim_some] at notice
      exact admitRecord_eq notice
  exact ⟨afterNotice.1.trans (afterEncryption.1.trans afterBundle.1),
    afterNotice.2.1.trans afterEncryption.2.1, afterNotice.2.2⟩

structure Packed (platform : Platform) (records : Records) (mbl : Option MblTable)
    (enc : Option EncTable) (collection : RecTable) : Prop where
  bundle : records.mbl.mapM (moduleBundleTable platform) = .ok mbl
  encryption : records.enc.mapM (encTableFromObject platform.codes) = .ok enc
  tables : collection.records =
    tablesOf platform.codes mbl enc (records.pnm.map pnmTableFromObject)
  filled : collection.records ≠ []
  version : collection.version =
    some ((normalizeStringField records.version).getD defaultRecordCollectionVersion)

theorem collectionTable_packed (made : collectionTable platform records = .ok collection) :
    ∃ mbl enc, Packed platform records mbl enc collection := by
  rw [collectionTable, bind_eq_ok] at made
  obtain ⟨tables, listed, made⟩ := made
  obtain ⟨filled, made⟩ := require_bind_eq_ok.mp made
  simp only [recordTables, bind_eq_ok] at listed
  obtain ⟨mbl, mblOk, enc, encOk, listed⟩ := listed
  cases made
  cases listed
  refine ⟨mbl, enc, mblOk, encOk, ?_, ?_, rfl⟩
  · rw [tablesOf, Option.map_map]
    rfl
  · simpa using filled

/-- What a checked map over an optional value leaves. -/
theorem rel_of_mapM {ε α β : Type} {value : Option α} {step : α → Except ε β} {result : Option β}
    (mapped : value.mapM step = .ok result) :
    Option.Rel (fun item made => step item = .ok made) value result := by
  cases value with
  | none =>
    cases mapped
    exact .none
  | some item =>
    obtain ⟨made, outcome, rfl⟩ := map_eq_ok.mp mapped
    exact .some outcome

theorem rel_mem_left {first : Option α} (related : Option.Rel R first second)
    (member : item ∈ first) :
    ∃ other ∈ second, R item other := by
  cases related with
  | none => cases member
  | some holds =>
    cases member
    exact ⟨_, rfl, holds⟩

theorem rel_mem_right {second : Option β} (related : Option.Rel R first second)
    (member : other ∈ second) :
    ∃ item ∈ first, R item other := by
  cases related with
  | none => cases member
  | some holds =>
    cases member
    exact ⟨_, rfl, holds⟩

theorem rel_map_right (related : Option.Rel R first second)
    (maps : ∀ item ∈ first, ∀ other ∈ second, R item other → S item (f other)) :
    Option.Rel S first (second.map f) := by
  cases related with
  | none => exact .none
  | some holds => exact .some (maps _ rfl _ rfl holds)

namespace Packed

theorem proper (packed : Packed platform records mbl enc collection) :
    ∀ record ∈ collection.records, Proper record := by
  rw [packed.tables]
  intro record member
  simp only [tablesOf, List.mem_append, Option.mem_toList, Option.map_eq_some_iff] at member
  rcases member with (⟨table, -, rfl⟩ | ⟨table, listed, rfl⟩) | ⟨table, listed, rfl⟩
  · rfl
  · obtain ⟨record, -, made⟩ := rel_mem_right (rel_of_mapM packed.encryption) listed
    exact ⟨rfl, (encTableFromObject_from made).settled⟩
  · obtain ⟨pnm, -, rfl⟩ := listed
    exact ⟨rfl, PnmRecord.settled_tableFromObject pnm⟩

theorem version_settled (packed : Packed platform records mbl enc collection) :
    Settled collection.version := by
  rw [packed.version]
  have given := settled_normalizeStringField records.version
  cases named : normalizeStringField records.version with
  | none =>
    rw [Settled]
    decide
  | some version =>
    rw [named] at given
    exact given

end Packed

section Contents

/-- An entry of the object API as the object it stands for. -/
def entryContents (entry : Bundle.EntryTable) : Bundle.EntryObject where
  entryId := entry.entryId
  role := .number entry.role
  sectionName := entry.sectionName
  typeRef := (entry.typeRef.map .string).getD .null
  payloadEncoding := .number entry.payloadEncoding
  mediaType := entry.mediaType
  flags := entry.flags
  sha256 := entry.sha256
  payload := entry.payload
  description := entry.description

/-- What an MBL record says, as a table of the object API or as an object. -/
def BundleLike.contents : BundleLike → Bundle.BundleObject
  | .object bundle => bundle
  | .table mbl => {
      bundleVersion := mbl.bundleVersion
      moduleFormat := mbl.moduleFormat
      canonicalization := mbl.canonicalization
      canonicalModuleHash := mbl.canonicalModuleHash
      manifestHash := mbl.manifestHash
      manifestExportSymbol := mbl.manifestExportSymbol
      manifestSizeSymbol := mbl.manifestSizeSymbol
      entries := mbl.entries.map entryContents }

/-- A type comes back as its text is read; an object has its members in canonical order, and those
that every type has. Anything else is no type. -/
def TypeRecovered (engine : Auth.Engine) : Json.Value → Json.Value → Prop
  | .null, decoded => decoded = .null
  | .string text, decoded => decoded = Bundle.parseTypeRef engine (some text)
  | .object members, decoded => decoded = .object (Bundle.withTypeDefaults engine
      (Auth.sortEntries engine (Auth.canonicalMembers engine members)))
  | _, _ => False

def IsType : Json.Value → Prop
  | .null | .string _ | .object _ => True
  | _ => False

variable (platform : Platform)

structure EntryRecovered (entry : Bundle.EntryObject) (decoded : Bundle.Entry) : Prop where
  entryId : decoded.entryId = entry.entryId
  role : entry.role.numberIn platform.roles.names = some decoded.role
  sectionName : decoded.sectionName = entry.sectionName
  typeRef : TypeRecovered platform entry.typeRef decoded.typeRef
  payloadEncoding :
    entry.payloadEncoding.numberIn platform.encodings.names = some decoded.payloadEncoding
  mediaType : decoded.mediaType = entry.mediaType
  flags : decoded.flags = entry.flags
  sha256 : decoded.sha256 = entry.sha256
  payload : decoded.payload = entry.payload
  description : decoded.description = entry.description

/-- The names of an entry are known, and it has a type or none. -/
structure EntryStorable (entry : Bundle.EntryObject) : Prop where
  role : entry.role.numberIn platform.roles.names ≠ none
  payloadEncoding : entry.payloadEncoding.numberIn platform.encodings.names ≠ none
  typeRef : IsType entry.typeRef

/-- The decoded bundle is the given one, with the defaults of what was left out. -/
structure BundleRecovered (bundle : Bundle.BundleObject) (decoded : ModuleBundle) : Prop where
  bundleVersion : decoded.bundleVersion = bundle.bundleVersion
  moduleFormat : decoded.moduleFormat = bundle.moduleFormat.getD Bundle.defaultModuleFormat
  canonicalization : decoded.canonicalization =
    bundle.canonicalization.map Bundle.normalizeDecodedCanonicalization
  canonicalModuleHash : decoded.canonicalModuleHash = bundle.canonicalModuleHash
  manifestHash : decoded.manifestHash = bundle.manifestHash
  manifestExportSymbol : decoded.manifestExportSymbol =
    bundle.manifestExportSymbol.getD Bundle.defaultManifestExportSymbol
  manifestSizeSymbol : decoded.manifestSizeSymbol =
    bundle.manifestSizeSymbol.getD Bundle.defaultManifestSizeSymbol
  entries : List.Forall₂ (EntryRecovered platform) bundle.entries decoded.entries

variable {platform}

theorem typeRecovered_iff (reads : Bundle.Reads platform.toEngine)
    (keys : Bundle.keyed value = true)
    (stringified : Bundle.stringifyTypeRef platform value = .ok written) :
    TypeRecovered platform value (Bundle.parseTypeRef platform written) ↔ IsType value := by
  cases value with
  | null =>
    cases stringified
    exact iff_of_true rfl trivial
  | string text =>
    cases stringified
    exact iff_of_true rfl trivial
  | object members => exact iff_of_true (Bundle.parseTypeRef_object reads keys stringified) trivial
  | bool | number | array => exact Iff.rfl

theorem entryRecovered_iff (reads : Bundle.Reads platform.toEngine)
    (keys : Bundle.keyed entry.typeRef = true)
    (normalized : Bundle.normalizeEntry platform platform.roles platform.encodings entry =
      .ok table) :
    EntryRecovered platform entry (Bundle.normalizeDecodedEntry platform table) ↔
      EntryStorable platform entry := by
  obtain ⟨written, stringified, ⟨⟩⟩ := bind_eq_ok.mp normalized
  have typed := typeRecovered_iff reads keys stringified
  constructor
  · intro recovered
    exact ⟨Option.ne_none_iff_exists'.mpr ⟨_, recovered.role⟩,
      Option.ne_none_iff_exists'.mpr ⟨_, recovered.payloadEncoding⟩, typed.mp recovered.typeRef⟩
  · rintro ⟨role, encoding, type⟩
    obtain ⟨_, role⟩ := Option.ne_none_iff_exists'.mp role
    obtain ⟨_, encoding⟩ := Option.ne_none_iff_exists'.mp encoding
    refine ⟨rfl, ?_, rfl, typed.mpr type, ?_, rfl, rfl, rfl, rfl, rfl⟩
    · simp [Bundle.normalizeDecodedEntry, Bundle.normalizeRole, role]
    · simp [Bundle.normalizeDecodedEntry, Bundle.normalizePayloadEncoding, encoding]

theorem entriesRecovered_iff (reads : Bundle.Reads platform.toEngine)
    {entries : List Bundle.EntryObject} (keys : ∀ entry ∈ entries, Bundle.keyed entry.typeRef = true)
    (mapped : List.Forall₂ (fun entry table => Bundle.normalizeEntry platform platform.roles
      platform.encodings entry = .ok table) entries tables) :
    List.Forall₂ (EntryRecovered platform) entries
        (tables.map (Bundle.normalizeDecodedEntry platform)) ↔
      ∀ entry ∈ entries, EntryStorable platform entry := by
  induction mapped with
  | nil => simp
  | cons normalized _ ih =>
    obtain ⟨first, later⟩ := List.forall_mem_cons.mp keys
    rw [List.map_cons, List.forall₂_cons, ih later, List.forall_mem_cons,
      entryRecovered_iff reads first normalized]

theorem bundleRecovered_iff (reads : Bundle.Reads platform.toEngine)
    (keys : ∀ entry ∈ bundle.contents.entries, Bundle.keyed entry.typeRef = true)
    (made : moduleBundleTable platform bundle = .ok table) :
    BundleRecovered platform bundle.contents (Bundle.normalizeDecodedBundle platform table) ↔
      ∀ entry ∈ bundle.contents.entries, EntryStorable platform entry := by
  cases bundle with
  | object bundle =>
    simp only [moduleBundleTable, Bundle.moduleBundleTableFromObject, bind_eq_ok] at made
    obtain ⟨rule, ruled, tables, mapped, ⟨⟩⟩ := made
    have recorded : bundle.canonicalization.map Bundle.normalizeDecodedCanonicalization =
        some (Bundle.normalizeDecodedCanonicalization rule) := by
      cases given : bundle.canonicalization with
      | none =>
        rw [given] at ruled
        cases ruled
      | some canonicalization =>
        rw [given] at ruled
        cases ruled
        rfl
    rw [← entriesRecovered_iff reads keys (Checked.mapM_eq_ok.mp mapped)]
    exact ⟨fun recovered => recovered.entries,
      fun entries => ⟨rfl, rfl, recorded.symm, rfl, rfl, rfl, rfl, entries⟩⟩
  | table mbl =>
    cases made
    have entries : List.Forall₂ (EntryRecovered platform) (table.entries.map entryContents)
        (table.entries.map (Bundle.normalizeDecodedEntry platform)) := by
      rw [List.forall₂_map_left_iff, List.forall₂_map_right_iff, List.forall₂_same]
      intro entry _
      refine ⟨rfl, rfl, rfl, ?_, rfl, rfl, rfl, rfl, rfl, rfl⟩
      simp only [entryContents, Bundle.normalizeDecodedEntry]
      cases entry.typeRef <;> rfl
    refine iff_of_true ⟨rfl, rfl, rfl, rfl, rfl, rfl, rfl, entries⟩ (List.forall_mem_map.mpr ?_)
    intro entry _
    refine ⟨Option.some_ne_none _, Option.some_ne_none _, ?_⟩
    simp only [entryContents]
    cases entry.typeRef <;> trivial

end Contents

structure Recovers (platform : Platform) (payload : Bytes) (records : Records)
    (extracted : Extracted) : Prop where
  payload : extracted.payloadBytes = payload
  version : extracted.version =
    (normalizeStringField records.version).getD defaultRecordCollectionVersion
  mbl : Option.Rel (fun bundle decoded => BundleRecovered platform bundle.contents decoded)
    records.mbl extracted.mbl
  enc : Option.Rel (EncRecord.Recovered platform.codes) records.enc extracted.enc
  pnm : extracted.pnm = records.pnm.map pnmTableFromObject

end Records

section RoundTrip
variable {platform : Platform} {records : Records} {payload recordCollection : Bytes}

/-- A bundle that can be decoded: its table can be packed again. -/
def BundlesRepackable (platform : Platform) (records : Records) : Prop :=
  ∀ bundle ∈ records.mbl, ∀ table, moduleBundleTable platform bundle = .ok table →
    Repackable platform.toEngine table

/-- What comes back from a trailer: bundles that can be packed again, with names that are known, and
an ENC record whose names and timestamp are. -/
structure Recoverable (platform : Platform) (records : Records) : Prop where
  bundles : BundlesRepackable platform records
  entries : ∀ bundle ∈ records.mbl, ∀ entry ∈ bundle.contents.entries, EntryStorable platform entry
  encryption : ∀ enc ∈ records.enc, enc.Storable platform.codes

/-- What is extracted from behind a payload: the tables that were packed. -/
structure Extracted.Holds (extracted : Extracted) (platform : Platform) (payload : Bytes)
    (records : Records) (mbl : Option MblTable) (enc : Option EncTable) : Prop where
  payload : extracted.payloadBytes = payload
  version : extracted.version =
    (normalizeStringField records.version).getD defaultRecordCollectionVersion
  mbl : extracted.mbl = mbl.map (Bundle.normalizeDecodedBundle platform.toEngine)
  enc : extracted.enc = enc.map (EncTable.record platform.codes)
  pnm : extracted.pnm = records.pnm.map pnmTableFromObject

/-- What was appended is extracted if its tables are readable, and else nothing is. -/
theorem extract_encoded
    (encoded : encodePublicationRecordCollection platform records = .ok recordCollection)
    (faithful : ∀ collection, collectionTable platform records = .ok collection →
      RecAt platform recordCollection collection)
    (appended : appendPublicationRecordCollection payload recordCollection = .ok bytes) :
    ∃ mbl enc collection, Packed platform records mbl enc collection ∧
      (Readable platform mbl enc (records.pnm.map pnmTableFromObject) → ∃ extracted,
        extractPublicationRecordCollection platform bytes = some extracted ∧
          extracted.Holds platform payload records mbl enc) ∧
      (¬Readable platform mbl enc (records.pnm.map pnmTableFromObject) →
        extractPublicationRecordCollection platform bytes = none) := by
  obtain ⟨collection, made, rfl⟩ := map_eq_ok.mp encoded
  obtain ⟨mbl, enc, packed⟩ := collectionTable_packed made
  have decodes := decodePublicationRecordCollection_toOption (faithful _ made) packed.proper
    packed.filled packed.version (packed.version ▸ packed.version_settled)
  refine ⟨mbl, enc, collection, packed, fun readable => ?_, fun unreadable => ?_⟩
  · obtain ⟨decoded, admitted⟩ := exists_admitted.mpr readable
    obtain ⟨mblSame, encSame, pnmSame⟩ := admitted_eq admitted
    rw [extract_append appended, decodes, packed.tables, admitted]
    exact ⟨_, rfl, rfl, rfl, mblSame, encSame, pnmSame⟩
  · have rejected := mt exists_admitted.mp unreadable
    rw [extract_append appended, decodes, packed.tables, Option.map_eq_none_iff,
      Option.map_eq_none_iff, Option.eq_none_iff_forall_ne_some]
    exact not_exists.mp rejected

end RoundTrip

section Practice

open Classical in
/-- The text with these bytes, if there is one. -/
noncomputable def textOf (bytes : Bytes) : String :=
  if found : ∃ text, utf8 text = bytes then found.choose else ""

theorem textOf_utf8 (text : String) : textOf (utf8 text) = text := by
  have found : ∃ other, utf8 other = utf8 text := ⟨text, rfl⟩
  rw [textOf, dif_pos found]
  exact Bundle.utf8_injective found.choose_spec

/-- A platform that has packed one collection and unpacks one bundle. -/
noncomputable def practicePlatform (buffer : Bytes) (bundle : MblTable) : Platform where
  numbers := Json.decimalNumbers
  localeOrdered left right := left ≤ right
  parseJson := Bundle.readJson Json.decimalNumbers
  stringOf _ := ""
  numberOf
    | .number value => value
    | _ => .nan
  decodeText := textOf
  decodeText_utf8 text _ := textOf_utf8 text
  roles := Bundle.realHost.roles
  encodings := Bundle.realHost.encodings
  codes := ⟨0, 1, 2, 0, 0, 1, 2, 3, by decide, by decide, by decide⟩
  packEnc _ := []
  packPnm _ := []
  packMbl _ := []
  packRec _ := buffer
  unpackMbl _ _ := some bundle

def practiceBundle : MblTable where
  canonicalization := some {}
  entries := [{ role := 0, payloadEncoding := 0 }]

theorem practicePlatform_reads (buffer : Bytes) (bundle : MblTable) :
    Bundle.Reads (practicePlatform buffer bundle).toEngine :=
  Bundle.reads_readJson rfl fun _ => rfl

def practiceRecords : Records where
  mbl := some (.table practiceBundle)
  enc := some { ephemeralPublicKey := .bytes (List.replicate 32 7)
                nonceStart := .bytes (List.replicate 12 9)
                context := some " orbit " }
  pnm := some { cid := some "bafy" }

/-- The three records of `practiceRecords` in one REC buffer. -/
def practiceBuffer : Bytes :=
  [16, 0, 0, 0, 36, 82, 69, 67, 8, 0, 12, 0, 4, 0, 8, 0, 8, 0, 0, 0, 8, 0, 0, 0, 14, 0, 0, 0, 5,
    0, 0, 0, 49, 46, 48, 46, 48, 0, 3, 0, 0, 0, 22, 0, 0, 0, 57, 0, 0, 0, 201, 0, 0, 0, 10, 0,
    13, 0, 4, 0, 5, 0, 9, 0, 10, 0, 0, 0, 1, 20, 0, 0, 0, 4, 0, 0, 0, 3, 0, 0, 0, 77, 66, 76, 0,
    4, 0, 4, 0, 4, 0, 0, 0, 10, 0, 13, 0, 4, 0, 5, 0, 9, 0, 10, 0, 0, 0, 2, 38, 0, 0, 0, 4, 0, 0,
    0, 3, 0, 0, 0, 69, 78, 67, 0, 22, 0, 25, 0, 0, 0, 0, 0, 4, 0, 0, 0, 5, 0, 9, 0, 13, 0, 17, 0,
    21, 0, 22, 0, 0, 0, 1, 20, 0, 0, 0, 52, 0, 0, 0, 64, 0, 0, 0, 64, 0, 0, 0, 70, 0, 0, 0, 32,
    0, 0, 0, 7, 7, 7, 7, 7, 7, 7, 7, 7, 7, 7, 7, 7, 7, 7, 7, 7, 7, 7, 7, 7, 7, 7, 7, 7, 7, 7, 7,
    7, 7, 7, 7, 12, 0, 0, 0, 9, 9, 9, 9, 9, 9, 9, 9, 9, 9, 9, 9, 0, 0, 0, 0, 5, 0, 0, 0, 111,
    114, 98, 105, 116, 0, 0, 0, 0, 0, 10, 0, 13, 0, 4, 0, 5, 0, 9, 0, 10, 0, 0, 0, 3, 26, 0, 0,
    0, 4, 0, 0, 0, 3, 0, 0, 0, 80, 78, 77, 0, 10, 0, 8, 0, 0, 0, 0, 0, 4, 0, 10, 0, 0, 0, 4, 0,
    0, 0, 4, 0, 0, 0, 98, 97, 102, 121, 0]

def bareBuffer : Bytes :=
  [16, 0, 0, 0, 36, 82, 69, 67, 8, 0, 12, 0, 4, 0, 8, 0, 8, 0, 0, 0, 8, 0, 0, 0, 14, 0, 0, 0, 5,
    0, 0, 0, 49, 46, 48, 46, 48, 0, 1, 0, 0, 0, 14, 0, 0, 0, 10, 0, 13, 0, 4, 0, 5, 0, 9, 0, 10,
    0, 0, 0, 1, 20, 0, 0, 0, 4, 0, 0, 0, 3, 0, 0, 0, 77, 66, 76, 0, 4, 0, 4, 0, 4, 0, 0, 0]

end Practice

end SpaceDataModule.Transport
