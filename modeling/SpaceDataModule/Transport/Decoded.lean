import SpaceDataModule.Transport.RecordRoundTrip

/-! What a decoded collection holds, whatever buffer it was read from: a bundle that can be packed
again, an ENC record with the right lengths, a PNM record that is not blank. -/
namespace SpaceDataModule.Transport
open Bundle (Bytes utf8 ModuleBundle)
open FlatBuffers hiding Bytes

/-- A step's invariant holds behind a checked fold. -/
theorem foldlM_invariant {ε σ α : Type} {step : σ → α → Except ε σ} (holds : σ → Prop)
    (preserved : ∀ {before item after}, step before item = .ok after → holds before → holds after)
    {items : List α} {first last : σ} (folded : items.foldlM step first = .ok last)
    (start : holds first) : holds last := by
  induction items generalizing first with
  | nil =>
    cases folded
    exact start
  | cons item items ih =>
    rw [List.foldlM_cons, bind_eq_ok] at folded
    obtain ⟨next, stepped, folded⟩ := folded
    exact ih folded (preserved stepped start)

section Enc

/-- An ENC record as it is decoded: that of an admissible table. -/
def EncRecord.Decodes (codes : Codes) (record : EncRecord) : Prop :=
  ∃ table : EncTable, record = table.record codes ∧ table.Admissible codes ∧ table.Settled

theorem filter_byteField (slot : Nat) :
    (some ((byteField buffer table slot).getD [])).filter (· ≠ []) = byteField buffer table slot := by
  cases read : byteField buffer table slot with
  | none => rfl
  | some contents =>
    have filled : contents ≠ [] := by
      rw [byteField, Option.filter_eq_some_iff] at read
      simpa using read.2
    simp [filled]

theorem validateEncTable_decodes
    (validated : validateEncTable platform buffer table label = .ok record) :
    record.Decodes platform.codes := by
  simp only [validateEncTable, checkedEncRecord, bind_eq_ok, require_eq_ok] at validated
  obtain ⟨_, -, _, -, _, -, _, -, _, -, _, -, _, -, _, key, _, nonce, _, exchanged, _, otherwise,
    _, recipient, _, schema, made⟩ := validated
  cases made
  simp only [bne_iff_ne, ne_eq, beq_iff_eq, Bool.or_eq_true, Bool.and_eq_true, decide_eq_true_iff,
    Algorithm.name.injEq] at nonce exchanged otherwise recipient
  let table' : EncTable := {
    version := uint8Field buffer table 4 1
    keyExchange := uint8Field buffer table 6 0
    symmetric := uint8Field buffer table 8 0
    keyDerivation := uint8Field buffer table 10 0
    ephemeralPublicKey := (byteField buffer table 12).getD []
    nonceStart := (byteField buffer table 14).getD []
    recipientKeyId := (byteField buffer table 16).getD []
    context := textField platform buffer table 18
    schemaHash := (byteField buffer table 20).getD []
    rootType := textField platform buffer table 22
    timestamp := uint64Field buffer table 24 }
  refine ⟨table', ?_, ?_, settled_normalizeStringField _, settled_normalizeStringField _⟩
  · simp only [table', EncTable.record, filter_byteField]
  · constructor
    · exact exchanged.neg_resolve_left
    · exact otherwise.resolve_left
    · exact nonce
    · exact recipient
    · change (byteField buffer table 20).getD [] = [] ∨ ((byteField buffer table 20).getD []).length = 32
      cases read : byteField buffer table 20 with
      | none => exact .inl rfl
      | some hash =>
        rw [read] at schema
        exact .inr (beq_iff_eq.mp schema)

/-- A decoded record is packed from its table, but for the algorithms, which are read from their
names, and the timestamp. -/
theorem encTableFromObject_decoded {enc : EncTable} (admissible : enc.Admissible codes)
    (settled : enc.Settled)
    (sealing : codes.normalizeSymmetricAlgorithm (enc.record codes).symmetric = .ok symmetric) :
    encTableFromObject codes (enc.record codes) = .ok { enc with
      keyExchange := codes.normalizeKeyExchange (enc.record codes).keyExchange
      symmetric := symmetric
      keyDerivation := codes.normalizeKdf (enc.record codes).keyDerivation
      timestamp := .ofInt (enc.record codes).timestamp } := by
  have keyLength := admissible.keyLength
  have nonceLength := admissible.nonceStart
  have key : toUint8Array (enc.record codes).ephemeralPublicKey = .ok enc.ephemeralPublicKey :=
    toUint8Array_bytesLike (by omega)
  have nonce : toUint8Array (enc.record codes).nonceStart = .ok enc.nonceStart :=
    toUint8Array_bytesLike (by omega)
  have recipient : normalizeByteField (enc.record codes).recipientKeyId =
      .ok ((some enc.recipientKeyId).filter (· ≠ [])) := normalizeByteField_bytesLike _
  have schema : normalizeByteField (enc.record codes).schemaHash =
      .ok ((some enc.schemaHash).filter (· ≠ [])) := normalizeByteField_bytesLike _
  have context : normalizeStringField (enc.record codes).context = enc.context := settled.context
  have rootType : normalizeStringField (enc.record codes).rootType = enc.rootType :=
    settled.rootType
  have whole (contents : Bytes) : ((some contents).filter (· ≠ [])).getD [] = contents := by
    cases contents with
    | nil => rfl
    | cons byte contents => rfl
  rw [encTableFromObject, sealing, ok_bind, key, ok_bind, nonce, ok_bind, recipient, ok_bind,
    schema, ok_bind, context, rootType, whole, whole]
  rfl

end Enc

section Algorithms

/-- A table of names: each is as `algorithmName` leaves it, and none is a number. -/
structure NameTable (names : List (String × UInt8)) : Prop where
  plain : ∀ entry ∈ names, algorithmName entry.1 = entry.1
  names_distinct : (names.map Prod.fst).Nodup
  codes_distinct : (names.map Prod.snd).Nodup
  words : ∀ entry ∈ names, ∀ code : UInt8, entry.1 ≠ algorithmName (toString code.toNat)

/-- A code with a name has it in the table, another one is a number. -/
theorem nameOfCode_cases (names : List (String × UInt8)) (code : UInt8) :
    (nameOfCode names code, code) ∈ names ∨
      code ∉ names.map Prod.snd ∧ nameOfCode names code = toString code.toNat := by
  rw [nameOfCode]
  cases found : names.find? (·.2 == code) with
  | none =>
    refine .inr ⟨fun coded => ?_, rfl⟩
    obtain ⟨entry, listed, rfl⟩ := List.mem_map.mp coded
    exact absurd (beq_self_eq_true entry.2) (List.find?_eq_none.mp found entry listed)
  | some entry =>
    obtain ⟨name, other⟩ := entry
    obtain rfl : other = code := by simpa using List.find?_some found
    exact .inl (List.mem_of_find?_eq_some found)

namespace NameTable

/-- The name of a code leads back to it, its number to nothing. -/
theorem lookup_name (table : NameTable names) (code : UInt8) :
    names.lookup (algorithmName (nameOfCode names code)) =
      if code ∈ names.map Prod.snd then some code else none := by
  rcases nameOfCode_cases names code with listed | ⟨uncoded, number⟩
  · rw [table.plain _ listed, if_pos (List.mem_map_of_mem (f := Prod.snd) listed)]
    exact (Bundle.lookup_eq_some_iff_mem table.names_distinct).mpr listed
  · rw [number, if_neg uncoded, List.lookup_eq_none_iff]
    intro entry listed
    have apart := table.words entry listed code
    simpa [beq_eq_false_iff_ne] using apart.symm

theorem getD_lookup (table : NameTable names) :
    (names.lookup (algorithmName (nameOfCode names code))).getD standIn =
      if code ∈ names.map Prod.snd then code else standIn := by
  rw [table.lookup_name]
  split_ifs <;> rfl

/-- The names of the table are those of its codes. -/
theorem name_mem_iff (table : NameTable names) :
    nameOfCode names code ∈ names.map Prod.fst ↔ code ∈ names.map Prod.snd := by
  rcases nameOfCode_cases names code with listed | ⟨uncoded, number⟩
  · exact ⟨fun _ => List.mem_map_of_mem (f := Prod.snd) listed,
      fun _ => List.mem_map_of_mem (f := Prod.fst) listed⟩
  · refine ⟨fun named => ?_, fun coded => absurd coded uncoded⟩
    obtain ⟨entry, listed, same⟩ := List.mem_map.mp named
    have plain := table.plain entry listed
    rw [same.trans number] at plain
    exact absurd (plain.trans (same.trans number).symm).symm (table.words entry listed code)

/-- A code whose name stays the name of its stand-in is in the table. -/
theorem coded_of_same (table : NameTable names) (known : standIn ∈ names.map Prod.snd)
    (same : nameOfCode names (if code ∈ names.map Prod.snd then code else standIn) =
      nameOfCode names code) : code ∈ names.map Prod.snd := by
  by_contra uncoded
  rw [if_neg uncoded] at same
  rw [← table.name_mem_iff, ← same, table.name_mem_iff] at uncoded
  exact uncoded known

end NameTable

def algorithmNames : List String :=
  ["X25519", "SECP256K1", "P256", "AES_256_CTR", "AES_256_GCM", "HKDF_SHA256"]

theorem underscored_digits (digits : ∀ c ∈ text, c ∈ "0123456789".toList) (afterRun : Bool) :
    underscored afterRun text = text := by
  have plain : ∀ c ∈ "0123456789".toList, c.isAlphanum = true ∧ c.toUpper = c :=
    List.forall_iff_forall_mem.mp (by decide)
  induction text generalizing afterRun with
  | nil => rfl
  | cons c rest ih =>
    obtain ⟨digit, digits⟩ := List.forall_mem_cons.mp digits
    rw [underscored, if_pos (plain c digit).1, (plain c digit).2, ih digits]

/-- A number is its own name, and none of these. -/
theorem algorithmName_number (code : UInt8) :
    algorithmName (toString code.toNat) ∉ algorithmNames := by
  have digits : ∀ c ∈ (toString code.toNat).toList, c ∈ "0123456789".toList := by
    intro c member
    have listed : c ∈ (String.ofList (Nat.toDigits 10 code.toNat)).toList := member
    rw [String.toList_ofList] at listed
    exact Json.mem_digits (Json.isDigit_toDigits _ c listed)
  have plain : JavaScript.trim (toString code.toNat) = toString code.toNat := by
    have dense : ∀ c ∈ "0123456789".toList, JavaScript.isSpace c = false :=
      List.forall_iff_forall_mem.mp (by decide)
    exact JavaScript.trim_eq_of_plain fun c member => dense c (digits c member)
  have words : ∀ name ∈ algorithmNames,
      name.toList.all (· ∈ "0123456789".toList) = false := by decide
  rw [algorithmName, plain, underscored_digits digits, String.ofList_toList]
  intro listed
  have all := List.all_eq_true.mpr fun c member => decide_eq_true (digits c member)
  exact Bool.noConfusion ((words _ listed).symm.trans all)

theorem NameTable.of_algorithms (listed : ∀ name ∈ names.map Prod.fst, name ∈ algorithmNames)
    (names_distinct : (names.map Prod.fst).Nodup) (codes_distinct : (names.map Prod.snd).Nodup) :
    NameTable names := by
  have plain : ∀ name ∈ algorithmNames, algorithmName name = name := by decide
  refine ⟨?_, names_distinct, codes_distinct, ?_⟩
  · intro entry member
    exact plain _ (listed _ (List.mem_map_of_mem member))
  · intro entry member code same
    apply algorithmName_number code
    rw [← same]
    exact listed _ (List.mem_map_of_mem member)

variable (codes : Codes)

theorem keyExchanges_table : NameTable codes.keyExchanges := by
  refine .of_algorithms ?_ ?_ codes.exchanges_distinct
  · change ∀ name ∈ ["X25519", "SECP256K1", "P256"], name ∈ algorithmNames
    decide
  · change ["X25519", "SECP256K1", "P256"].Nodup
    decide

theorem symmetricAlgorithms_table : NameTable codes.symmetricAlgorithms := by
  refine .of_algorithms ?_ ?_ ?_
  · change ∀ name ∈ ["AES_256_CTR", "AES_256_GCM"], name ∈ algorithmNames
    decide
  · change ["AES_256_CTR", "AES_256_GCM"].Nodup
    decide
  · simp [Codes.symmetricAlgorithms, codes.aes256Ctr_ne_gcm]

theorem keyDerivations_table : NameTable codes.keyDerivations := by
  refine .of_algorithms ?_ ?_ ?_
  · change ∀ name ∈ ["HKDF_SHA256"], name ∈ algorithmNames
    decide
  · change ["HKDF_SHA256"].Nodup
    decide
  · simp [Codes.keyDerivations]

variable {codes} {enc : EncTable}

/-- The algorithms of a record are known by name, and its timestamp has 64 bits. The symmetric
algorithm always is known where a record is packed. -/
structure EncRecord.Known (record : EncRecord) : Prop where
  keyExchange : record.keyExchange ∈
    [Algorithm.name "X25519", Algorithm.name "SECP256K1", Algorithm.name "P256"]
  keyDerivation : record.keyDerivation = .name "HKDF_SHA256"
  timestamp : record.timestamp < 2 ^ 64

theorem known_iff : (enc.record codes).Known ↔
    enc.keyExchange ∈ codes.keyExchanges.map Prod.snd ∧
      enc.keyDerivation ∈ codes.keyDerivations.map Prod.snd ∧
        (enc.record codes).timestamp < 2 ^ 64 := by
  rw [← (keyExchanges_table codes).name_mem_iff, ← (keyDerivations_table codes).name_mem_iff]
  have exchange : (enc.record codes).keyExchange ∈
      ["X25519", "SECP256K1", "P256"].map Algorithm.name ↔
        nameOfCode codes.keyExchanges enc.keyExchange ∈ codes.keyExchanges.map Prod.fst :=
    List.mem_map_of_injective fun _ _ => Algorithm.name.inj
  have derivation : (enc.record codes).keyDerivation = .name "HKDF_SHA256" ↔
      nameOfCode codes.keyDerivations enc.keyDerivation ∈ codes.keyDerivations.map Prod.fst := by
    rw [EncTable.record, Algorithm.name.injEq]
    exact List.mem_singleton.symm
  exact ⟨fun known => ⟨exchange.mp known.1, derivation.mp known.2, known.3⟩,
    fun listed => ⟨exchange.mpr listed.1, derivation.mpr listed.2.1, listed.2.2⟩⟩

theorem keyExchange_repacked : codes.normalizeKeyExchange (enc.record codes).keyExchange =
    if enc.keyExchange ∈ codes.keyExchanges.map Prod.snd then enc.keyExchange
    else codes.x25519 := by
  rw [EncTable.record, Codes.normalizeKeyExchange, Algorithm.codeIn]
  exact (keyExchanges_table codes).getD_lookup

theorem keyDerivation_repacked : codes.normalizeKdf (enc.record codes).keyDerivation =
    if enc.keyDerivation ∈ codes.keyDerivations.map Prod.snd then enc.keyDerivation
    else codes.hkdfSha256 := by
  rw [EncTable.record, Codes.normalizeKdf, Algorithm.codeIn]
  exact (keyDerivations_table codes).getD_lookup

theorem symmetric_repacked
    (sealing : codes.normalizeSymmetricAlgorithm (enc.record codes).symmetric = .ok symmetric) :
    symmetric = enc.symmetric := by
  rw [EncTable.record, Codes.normalizeSymmetricAlgorithm] at sealing
  rw [(symmetricAlgorithms_table codes).lookup_name] at sealing
  split_ifs at sealing
  exact (Except.ok.inj sealing).symm

/-- The timestamp of a decoded record is a double, and is stored as it is if it has 64 bits. -/
theorem timestamp_repacked :
    (JavaScript.nearestDouble (UInt64.ofInt (enc.record codes).timestamp).toNat : Int) =
      (enc.record codes).timestamp ↔ (enc.record codes).timestamp < 2 ^ 64 := by
  rw [JavaScript.nearestDouble_ofInt_iff, EncTable.record, Int.toNat_natCast,
    JavaScript.nearestDouble_idem]
  exact and_iff_left rfl

/-- A decoded record with known algorithms is decoded again as it was. -/
theorem repacked_of_known (admissible : enc.Admissible codes) (settled : enc.Settled)
    (packed : encTableFromObject codes (enc.record codes) = .ok other)
    (known : (enc.record codes).Known) :
    other.Admissible codes ∧ other.record codes = enc.record codes := by
  obtain ⟨exchange, derivation, timestamp⟩ := known_iff.mp known
  have sealing := (encTableFromObject_from packed).symmetric
  rw [encTableFromObject_decoded admissible settled sealing, keyExchange_repacked,
    keyDerivation_repacked, if_pos exchange, if_pos derivation, symmetric_repacked sealing] at packed
  obtain rfl := Except.ok.inj packed
  refine ⟨{ admissible with }, ?_⟩
  rw [EncTable.record, timestamp_repacked.mpr timestamp]
  rfl

/-- With an unknown one, or a timestamp of 65 bits, it reads differently. -/
theorem known_of_repacked (packed : encTableFromObject codes (enc.record codes) = .ok other)
    (same : other.record codes = enc.record codes) : (enc.record codes).Known := by
  have origin := encTableFromObject_from packed
  rw [known_iff]
  refine ⟨?_, ?_, ?_⟩
  · have exchange := congrArg EncRecord.keyExchange same
    rw [EncTable.record, origin.keyExchange, keyExchange_repacked, EncTable.record,
      Algorithm.name.injEq] at exchange
    exact (keyExchanges_table codes).coded_of_same List.mem_cons_self exchange
  · have derivation := congrArg EncRecord.keyDerivation same
    rw [EncTable.record, origin.keyDerivation, keyDerivation_repacked, EncTable.record,
      Algorithm.name.injEq] at derivation
    exact (keyDerivations_table codes).coded_of_same List.mem_cons_self derivation
  · have timestamp := congrArg EncRecord.timestamp same
    rw [EncTable.record, origin.timestamp] at timestamp
    exact timestamp_repacked.mp timestamp

end Algorithms

section Pnm

/-- A PNM record as it is decoded: texts trimmed, one of them not blank. -/
structure PnmRecord.Decodes (record : PnmRecord) : Prop where
  settled : record.Settled
  filled : record.fields.any Option.isSome = true

theorem validatePnmTable_decodes
    (validated : validatePnmTable platform buffer table label = .ok record) : record.Decodes := by
  simp only [validatePnmTable, bind_eq_ok, require_eq_ok] at validated
  obtain ⟨_, -, _, -, _, filled, made⟩ := validated
  cases made
  refine ⟨?_, filled⟩
  simp only [PnmRecord.Settled, PnmRecord.fields, List.forall_mem_cons]
  simp only [textField, settled_normalizeStringField, List.not_mem_nil, false_imp_iff, implies_true,
    and_self]

/-- A decoded record is packed from itself. -/
theorem PnmRecord.Decodes.tableFromObject (decodes : record.Decodes) :
    pnmTableFromObject record = record := by
  have settled := decodes.settled
  simp only [PnmRecord.Settled, PnmRecord.fields, List.forall_mem_cons] at settled
  obtain ⟨h1, h2, h3, h4, h5, h6, h7, h8, h9, -⟩ := settled
  rw [pnmTableFromObject, h1, h2, h3, h4, h5, h6, h7, h8, h9]

end Pnm

section Collections

/-- A bundle as it is decoded: that of a table that can be packed again. -/
def BundleDecodes (engine : Auth.Engine) (bundle : ModuleBundle) : Prop :=
  ∃ table, bundle = Bundle.normalizeDecodedBundle engine table ∧ Repackable engine table

/-- What the decoder has read so far. -/
structure Decoded.Proper (platform : Platform) (decoded : Decoded) : Prop where
  mbl : ∀ bundle ∈ decoded.mbl, BundleDecodes platform.toEngine bundle
  enc : ∀ record ∈ decoded.enc, record.Decodes platform.codes
  pnm : ∀ record ∈ decoded.pnm, record.Decodes

theorem decodeValue_proper
    (read : decodeValue platform buffer decoded standard table label = .ok (after, value))
    (proper : decoded.Proper platform) : after.Proper platform := by
  rw [decodeValue] at read
  split_ifs at read
  · obtain ⟨-, read⟩ := require_bind_eq_ok.mp read
    cases found : platform.unpackMbl buffer table with
    | none =>
      rw [found] at read
      cases read
    | some unpacked =>
      rw [found] at read
      simp only [ok_bind, bind_eq_ok] at read
      obtain ⟨mblBytes, packed, made⟩ := read
      cases made
      refine ⟨?_, proper.enc, proper.pnm⟩
      rintro _ ⟨⟩
      exact ⟨unpacked, rfl, exists_encodeModuleBundle_ok.mp ⟨mblBytes, packed⟩⟩
  · simp only [bind_eq_ok] at read
    obtain ⟨_, -, record, validated, made⟩ := read
    cases made
    refine ⟨proper.mbl, ?_, proper.pnm⟩
    rintro _ ⟨⟩
    exact validateEncTable_decodes validated
  · simp only [bind_eq_ok] at read
    obtain ⟨_, -, record, validated, made⟩ := read
    cases made
    refine ⟨proper.mbl, proper.enc, ?_⟩
    rintro _ ⟨⟩
    exact validatePnmTable_decodes validated
  · cases read
    exact proper

theorem decodeRecord_proper (read : decodeRecord platform buffer records decoded index = .ok after)
    (proper : decoded.Proper platform) : after.Proper platform := by
  simp only [decodeRecord, bind_eq_ok] at read
  obtain ⟨_, -, _, -, _, -, _, -, ⟨next, value⟩, valued, made⟩ := read
  cases made
  have holds := decodeValue_proper valued proper
  exact { holds with }

/-- What is extracted was decoded from a part of the bytes. -/
theorem decoded_of_extract
    (found : extractPublicationRecordCollection platform bytes = some extracted) :
    ∃ offset length, extracted.payloadBytes = bytes.take offset ∧
      decodePublicationRecordCollection platform ((bytes.drop offset).take length) =
        .ok extracted.toCollection := by
  simp only [extractPublicationRecordCollection, Option.bind_eq_bind, Option.bind_eq_some_iff]
    at found
  obtain ⟨length, -, found⟩ := found
  split_ifs at found
  · cases found
  · cases decoded : decodePublicationRecordCollection platform
        ((bytes.drop (bytes.length - 8 - length)).take length) with
    | error failure =>
      rw [decoded] at found
      cases found
    | ok collection =>
      rw [decoded] at found
      cases found
      exact ⟨bytes.length - 8 - length, length, rfl, decoded⟩

theorem identifier_of_decoded
    (decoded : decodePublicationRecordCollection platform buffer = .ok collection) :
    (buffer.drop 4).take 4 = utf8 "$REC" := by
  simp only [decodePublicationRecordCollection, assertRootFlatbufferTable,
    assertFlatbufferIdentifier, bind_eq_ok, require_eq_ok, beq_iff_eq] at decoded
  obtain ⟨_, ⟨_, ⟨_, _, identifier⟩, _⟩, _⟩ := decoded
  exact identifier

/-- Whatever is extracted is proper. -/
theorem extract_proper
    (found : extractPublicationRecordCollection platform bytes = some extracted) :
    extracted.toDecoded.Proper platform := by
  obtain ⟨offset, length, -, decoded⟩ := decoded_of_extract found
  simp only [decodePublicationRecordCollection, bind_eq_ok] at decoded
  obtain ⟨_, -, _, -, _, -, count, -, _, -, last, folded, made⟩ := decoded
  rw [← Except.ok.inj made]
  refine foldlM_invariant (Decoded.Proper platform) decodeRecord_proper folded ?_
  constructor <;> intro _ listed <;> cases listed

end Collections

end SpaceDataModule.Transport
