import SpaceDataModule.Transport.Layout

/-! The trailer behind a payload: what is appended is what is extracted, as far as the records
decode at all. -/
namespace SpaceDataModule.Transport
open Bundle (Bytes utf8)
open FlatBuffers hiding Bytes

section Options
variable {ε α β σ : Type}

theorem toOption_bind (first : Except ε α) (next : α → Except ε β) :
    (first >>= next).toOption = first.toOption.bind fun value => (next value).toOption := by
  cases first with
  | error failure => rfl
  | ok value => rfl

theorem toOption_eq_some {result : Except ε α} :
    result.toOption = some value ↔ result = .ok value := by
  cases result with
  | error failure => exact ⟨nofun, nofun⟩
  | ok other => simp [Except.toOption]

theorem toOption_foldlM (step : σ → α → Except ε σ) (items : List α) (state : σ) :
    (items.foldlM step state).toOption =
      items.foldlM (fun state item => (step state item).toOption) state := by
  induction items generalizing state with
  | nil => rfl
  | cons item items ih =>
    rw [List.foldlM_cons, toOption_bind]
    exact congrArg _ (funext fun next => ih next)

/-- A fold over positions is a fold over what stands there. -/
theorem foldlM_range_of_zipIdx {items : List α} {step : σ → α → Option σ}
    (same : ∀ element ∈ items.zipIdx, ∀ state, atIndex state element.2 = step state element.1)
    (state : σ) : (List.range items.length).foldlM atIndex state = items.foldlM step state := by
  have positions : List.range items.length = items.zipIdx.map Prod.snd := by
    rw [List.zipIdx_map_snd, List.range_eq_range']
  have values : items = items.zipIdx.map Prod.fst := (List.zipIdx_map_fst 0 items).symm
  rw [positions]
  conv_rhs => rw [values]
  rw [List.foldlM_map, List.foldlM_map]
  generalize items.zipIdx = elements at same
  induction elements generalizing state with
  | nil => rfl
  | cons element elements ih =>
    rw [List.foldlM_cons, same element List.mem_cons_self]
    refine congrArg _ (funext fun next => ?_)
    exact ih next fun other member => same other (List.mem_cons_of_mem _ member)

end Options

section Decoding
variable (platform : Platform)

instance (codes : Codes) (enc : EncTable) : Decidable (enc.Admissible codes) :=
  decidable_of_iff _ (enc.admissible_iff ..).symm

def admitRecord (decoded : Decoded) (record : RecordTable) : Option Decoded :=
  let listed (decoded : Decoded) (value : DecodedValue) : Decoded :=
    { decoded with records := decoded.records ++ [⟨record.standard, record.valueType, value⟩] }
  match record.value with
  | .mbl table =>
    let mbl := Bundle.normalizeDecodedBundle platform.toEngine table
    if decoded.mbl.isNone then
      (encodeModuleBundle platform mbl).toOption.map fun mblBytes =>
        listed { decoded with mbl := some mbl, mblBytes := some mblBytes } (.mbl mbl)
    else none
  | .enc table =>
    let enc := table.record platform.codes
    if decoded.enc.isNone ∧ table.Admissible platform.codes then
      some (listed { decoded with enc := some enc } (.enc enc))
    else none
  | .pnm table =>
    if decoded.pnm.isNone ∧ table.fields.any Option.isSome then
      some (listed { decoded with pnm := some table } (.pnm table))
    else none

/-- A record whose standard is that of its value, with settled texts. -/
def Proper (record : RecordTable) : Prop :=
  match record.value with
  | .mbl _ => record.standard = some "MBL"
  | .enc table => record.standard = some "ENC" ∧ table.Settled
  | .pnm table => record.standard = some "PNM" ∧ table.Settled

variable {platform}

theorem Proper.standard_settled (proper : Proper record) : Settled record.standard := by
  have name : record.standard = some "MBL" ∨ record.standard = some "ENC" ∨
      record.standard = some "PNM" := by
    rw [Proper] at proper
    split at proper
    · exact .inl proper
    · exact .inr (.inl proper.1)
    · exact .inr (.inr proper.1)
  rcases name with name | name | name
  all_goals
    rw [name, Settled]
    decide

theorem ValueAt.wellFormed (encoded : ValueAt platform buffer table value) :
    Table buffer table := by
  cases value with
  | mbl table => exact encoded.1
  | enc table => exact EncAt.wellFormed encoded
  | pnm table => exact PnmAt.wellFormed encoded

theorem decodeValue_toOption (proper : Proper record)
    (encoded : ValueAt platform buffer table record.value) :
    ((decodeValue platform buffer decoded record.standard table label).map fun result =>
      { result.1 with
        records := result.1.records ++ [⟨record.standard, record.valueType, result.2⟩] }).toOption =
      admitRecord platform decoded record := by
  obtain ⟨valueType, value, standard⟩ := record
  cases value with
  | mbl mbl =>
    obtain rfl : standard = some "MBL" := proper
    have unpacked : platform.unpackMbl buffer table = some mbl := encoded.2
    rw [decodeValue, unpacked, admitRecord]
    by_cases first : decoded.mbl.isNone
    · simp only [first, ok_bind]
      cases encodeModuleBundle platform _ with
      | error failure => rfl
      | ok mblBytes => rfl
    · simp only [first]
      rfl
  | enc enc =>
    obtain ⟨rfl, settled⟩ : standard = some "ENC" ∧ enc.Settled := proper
    rw [decodeValue, if_neg (by simp), if_pos rfl, admitRecord]
    by_cases first : decoded.enc.isNone
    · simp only [first, true_and]
      by_cases admissible : enc.Admissible platform.codes
      · rw [(validateEncTable_iff encoded settled).mpr ⟨admissible, rfl⟩, if_pos admissible]
        rfl
      · rw [if_neg admissible]
        cases outcome : validateEncTable platform buffer table (label ++ " ENC payload") with
        | error failure => rfl
        | ok result => exact absurd ((validateEncTable_iff encoded settled).mp outcome).1 admissible
    · simp only [first]
      rfl
  | pnm pnm =>
    obtain ⟨rfl, settled⟩ : standard = some "PNM" ∧ pnm.Settled := proper
    rw [decodeValue, if_neg (by simp), if_neg (by simp), if_pos rfl, admitRecord]
    by_cases first : decoded.pnm.isNone
    · simp only [first, true_and]
      by_cases filled : pnm.fields.any Option.isSome = true
      · rw [(validatePnmTable_iff encoded settled).mpr ⟨filled, rfl⟩, if_pos filled]
        rfl
      · rw [if_neg filled]
        cases outcome : validatePnmTable platform buffer table (label ++ " PNM payload") with
        | error failure => rfl
        | ok result => exact absurd ((validatePnmTable_iff encoded settled).mp outcome).1 filled
    · simp only [first]
      rfl

theorem decodeRecord_toOption (proper : Proper record)
    (encoded : RecordAt platform buffer (elementTable buffer place index) record) :
    (decodeRecord platform buffer place decoded index).toOption =
      admitRecord platform decoded record := by
  have value := encoded.holds
  rw [decodeRecord, assertFlatbufferTable_ok encoded.wellFormed, ok_bind,
    assertOptionalStringField_ok encoded.wellFormed rfl encoded.standard, ok_bind,
    assertUnionTableField_ok encoded.wellFormed rfl encoded.value value.wellFormed, ok_bind]
  rw [encoded.valueType, textField_read proper.standard_settled encoded.standard]
  have standard : record.standard.or (platform.codes.standardOf record.valueType) =
      record.standard := by
    rw [Proper] at proper
    split at proper
    · rw [proper, Option.some_or]
    · rw [proper.1, Option.some_or]
    · rw [proper.1, Option.some_or]
  rw [standard, ← decodeValue_toOption proper value]
  rfl

section
variable (encoded : RecAt platform buffer collection)
include encoded

theorem assertTableVectorField_ok :
    assertTableVectorField buffer (metaOf buffer (uint32 buffer 0) label) 6 name =
      .ok collection.records.length := by
  have count : uint32 buffer (target buffer (uint32 buffer 0 + fieldOffset buffer
      (uint32 buffer 0) 6)) = collection.records.length := encoded.count
  rw [assertTableVectorField, readTableFieldOffset_ok encoded.wellFormed rfl, ok_bind,
    if_neg encoded.records.present, metaOf]
  dsimp only
  rw [resolveRelativeOffset_ok encoded.records.refers, ok_bind,
    readUint32LE_ok encoded.records.refers.leads, ok_bind, count,
    assertBounds_ok (by rw [Nat.mul_comm]; exact encoded.fits), forM_ok]
  · rfl
  · intro index listed
    have small : index < collection.records.length := List.mem_range.mp listed
    have element := encoded.elements (collection.records[index], index)
      (List.mk_mem_zipIdx_iff_getElem?.mpr (List.getElem?_eq_getElem small))
    have refers := encoded.refers index small
    rw [recordsPlace] at refers
    rw [resolveRelativeOffset_ok refers, ok_bind]
    have wellFormed := element.wellFormed
    rw [elementTable, recordsPlace] at wellFormed
    rw [assertFlatbufferTable_ok wellFormed]
    rfl

theorem assertRootFlatbufferTable_ok :
    assertRootFlatbufferTable buffer (utf8 "$REC") "$REC" label =
      .ok (metaOf buffer (uint32 buffer 0) label) := by
  have inside := encoded.wellFormed.object_inside
  have object := encoded.wellFormed.object
  have root := encoded.root
  have identified : assertFlatbufferIdentifier buffer (utf8 "$REC") "$REC" label = .ok () := by
    rw [assertFlatbufferIdentifier, assertBounds_ok (by omega)]
    exact require_of_true (beq_iff_eq.mpr encoded.identifier) _
  rw [assertRootFlatbufferTable, identified, ok_bind, readUint32LE_ok (by omega), ok_bind,
    require_of_true, ok_bind, assertFlatbufferTable_ok encoded.wellFormed]
  rw [Bool.and_eq_true, decide_eq_true_iff, decide_eq_true_iff]
  omega

/-- Decoding an encoded collection is admitting its records one by one. -/
theorem decodePublicationRecordCollection_toOption
    (proper : ∀ record ∈ collection.records, Proper record) (filled : collection.records ≠ [])
    (named : collection.version = some version) (settled : Settled (some version)) :
    (decodePublicationRecordCollection platform buffer).toOption =
      (collection.records.foldlM (admitRecord platform) {}).map fun decoded =>
        ⟨decoded, version, buffer⟩ := by
  have texts : textField platform buffer (uint32 buffer 0) 4 = some version := by
    have field := encoded.version
    rw [named] at field
    exact textField_read settled field
  have folded : ((List.range collection.records.length).foldlM
      (decodeRecord platform buffer (recordsPlace buffer)) {}).toOption =
        collection.records.foldlM (admitRecord platform) {} := by
    rw [toOption_foldlM]
    apply foldlM_range_of_zipIdx
    intro element member decoded
    have listed : element.1 ∈ collection.records := (List.mem_zipIdx' member).2 ▸ List.getElem_mem _
    exact decodeRecord_toOption (proper _ listed) (encoded.elements element member)
  have count : collection.records.length ≠ 0 := by
    rwa [ne_eq, List.length_eq_zero_iff]
  rw [← folded, decodePublicationRecordCollection, assertRootFlatbufferTable_ok encoded, ok_bind]
  dsimp only
  rw [assertFlatbufferTable_ok encoded.wellFormed, ok_bind,
    assertOptionalStringField_ok encoded.wellFormed rfl encoded.version, ok_bind,
    assertTableVectorField_ok encoded, ok_bind, require_of_true (bne_iff_ne.mpr count), ok_bind,
    texts, toOption_bind]
  exact Option.map_eq_bind.symm

end

end Decoding

section Footer

theorem encodeFooter_ok (small : length ≤ 4294967295) :
    ∃ word : Bytes, encodeFooter length = .ok (word ++ trailerMagic) ∧ word.length = 4 ∧
      ∀ back, uint32 (word ++ back) 0 = length := by
  refine ⟨[UInt8.ofNat length, UInt8.ofNat (length / 256), UInt8.ofNat (length / 65536),
    UInt8.ofNat (length / 16777216)], ?_, rfl, ?_⟩
  · rw [encodeFooter, require_of_true (decide_eq_true small)]
    rfl
  · intro back
    simp [uint32, uint16, byte]
    omega

theorem readFooterLength_append (length : word.length = 4) :
    readFooterLength (front ++ (word ++ trailerMagic)) =
      some (uint32 (word ++ trailerMagic) 0) := by
  have magic : trailerMagic.length = 4 := by decide
  have whole : (front ++ (word ++ trailerMagic)).length = front.length + 8 := by
    rw [List.length_append, List.length_append, length, magic]
  have tail : (front ++ (word ++ trailerMagic)).drop (front.length + 4) = trailerMagic := by
    rw [← List.drop_drop, List.drop_left]
    exact List.drop_left' length
  rw [readFooterLength, whole, Nat.add_sub_cancel, uint32_append]
  exact if_pos tail

end Footer

section Trailer

theorem appendPublicationRecordCollection_ok
    (appended : appendPublicationRecordCollection payload recordCollection = .ok bytes) :
    ∃ word : Bytes, bytes = payload ++ recordCollection ++ (word ++ trailerMagic) ∧
      word.length = 4 ∧ ∀ back, uint32 (word ++ back) 0 = recordCollection.length := by
  rw [appendPublicationRecordCollection] at appended
  by_cases small : recordCollection.length ≤ 4294967295
  · obtain ⟨word, footer, length, value⟩ := encodeFooter_ok small
    rw [footer] at appended
    exact ⟨word, (Except.ok.inj appended).symm, length, value⟩
  · rw [encodeFooter, require, if_neg (by simpa using small)] at appended
    cases appended

/-- What is appended to a payload is found behind it again. -/
theorem extract_append
    (appended : appendPublicationRecordCollection payload recordCollection = .ok bytes) :
    extractPublicationRecordCollection platform bytes =
      (decodePublicationRecordCollection platform recordCollection).toOption.map fun decoded =>
        ⟨decoded, payload, bytes, bytes.drop (payload.length + recordCollection.length),
          recordCollection.length⟩ := by
  obtain ⟨word, rfl, length, value⟩ := appendPublicationRecordCollection_ok appended
  have magic : trailerMagic.length = 4 := by decide
  have whole : (payload ++ recordCollection ++ (word ++ trailerMagic)).length - 8 =
      payload.length + recordCollection.length := by
    simp only [List.length_append]
    omega
  rw [extractPublicationRecordCollection, readFooterLength_append length, value, whole]
  simp only [Option.bind_eq_bind, Option.bind_some, Nat.not_lt.mpr (Nat.le_add_left ..),
    Nat.add_sub_cancel, List.append_assoc, List.drop_left, List.take_left]
  cases decodePublicationRecordCollection platform recordCollection with
  | error failure => rfl
  | ok decoded => rfl

end Trailer

end SpaceDataModule.Transport
