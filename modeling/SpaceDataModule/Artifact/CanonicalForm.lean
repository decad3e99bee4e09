import Mathlib.Data.List.Flatten
import SpaceDataModule.Artifact.Chunks
import SpaceDataModule.Artifact.SingleFile
import SpaceDataModule.Transport.Decoded

/-! The canonical form of a module: what is left without the `sds.` sections. The walk takes a
REC trailer off whatever it is given, also off what it has stripped itself. -/
namespace SpaceDataModule.Artifact
open Bundle (Bytes utf8 sdsCustomSectionPrefix)
open Transport (Platform Records RecAt Repackable require_of_true ok_bind bind_eq_ok rel_of_mapM
  rel_mem_left decoded_of_extract identifier_of_decoded moduleBundleTable collectionTable
  encodePublicationRecordCollection extract_encoded trailerMagic
  appendPublicationRecordCollection_ok extractPublicationRecordCollection readFooterLength)

section Trailers

theorem identifier_append {front back : Bytes}
    (identifier : (front.drop 4).take 4 = utf8 "$REC") :
    ((front ++ back).drop 4).take 4 = utf8 "$REC" := by
  have long : 8 ≤ front.length := by
    have length := congrArg List.length identifier
    have four : (utf8 "$REC").length = 4 := by decide
    rw [List.length_take, List.length_drop] at length
    omega
  rw [List.drop_append_of_le_length (by omega), List.take_append_of_le_length, identifier]
  rw [List.length_drop]
  omega

/-- What a walk takes off: nothing, or bytes that begin as a REC buffer does. -/
theorem withoutTrailer_append (bytes : Bytes) : ∃ trailer,
    bytes = withoutTrailer platform bytes ++ trailer ∧
      (extractPublicationRecordCollection platform bytes = none ∧ trailer = [] ∨
        (trailer.drop 4).take 4 = utf8 "$REC") := by
  rw [withoutTrailer]
  cases found : extractPublicationRecordCollection platform bytes with
  | none => exact ⟨[], (List.append_nil _).symm, .inl ⟨rfl, rfl⟩⟩
  | some extracted =>
    obtain ⟨offset, length, payload, decoded⟩ := decoded_of_extract found
    refine ⟨bytes.drop offset, ?_, .inr ?_⟩
    · dsimp only
      rw [payload, List.take_append_drop]
    · rw [← List.take_append_drop length (bytes.drop offset)]
      exact identifier_append (identifier_of_decoded decoded)

theorem extract_of_no_footer (missing : readFooterLength bytes = none) :
    extractPublicationRecordCollection platform bytes = none := by
  rw [extractPublicationRecordCollection, missing]
  rfl

theorem withoutTrailer_of_none (bare : extractPublicationRecordCollection platform bytes = none) :
    withoutTrailer platform bytes = bytes := by
  rw [withoutTrailer, bare]

end Trailers

section Records

/-- Where a decoded text starts with ASCII characters, so do its bytes, but for a byte order
mark. -/
def ReadsAscii (engine : Auth.Engine) : Prop :=
  ∀ (start : String) (bytes : Bytes), (∀ c ∈ start.toList, c.toNat < 128) →
    startsWith start (engine.decodeText bytes) = true →
    utf8 start <+: bytes ∨ [0xEF, 0xBB, 0xBF] ++ utf8 start <+: bytes

theorem drop_of_decode (decoded : Leb128.decode 8 bytes = some (value, rest)) :
    ∃ count, 1 ≤ count ∧ bytes.length = count + rest.length ∧ rest = bytes.drop count := by
  obtain ⟨consumed, rfl, filled, -⟩ := Leb128.decode_consumes decoded
  refine ⟨consumed.length, List.length_pos_iff.mpr filled, List.length_append, ?_⟩
  rw [List.drop_left]

/-- With the magic of a REC buffer behind the first three bytes, both numbers before the name
end within it. -/
theorem name_within (letter : ∀ index < 4, bytes[3 + index]? = [36, 82, 69, 67][index]?)
    (sized : Leb128.decode 8 bytes = some (size, payload))
    (lengthened : Leb128.decode 8 payload = some (length, named)) :
    ∃ start, 2 ≤ start ∧ start ≤ 5 ∧ named = bytes.drop start := by
  obtain ⟨first, positive, total, rfl⟩ := drop_of_decode sized
  obtain ⟨second, more, rest, rfl⟩ := drop_of_decode lengthened
  rw [List.drop_drop] at rest
  have short : first ≤ 4 := by
    have ends := Leb128.decode_length_le sized (letter 0 (by decide)) (by decide)
    omega
  refine ⟨first + second, by omega, ?_, List.drop_drop⟩
  have ends {index : Nat} {byte : UInt8} (found : bytes[first + index]? = some byte)
      (last : byte.toNat < 128) : second ≤ index + 1 := by
    rw [← List.getElem?_drop] at found
    have bound := Leb128.decode_length_le lengthened found last
    rw [List.drop_drop] at bound
    omega
  by_cases before : first ≤ 3
  · have found : bytes[first + (3 - first)]? = some 36 := by
      rw [Nat.add_sub_cancel' before]
      exact letter 0 (by decide)
    have bound := ends found (by decide)
    omega
  · obtain rfl : first = 4 := by omega
    have bound := @ends 0 82 (letter 1 (by decide)) (by decide)
    omega

/-- No `sds.` section begins as a REC buffer does: the letters of the magic stand where the name
starts, or behind its first letter. -/
theorem not_stripped_of_identifier (ascii : ReadsAscii engine) {chunk : Chunk engine}
    (identifier : ((chunk.id :: (chunk.body ++ rest)).drop 4).take 4 = utf8 "$REC") :
    chunk.strippedBy sdsCustomSectionPrefix = false := by
  rw [Bool.eq_false_iff]
  intro stripped
  rw [Chunk.strippedBy, Bool.and_eq_true, Option.any_eq_true] at stripped
  obtain ⟨custom, name, listed, starts⟩ := stripped
  obtain ⟨size, payload, length, named, sized, lengthened, text⟩ :=
    scanSection_name (chunk.scan_append rest) listed
  generalize chunk.body ++ rest = bytes at sized identifier
  have letters : (bytes.drop 3).take 4 = [36, 82, 69, 67] := identifier
  have letter (index : Nat) (short : index < 4) :
      bytes[3 + index]? = [36, 82, 69, 67][index]? := by
    rw [← letters, List.getElem?_take_of_lt short, List.getElem?_drop]
  obtain ⟨start, low, high, rfl⟩ := name_within letter sized lengthened
  rw [text] at starts
  have read {index : Nat} {byte : UInt8}
      (found : ((bytes.drop start).take length)[index]? = some byte) :
      bytes[start + index]? = some byte := by
    rw [List.getElem?_take] at found
    split_ifs at found
    rwa [List.getElem?_drop] at found
  have two : bytes[start]? = some 115 ∧ bytes[start + 1]? = some 100 ∨
      bytes[start]? = some 239 ∧ bytes[start + 1]? = some 187 := by
    rcases ascii sdsCustomSectionPrefix _ (List.forall_iff_forall_mem.mp (by decide)) starts with
      ⟨more, same⟩ | ⟨more, same⟩
    · exact .inl ⟨@read 0 115 (same ▸ rfl), @read 1 100 (same ▸ rfl)⟩
    · exact .inr ⟨@read 0 239 (same ▸ rfl), @read 1 187 (same ▸ rfl)⟩
  have third : bytes[3]? = some 36 := letter 0 (by decide)
  have fourth : bytes[4]? = some 82 := letter 1 (by decide)
  have fifth : bytes[5]? = some 69 := letter 2 (by decide)
  interval_cases start
  · simp [third] at two
  · simp [third] at two
  · simp [fourth] at two
  · simp [fifth] at two

variable (customSectionPrefix : String)

theorem length_flat_kept_le (chunks : List (Chunk engine)) :
    (Chunk.flat (Chunk.kept customSectionPrefix chunks)).length ≤ (Chunk.flat chunks).length :=
  (List.filter_sublist.flatMap Chunk.raw).length_le

theorem kept_append (front back : List (Chunk engine)) :
    Chunk.kept customSectionPrefix (front ++ back) =
      Chunk.kept customSectionPrefix front ++ Chunk.kept customSectionPrefix back :=
  List.filter_append ..

theorem kept_kept (chunks : List (Chunk engine)) :
    Chunk.kept customSectionPrefix (Chunk.kept customSectionPrefix chunks) =
      Chunk.kept customSectionPrefix chunks := by
  simp [Chunk.kept]

/-- Sections that begin as a REC buffer does leave something behind. -/
theorem kept_longer (ascii : ReadsAscii engine) (front : List (Chunk engine))
    (identifier : ((Chunk.flat back).drop 4).take 4 = utf8 "$REC") :
    (Chunk.flat (Chunk.kept sdsCustomSectionPrefix front)).length <
      (Chunk.flat (Chunk.kept sdsCustomSectionPrefix (front ++ back))).length := by
  cases back with
  | nil =>
    rw [Chunk.flat_nil] at identifier
    exact absurd identifier (by decide)
  | cons chunk back =>
    have remains := not_stripped_of_identifier ascii identifier
    rw [kept_append, Chunk.flat_append, List.length_append, Chunk.kept, Chunk.kept,
      List.filter_cons_of_pos (by simp [remains]), Chunk.flat_cons, List.length_cons]
    omega

end Records

section Stripping

/-- Stripping what was stripped changes nothing exactly when it carries no REC trailer. -/
theorem strip_strip_iff
    (once : stripWasmCustomSections platform bytes customSectionPrefix = .ok stripped) :
    stripWasmCustomSections platform stripped customSectionPrefix = .ok stripped ↔
      extractPublicationRecordCollection platform stripped = none := by
  obtain ⟨chunks, -, rfl⟩ := stripWasmCustomSections_iff.mp once
  rw [stripWasmCustomSections_iff]
  constructor
  · rintro ⟨others, whole, same⟩
    obtain ⟨trailer, split, bare | identifier⟩ := @withoutTrailer_append platform
      (wasmHeader ++ Chunk.flat (Chunk.kept customSectionPrefix chunks))
    · exact bare.1
    · have shorter := length_flat_kept_le customSectionPrefix others
      have length := congrArg List.length split
      rw [whole, same] at length
      simp only [List.length_append] at length
      have empty : trailer = [] := List.length_eq_zero_iff.mp (by omega)
      rw [empty] at identifier
      exact absurd identifier (by decide)
  · intro bare
    exact ⟨Chunk.kept customSectionPrefix chunks, withoutTrailer_of_none bare, by rw [kept_kept]⟩

theorem canonicalWasmBytes_of_bare {chunks : List (Chunk platform.toEngine)}
    (bare : extractPublicationRecordCollection platform (wasmHeader ++ Chunk.flat chunks) = none) :
    canonicalWasmBytes platform (wasmHeader ++ Chunk.flat chunks) customSectionPrefix =
      .ok (wasmHeader ++ Chunk.flat (Chunk.kept customSectionPrefix chunks)) := by
  rw [canonicalWasmBytes, stripWasmCustomSections_iff]
  refine ⟨chunks, ?_, rfl⟩
  rw [withoutTrailer_of_none bare, withoutTrailer_of_none bare]

/-- The canonical form of chunks, exactly when the whole carries no REC trailer. -/
theorem canonicalWasmBytes_iff (ascii : ReadsAscii platform.toEngine)
    (chunks : List (Chunk platform.toEngine)) :
    canonicalWasmBytes platform (wasmHeader ++ Chunk.flat chunks) sdsCustomSectionPrefix =
        .ok (wasmHeader ++ Chunk.flat (Chunk.kept sdsCustomSectionPrefix chunks)) ↔
      extractPublicationRecordCollection platform (wasmHeader ++ Chunk.flat chunks) = none := by
  refine ⟨fun canonical => ?_, canonicalWasmBytes_of_bare⟩
  rw [canonicalWasmBytes, stripWasmCustomSections_iff] at canonical
  obtain ⟨others, whole, same⟩ := canonical
  obtain ⟨last, split, bare | identifier⟩ := @withoutTrailer_append platform
    (wasmHeader ++ Chunk.flat chunks)
  · exact bare.1
  · obtain ⟨inner, again, second⟩ := @withoutTrailer_append platform
      (withoutTrailer platform (wasmHeader ++ Chunk.flat chunks))
    rw [again, whole, List.append_assoc, List.append_assoc, List.append_cancel_left_eq] at split
    have found : ((inner ++ last).drop 4).take 4 = utf8 "$REC" := by
      rcases second with ⟨-, rfl⟩ | second
      · exact identifier
      · exact identifier_append second
    obtain ⟨back, rfl, behind⟩ := Chunk.split_of_flat split
    rw [behind] at found
    have longer := kept_longer ascii others found
    rw [List.append_cancel_left_eq] at same
    rw [same] at longer
    exact absurd longer (lt_irrefl _)

end Stripping

section Insertion

def insertedAt (header : Bytes) (front back : List WasmSection) (part : Bytes) : Bytes :=
  header ++ (front.flatMap WasmSection.rawBytes ++ (part ++ back.flatMap WasmSection.rawBytes))

/-- An `sds.` section between two others leaves the canonical form as it is, exactly when it
makes no REC trailer. -/
theorem canonicalWasmBytes_inserted_iff (ascii : ReadsAscii platform.toEngine)
    {chunks : List (Chunk platform.toEngine)}
    (bare : extractPublicationRecordCollection platform (wasmHeader ++ Chunk.flat chunks) = none)
    (split : Chunk.placed 8 chunks = front ++ back)
    (encoded : encodeWasmCustomSection name payload = .ok part)
    (named : startsWith sdsCustomSectionPrefix (JavaScript.trim name) = true) :
    canonicalWasmBytes platform (insertedAt wasmHeader front back part) sdsCustomSectionPrefix =
        canonicalWasmBytes platform (wasmHeader ++ Chunk.flat chunks) sdsCustomSectionPrefix ↔
      extractPublicationRecordCollection platform (insertedAt wasmHeader front back part) = none := by
  obtain ⟨before, behind, rfl, sameFront, sameBack⟩ := Chunk.placed_split split
  obtain ⟨chunk, rfl, custom, text⟩ := Chunk.of_encoded platform.toEngine encoded
  have stripped : chunk.strippedBy sdsCustomSectionPrefix = true := by
    obtain ⟨found, listed, same⟩ := Option.map_eq_some_iff.mp text
    rw [Chunk.strippedBy, custom, listed, Option.any_some, same, named]
    rfl
  have whole : insertedAt wasmHeader front back chunk.raw =
      wasmHeader ++ Chunk.flat (before ++ chunk :: behind) := by
    rw [insertedAt, sameFront, sameBack, Chunk.flat_append]
    rfl
  have kept : Chunk.kept sdsCustomSectionPrefix (before ++ chunk :: behind) =
      Chunk.kept sdsCustomSectionPrefix (before ++ behind) := by
    rw [kept_append, kept_append, Chunk.kept, Chunk.kept, Chunk.kept,
      List.filter_cons_of_neg (by simp [stripped])]
  rw [whole, canonicalWasmBytes_of_bare bare, ← kept]
  exact canonicalWasmBytes_iff ascii (before ++ chunk :: behind)

end Insertion

section Bundling
variable {Manifest : Type} {toolchain : Toolchain Manifest}

/-- Every type of a payload, once written as text, reads back without other numbers than finite
ones. -/
def TypesReadable (toolchain : Toolchain Manifest) (options : BundleOptions Manifest) : Prop :=
  ∀ manifestBytes entries, manifestBytesOf toolchain options = .ok manifestBytes →
    bundleEntries toolchain options manifestBytes = .ok entries → ∀ entry ∈ entries, ∀ text,
      Bundle.stringifyTypeRef toolchain.toEngine entry.typeRef = .ok text →
        Auth.finite (Bundle.parseTypeRef toolchain.toEngine text) = true

/-- The builder writes what it is given: the REC buffer holds the collection that was packed. -/
def PacksFaithfully (platform : Platform) (records : Records) : Prop :=
  ∀ collection, collectionTable platform records = .ok collection →
    RecAt platform (platform.packRec collection) collection

variable {options : BundleOptions Manifest}

namespace PacksFaithfully
variable (faithful : PacksFaithfully platform records)
  (packed : encodePublicationRecordCollection platform records = .ok recordCollection)
include faithful packed

theorem encoded : ∀ collection, collectionTable platform records = .ok collection →
    RecAt platform recordCollection collection := by
  intro collection made
  rw [encodePublicationRecordCollection, made] at packed
  cases packed
  exact faithful collection made

theorem identifier : (recordCollection.drop 4).take 4 = utf8 "$REC" := by
  obtain ⟨collection, made, rfl⟩ := Checked.map_eq_ok.mp packed
  exact (faithful collection made).identifier

end PacksFaithfully

section
variable (origin : Built toolchain options manifestBytes entries base recordCollection built)
include origin

/-- The table of a built bundle can be packed again exactly when the types are readable. -/
theorem Built.repackable_iff
    (made : moduleBundleTable toolchain (.object built.bundle) = .ok table) :
    Repackable toolchain table ↔ TypesReadable toolchain options := by
  rw [origin.bundle] at made
  simp only [moduleBundleTable, Bundle.moduleBundleTableFromObject, bind_eq_ok] at made
  obtain ⟨rule, -, tables, mapped, made⟩ := made
  cases made
  have converted := Checked.mapM_eq_ok.mp mapped
  have typed {entry : Bundle.EntryObject} {other : Bundle.EntryTable}
      (normalized : Bundle.normalizeEntry toolchain toolchain.roles toolchain.encodings
        entry = .ok other) :
      Bundle.stringifyTypeRef toolchain entry.typeRef = .ok other.typeRef := by
    simp only [Bundle.normalizeEntry, bind_eq_ok] at normalized
    obtain ⟨text, written, made⟩ := normalized
    cases made
    exact written
  constructor
  · rintro ⟨-, finite⟩ otherBytes others manifest listed entry member text written
    rw [origin.manifest] at manifest
    cases manifest
    rw [origin.listed] at listed
    cases listed
    obtain ⟨other, found, normalized⟩ := Checked.forall₂_mem_left converted member
    rw [typed normalized] at written
    cases written
    exact finite other found
  · intro readable
    refine ⟨Option.some_ne_none _, fun other found => ?_⟩
    obtain ⟨entry, member, normalized⟩ := Checked.forall₂_mem_right converted found
    exact readable _ _ origin.manifest origin.listed entry member _ (typed normalized)

/-- What stands behind the stripped module begins as a REC buffer does. -/
theorem Built.identifier
    (faithful : PacksFaithfully toolchain (bundleRecords
      (extractPublicationRecordCollection toolchain options.wasmBytes) built.bundle)) :
    ∃ trailer, built.wasmBytes = base ++ trailer ∧ (trailer.drop 4).take 4 = utf8 "$REC" := by
  obtain ⟨word, whole, -⟩ := appendPublicationRecordCollection_ok origin.appended
  refine ⟨recordCollection ++ (word ++ trailerMagic), ?_, ?_⟩
  · rw [whole, List.append_assoc]
  · exact identifier_append (faithful.identifier origin.encoded)

section
variable (bare : extractPublicationRecordCollection toolchain.toPlatform options.wasmBytes = none)
  (faithful : PacksFaithfully toolchain.toPlatform (bundleRecords none built.bundle))
include bare faithful

/-- The trailer of a bundle built from a module without one: it is found, with the stripped
module before it, exactly when the types are readable. -/
theorem Built.extracted :
    (TypesReadable toolchain options →
      withoutTrailer toolchain built.wasmBytes = base) ∧
    (¬TypesReadable toolchain options →
      extractPublicationRecordCollection toolchain built.wasmBytes = none) := by
  have encoded := origin.encoded
  rw [bare] at encoded
  obtain ⟨mbl, enc, collection, packed, found, lost⟩ :=
    extract_encoded encoded (faithful.encoded encoded) origin.appended
  obtain ⟨table, rfl, made⟩ := rel_mem_left (rel_of_mapM packed.bundle)
    (rfl : _ ∈ (bundleRecords none built.bundle).mbl)
  obtain rfl : enc = none := (Except.ok.inj packed.encryption).symm
  constructor
  · intro readable
    have repackable := (origin.repackable_iff made).mpr readable
    obtain ⟨extracted, present, holds⟩ := found (.of_bundle repackable)
    rw [withoutTrailer, present]
    exact holds.payload
  · intro unreadable
    exact lost fun readable =>
      unreadable ((origin.repackable_iff made).mp (readable.bundle table rfl))

/-- The canonical form of a built bundle is that of the module, if stripping left no REC trailer
and the types are readable. -/
theorem Built.canonical_of
    (clean : extractPublicationRecordCollection toolchain base = none)
    (readable : TypesReadable toolchain options) :
    canonicalWasmBytes toolchain built.wasmBytes
        (options.customSectionPrefix.getD sdsCustomSectionPrefix) =
      canonicalWasmBytes toolchain options.wasmBytes
        (options.customSectionPrefix.getD sdsCustomSectionPrefix) := by
  have once := origin.stripped
  rw [canonicalWasmBytes, canonicalWasmBytes, (origin.extracted bare faithful).1 readable, once]
  exact (strip_strip_iff once).mpr clean

/-- Under the `sds.` prefix these conditions are needed. -/
theorem Built.canonical_only (ascii : ReadsAscii toolchain)
    (byDefault : options.customSectionPrefix.getD sdsCustomSectionPrefix = sdsCustomSectionPrefix)
    (same : canonicalWasmBytes toolchain built.wasmBytes sdsCustomSectionPrefix =
      canonicalWasmBytes toolchain options.wasmBytes sdsCustomSectionPrefix) :
    extractPublicationRecordCollection toolchain base = none ∧
      TypesReadable toolchain options := by
  have once := origin.stripped
  rw [byDefault] at once
  have canonical : canonicalWasmBytes toolchain options.wasmBytes
      sdsCustomSectionPrefix = .ok base := once
  rw [canonical] at same
  by_cases readable : TypesReadable toolchain options
  · rw [canonicalWasmBytes, (origin.extracted bare faithful).1 readable] at same
    exact ⟨(strip_strip_iff once).mp same, readable⟩
  · have lost := (origin.extracted bare faithful).2 readable
    obtain ⟨trailer, whole, identifier⟩ := origin.identifier (bare ▸ faithful)
    obtain ⟨chunks, -, rfl⟩ := stripWasmCustomSections_iff.mp once
    rw [canonicalWasmBytes, withoutTrailer_of_none lost, stripWasmCustomSections_iff,
      withoutTrailer_of_none lost, whole] at same
    obtain ⟨others, split, kept⟩ := same
    rw [List.append_assoc, List.append_cancel_left_eq] at split
    rw [List.append_cancel_left_eq] at kept
    obtain ⟨back, rfl, rfl⟩ := Chunk.split_of_flat split.symm
    have longer := kept_longer ascii (Chunk.kept sdsCustomSectionPrefix chunks) identifier
    rw [kept_kept, ← kept] at longer
    exact absurd longer (lt_irrefl _)

end

end

end Bundling

section Form
variable {Manifest : Type} {toolchain : Toolchain Manifest} {bytes : Bytes}

/-- Header and sections are the bytes of the module, one behind the other. -/
structure ParsedModule.Partitions (parsed : ParsedModule) (bytes : Bytes) : Prop where
  whole : parsed.bytes = bytes
  joined : parsed.headerBytes ++ parsed.sections.flatMap WasmSection.rawBytes = bytes
  consecutive : Consecutive parsed.headerBytes.length parsed.sections bytes.length
  slices : ∀ part ∈ parsed.sections,
    (bytes.drop part.start).take (part.stop - part.start) = part.rawBytes

/-- **The canonical form of a module.** Header and sections partition a module without a REC
trailer. Stripping it again, an `sds.` section more, or a bundle around it leave its canonical
form as it is exactly when no REC trailer comes to light on the way, and a bundle only if the
types of its payloads read back. -/
theorem canonical_form_iff (ascii : ReadsAscii toolchain.toEngine)
    (bare : extractPublicationRecordCollection toolchain.toPlatform bytes = none)
    (accepted : parseWasmModuleSections toolchain.toPlatform bytes = .ok parsed) :
    parsed.Partitions bytes ∧
    (∃ stripped,
      stripWasmCustomSections toolchain.toPlatform bytes sdsCustomSectionPrefix = .ok stripped ∧
      (stripWasmCustomSections toolchain.toPlatform stripped sdsCustomSectionPrefix =
          .ok stripped ↔
        extractPublicationRecordCollection toolchain.toPlatform stripped = none)) ∧
    (∀ front back name payload part, parsed.sections = front ++ back →
      encodeWasmCustomSection name payload = .ok part →
      startsWith sdsCustomSectionPrefix (JavaScript.trim name) = true →
      (canonicalWasmBytes toolchain.toPlatform (insertedAt parsed.headerBytes front back part)
          sdsCustomSectionPrefix =
          canonicalWasmBytes toolchain.toPlatform bytes sdsCustomSectionPrefix ↔
        extractPublicationRecordCollection toolchain.toPlatform
          (insertedAt parsed.headerBytes front back part) = none)) ∧
    ∀ options built base, options.wasmBytes = bytes →
      createSingleFileBundle toolchain options = .ok built →
      PacksFaithfully toolchain.toPlatform (bundleRecords none built.bundle) →
      stripWasmCustomSections toolchain.toPlatform bytes
        (options.customSectionPrefix.getD sdsCustomSectionPrefix) = .ok base →
      (extractPublicationRecordCollection toolchain.toPlatform base = none →
        TypesReadable toolchain options →
        canonicalWasmBytes toolchain.toPlatform built.wasmBytes
            (options.customSectionPrefix.getD sdsCustomSectionPrefix) =
          canonicalWasmBytes toolchain.toPlatform bytes
            (options.customSectionPrefix.getD sdsCustomSectionPrefix)) ∧
      (options.customSectionPrefix.getD sdsCustomSectionPrefix = sdsCustomSectionPrefix →
        canonicalWasmBytes toolchain.toPlatform built.wasmBytes sdsCustomSectionPrefix =
          canonicalWasmBytes toolchain.toPlatform bytes sdsCustomSectionPrefix →
        extractPublicationRecordCollection toolchain.toPlatform base = none ∧
          TypesReadable toolchain options) := by
  obtain ⟨chunks, whole, rfl⟩ := parseWasmModuleSections_iff.mp accepted
  rw [withoutTrailer_of_none bare] at whole
  subst whole
  refine ⟨⟨rfl, ?_, ?_, ?_⟩, ?_, ?_, ?_⟩
  · rw [Chunk.flatMap_placed]
  · rw [List.length_append]
    exact Chunk.placed_consecutive 8 chunks
  · exact Chunk.placed_slice wasmHeader chunks
  · have once : stripWasmCustomSections toolchain.toPlatform (wasmHeader ++ Chunk.flat chunks)
        sdsCustomSectionPrefix = .ok (wasmHeader ++
          Chunk.flat (Chunk.kept sdsCustomSectionPrefix chunks)) :=
      stripWasmCustomSections_iff.mpr ⟨chunks, withoutTrailer_of_none bare, rfl⟩
    exact ⟨_, once, strip_strip_iff once⟩
  · intro front back name payload part split encoded named
    exact canonicalWasmBytes_inserted_iff ascii bare split encoded named
  · intro options built base given made faithful stripped
    obtain ⟨manifestBytes, entries, found, recordCollection, origin⟩ :=
      createSingleFileBundle_built toolchain made
    have once := origin.stripped
    rw [given, withoutTrailer_of_none bare, stripped] at once
    cases once
    rw [← given] at bare ⊢
    exact ⟨origin.canonical_of bare faithful, origin.canonical_only bare faithful ascii⟩

end Form

section Practice
open Transport (practicePlatform practiceBundle bareBuffer textOf textOf_utf8)

theorem readsAscii_textOf (decodes : engine.decodeText = textOf) : ReadsAscii engine := by
  intro start bytes _ starts
  rw [decodes, startsWith, List.isPrefixOf_iff_prefix] at starts
  obtain ⟨rest, same⟩ := starts
  left
  by_cases found : ∃ text, utf8 text = bytes
  · obtain ⟨text, rfl⟩ := found
    rw [textOf_utf8] at same
    obtain rfl : start ++ String.ofList rest = text := by
      rw [← String.toList_inj, String.toList_append, String.toList_ofList, same]
    exact List.prefix_append _ _
  · rw [textOf, dif_neg found] at same
    obtain rfl : start = "" := by
      rw [← String.toList_inj]
      exact (List.append_eq_nil_iff.mp same).1
    exact List.nil_prefix

/-- A section whose lengths take one byte each. -/
theorem encodeWasmCustomSection_small (named : JavaScript.trim name ≠ "")
    (written : utf8 (JavaScript.trim name) = nameBytes)
    (small : 1 + nameBytes.length + payload.length < 128) :
    encodeWasmCustomSection name payload =
      .ok (0 :: UInt8.ofNat (1 + nameBytes.length + payload.length) ::
        UInt8.ofNat nameBytes.length :: (nameBytes ++ payload)) := by
  have encoded {value : Nat} (short : value < 128) :
      encodeUnsignedLeb128 value = .ok [UInt8.ofNat value] := by
    have safe : decide (value < 2 ^ 53) = true := by
      rw [decide_eq_true_iff]
      omega
    rw [encodeUnsignedLeb128, require_of_true safe, Leb128.encode, if_pos short]
    rfl
  have filled : (JavaScript.trim name != "") = true := by simpa using named
  rw [encodeWasmCustomSection]
  dsimp only
  rw [require_of_true filled, ok_bind, written, encoded (by omega), ok_bind,
    encoded (by simpa using small)]
  rfl

def emptyBundle : Bundle.MblTable where
  moduleFormat := some Bundle.defaultModuleFormat
  canonicalization := some {
    strippedCustomSectionPrefix := some sdsCustomSectionPrefix
    bundleSectionName := some Bundle.sdsMblContainerName
    hashAlgorithm := some "sha256" }
  manifestExportSymbol := some Bundle.defaultManifestExportSymbol
  manifestSizeSymbol := some Bundle.defaultManifestSizeSymbol

noncomputable def practiceToolchain (buffer : Bytes) (bundle : Bundle.MblTable) :
    Toolchain Unit where
  toPlatform := practicePlatform buffer bundle
  sha256 _ := []
  encodeBundleManifest _ := .ok []
  isPlgManifestBuffer _ := false
  normalizeDeploymentPlan plan := .ok plan

def practiceModule : Bytes := wasmHeader ++ [0, 6, 5, 115, 100, 115, 46, 97]

theorem Chunk.of_small (engine : Auth.Engine) {name : String} {nameBytes payload : Bytes}
    (plain : JavaScript.trim name = name) (named : name ≠ "") (written : utf8 name = nameBytes)
    (small : 1 + nameBytes.length + payload.length < 128) : ∃ chunk : Chunk engine,
      chunk.raw = 0 :: UInt8.ofNat (1 + nameBytes.length + payload.length) ::
        UInt8.ofNat nameBytes.length :: (nameBytes ++ payload) ∧
      chunk.strippedBy sdsCustomSectionPrefix = startsWith sdsCustomSectionPrefix name := by
  have encoded := @encodeWasmCustomSection_small name nameBytes payload (by rwa [plain])
    (by rw [plain, written]) small
  obtain ⟨chunk, raw, custom, text⟩ := Chunk.of_encoded engine encoded
  rw [plain] at text
  refine ⟨chunk, raw, ?_⟩
  obtain ⟨found, listed, same⟩ := Option.map_eq_some_iff.mp text
  rw [Chunk.strippedBy, custom, listed, Option.any_some, same]
  rfl

theorem practiceModule_chunk (engine : Auth.Engine) : ∃ chunk : Chunk engine,
    wasmHeader ++ Chunk.flat [chunk] = practiceModule ∧
      Chunk.kept sdsCustomSectionPrefix [chunk] = [] := by
  obtain ⟨chunk, raw, stripped⟩ := @Chunk.of_small engine "sds.a" [115, 100, 115, 46, 97] []
    (by decide) (by decide) (by decide) (by decide)
  have goes : startsWith sdsCustomSectionPrefix "sds.a" = true := by decide
  refine ⟨chunk, ?_, ?_⟩
  · rw [Chunk.flat_cons, Chunk.flat_nil, List.append_nil, ← Chunk.raw, raw]
    rfl
  · simp [Chunk.kept, stripped, goes]

theorem canonical_form_practice :
    let toolchain := practiceToolchain bareBuffer emptyBundle
    ∃ parsed built, parseWasmModuleSections toolchain.toPlatform practiceModule = .ok parsed ∧
      parsed.Partitions practiceModule ∧
      createSingleFileBundle toolchain { wasmBytes := practiceModule } = .ok built ∧
      canonicalWasmBytes toolchain.toPlatform built.wasmBytes sdsCustomSectionPrefix =
        canonicalWasmBytes toolchain.toPlatform practiceModule sdsCustomSectionPrefix := by
  intro toolchain
  have bare : extractPublicationRecordCollection toolchain.toPlatform practiceModule = none :=
    extract_of_no_footer (by decide +kernel)
  obtain ⟨chunk, flat, kept⟩ := practiceModule_chunk toolchain.toEngine
  have accepted : parseWasmModuleSections toolchain.toPlatform practiceModule = .ok
      ⟨wasmHeader ++ Chunk.flat [chunk], wasmHeader, Chunk.placed 8 [chunk]⟩ :=
    parseWasmModuleSections_iff.mpr ⟨[chunk], by rw [withoutTrailer_of_none bare, flat], rfl⟩
  have stripped : stripWasmCustomSections toolchain.toPlatform practiceModule
      sdsCustomSectionPrefix = .ok wasmHeader :=
    stripWasmCustomSections_iff.mpr ⟨[chunk], by rw [withoutTrailer_of_none bare, flat],
      by rw [kept]; rfl⟩
  let options : BundleOptions Unit := { wasmBytes := practiceModule }
  let built : SingleFileBundle := {
    bundle := bundleObject toolchain options none [] []
    bundleBytes := []
    canonicalWasmBytes := wasmHeader
    canonicalModuleHash := []
    manifestHash := []
    wasmBytes := wasmHeader ++ bareBuffer ++ [85, 0, 0, 0, 36, 82, 69, 67] }
  have made : createSingleFileBundle toolchain options = .ok built := by
    simp only [createSingleFileBundle, bind_eq_ok]
    refine ⟨none, rfl, [], rfl, (wasmHeader, []), ?_, emptyBundle, rfl, wasmHeader, ?_,
      bareBuffer, rfl, _, ?_, rfl⟩
    · rw [computeCanonicalModuleHash]
      exact congrArg (Except.map _) stripped
    · exact stripped
    · decide +kernel
  have faithful : PacksFaithfully toolchain.toPlatform (bundleRecords none built.bundle) := by
    rintro collection ⟨⟩
    decide +kernel
  have form := canonical_form_iff (readsAscii_textOf rfl) bare accepted
  have readable : TypesReadable toolchain options := by
    rintro _ _ ⟨⟩ ⟨⟩ entry listed
    cases listed
  exact ⟨_, built, accepted, form.1, made,
    (form.2.2.2 _ built wasmHeader rfl made faithful stripped).1
      (extract_of_no_footer (by decide +kernel)) readable⟩

/-- A module whose section ends as a trailer does, with an `sds.` section behind. -/
theorem buried_chunks (platform : Platform) :
    let module := wasmHeader ++ ([0, 95, 1, 120] ++ bareBuffer ++ [85, 0, 0, 0, 36, 82, 69, 67])
    let bytes := module ++ [0, 6, 5, 115, 100, 115, 46, 97]
    extractPublicationRecordCollection platform bytes = none ∧
      stripWasmCustomSections platform bytes sdsCustomSectionPrefix = .ok module ∧
      ∃ chunks : List (Chunk platform.toEngine),
        withoutTrailer platform bytes = wasmHeader ++ Chunk.flat chunks := by
  intro module bytes
  have bare : extractPublicationRecordCollection platform bytes = none :=
    extract_of_no_footer (by decide +kernel)
  have short : (bareBuffer ++ [85, 0, 0, 0, 36, 82, 69, 67]).length = 93 := rfl
  obtain ⟨first, firstRaw, stays⟩ := @Chunk.of_small platform.toEngine "x" [120]
    (bareBuffer ++ [85, 0, 0, 0, 36, 82, 69, 67]) (by decide) (by decide) (by decide)
    (by rw [short]; decide)
  obtain ⟨second, secondRaw, goes⟩ := @Chunk.of_small platform.toEngine "sds.a"
    [115, 100, 115, 46, 97] [] (by decide) (by decide) (by decide) (by decide)
  have plain : startsWith sdsCustomSectionPrefix "x" = false := by decide
  have note : startsWith sdsCustomSectionPrefix "sds.a" = true := by decide
  have kept : Chunk.kept sdsCustomSectionPrefix [first, second] = [first] := by
    simp [Chunk.kept, stays, goes, plain, note]
  have whole : withoutTrailer platform bytes = wasmHeader ++ Chunk.flat [first, second] := by
    rw [Chunk.flat_cons, Chunk.flat_cons, Chunk.flat_nil,
      List.append_nil, ← Chunk.raw, ← List.cons_append, ← Chunk.raw, firstRaw, secondRaw]
    rfl
  refine ⟨bare, stripWasmCustomSections_iff.mpr ⟨[first, second], whole, ?_⟩, _, whole⟩
  rw [kept, Chunk.flat_cons, Chunk.flat_nil, List.append_nil, ← Chunk.raw, firstRaw]
  rfl

/-- The buffer holds whatever bundle the platform unpacks. -/
theorem bareBuffer_holds (unpacks : ∀ buffer place, platform.unpackMbl buffer place = some table) :
    RecAt platform bareBuffer ⟨some "1.0.0", [⟨1, .mbl table, some "MBL"⟩]⟩ := by
  have sample : RecAt (practicePlatform bareBuffer {}) bareBuffer
      ⟨some "1.0.0", [⟨1, .mbl {}, some "MBL"⟩]⟩ := by decide +kernel
  refine { sample with elements := ?_ }
  intro element listed
  obtain rfl := List.mem_singleton.mp listed
  have record := sample.elements _ (List.mem_singleton.mpr rfl)
  exact ⟨record.wellFormed, record.valueType, record.standard, record.value, record.holds.1,
    unpacks _ _⟩

/-- Once the `sds.` section is stripped, a trailer is there to take off. -/
theorem extract_buried {platform : Platform} (coded : platform.codes.mbl = 1)
    (packs : ∀ collection, platform.packRec collection = bareBuffer)
    (unpacks : ∀ buffer place, platform.unpackMbl buffer place = some table)
    (repackable : Repackable platform table) :
    ∃ extracted, extractPublicationRecordCollection platform
      (wasmHeader ++ ([0, 95, 1, 120] ++ bareBuffer ++ [85, 0, 0, 0, 36, 82, 69, 67])) =
        some extracted := by
  have appended : Transport.appendPublicationRecordCollection (wasmHeader ++ [0, 95, 1, 120])
      bareBuffer = .ok (wasmHeader ++
        ([0, 95, 1, 120] ++ bareBuffer ++ [85, 0, 0, 0, 36, 82, 69, 67])) := by decide +kernel
  have collected : collectionTable platform { mbl := some (.table table) } =
      .ok ⟨some "1.0.0", [⟨1, .mbl table, some "MBL"⟩]⟩ := by
    rw [← coded]
    rfl
  obtain ⟨mbl, enc, collection, packed, found, -⟩ := extract_encoded
    (Checked.map_eq_ok.mpr ⟨_, collected, packs _⟩) (fun collection made => by
      obtain rfl := Except.ok.inj (collected.symm.trans made)
      exact bareBuffer_holds unpacks) appended
  obtain rfl : mbl = some table := (Except.ok.inj packed.bundle).symm
  obtain rfl : enc = none := (Except.ok.inj packed.encryption).symm
  obtain ⟨extracted, present, -⟩ := found (.of_bundle repackable)
  exact ⟨extracted, present⟩

/-- An `sds.` section behind one that ends as a trailer does: once it is stripped, a trailer is
there to take off. -/
theorem strip_uncovers_trailer :
    let platform := practicePlatform bareBuffer practiceBundle
    let module := wasmHeader ++ ([0, 95, 1, 120] ++ bareBuffer ++ [85, 0, 0, 0, 36, 82, 69, 67])
    let bytes := module ++ [0, 6, 5, 115, 100, 115, 46, 97]
    extractPublicationRecordCollection platform bytes = none ∧
      (∃ parsed, parseWasmModuleSections platform bytes = .ok parsed) ∧
      stripWasmCustomSections platform bytes sdsCustomSectionPrefix = .ok module ∧
      stripWasmCustomSections platform module sdsCustomSectionPrefix ≠ .ok module := by
  intro platform module bytes
  obtain ⟨bare, once, chunks, whole⟩ := buried_chunks platform
  refine ⟨bare, ⟨_, parseWasmModuleSections_iff.mpr ⟨_, whole, rfl⟩⟩, once, ?_⟩
  have repackable : Repackable platform.toEngine practiceBundle := by
    refine ⟨nofun, ?_⟩
    rintro entry (_ | ⟨_, ⟨⟩⟩)
    rfl
  obtain ⟨extracted, present⟩ := extract_buried rfl (fun _ => rfl) (fun _ _ => rfl) repackable
  rw [ne_eq, strip_strip_iff once, present]
  nofun

end Practice

end SpaceDataModule.Artifact
