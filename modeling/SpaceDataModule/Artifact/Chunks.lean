import Mathlib.Tactic.IntervalCases
import SpaceDataModule.Artifact.Sections

/-! A module is a header and its sections one behind the other, and the walk finds exactly these:
`Chunk` is a section by itself, wherever it stands. -/
namespace SpaceDataModule.Artifact
open Bundle (Bytes utf8)
open Transport (require_of_true require_eq_ok ok_bind bind_eq_ok decodeText_trim)

section Scans

theorem decodeUnsignedLeb128_ok :
    decodeUnsignedLeb128 bytes = .ok (value, rest) ↔ Leb128.decode 8 bytes = some (value, rest) := by
  rw [decodeUnsignedLeb128]
  cases Leb128.decode 8 bytes with
  | none =>
    split_ifs <;> simp
  | some decoded => simp

theorem decodeUnsignedLeb128_consumes (decoded : decodeUnsignedLeb128 bytes = .ok (value, rest)) :
    ∃ consumed,
      bytes = consumed ++ rest ∧
        ∀ other, decodeUnsignedLeb128 (consumed ++ other) = .ok (value, other) := by
  obtain ⟨consumed, same, -, determined⟩ :=
    Leb128.decode_consumes (decodeUnsignedLeb128_ok.mp decoded)
  exact ⟨consumed, same, fun other => decodeUnsignedLeb128_ok.mpr (determined other)⟩

theorem scanName_append (whole : inside.length = size)
    (scanned : scanName engine payloadStart size (inside ++ rest) = .ok name) (other : Bytes) :
    scanName engine payloadStart size (inside ++ other) = .ok name := by
  simp only [scanName, bind_eq_ok, require_eq_ok] at scanned
  obtain ⟨⟨length, named⟩, decoded, _, fits, made⟩ := scanned
  obtain ⟨consumed, split, determined⟩ := decodeUnsignedLeb128_consumes decoded
  have ends : consumed.length + length ≤ inside.length := by
    simp only [split, List.length_append, decide_eq_true_iff] at fits
    omega
  obtain ⟨text, rfl⟩ : ∃ text, inside = consumed ++ text :=
    (List.prefix_of_prefix_length_le (split ▸ List.prefix_append consumed named)
      (List.prefix_append inside rest) (by omega)).imp fun _ => Eq.symm
  rw [List.append_assoc, List.append_cancel_left_eq] at split
  subst split
  have short : length ≤ text.length := by
    rw [List.length_append] at ends
    omega
  have start (tail : Bytes) : (consumed ++ text ++ tail).length - (text ++ tail).length =
      consumed.length := by
    simp only [List.length_append]
    omega
  rw [start] at fits made
  rw [scanName, List.append_assoc, determined, ok_bind]
  dsimp only
  rw [← List.append_assoc, start, require_of_true fits, List.take_append_of_le_length short]
  rw [List.take_append_of_le_length short] at made
  exact made

theorem scanSection_extent_le {id : UInt8} (scanned : scanSection engine id rest = .ok scan) :
    scan.extent ≤ rest.length := by
  simp only [scanSection, bind_eq_ok, require_eq_ok] at scanned
  obtain ⟨⟨size, payload⟩, decoded, _, fits, name, -, made⟩ := scanned
  obtain ⟨consumed, rfl, -⟩ := decodeUnsignedLeb128_consumes decoded
  cases made
  simp only [decide_eq_true_iff] at fits
  simp only [Scan.extent, List.length_append]
  omega

/-- The bytes of a section decide how it is read, whatever stands behind it. -/
theorem scanSection_append {id : UInt8} (scanned : scanSection engine id (body ++ rest) = .ok scan)
    (exact : scan.extent = body.length) (other : Bytes) :
    scanSection engine id (body ++ other) = .ok scan := by
  simp only [scanSection, bind_eq_ok] at scanned
  obtain ⟨⟨size, payload⟩, decoded, _, -, name, named, made⟩ := scanned
  obtain ⟨consumed, split, determined⟩ := decodeUnsignedLeb128_consumes decoded
  have start (tail : Bytes) : (consumed ++ tail).length - tail.length = consumed.length := by
    rw [List.length_append, Nat.add_sub_cancel]
  rw [split, start] at named made
  cases made
  rw [Scan.extent] at exact
  dsimp only at exact
  obtain ⟨inside, rfl⟩ : ∃ inside, body = consumed ++ inside :=
    (List.prefix_of_prefix_length_le (split ▸ List.prefix_append consumed payload)
      (List.prefix_append body rest) (by omega)).imp fun _ => Eq.symm
  rw [List.append_assoc, List.append_cancel_left_eq] at split
  subst split
  have length : inside.length = size := by
    rw [List.length_append] at exact
    omega
  have renamed : scanOptionalName engine id consumed.length size (inside ++ other) = .ok name := by
    rw [scanOptionalName] at named ⊢
    split_ifs at named ⊢ with custom
    · obtain ⟨found, read, same⟩ := Checked.map_eq_ok.mp named
      exact Checked.map_eq_ok.mpr ⟨found, scanName_append length read _, same⟩
    · exact named
  have fits : decide (size ≤ (inside ++ other).length) = true := by
    rw [decide_eq_true_iff, List.length_append]
    omega
  rw [scanSection, List.append_assoc, determined, ok_bind]
  dsimp only
  rw [require_of_true fits, start, renamed]
  rfl

theorem decodeUnsignedLeb128_encode (small : value < 2 ^ 53) (rest : Bytes) :
    decodeUnsignedLeb128 (Leb128.encode value ++ rest) = .ok (value, rest) :=
  decodeUnsignedLeb128_ok.mpr (Leb128.decode_encode (by omega) (by decide) rest)

/-- The walk reads a section that `encodeWasmCustomSection` wrote. -/
theorem scanSection_encoded (shortName : (utf8 (JavaScript.trim name)).length < 2 ^ 53)
    (short : (Leb128.encode (utf8 (JavaScript.trim name)).length).length +
      (utf8 (JavaScript.trim name)).length + payload.length < 2 ^ 53) :
    let nameBytes := utf8 (JavaScript.trim name)
    let lengthBytes := Leb128.encode nameBytes.length
    let size := lengthBytes.length + nameBytes.length + payload.length
    let sizeBytes := Leb128.encode size
    scanSection engine 0 (sizeBytes ++ (lengthBytes ++ (nameBytes ++ payload))) = .ok
      ⟨sizeBytes.length, size, some ⟨JavaScript.trim name, sizeBytes.length + lengthBytes.length,
        sizeBytes.length + lengthBytes.length + nameBytes.length⟩⟩ := by
  intro nameBytes lengthBytes size sizeBytes
  have start (front back : Bytes) : (front ++ back).length - back.length = front.length := by
    rw [List.length_append, Nat.add_sub_cancel]
  have fits : decide (size ≤ (lengthBytes ++ (nameBytes ++ payload)).length) = true := by
    rw [decide_eq_true_iff, List.length_append, List.length_append, ← Nat.add_assoc]
  have within : decide (sizeBytes.length + lengthBytes.length + nameBytes.length ≤
      sizeBytes.length + size) = true := by
    rw [decide_eq_true_iff]
    omega
  rw [scanSection, decodeUnsignedLeb128_encode short, ok_bind]
  dsimp only
  rw [require_of_true fits, ok_bind, scanOptionalName, scanName,
    decodeUnsignedLeb128_encode shortName, ok_bind]
  dsimp only
  rw [start, start, require_of_true within, List.take_left, decodeText_trim]
  rfl

/-- Where the name of a custom section is read. -/
theorem scanSection_name {id : UInt8} (scanned : scanSection engine id bytes = .ok scan)
    (listed : scan.name = some name) :
    ∃ size payload length named, Leb128.decode 8 bytes = some (size, payload) ∧
      Leb128.decode 8 payload = some (length, named) ∧
        name.text = engine.decodeText (named.take length) := by
  simp only [scanSection, bind_eq_ok] at scanned
  obtain ⟨⟨size, payload⟩, decoded, _, -, found, named, made⟩ := scanned
  cases made
  obtain rfl : found = some name := listed
  rw [scanOptionalName] at named
  split_ifs at named
  · obtain ⟨other, read, ⟨⟩⟩ := Checked.map_eq_ok.mp named
    simp only [scanName, bind_eq_ok] at read
    obtain ⟨⟨length, text⟩, behind, _, -, ⟨⟩⟩ := read
    exact ⟨size, payload, length, text, decodeUnsignedLeb128_ok.mp decoded,
      decodeUnsignedLeb128_ok.mp behind, rfl⟩
  · cases named

end Scans

structure Chunk (engine : Auth.Engine) where
  id : UInt8
  body : Bytes
  scan : Scan
  scanned : scanSection engine id body = .ok scan
  whole : scan.extent = body.length

namespace Chunk

def raw (chunk : Chunk engine) : Bytes := chunk.id :: chunk.body

def flat (chunks : List (Chunk engine)) : Bytes := chunks.flatMap raw

@[simp]
theorem flat_nil : flat ([] : List (Chunk engine)) = [] := rfl

section
variable (chunk : Chunk engine)

@[simp]
theorem flat_cons (chunks : List (Chunk engine)) :
    flat (chunk :: chunks) = chunk.id :: (chunk.body ++ flat chunks) := by
  rfl

@[simp]
theorem flat_append (front back : List (Chunk engine)) :
    flat (front ++ back) = flat front ++ flat back := List.flatMap_append

theorem scan_append (rest : Bytes) :
    scanSection engine chunk.id (chunk.body ++ rest) = .ok chunk.scan := by
  have alone : scanSection engine chunk.id (chunk.body ++ []) = .ok chunk.scan := by
    rw [List.append_nil]
    exact chunk.scanned
  exact scanSection_append alone chunk.whole rest

def placed : Nat → List (Chunk engine) → List WasmSection
  | _, [] => []
  | offset, chunk :: chunks =>
    chunk.scan.section offset chunk.id chunk.body :: placed (offset + chunk.raw.length) chunks

theorem parse_flat (offset : Nat) (chunks : List (Chunk engine)) :
    parseSections engine offset (flat chunks) = .ok (placed offset chunks) := by
  induction chunks generalizing offset with
  | nil => rw [flat_nil, parseSections, placed]
  | cons chunk chunks ih =>
    have listed : chunk.scan.section offset chunk.id (chunk.body ++ flat chunks) =
        chunk.scan.section offset chunk.id chunk.body := by
      simp only [Scan.section, chunk.whole, List.take_left, List.take_length]
    have next : offset + 1 + chunk.scan.extent = offset + chunk.raw.length := by
      rw [raw, List.length_cons, chunk.whole]
      omega
    rw [flat_cons, parseSections, chunk.scan_append, ok_bind, next, chunk.whole, List.drop_left, ih,
      listed]
    rfl

/-- What the walk accepts is made of chunks. -/
theorem of_parse (parsed : parseSections engine offset bytes = .ok sections) :
    ∃ chunks : List (Chunk engine), bytes = flat chunks := by
  induction offset, bytes using parseSections.induct generalizing sections with
  | case1 offset => exact ⟨[], rfl⟩
  | case2 offset id rest ih =>
    rw [parseSections] at parsed
    simp only [bind_eq_ok] at parsed
    obtain ⟨scan, scanned, others, later, -⟩ := parsed
    obtain ⟨chunks, behind⟩ := ih scan later
    have inside := scanSection_extent_le scanned
    have length : (rest.take scan.extent).length = scan.extent := List.length_take_of_le inside
    have alone : scanSection engine id (rest.take scan.extent ++ []) = .ok scan := by
      rw [← List.take_append_drop scan.extent rest] at scanned
      exact scanSection_append scanned length.symm []
    rw [List.append_nil] at alone
    refine ⟨⟨id, rest.take scan.extent, scan, alone, length.symm⟩ :: chunks, ?_⟩
    rw [flat_cons, ← behind, List.take_append_drop]

/-- One list of chunks starts with the other if their bytes do. -/
theorem split_of_flat (same : flat chunks = flat front ++ rest) :
    ∃ back, chunks = front ++ back ∧ rest = flat back := by
  induction front generalizing chunks with
  | nil => exact ⟨chunks, rfl, same.symm⟩
  | cons first front ih =>
    cases chunks with
    | nil => cases same
    | cons chunk chunks =>
      simp only [flat_cons, List.cons_append, List.cons.injEq, List.append_assoc] at same
      obtain ⟨ids, bodies⟩ := same
      have scans : chunk.scan = first.scan := by
        have read := chunk.scan_append (flat chunks)
        rw [ids, bodies, first.scan_append] at read
        exact (Except.ok.inj read).symm
      have length : chunk.body.length = first.body.length := by
        rw [← chunk.whole, ← first.whole, scans]
      obtain ⟨body, later⟩ := List.append_inj bodies length
      obtain ⟨back, rfl, behind⟩ := ih later
      refine ⟨back, ?_, behind⟩
      cases first
      cases ids
      cases body
      cases scans
      rfl

def strippedBy (chunk : Chunk engine) (customSectionPrefix : String) : Bool :=
  chunk.id == 0 && chunk.scan.name.any fun name => startsWith customSectionPrefix name.text

def kept (customSectionPrefix : String) (chunks : List (Chunk engine)) : List (Chunk engine) :=
  chunks.filter fun chunk => !chunk.strippedBy customSectionPrefix

theorem section_raw (offset : Nat) :
    (chunk.scan.section offset chunk.id chunk.body).rawBytes = chunk.raw := by
  rw [Scan.section, chunk.whole, List.take_length]
  rfl

theorem section_stop (offset : Nat) :
    (chunk.scan.section offset chunk.id chunk.body).stop = offset + chunk.raw.length := by
  have length : chunk.raw.length = chunk.body.length + 1 := rfl
  change offset + 1 + chunk.scan.extent = _
  rw [chunk.whole]
  omega

theorem section_strippedBy (offset : Nat) (customSectionPrefix : String) :
    (chunk.scan.section offset chunk.id chunk.body).strippedBy customSectionPrefix =
      chunk.strippedBy customSectionPrefix := by
  rw [strippedBy, Scan.section]
  cases chunk.scan.name with
  | none => rfl
  | some name => rfl

end

theorem flatMap_placed (offset : Nat) (chunks : List (Chunk engine)) :
    (placed offset chunks).flatMap WasmSection.rawBytes = flat chunks := by
  induction chunks generalizing offset with
  | nil => rfl
  | cons chunk chunks ih =>
    rw [placed, List.flatMap_cons, ih, section_raw]
    rfl

/-- The bytes of each section stand where the walk says. -/
theorem placed_slice (front : Bytes) (chunks : List (Chunk engine)) :
    ∀ part ∈ placed front.length chunks,
      ((front ++ flat chunks).drop part.start).take (part.stop - part.start) = part.rawBytes := by
  induction chunks generalizing front with
  | nil => nofun
  | cons chunk chunks ih =>
    rw [placed, List.forall_mem_cons]
    constructor
    · rw [section_raw, section_stop]
      change ((front ++ flat (chunk :: chunks)).drop front.length).take
        (front.length + chunk.raw.length - front.length) = _
      rw [List.drop_left, Nat.add_sub_cancel_left]
      exact List.take_left
    · have behind := ih (front ++ chunk.raw)
      rw [List.length_append, List.append_assoc] at behind
      exact behind

theorem flatMap_kept (customSectionPrefix : String) (offset : Nat)
    (chunks : List (Chunk engine)) :
    ((placed offset chunks).filter fun part =>
      !part.strippedBy customSectionPrefix).flatMap WasmSection.rawBytes =
        flat (kept customSectionPrefix chunks) := by
  induction chunks generalizing offset with
  | nil => rfl
  | cons chunk chunks ih =>
    rw [placed, kept, List.filter_cons, List.filter_cons, section_strippedBy]
    split_ifs
    · rw [List.flatMap_cons, ih, section_raw]
      rfl
    · exact ih _

/-- A boundary between sections is one between chunks. -/
theorem placed_split (split : placed offset chunks = front ++ back) :
    ∃ before behind,
      chunks = before ++ behind ∧ front.flatMap WasmSection.rawBytes = flat before ∧
        back.flatMap WasmSection.rawBytes = flat behind := by
  induction front generalizing offset chunks with
  | nil => exact ⟨[], chunks, rfl, rfl, by rw [← flatMap_placed offset, split, List.nil_append]⟩
  | cons part front ih =>
    cases chunks with
    | nil => cases split
    | cons chunk chunks =>
      rw [placed, List.cons_append, List.cons.injEq] at split
      obtain ⟨rfl, later⟩ := split
      obtain ⟨before, behind, rfl, same, rest⟩ := ih later
      refine ⟨chunk :: before, behind, rfl, ?_, rest⟩
      rw [List.flatMap_cons, same, section_raw]
      rfl

/-- What `encodeWasmCustomSection` makes is a chunk under the trimmed name. -/
theorem of_encoded (engine : Auth.Engine)
    (encoded : encodeWasmCustomSection name payload = .ok bytes) : ∃ chunk : Chunk engine,
      chunk.raw = bytes ∧ chunk.id = 0 ∧
        chunk.scan.name.map SectionName.text = some (JavaScript.trim name) := by
  simp only [encodeWasmCustomSection, encodeUnsignedLeb128, bind_eq_ok, require_eq_ok,
    decide_eq_true_iff] at encoded
  obtain ⟨⟨⟩, -, _, ⟨⟨⟩, shortName, ⟨⟩⟩, _, ⟨⟨⟩, short, ⟨⟩⟩, made⟩ := encoded
  cases made
  refine ⟨⟨0, _, _, scanSection_encoded shortName short, ?_⟩, ?_, rfl, rfl⟩
  · simp only [Scan.extent, List.length_append, Nat.add_assoc]
  · simp only [raw, List.append_assoc]

end Chunk

def Consecutive : Nat → List WasmSection → Nat → Prop
  | start, [], stop => start = stop
  | start, part :: parts, stop => part.start = start ∧ Consecutive part.stop parts stop

theorem Chunk.placed_consecutive (offset : Nat) (chunks : List (Chunk engine)) :
    Consecutive offset (placed offset chunks) (offset + (flat chunks).length) := by
  induction chunks generalizing offset with
  | nil => rfl
  | cons chunk chunks ih =>
    refine ⟨rfl, ?_⟩
    rw [section_stop]
    have behind := ih (offset + chunk.raw.length)
    rw [Nat.add_assoc, ← List.length_append] at behind
    exact behind

section Modules

def wasmHeader : Bytes := wasmMagic ++ wasmVersion1

theorem header_of_checks (checks : [0, 1, 2, 3].forM (checkHeaderByte bytes) = .ok ()) :
    bytes = wasmHeader ++ bytes.drop 8 := by
  have peel {index : Nat} {rest : List Nat}
      (checked : (index :: rest).forM (checkHeaderByte bytes) = .ok ()) :
      (bytes[index]? = wasmMagic[index]? ∧ bytes[index + 4]? = wasmVersion1[index]?) ∧
        rest.forM (checkHeaderByte bytes) = .ok () := by
    change (checkHeaderByte bytes index >>= fun _ => rest.forM (checkHeaderByte bytes)) = _
      at checked
    simp only [checkHeaderByte, bind_eq_ok, require_eq_ok, beq_iff_eq] at checked
    obtain ⟨⟨⟩, ⟨⟨⟩, magic, version⟩, later⟩ := checked
    exact ⟨⟨magic, version⟩, later⟩
  obtain ⟨⟨first, fifth⟩, checks⟩ := peel checks
  obtain ⟨⟨second, sixth⟩, checks⟩ := peel checks
  obtain ⟨⟨third, seventh⟩, checks⟩ := peel checks
  obtain ⟨⟨fourth, eighth⟩, -⟩ := peel checks
  have opening : bytes.take 8 = wasmHeader := by
    apply List.ext_getElem?
    intro index
    by_cases inside : index < 8
    · rw [List.getElem?_take_of_lt inside]
      interval_cases index <;> assumption
    · rw [List.getElem?_eq_none (by simp; omega), List.getElem?_eq_none]
      have length : wasmHeader.length = 8 := rfl
      omega
  rw [← opening, List.take_append_drop]

/-- What the parser accepts: a header and chunks. -/
theorem parseWasmModuleSections_iff :
    parseWasmModuleSections platform bytes = .ok parsed ↔
      ∃ chunks : List (Chunk platform),
        withoutTrailer platform bytes = wasmHeader ++ Chunk.flat chunks ∧
          parsed = ⟨wasmHeader ++ Chunk.flat chunks, wasmHeader, Chunk.placed 8 chunks⟩ := by
  have length : wasmHeader.length = 8 := rfl
  rw [parseWasmModuleSections]
  simp only [bind_eq_ok, require_eq_ok, decide_eq_true_iff]
  constructor
  · rintro ⟨⟨⟩, long, ⟨⟩, checks, sections, walked, made⟩
    have header := header_of_checks checks
    obtain ⟨chunks, behind⟩ := Chunk.of_parse walked
    rw [behind] at header walked
    rw [Chunk.parse_flat] at walked
    cases walked
    cases made
    refine ⟨chunks, header, ?_⟩
    rw [header, List.take_left' length]
  · rintro ⟨chunks, whole, rfl⟩
    rw [whole]
    refine ⟨(), ?_, (), rfl, Chunk.placed 8 chunks, ?_, ?_⟩
    · rw [List.length_append]
      omega
    · rw [List.drop_left' length, Chunk.parse_flat]
    · rfl

/-- What stripping leaves: the header and the chunks that are kept. -/
theorem stripWasmCustomSections_iff :
    stripWasmCustomSections platform bytes customSectionPrefix = .ok out ↔
      ∃ chunks : List (Chunk platform),
        withoutTrailer platform bytes = wasmHeader ++ Chunk.flat chunks ∧
          out = wasmHeader ++ Chunk.flat (Chunk.kept customSectionPrefix chunks) := by
  have stripped (chunks : List (Chunk platform)) :
      ((Chunk.placed 8 chunks).filter fun part =>
        !part.strippedBy customSectionPrefix).flatMap (fun part =>
          ((wasmHeader ++ Chunk.flat chunks).drop part.start).take (part.stop - part.start)) =
        Chunk.flat (Chunk.kept customSectionPrefix chunks) := by
    rw [← Chunk.flatMap_kept customSectionPrefix 8]
    apply List.flatMap_congr
    intro part listed
    exact Chunk.placed_slice wasmHeader chunks part (List.mem_of_mem_filter listed)
  rw [stripWasmCustomSections]
  simp only [bind_eq_ok, parseWasmModuleSections_iff]
  constructor
  · rintro ⟨parsed, ⟨chunks, whole, rfl⟩, made⟩
    refine ⟨chunks, whole, ?_⟩
    rw [stripped] at made
    exact (Except.ok.inj made).symm
  · rintro ⟨chunks, whole, rfl⟩
    refine ⟨_, ⟨chunks, whole, rfl⟩, ?_⟩
    rw [stripped]
    rfl

end Modules

end SpaceDataModule.Artifact
