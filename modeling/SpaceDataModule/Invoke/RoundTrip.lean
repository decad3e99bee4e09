import SpaceDataModule.ArenaLayout
import SpaceDataModule.Invoke.Codec

/-! What an encoder packs into an arena of its own, the decoder gives back: frames in their order,
each with its bytes, on ranges of the arena that do not overlap. -/
namespace SpaceDataModule.Invoke
open Checked

open ArenaLayout (Extent fill)

section Numbers
variable {read : Nat}

theorem readBoundedInteger_nat (bounded : read ≤ maximum) :
    readBoundedInteger description defaultValue maximum (some (.finite read)) = .ok read := by
  have fits : (read : ℚ).den = 1 ∧ 0 ≤ (read : ℚ).num ∧ (read : ℚ).num ≤ maximum := by
    exact ⟨Rat.den_natCast read, Int.natCast_nonneg read, Int.ofNat_le.mpr bounded⟩
  rw [readBoundedInteger, if_pos fits, Rat.num_natCast, Int.toNat_natCast]

/-- A number that is read is the one that was given, or the default. -/
theorem readBoundedInteger_ok
    (ok : readBoundedInteger description defaultValue maximum value = .ok read) :
    (value = none ∧ defaultValue = some read) ∨ (value = some (.finite read) ∧ read ≤ maximum) := by
  match value with
  | none =>
    cases defaultValue with
    | none => nomatch ok
    | some default => exact .inl ⟨rfl, congrArg some (Except.ok.inj ok)⟩
  | some (.finite given) =>
    rw [readBoundedInteger] at ok
    split_ifs at ok with fits
    obtain ⟨whole, positive, bounded⟩ := fits
    have value : given.num.toNat = read := Except.ok.inj ok
    have same : given = read := by
      rw [← Rat.num_div_den given, whole, ← value, Nat.cast_one, div_one]
      exact_mod_cast (Int.toNat_of_nonneg positive).symm
    exact .inr ⟨by rw [same], by omega⟩
  | some .nan | some (.infinity _) => nomatch ok

theorem readAlignment_nat (bounded : read ≤ maximum) (power : isPositivePowerOfTwo read = true) :
    readAlignment description defaultValue maximum (some (.finite read)) = .ok read := by
  rw [readAlignment, readBoundedInteger_nat bounded, ok_bind, require_of_true power]
  rfl

theorem readAlignment_ok (ok : readAlignment description defaultValue maximum value = .ok read) :
    isPositivePowerOfTwo read = true ∧
      ((value = none ∧ defaultValue = some read) ∨
        (value = some (.finite read) ∧ read ≤ maximum)) := by
  simp only [readAlignment, bind_eq_ok, require_eq_ok] at ok
  obtain ⟨_, bounded, _, power, ⟨⟩⟩ := ok
  exact ⟨power, readBoundedInteger_ok bounded⟩

theorem isPositivePowerOfTwo_pos (power : isPositivePowerOfTwo read = true) : 0 < read := by
  rw [isPositivePowerOfTwo, beq_iff_eq] at power
  rw [← power]
  exact Nat.two_pow_pos _

/-- Of two powers the smaller one divides the other. -/
theorem isPositivePowerOfTwo_dvd (small : isPositivePowerOfTwo first = true)
    (large : isPositivePowerOfTwo second = true) (ordered : first ≤ second) : first ∣ second := by
  rw [isPositivePowerOfTwo, beq_iff_eq] at small large
  rw [← small, ← large] at ordered ⊢
  exact (Nat.pow_dvd_pow_iff_le_right (by decide)).mpr
    ((Nat.pow_le_pow_iff_right (by decide)).mp ordered)

theorem alignOffset_spec {offset alignment : Nat} (positive : 0 < alignment) :
    offset ≤ alignOffset offset alignment ∧ alignment ∣ alignOffset offset alignment := by
  rw [alignOffset]
  split_ifs with one aligned
  · obtain rfl : alignment = 1 := by omega
    exact ⟨le_rfl, one_dvd offset⟩
  · exact ⟨le_rfl, Nat.dvd_of_mod_eq_zero aligned⟩
  · have below := Nat.mod_lt offset positive
    have next : offset + alignment - offset % alignment = alignment * (offset / alignment + 1) := by
      have split := Nat.div_add_mod offset alignment
      rw [Nat.mul_add]
      omega
    exact ⟨by omega, ⟨_, next⟩⟩

end Numbers

section Types

/-- A type the envelope can hold and the decoder takes. -/
structure TypeRefTable.Sound (typeRef : TypeRefTable) (format : WireFormat) : Prop where
  wireFormat : typeRef.wireFormat = format.sds
  fixedStringLength : typeRef.fixedStringLength ≤ uint16Max
  byteLength : typeRef.byteLength ≤ uint32Max
  requiredAlignment : typeRef.requiredAlignment ≤ uint16Max
  power : (format = .flatbuffer ∧ typeRef.requiredAlignment = 0) ∨
    isPositivePowerOfTwo typeRef.requiredAlignment = true

theorem normalizePayloadWireFormat_name (wireFormat : WireFormat) :
    normalizePayloadWireFormat (some (.name wireFormat.name)) = .ok wireFormat := by
  cases wireFormat with
  | flatbuffer => decide +kernel
  | alignedBinary => decide +kernel

theorem fromSdsWireFormat_sds (wireFormat : WireFormat) :
    fromSdsWireFormat wireFormat.sds = .ok wireFormat := by
  cases wireFormat <;> rfl

theorem fromSdsMutability_sds (mutability : Mutability) :
    fromSdsMutability mutability.sds = .ok mutability := by
  cases mutability <;> rfl

theorem fromSdsOwnership_sds (ownership : Ownership) :
    fromSdsOwnership ownership.sds = .ok ownership := by
  cases ownership <;> rfl

/-- A format the type declares is the one of the frame. -/
theorem frameWireFormat_ok (ok : frameWireFormat frame = .ok wireFormat) :
    normalizePayloadWireFormat ((frame.typeRef.bind (·.wireFormat)).or frame.wireFormat) =
      .ok wireFormat := by
  rw [frameWireFormat, bind_eq_ok] at ok
  obtain ⟨found, normalized, ok⟩ := ok
  suffices found = wireFormat from this ▸ normalized
  split at ok
  · simp only [bind_eq_ok] at ok
    obtain ⟨_, _, _, _, _, _, ⟨⟩⟩ := ok
    rfl
  · exact Except.ok.inj ok

theorem readBoundedInteger_le {default maximum read : Nat} (bounded : default ≤ maximum)
    (ok : readBoundedInteger description (some default) maximum value = .ok read) :
    read ≤ maximum := by
  rcases readBoundedInteger_ok ok with ⟨_, same⟩ | ⟨_, below⟩
  · exact Option.some.inj same ▸ bounded
  · exact below

theorem checkedTypeRef_ok (ok : checkedTypeRef typeRef wireFormat = .ok checked) :
    checked = typeRef ∧ ((wireFormat = .flatbuffer ∧ typeRef.requiredAlignment = 0) ∨
      isPositivePowerOfTwo typeRef.requiredAlignment = true) := by
  cases wireFormat with
  | alignedBinary =>
    simp only [checkedTypeRef, bind_eq_ok] at ok
    obtain ⟨required, aligned, ⟨⟩⟩ := ok
    obtain ⟨power, ⟨absent, _⟩ | ⟨same, _⟩⟩ := readAlignment_ok aligned
    · cases absent
    · have kept : typeRef.requiredAlignment = required := by
        simpa using same
      exact ⟨by rw [← kept], .inr (kept ▸ power)⟩
  | flatbuffer =>
    simp only [checkedTypeRef, bind_eq_ok, require_eq_ok, Bool.or_eq_true, beq_iff_eq] at ok
    obtain ⟨_, declared, ⟨⟩⟩ := ok
    exact ⟨rfl, declared.imp_left fun none => ⟨rfl, none⟩⟩

theorem normalizeFrameTypeRef_ok (ok : normalizeFrameTypeRef frame = .ok (typeRef, wireFormat)) :
    frameWireFormat frame = .ok wireFormat ∧ typeRef.Sound wireFormat := by
  simp only [normalizeFrameTypeRef, bind_eq_ok] at ok
  obtain ⟨_, format, table, built, checked, passed, ⟨⟩⟩ := ok
  obtain ⟨same, power⟩ := checkedTypeRef_ok passed
  subst same
  simp only [toSdsFlatBufferTypeRefT, bind_eq_ok] at built
  obtain ⟨_, _, _, typed, _, fixed, _, length, _, required, ⟨⟩⟩ := built
  refine ⟨format, ⟨?_, readBoundedInteger_le (Nat.zero_le _) fixed,
    readBoundedInteger_le (Nat.zero_le _) length, readBoundedInteger_le (Nat.zero_le _) required,
    power⟩⟩
  have declared : normalizePayloadWireFormat
      ((frame.typeRef.getD {}).wireFormat.or (some (.name wireFormat.name))) = .ok wireFormat := by
    have whole := frameWireFormat_ok format
    cases given : (frame.typeRef.getD {}).wireFormat with
    | none => exact normalizePayloadWireFormat_name wireFormat
    | some tag =>
      cases type : frame.typeRef with
      | none =>
        rw [type] at given
        cases given
      | some own =>
        rw [type, Option.getD_some] at given
        rw [type, Option.bind_some, given] at whole
        exact whole
  rw [toSdsWireFormat, declared] at typed
  exact (Except.ok.inj typed).symm

/-- A type the encoder made is read back, with the same format. -/
theorem decodeSdsTypeRef_of_sound (sound : typeRef.Sound wireFormat) :
    ∃ decoded, decodeSdsTypeRef typeRef = .ok (decoded, wireFormat) := by
  simp only [decodeSdsTypeRef, sound.wireFormat, fromSdsWireFormat_sds,
    readBoundedInteger_nat sound.fixedStringLength, readBoundedInteger_nat sound.byteLength,
    readBoundedInteger_nat sound.requiredAlignment]
  exact ⟨_, rfl⟩

end Types

section Tables

/-- A table of an internal arena, as the decoder takes it. -/
structure Tab.Sound (tab : Tab) (format : WireFormat) : Prop where
  wireFormat : tab.wireFormat = format.sds
  typeRef : ∃ typeRef, tab.typeRef = some typeRef ∧ typeRef.Sound format ∧
    typeRef.requiredAlignment ≤ tab.alignment ∧
    (format = .alignedBinary → typeRef.byteLength = 0 ∨ tab.size = typeRef.byteLength)
  alignment : tab.alignment ≤ uint32Max
  power : isPositivePowerOfTwo tab.alignment = true
  mutability : ∃ mutability : Mutability, tab.mutability = mutability.sds
  ownership : ∃ ownership : Ownership, tab.ownership = ownership.sds
  range : tab.offset + tab.size ≤ uint32Max
  frameId : tab.frameId < 2 ^ 64

structure Reads (tab : Tab) (format : WireFormat) (decoded : Frame) : Prop where
  portId : decoded.portId = tab.portId
  alignment : decoded.alignment = some (.finite tab.alignment)
  offset : decoded.offset = some (.finite tab.offset)
  size : decoded.size = some (.finite tab.size)
  wireFormat : decoded.wireFormat = some (.name format.name)
  sequence : decoded.sequence = some (.bigint (decodeSdsFrameId tab.frameId).1)
  endOfStream : decoded.endOfStream = some (decodeSdsFrameId tab.frameId).2

theorem validateDecodedFrameContract_of_sound (sound : tab.Sound format) :
    validateDecodedFrameContract tab format (some format) = .ok () := by
  obtain ⟨typeRef, typed, soundType, below, sized⟩ := sound.typeRef
  have required : requiredAlignmentOf (some typeRef) = typeRef.requiredAlignment := rfl
  simp only [validateDecodedFrameContract, bind_eq_ok, require_eq_ok, typed, required]
  refine ⟨⟨⟩, by simp, ⟨⟩, ?_, ⟨⟩, by simpa using below, ⟨⟩, by simp, ⟨⟩, ?_, ?_⟩
  · rcases soundType.power with ⟨_, none⟩ | power
    · simp [none]
    · simp [power]
  · rcases soundType.power with ⟨flat, _⟩ | power
    · simp [flat]
    · simp [power]
  · cases format with
    | flatbuffer => rfl
    | alignedBinary => simpa using sized rfl

theorem decodeSdsTabFrame_of_sound (sound : tab.Sound format) :
    ∃ decoded, decodeSdsTabFrame tab = .ok decoded ∧ Reads tab format decoded := by
  obtain ⟨typeRef, typed, soundType, _⟩ := sound.typeRef
  obtain ⟨mutability, access⟩ := sound.mutability
  obtain ⟨ownership, owner⟩ := sound.ownership
  obtain ⟨decodedType, readType⟩ := decodeSdsTypeRef_of_sound soundType
  have types : tab.typeRef.mapM decodeSdsTypeRef = .ok (some (decodedType, format)) := by
    rw [typed]
    change some <$> decodeSdsTypeRef typeRef = _
    rw [readType]
    rfl
  have formatOf : fromSdsWireFormat tab.wireFormat = .ok format := by
    rw [sound.wireFormat, fromSdsWireFormat_sds]
  have ownerOf : fromSdsOwnership tab.ownership = .ok ownership := by
    rw [owner, fromSdsOwnership_sds]
  have accessOf : fromSdsMutability tab.mutability = .ok mutability := by
    rw [access, fromSdsMutability_sds]
  simp only [decodeSdsTabFrame, bind_eq_ok]
  refine ⟨_, ⟨_, readAlignment_nat sound.alignment sound.power, _, formatOf, _, types, _, ownerOf,
    _, accessOf, ⟨⟩, validateDecodedFrameContract_of_sound sound, rfl⟩, ?_⟩
  exact ⟨rfl, rfl, rfl, rfl, rfl, rfl, rfl⟩

structure Writes (frame : Frame) (format : WireFormat) (packed : Packed) : Prop where
  payload : packed.payload = (frame.payload.map View.bytes).getD []
  size : packed.tab.size = packed.payload.length
  format : frameWireFormat frame = .ok format
  portId : packed.tab.portId = frame.portId
  alignment : ∀ declared, frame.alignment = some declared → declared = .finite packed.tab.alignment
  frameId : packed.tab.frameId = toUint64 (encodeSdsFrameId frame)

theorem resolveFrameAlignment_ok {required alignment : Nat} (bounded : required ≤ uint16Max)
    (ok : resolveFrameAlignment frame required = .ok alignment) :
    isPositivePowerOfTwo alignment = true ∧ alignment ≤ uint32Max ∧ required ≤ alignment ∧
      ∀ declared, frame.alignment = some declared → declared = .finite alignment := by
  simp only [resolveFrameAlignment, bind_eq_ok, require_eq_ok] at ok
  obtain ⟨_, aligned, _, below, ⟨⟩⟩ := ok
  obtain ⟨power, ⟨absent, default⟩ | ⟨given, bound⟩⟩ := readAlignment_ok aligned
  · refine ⟨power, ?_, of_decide_eq_true below, fun declared present => ?_⟩
    · rw [← Option.some.inj default]
      exact max_le (by decide) (bounded.trans (by decide))
    · rw [absent] at present
      cases present
  · refine ⟨power, bound, of_decide_eq_true below, fun declared present => ?_⟩
    exact Option.some.inj (present.symm.trans given)

theorem tabOf_ok {offset : Int} (ok : tabOf frame offset size alignment format typeRef = .ok tab) :
    ∃ (mutability : Mutability) (ownership : Ownership), tab = {
      offset := toUint32 offset
      size := size
      alignment := alignment
      wireFormat := format.sds
      typeRef := some typeRef
      mutability := mutability.sds
      ownership := ownership.sds
      frameId := toUint64 (encodeSdsFrameId frame)
      portId := frame.portId } := by
  simp only [tabOf, toSdsMutability, toSdsOwnership, bind_eq_ok, Checked.map_eq_ok] at ok
  obtain ⟨_, ⟨mutability, -, rfl⟩, _, ⟨ownership, -, rfl⟩, ⟨⟩⟩ := ok
  exact ⟨mutability, ownership, rfl⟩

theorem toUint32_natCast {value : Nat} (bounded : value ≤ uint32Max) : toUint32 value = value := by
  rw [uint32Max] at bounded
  rw [toUint32]
  omega

theorem toUint64_lt (value : Int) : toUint64 value < 2 ^ 64 := by
  rw [toUint64]
  omega

/-- A frame that is packed has a sound table, behind the offset and aligned. -/
theorem normalizeSdsArenaFrame_ok {state : State}
    (ok : normalizeSdsArenaFrame state frame offset = .ok packed) :
    (∃ format, Writes frame format packed ∧ packed.tab.Sound format) ∧
      offset ≤ packed.tab.offset ∧ packed.tab.alignment ∣ packed.tab.offset := by
  simp only [normalizeSdsArenaFrame, bind_eq_ok] at ok
  obtain ⟨_, _, ⟨typeRef, format⟩, typed, alignment, resolved, _, sized, _, ranged, tab, built,
    ⟨⟩⟩ := ok
  obtain ⟨declared, sound⟩ := normalizeFrameTypeRef_ok typed
  obtain ⟨power, bounded, below, given⟩ := resolveFrameAlignment_ok sound.requiredAlignment resolved
  obtain ⟨mutability, ownership, rfl⟩ := tabOf_ok built
  rw [assertAlignedFrameSize, require_eq_ok] at sized
  rw [assertUint32FrameRange, require_eq_ok, decide_eq_true_eq] at ranged
  have range : alignOffset offset alignment + ((frame.payload.map View.bytes).getD []).length ≤
      uint32Max := by exact_mod_cast ranged
  have stored := toUint32_natCast (Nat.le_of_add_right_le range)
  obtain ⟨behind, aligned⟩ := @alignOffset_spec offset alignment (isPositivePowerOfTwo_pos power)
  refine ⟨⟨format, ⟨rfl, rfl, declared, rfl, given, rfl⟩, ?_⟩, ?_, ?_⟩
  · refine ⟨rfl, ⟨typeRef, rfl, sound, below, fun binary => ?_⟩, bounded, power, ⟨mutability, rfl⟩,
      ⟨ownership, rfl⟩, stored.symm ▸ range, toUint64_lt _⟩
    simpa [binary] using sized
  · exact stored.symm ▸ behind
  · exact stored.symm ▸ aligned

end Tables

section Arenas

def Tab.extent (tab : Tab) : Extent := ⟨tab.offset, tab.size, tab.alignment⟩

def PackedFrom (frame : Frame) (packed : Packed) : Prop :=
  ∃ format, Writes frame format packed ∧ packed.tab.Sound format

theorem packFrames_ok (ok : packFrames state offset frames = .ok packed) :
    List.Forall₂ PackedFrom frames packed ∧ ArenaLayout.Packed offset (packed.map (·.tab.extent))
      ((packed.getLast?.map fun last => last.tab.offset + last.tab.size).getD offset) := by
  induction frames generalizing offset packed with
  | nil =>
    cases ok
    exact ⟨.nil, .nil offset⟩
  | cons frame frames ih =>
    simp only [packFrames, bind_eq_ok] at ok
    obtain ⟨first, normalized, rest, later, ⟨⟩⟩ := ok
    obtain ⟨made, behind, aligned⟩ := normalizeSdsArenaFrame_ok normalized
    obtain ⟨related, layout⟩ := ih later
    refine ⟨.cons made related, .cons behind aligned ?_⟩
    rw [List.getLast?_cons]
    cases last : rest.getLast? with
    | none =>
      rw [last] at layout
      exact layout
    | some item =>
      rw [last] at layout
      exact layout

theorem arenaAlignment_spec (powers : ∀ tab ∈ tabs, isPositivePowerOfTwo tab.alignment = true) :
    isPositivePowerOfTwo (arenaAlignment tabs) = true ∧
      ∀ tab ∈ tabs, tab.alignment ≤ arenaAlignment tabs := by
  -- the largest alignment so far is a power of two and never gets smaller
  have general (first : Nat) (power : isPositivePowerOfTwo first = true) :
      isPositivePowerOfTwo (tabs.foldl (fun most tab => max most tab.alignment) first) = true ∧
        first ≤ tabs.foldl (fun most tab => max most tab.alignment) first ∧
        ∀ tab ∈ tabs, tab.alignment ≤ tabs.foldl (fun most tab => max most tab.alignment) first := by
    induction tabs generalizing first with
    | nil => exact ⟨power, le_rfl, nofun⟩
    | cons tab tabs ih =>
      obtain ⟨here, later⟩ := List.forall_mem_cons.mp powers
      have next : isPositivePowerOfTwo (max first tab.alignment) = true := by
        rcases max_choice first tab.alignment with same | same
        · rwa [same]
        · rwa [same]
      obtain ⟨whole, grows, most⟩ := ih later _ next
      exact ⟨whole, (le_max_left _ _).trans grows,
        List.forall_mem_cons.mpr ⟨(le_max_right _ _).trans grows, most⟩⟩
  obtain ⟨power, _, most⟩ := general invokeArenaAlignment rfl
  exact ⟨power, most⟩

structure Holds (frames : List Frame) (packed : List Packed) (arena : Arena) : Prop where
  related : List.Forall₂ PackedFrom frames packed
  tabs : arena.frames = packed.map (·.tab)
  layout : ArenaLayout.Packed 0 (arena.frames.map Tab.extent) arena.arena.length
  bytes : ∀ item ∈ packed, ByteFiles.readAt arena.arena item.tab.offset item.tab.size = item.payload
  aligned : ∀ tab ∈ arena.frames, tab.alignment ∣ arena.alignment

theorem packed_sound (related : List.Forall₂ PackedFrom frames packed) (item : Packed)
    (listed : item ∈ packed) :
    item.tab.size = item.payload.length ∧ ∃ format, item.tab.Sound format := by
  obtain ⟨_, _, format, writes, sound⟩ := forall₂_mem_right related listed
  exact ⟨writes.size, format, sound⟩

theorem packArenaFrames_ok (ok : packArenaFrames state frames = .ok arena) :
    ∃ packed, Holds frames packed arena := by
  simp only [packArenaFrames, bind_eq_ok] at ok
  obtain ⟨packed, done, ⟨⟩⟩ := ok
  obtain ⟨related, layout⟩ := packFrames_ok done
  have sound := packed_sound related
  have filled : packed.foldl (fun arena frame =>
      ByteFiles.writeAt arena frame.tab.offset frame.payload)
        (List.replicate (arenaLength packed) 0) =
      fill (List.replicate (arenaLength packed) 0)
        (packed.map fun item => (item.tab.offset, item.payload)) := by
    rw [fill, List.foldl_map]
  -- every block lies below the end of the last frame
  have fits : ∀ block ∈ packed.map fun item => (item.tab.offset, item.payload),
      block.1 + block.2.length ≤ (List.replicate (arenaLength packed) (0 : UInt8)).length := by
    intro block listed
    obtain ⟨item, member, rfl⟩ := List.mem_map.mp listed
    rw [List.length_replicate, ← (sound item member).1]
    exact (layout.within item.tab.extent (List.mem_map_of_mem member)).2
  have apart : (packed.map fun item => (item.tab.offset, item.payload)).Pairwise
      fun first second => first.1 + first.2.length ≤ second.1 := by
    have disjoint := layout.disjoint
    rw [List.pairwise_map] at disjoint ⊢
    refine disjoint.imp_of_mem fun {first second} member _ before => ?_
    rw [← (sound first member).1]
    exact before
  refine ⟨packed, related, rfl, ?_, ?_, ?_⟩
  · rw [filled, ArenaLayout.length_fill fits, List.length_replicate, List.map_map]
    exact layout
  · intro item member
    rw [filled, (sound item member).1]
    exact ArenaLayout.readAt_fill fits apart (item.tab.offset, item.payload)
      (List.mem_map_of_mem member)
  · have powers : ∀ tab ∈ packed.map (·.tab), isPositivePowerOfTwo tab.alignment = true := by
      intro tab listed
      obtain ⟨item, member, rfl⟩ := List.mem_map.mp listed
      obtain ⟨_, format, soundTab⟩ := sound item member
      exact soundTab.power
    obtain ⟨power, most⟩ := arenaAlignment_spec powers
    exact fun tab listed => isPositivePowerOfTwo_dvd (powers tab listed) power (most tab listed)

end Arenas

section Laws

structure Tab.Storable (tab : Tab) : Prop where
  offset : tab.offset ≤ uint32Max
  size : tab.size ≤ uint32Max
  alignment : tab.alignment ≤ uint32Max
  wireFormat : tab.wireFormat < 2 ^ 8
  mutability : tab.mutability < 2 ^ 8
  ownership : tab.ownership < 2 ^ 8
  frameId : tab.frameId < 2 ^ 64
  typeRef : ∀ typeRef ∈ tab.typeRef, typeRef.wireFormat < 2 ^ 8 ∧
    typeRef.fixedStringLength ≤ uint16Max ∧ typeRef.byteLength ≤ uint32Max ∧
    typeRef.requiredAlignment ≤ uint16Max

/-- FlatBuffers encodes faithfully: what is read from a finished buffer is what was put into it. -/
def Flatbuffers.Faithful (fb : Flatbuffers) : Prop :=
  ∀ (envelope : Envelope) (alignment : Nat) (bytes : View),
    fb.finish envelope alignment = some bytes → (∀ tab ∈ envelope.frames, tab.Storable) →
      ∃ root, fb.read bytes = some root ∧ root.header.isRequest = envelope.header.isRequest ∧
        root.frames = envelope.frames ∧ root.arena.bytes = envelope.payloadArena

theorem Tab.Sound.storable {tab : Tab} (sound : tab.Sound format) : tab.Storable := by
  obtain ⟨typeRef, typed, soundType, _⟩ := sound.typeRef
  obtain ⟨mutability, access⟩ := sound.mutability
  obtain ⟨ownership, owner⟩ := sound.ownership
  have code (format : WireFormat) : format.sds < 2 ^ 8 := by cases format <;> decide
  have range := sound.range
  refine ⟨by omega, by omega, sound.alignment, sound.wireFormat ▸ code format, ?_, ?_,
    sound.frameId, ?_⟩
  · rw [access]
    cases mutability <;> decide
  · rw [owner]
    cases ownership <;> decide
  · intro other present
    obtain rfl : typeRef = other := Option.some.inj (typed.symm.trans present)
    exact ⟨soundType.wireFormat ▸ code format, soundType.fixedStringLength, soundType.byteLength,
      soundType.requiredAlignment⟩

end Laws

section Decoders
variable {arena : View} {options : DecodeOptions}

/-- The bytes of a table inside the arena, whichever arena they are taken from. -/
theorem materializedPayload_of_within (within : tab.offset + tab.size ≤ arena.byteLength)
    (aligned : arena.byteLength = 0 ∨ tab.alignment ∣ arena.byteOffset + tab.offset) :
    ∃ view, materializedPayload tab arena options = .ok view ∧
      view.bytes = ByteFiles.readAt arena.bytes tab.offset tab.size := by
  rw [materializedPayload.eq_def, sourceArena]
  by_cases filled : arena.byteLength > 0
  · rw [if_pos filled]
    have even : (tab.alignment ≤ 1 || tab.size == 0 ||
        (arena.byteOffset + tab.offset) % tab.alignment == 0) = true := by
      rcases aligned with empty | divides
      · omega
      · simp [Nat.mod_eq_zero_of_dvd divides]
    refine ⟨arena.subarray tab.offset (tab.offset + tab.size), ?_, ?_⟩
    · dsimp only
      rw [require_of_true (decide_eq_true within), require_of_true even]
      rfl
    · rw [View.subarray, Nat.add_sub_cancel_left]
      rfl
  · -- an empty arena holds empty ranges only, so an arena of the host gives no bytes either
    have nothing : tab.size = 0 := by omega
    have first : tab.offset = 0 := by omega
    rw [if_neg filled, nothing, first]
    cases options.externalArena with
    | none => exact ⟨⟨0, 0, []⟩, rfl, rfl⟩
    | some external =>
      refine ⟨external.subarray 0 0, ?_, rfl⟩
      dsimp only
      rw [require_of_true (by simp), require_of_true (by simp)]
      rfl

structure Materialized (arena : View) (tab : Tab) (format : WireFormat) (decoded : Frame) : Prop
    extends Reads tab format decoded where
  payload : decoded.payload.map View.bytes = some (ByteFiles.readAt arena.bytes tab.offset tab.size)

theorem materializeSdsArenaFrame_of_reads (reads : Reads tab format decoded)
    (sound : tab.Sound format) (within : tab.offset + tab.size ≤ arena.byteLength)
    (aligned : arena.byteLength = 0 ∨ tab.alignment ∣ arena.byteOffset + tab.offset) :
    ∃ result, materializeSdsArenaFrame arena options lease generation (tab, decoded) = .ok result ∧
      Materialized arena tab format result := by
  obtain ⟨view, taken, bytes⟩ := @materializedPayload_of_within arena options tab within aligned
  have range : decide ((tab.offset : Int) + tab.size ≤ uint32Max) = true := by
    have bound := sound.range
    exact decide_eq_true (by exact_mod_cast bound)
  simp only [materializeSdsArenaFrame, assertUint32FrameRange, bind_eq_ok, require_eq_ok]
  refine ⟨_, ⟨⟨⟩, range, view, taken, rfl⟩, ?_⟩
  exact { reads with payload := congrArg some bytes }

/-- Every frame of an internal arena is decoded, whatever lease it is put under. -/
theorem decodeEnvelope_of_sound (sound : ∀ tab ∈ root.frames, ∃ format, tab.Sound format)
    (within : ∀ tab ∈ root.frames, tab.offset + tab.size ≤ root.arena.byteLength)
    (aligned : root.arena.byteLength = 0 ∨
      ∀ tab ∈ root.frames, tab.alignment ∣ root.arena.byteOffset + tab.offset) :
    ∃ decoded after, decodeEnvelope state root ⟨external, none⟩ = .ok (decoded, after) ∧
      List.Forall₂ (fun tab frame => ∃ format, tab.Sound format ∧
        Materialized root.arena tab format frame) root.frames decoded.frames := by
  let source := (sourceArena root.arena ⟨external, none⟩).getD root.arena
  let after : State := { state with leases := state.leases ++ [⟨source, 1, false⟩] }
  have leased : resolveDecodedArenaLease state root.arena ⟨external, none⟩ =
      .ok (state.leases.length, after) := rfl
  have found : requireArenaLeaseState after state.leases.length = .ok ⟨source, 1, false⟩ := by
    rw [requireArenaLeaseState, List.getElem?_concat_length]
  have step (tab : Tab) (listed : tab ∈ root.frames) : ∃ middle result,
      (decodeSdsTabFrame tab).map (fun frame => (tab, frame)) = .ok middle ∧
      materializeSdsArenaFrame root.arena ⟨external, none⟩ state.leases.length 1 middle =
        .ok result ∧ ∃ format, tab.Sound format ∧ Materialized root.arena tab format result := by
    obtain ⟨format, soundTab⟩ := sound tab listed
    obtain ⟨frame, decoded, reads⟩ := decodeSdsTabFrame_of_sound soundTab
    obtain ⟨result, made, materialized⟩ := materializeSdsArenaFrame_of_reads reads soundTab
      (within tab listed) (aligned.imp_right fun all => all tab listed)
    exact ⟨(tab, frame), result, by rw [decoded]; rfl, made, format, soundTab, materialized⟩
  obtain ⟨middles, results, decoded, materialized, related⟩ := mapM_mapM_ok step
  refine ⟨⟨root.header, results, root.arena, state.leases.length⟩, after, ?_, related⟩
  rw [decodeEnvelope, decoded, ok_bind, leased, ok_bind]
  dsimp only
  rw [found, ok_bind, materialized]
  rfl

end Decoders

section Envelopes

/-- A sequence below `2 ^ 63` and a flag. -/
structure Frame.GivesStream (frame : Frame) : Prop where
  sequence : frame.sequence.isSome
  nonneg : 0 ≤ normalizeBigInt frame.sequence
  bounded : normalizeBigInt frame.sequence < 2 ^ 63
  endOfStream : frame.endOfStream.isSome

/-- An id that is given as well is the one of the sequence and the flag. -/
def Frame.IdAgrees (frame : Frame) : Prop :=
  ∀ id, frame.frameId = some id → (toUint64 (normalizeBigInt (some id)) : Int) =
    2 * normalizeBigInt frame.sequence + if frame.endOfStream = some true then 1 else 0

structure Returned (frame decoded : Frame) : Prop where
  portId : decoded.portId = frame.portId
  payload : decoded.payload.map View.bytes = some ((frame.payload.map View.bytes).getD [])
  alignment : ∀ declared, frame.alignment = some declared → decoded.alignment = some declared
  wireFormat : ∃ format, frameWireFormat frame = .ok format ∧
    decoded.wireFormat = some (.name format.name)

def SameStream (frame decoded : Frame) : Prop :=
  decoded.sequence = some (.bigint (normalizeBigInt frame.sequence)) ∧
    decoded.endOfStream = frame.endOfStream

/-- The ranges of the tables lie apart inside the arena, each on a multiple of its alignment. -/
structure LaidOut (tabs : List Tab) (length : Nat) : Prop where
  within : ∀ tab ∈ tabs, tab.offset + tab.size ≤ length
  disjoint : tabs.Pairwise fun first second => first.offset + first.size ≤ second.offset
  aligned : ∀ tab ∈ tabs, tab.alignment ∣ tab.offset

def PlacedAt (tab : Tab) (decoded : Frame) : Prop :=
  decoded.offset = some (.finite tab.offset) ∧ decoded.size = some (.finite tab.size) ∧
    decoded.alignment = some (.finite tab.alignment)

/-- The frames come back from the bytes in their order. -/
structure RoundTrip (fb : Flatbuffers) (frames : List Frame) (bytes : View) (decoded : Decoded) :
    Prop where
  returned : List.Forall₂ Returned frames decoded.frames
  ranges : ∃ root, fb.read bytes = some root ∧ List.Forall₂ PlacedAt root.frames decoded.frames ∧
    LaidOut root.frames root.arena.byteLength
  streams : List.Forall₂ SameStream frames decoded.frames ↔ ∀ frame ∈ frames, frame.IdAgrees

/-- Sequence and flag are those of the id in the table. -/
theorem sameStream_iff (gives : frame.GivesStream) (writes : Writes frame format packed)
    (reads : Reads packed.tab format decoded) : SameStream frame decoded ↔ frame.IdAgrees := by
  obtain ⟨flag, given⟩ := Option.isSome_iff_exists.mp gives.endOfStream
  have nonneg := gives.nonneg
  have bounded := gives.bounded
  rw [SameStream, reads.sequence, reads.endOfStream, writes.frameId, Frame.IdAgrees, given,
    encodeSdsFrameId]
  cases present : frame.frameId with
  | none =>
    -- without an id the two are packed into one number below 2 ^ 64
    rw [given]
    refine iff_of_true ?_ nofun
    cases flag with
    | true => simp [decodeSdsFrameId, toUint64]; omega
    | false => simp [decodeSdsFrameId, toUint64]; omega
  | some id =>
    have shape (stored : Nat) (sequence : Int) :
        ((stored : Int) / 2 = sequence ∧ ((stored : Int) % 2 == 1) = flag) ↔
          (stored : Int) = 2 * sequence + if some flag = some true then 1 else 0 := by
      cases flag with
      | true => simp; omega
      | false => simp; omega
    simpa [decodeSdsFrameId] using shape (toUint64 (normalizeBigInt (some id))) _

theorem encodeEnvelope_ok {kind : String} (faithful : fb.Faithful)
    (ok : encodeEnvelope fb state kind header frames none = .ok bytes) :
    ∃ packed arena root, Holds frames packed arena ∧ fb.read bytes = some root ∧
      root.header.isRequest = header.isRequest ∧ root.frames = arena.frames ∧
      root.arena.bytes = arena.arena ∧
      (root.arena.byteLength = 0 ∨ arena.alignment ∣ root.arena.byteOffset) := by
  rw [encodeEnvelope, bind_eq_ok] at ok
  obtain ⟨arena, packedOk, ok⟩ := ok
  obtain ⟨packed, holds⟩ := packArenaFrames_ok packedOk
  cases finished : fb.finish ⟨header, arena.frames, arena.arena⟩ arena.alignment with
  | none =>
    rw [finished] at ok
    cases ok
  | some buffer =>
    simp only [finished, assertAlignedInvokeBuffer, bind_eq_ok, require_eq_ok] at ok
    obtain ⟨_, ⟨_, _, based⟩, ⟨⟩⟩ := ok
    have storable : ∀ tab ∈ arena.frames, tab.Storable := by
      rw [holds.tabs]
      intro tab listed
      obtain ⟨item, member, rfl⟩ := List.mem_map.mp listed
      obtain ⟨_, format, sound⟩ := packed_sound holds.related item member
      exact sound.storable
    obtain ⟨root, read, kindOf, tabs, contents⟩ := faithful _ _ _ finished storable
    refine ⟨packed, arena, root, holds, read, kindOf, tabs, contents, ?_⟩
    rw [read] at based
    simpa [Nat.dvd_iff_mod_eq_zero] using based

theorem wireFormat_unique {tab : Tab} (one : tab.Sound first) (other : tab.Sound second) :
    first = second := by
  have same := one.wireFormat.symm.trans other.wireFormat
  cases first <;> cases second <;> first | rfl | nomatch same

structure Carried (frame : Frame) (packed : Packed) (decoded : Frame) : Prop where
  returned : Returned frame decoded
  placed : PlacedAt packed.tab decoded
  stream : frame.GivesStream → (SameStream frame decoded ↔ frame.IdAgrees)

theorem carried_of_reads {frame decoded : Frame} (made : PackedFrom frame packed)
    (sound : packed.tab.Sound format)
    (held : ByteFiles.readAt arena.bytes packed.tab.offset packed.tab.size = packed.payload)
    (reads : Materialized arena packed.tab format decoded) : Carried frame packed decoded := by
  obtain ⟨other, writes, soundToo⟩ := made
  obtain rfl := wireFormat_unique soundToo sound
  refine ⟨⟨?_, ?_, ?_, other, writes.format, reads.wireFormat⟩,
    ⟨reads.offset, reads.size, reads.alignment⟩, fun gives =>
      sameStream_iff gives writes reads.toReads⟩
  · rw [reads.portId, writes.portId]
  · rw [reads.payload, held, writes.payload]
  · intro declared given
    rw [reads.alignment, writes.alignment declared given]

/-- The two relations of a list with one in between, joined item by item. -/
theorem forall₂_join {α β γ : Type} {R : α → β → Prop} {S : β → γ → Prop} {T : α → β → γ → Prop}
    {first : List α} {middle : List β} {last : List γ} (left : List.Forall₂ R first middle)
    (right : List.Forall₂ S middle last) (join : ∀ a b c, R a b → S b c → T a b c) :
    List.Forall₂ (fun a c => ∃ b, T a b c) first last ∧
      List.Forall₂ (fun b c => ∃ a, T a b c) middle last := by
  induction left generalizing last with
  | nil =>
    cases right
    exact ⟨.nil, .nil⟩
  | cons holds _ ih =>
    cases right with
    | cons here later =>
      obtain ⟨outer, inner⟩ := ih later
      exact ⟨.cons ⟨_, join _ _ _ holds here⟩ outer, .cons ⟨_, join _ _ _ holds here⟩ inner⟩

theorem forall₂_iff_forall {α β : Type} {S : α → β → Prop} {P : α → Prop} {first : List α}
    {last : List β} (same : List.Forall₂ (fun a b => S a b ↔ P a) first last) :
    List.Forall₂ S first last ↔ ∀ a ∈ first, P a := by
  induction same with
  | nil => simp
  | cons here _ ih => rw [List.forall₂_cons, List.forall_mem_cons, here, ih]

/-- What is behind both envelopes: the frames of one that was encoded are decoded. -/
theorem envelope_round_trip {kind : String} {header : Header} (reader : State)
    (external : Option View) (faithful : fb.Faithful) (gives : ∀ frame ∈ frames, frame.GivesStream)
    (ok : encodeEnvelope fb state kind header frames none = .ok bytes) :
    ∃ root decoded after, fb.read bytes = some root ∧
      root.header.isRequest = header.isRequest ∧
      decodeEnvelope reader root ⟨external, none⟩ = .ok (decoded, after) ∧
      RoundTrip fb frames bytes decoded := by
  obtain ⟨packed, arena, root, holds, read, kindOf, tabs, contents, based⟩ :=
    encodeEnvelope_ok faithful ok
  have length : root.arena.byteLength = arena.arena.length := congrArg List.length contents
  have layout := holds.layout
  rw [← tabs, ← length] at layout
  have within : ∀ tab ∈ root.frames, tab.offset + tab.size ≤ root.arena.byteLength :=
    fun tab listed => (layout.within tab.extent (List.mem_map_of_mem listed)).2
  have aligned : ∀ tab ∈ root.frames, tab.alignment ∣ tab.offset :=
    fun tab listed => layout.aligned tab.extent (List.mem_map_of_mem listed)
  have sound : ∀ tab ∈ root.frames, ∃ format, tab.Sound format := by
    rw [tabs, holds.tabs]
    intro tab listed
    obtain ⟨item, member, rfl⟩ := List.mem_map.mp listed
    exact (packed_sound holds.related item member).2
  have placed : root.arena.byteLength = 0 ∨
      ∀ tab ∈ root.frames, tab.alignment ∣ root.arena.byteOffset + tab.offset :=
    based.imp_right fun base tab listed =>
      Nat.dvd_add ((holds.aligned tab (tabs ▸ listed)).trans base) (aligned tab listed)
  obtain ⟨decoded, after, done, reads⟩ :=
    @decodeEnvelope_of_sound reader root external sound within placed
  rw [tabs, holds.tabs, List.forall₂_map_left_iff] at reads
  obtain ⟨outer, inner⟩ := forall₂_join holds.related
    ((List.forall₂_and_left _ _).mpr ⟨holds.bytes, reads⟩)
    fun frame item result made ⟨held, format, soundTab, materialized⟩ =>
      carried_of_reads made soundTab (contents ▸ held) materialized
  refine ⟨root, decoded, after, read, kindOf, done, ?_, ⟨root, read, ?_, within, ?_, aligned⟩, ?_⟩
  · exact outer.imp fun _ _ ⟨_, carried⟩ => carried.returned
  · rw [tabs, holds.tabs, List.forall₂_map_left_iff]
    exact inner.imp fun _ _ ⟨_, carried⟩ => carried.placed
  · have disjoint := layout.disjoint
    rw [List.pairwise_map] at disjoint
    exact disjoint
  · have given := (List.forall₂_and_left _ _).mpr ⟨gives, outer⟩
    exact forall₂_iff_forall (given.imp fun _ _ ⟨stream, _, carried⟩ => carried.stream stream)

/-- Frames that a request or a response takes into an arena of its own are decoded in their order,
on ranges that lie apart and aligned. Sequence and flag come back where no id that a frame also
gives says otherwise. -/
theorem invoke_round_trip_iff (faithful : fb.Faithful) (state reader : State)
    (external : Option View) :
    (∀ (request : Request) (bytes : View), request.externalArena = none →
      (∀ frame ∈ request.inputs, frame.GivesStream) →
      encodePluginInvokeRequest fb state request = .ok bytes →
      ∃ decoded after,
        decodePluginInvokeRequest fb reader bytes ⟨external, none⟩ = .ok (decoded, after) ∧
        RoundTrip fb request.inputs bytes decoded) ∧
    (∀ (response : Response) (bytes : View), response.externalArena = none →
      (∀ frame ∈ response.outputs, frame.GivesStream) →
      encodePluginInvokeResponse fb state response = .ok bytes →
      ∃ decoded after,
        decodePluginInvokeResponse fb reader bytes ⟨external, none⟩ = .ok (decoded, after) ∧
        RoundTrip fb response.outputs bytes decoded) := by
  constructor
  · intro request bytes own gives ok
    rw [encodePluginInvokeRequest, own] at ok
    obtain ⟨root, decoded, after, read, kindOf, done, trip⟩ :=
      envelope_round_trip reader external faithful gives ok
    refine ⟨decoded, after, ?_, trip⟩
    rw [decodePluginInvokeRequest, read]
    dsimp only
    cases header : root.header with
    | request => exact done
    | response =>
      rw [header] at kindOf
      cases kindOf
  · intro response bytes own gives ok
    rw [encodePluginInvokeResponse, own] at ok
    obtain ⟨root, decoded, after, read, kindOf, done, trip⟩ :=
      envelope_round_trip reader external faithful gives ok
    refine ⟨decoded, after, ?_, trip⟩
    rw [decodePluginInvokeResponse, read]
    dsimp only
    cases header : root.header with
    | response => exact done
    | request =>
      rw [header] at kindOf
      cases kindOf

theorem storing_faithful (envelope : Envelope) : (storing envelope).Faithful := by
  intro other alignment bytes finished _
  simp only [storing] at finished
  split_ifs at finished with same
  exact ⟨_, rfl, by rw [same], by rw [same], by rw [same]⟩

def practiceRequest : Request where
  inputs := [
    { portId := some "in", payload := some ⟨0, 0, [1, 2, 3]⟩, alignment := some (.finite 16),
      sequence := some (.bigint 7), endOfStream := some false },
    { portId := some "in", payload := some ⟨0, 3, [9]⟩, sequence := some (.bigint 8),
      endOfStream := some true }]

def practiceArena : Arena where
  frames := [⟨0, 3, 16, 0, some bareTypeRef, 0, 0, 14, some "in"⟩,
    ⟨8, 1, 8, 0, some bareTypeRef, 0, 0, 17, some "in"⟩]
  arena := [1, 2, 3, 0, 0, 0, 0, 0, 9]
  alignment := 16

def practiceFlatbuffers : Flatbuffers :=
  storing ⟨practiceRequest.header, practiceArena.frames, practiceArena.arena⟩

theorem practiceRequest_gives : ∀ frame ∈ practiceRequest.inputs, frame.GivesStream := by
  simp only [practiceRequest, List.forall_mem_cons]
  exact ⟨⟨rfl, by decide, by decide, rfl⟩, ⟨rfl, by decide, by decide, rfl⟩,
    List.forall_mem_nil _⟩

theorem invoke_round_trip_practice :
    ∃ decoded after, decodePluginInvokeRequest practiceFlatbuffers {} ⟨0, 0, practiceArena.arena⟩
        ⟨none, none⟩ = .ok (decoded, after) ∧
      RoundTrip practiceFlatbuffers practiceRequest.inputs ⟨0, 0, practiceArena.arena⟩ decoded :=
  (invoke_round_trip_iff (storing_faithful _) {} {} none).1 practiceRequest
    ⟨0, 0, practiceArena.arena⟩ rfl practiceRequest_gives (storing_encodes rfl)

def numberedRequest : Request where
  inputs := [
    { portId := some "in", payload := some ⟨0, 0, [1]⟩, frameId := some (.bigint 5),
      sequence := some (.bigint 7), endOfStream := some true }]

def numberedArena : Arena where
  frames := [⟨0, 1, 8, 0, some bareTypeRef, 0, 0, 5, some "in"⟩]
  arena := [1]
  alignment := 8

def numberedFlatbuffers : Flatbuffers :=
  storing ⟨numberedRequest.header, numberedArena.frames, numberedArena.arena⟩

theorem numberedRequest_packed :
    packArenaFrames {} numberedRequest.inputs = .ok numberedArena := rfl

/-- The sequence 7 of a frame with the id 5 comes back as 2. -/
theorem given_id_replaces_sequence :
    numberedFlatbuffers.Faithful ∧
    (∀ frame ∈ numberedRequest.inputs, frame.GivesStream) ∧
    encodePluginInvokeRequest numberedFlatbuffers {} numberedRequest =
      .ok ⟨0, 0, numberedArena.arena⟩ ∧
    ∃ decoded after, decodePluginInvokeRequest numberedFlatbuffers {} ⟨0, 0, numberedArena.arena⟩
        ⟨none, none⟩ = .ok (decoded, after) ∧
      decoded.frames.map (·.sequence) = [some (.bigint 2)] ∧
      ¬ List.Forall₂ SameStream numberedRequest.inputs decoded.frames := by
  refine ⟨storing_faithful _, ?_, storing_encodes numberedRequest_packed, _, _, rfl, rfl, ?_⟩
  · simp only [numberedRequest, List.forall_mem_cons]
    exact ⟨⟨rfl, by decide, by decide, rfl⟩, List.forall_mem_nil _⟩
  · intro same
    obtain ⟨sequence, _⟩ := (List.forall₂_cons.mp same).1
    cases sequence

end Envelopes
end SpaceDataModule.Invoke
