import SpaceDataModule.FlowRuntime.Admission

/-! One output frame, seen by both dispatch paths: pushed through the invoke shim
by a linked entry, and described by a frame descriptor the host writes. For each
path, exactly the frames it takes. -/
namespace SpaceDataModule.FlowRuntime

/-- One output frame, with the addresses the two paths find it at. -/
structure OutputFrame where
  port : CString
  schemaName : Option CString := none
  fileIdentifier : Option CString := none
  rootTypeName : Option CString := none
  wireFormat : Nat := flatbufferFormat
  byteLength : Nat := 0
  fixedStringLength : Nat := 0
  alignment : Nat := 1
  payload : List UInt8 := []
  /-- The entry's own buffer. -/
  guestPtr : Nat := 0
  /-- The payload and the port id as the host wrote them. -/
  hostOffset : Nat := 0
  hostPortPtr : Nat := 0
  traceToken : Nat := 0
  deriving DecidableEq

namespace OutputFrame
variable (frame : OutputFrame) (tables : FlowTables) (node : Nat)

/-- The frame as the entry pushes it (`plugin_push_output_typed`). -/
def push : ShimPush where
  portId := some frame.port
  schemaName := frame.schemaName
  fileIdentifier := frame.fileIdentifier
  wireFormat := frame.wireFormat
  rootTypeName := frame.rootTypeName
  fixedStringLength := frame.fixedStringLength
  byteLength := frame.byteLength
  requiredAlignment := frame.alignment
  payloadPtr := frame.guestPtr
  payload := frame.payload

/-- What the push declares about the frame, whatever address it is routed from. -/
def pushed : FlowOutputFrameView where
  port := some frame.port
  schemaName := some (frame.schemaName.getD [])
  fileIdentifier := some (frame.fileIdentifier.getD [])
  rootTypeName := some (frame.rootTypeName.getD [])
  length := frame.payload.length
  wireFormat := frame.wireFormat
  byteLength := frame.byteLength
  fixedStringLength := frame.fixedStringLength
  requiredAlignment := effectiveAlignment frame.alignment

/-- The edge carries the declared type: an opaque edge carries the frames that
declare none. -/
def carriedBy (edge : FlowEdge) : Bool :=
  if edge.opaqueBytes then !outputDeclaresIdentity frame.pushed
  else outputMatchesEdgeIdentity frame.pushed edge

/-- The matching route edge of the frame: the first one leaving its port that
carries its declared type. -/
def named : Option (FlowEdge × Nat) :=
  (tables.matchingEdges node frame.port).find? fun row => frame.carriedBy row.1

def descriptor (generation : Nat) : FlowFrameDescriptor where
  ingressIndex := generation
  typeDescriptorIdx := (frame.named tables node).elim invalidIndex (·.2)
  portIdPtr := frame.hostPortPtr
  alignment := frame.alignment
  offset := frame.hostOffset
  size := frame.payload.length
  traceToken := frame.traceToken
  wireFormat := frame.wireFormat

/-- What the descriptor declares about the frame: the type and the layout of the
edge it names. -/
def described : FlowOutputFrameView :=
  let bare : FlowOutputFrameView :=
    { port := some frame.port
      payload := frame.hostOffset
      contents := frame.payload
      length := frame.payload.length
      wireFormat := frame.wireFormat
      frameId := frame.traceToken }
  match frame.named tables node with
  | none => bare
  | some row =>
    { bare with
      schemaName := row.1.schemaName
      fileIdentifier := row.1.fileIdentifier
      rootTypeName := row.1.rootTypeName
      byteLength := row.1.alignedByteLength
      fixedStringLength := row.1.alignedFixedStringLength
      requiredAlignment := row.1.alignedRequiredAlignment }

def aliases (s : State) : Bool :=
  !frame.payload.isEmpty && (findCurrentAlias s frame.guestPtr frame.payload.length).isSome

end OutputFrame

section Conditions
variable (tables : FlowTables) (s : State) (node : Nat) (frame : OutputFrame)

def Conveyed : Prop :=
  frame.wireFormat ≤ alignedBinaryFormat ∧
    ∀ row ∈ tables.matchingEdges node frame.port,
      row.1.Conveys frame.wireFormat frame.payload.length
  deriving Decidable

/-- The push stands: no edge contradicts what it declares, and a payload that
stays in an input buffer is aligned there. -/
def PushStands : Prop :=
  ∀ row ∈ tables.matchingEdges node frame.port,
    ¬ row.1.Contradicts frame.pushed ∧
      (frame.aliases s = true → AlignedFor frame.wireFormat frame.guestPtr row.1)
  deriving Decidable

/-- The descriptor stands: its alignment is a power of two, an aligned frame
names an opaque edge or one with a fixed aligned stride no stricter than its own
alignment, and no edge of the port contradicts the edge it names. -/
def DescriptorStands : Prop :=
  isPowerOfTwo (effectiveAlignment frame.alignment) = true ∧
    (frame.wireFormat = alignedBinaryFormat → ∃ row ∈ frame.named tables node,
      (row.1.opaqueBytes = false → row.1.alignedEligible = true ∧ row.1.alignedByteLength ≠ 0 ∧
        row.1.alignedRequiredAlignment ≤ effectiveAlignment frame.alignment)) ∧
    ∀ row ∈ tables.matchingEdges node frame.port,
      ¬ row.1.Contradicts (frame.described tables node) ∧
        AlignedFor frame.wireFormat frame.hostOffset row.1
  deriving Decidable

/-- The frame diverges: its port could carry it, and only one of its two
descriptions stands. -/
def Diverges : Prop :=
  Conveyed tables node frame ∧
    ¬ (PushStands tables s node frame ↔ DescriptorStands tables node frame)
  deriving Decidable

def NoneDiverges : List OutputFrame → Prop
  | [] => True
  | frame :: rest => ¬ Diverges tables s node frame ∧
      (Conveyed tables node frame → PushStands tables s node frame → NoneDiverges rest)

/-- The condition of agreement. The host path takes at most 64 frames; a longer
list must already be refused at its first frame. -/
def Alike (frames : List OutputFrame) : Prop :=
  if frames.length ≤ maxInvocationFrames then NoneDiverges tables s node frames
  else ∀ first ∈ frames.head?, ¬ (Conveyed tables node first ∧ PushStands tables s node first)

instance decidableNoneDiverges : (frames : List OutputFrame) →
    Decidable (NoneDiverges tables s node frames)
  | [] => .isTrue trivial
  | frame :: rest =>
    have := decidableNoneDiverges rest
    inferInstanceAs (Decidable (¬ Diverges tables s node frame ∧ (_ → _ → _)))

instance (frames : List OutputFrame) : Decidable (Alike tables s node frames) :=
  inferInstanceAs (Decidable (if frames.length ≤ maxInvocationFrames then _ else _))

end Conditions

/-- The environment of one comparison. The host has written the payload and the
port id of every frame into linear memory, aligned as the frame declares; the
entry pushes from readable buffers; blocks the allocator returns lie in linear
memory; and a slice of an input buffer holds the bytes its address points to. -/
structure Placed (artifact : Artifact) (s : State) (host guest : LinearMemory)
    (frame : OutputFrame) : Prop where
  portId : frame.hostPortPtr = 0 ∧ frame.port = [] ∨
    frame.hostPortPtr ≠ 0 ∧ frame.hostPortPtr < host.size ∧
      readCString host frame.hostPortPtr (cStringLimit host frame.hostPortPtr) = some frame.port
  written : host.read frame.hostOffset frame.payload.length = frame.payload
  writtenAt : frame.payload ≠ [] → frame.hostOffset ≠ 0 ∧
    validMemoryRange host frame.hostOffset frame.payload.length = true
  aligned : isPowerOfTwo (effectiveAlignment frame.alignment) = true →
    frame.hostOffset % effectiveAlignment frame.alignment = 0
  hostSlice : ∀ storage offset, findCurrentAlias s frame.hostOffset frame.payload.length =
    some (storage, offset) → frame.payload ≠ [] →
      ∃ bytes, storage = some bytes ∧ bytes.slice offset frame.payload.length = frame.payload
  buffer : frame.payload ≠ [] → frame.guestPtr ≠ 0 ∧
    validMemoryRange guest frame.guestPtr frame.payload.length = true
  guestSlice : ∀ storage offset, findCurrentAlias s frame.guestPtr frame.payload.length =
    some (storage, offset) → frame.payload ≠ [] → ∃ bytes, storage = some bytes ∧
      bytes.slice offset frame.payload.length = frame.payload ∧
        bytes.address + offset = frame.guestPtr
  block : ∀ index size, frame.payload.length ≤ size → frame.payload ≠ [] →
    size < frame.payload.length + effectiveAlignment frame.alignment →
      artifact.place index size ≠ 0 ∧ validMemoryRange guest (artifact.place index size) size = true

section Push

/-- The shim output of a frame: its declarations, and a storage that holds the
payload at an aligned address or in an input buffer. -/
structure Shimmed (s : State) (guest : LinearMemory) (frame : OutputFrame) (out : ShimOutput) :
    Prop where
  view : { shimOutputView out with
      payload := 0, contents := [], ownedStorage := none, ownedOffset := 0, ownership := 0,
      sequence := 0, frameId := 0, endOfStream := 0 } = frame.pushed
  empty : frame.payload = [] → out.storage = none
  stored : frame.payload ≠ [] → ∃ storage, out.storage = some storage ∧
    storage.slice out.payloadOffset frame.payload.length = frame.payload ∧
    storage.address + out.payloadOffset ≠ 0 ∧
    validMemoryRange guest (storage.address + out.payloadOffset) frame.payload.length = true ∧
    (frame.aliases s = true → storage.address + out.payloadOffset = frame.guestPtr) ∧
    (frame.aliases s = false → isPowerOfTwo (effectiveAlignment frame.alignment) = true →
      (storage.address + out.payloadOffset) % effectiveAlignment frame.alignment = 0)

theorem findCurrentAlias_congr (same : t.current = s.current) (payload length : Nat) :
    findCurrentAlias t payload length = findCurrentAlias s payload length := by
  simp only [findCurrentAlias, same]

theorem padding_aligns (positive : 0 < alignment) :
    (address + (alignment - address % alignment) % alignment) % alignment = 0 := by
  have bound := Nat.mod_lt address positive
  have parts := Nat.div_add_mod address alignment
  have sum : address + (alignment - address % alignment) =
      alignment * (address / alignment + 1) := by
    rw [Nat.mul_add]
    omega
  rw [Nat.add_mod_mod, sum, Nat.mul_mod_right]

/-- A copy of a nonempty payload lies in linear memory, aligned as asked. -/
theorem copyPayload_placed (nonempty : payload ≠ []) (positive : 0 < alignment)
    (block : ∀ size, payload.length ≤ size → size < payload.length + alignment →
      artifact.place s.allocations size ≠ 0 ∧
        validMemoryRange guest (artifact.place s.allocations size) size = true) :
    (copyPayload artifact s payload alignment).1.address +
        (copyPayload artifact s payload alignment).2 ≠ 0 ∧
      validMemoryRange guest ((copyPayload artifact s payload alignment).1.address +
        (copyPayload artifact s payload alignment).2) payload.length = true ∧
      (isPowerOfTwo alignment = true →
        ((copyPayload artifact s payload alignment).1.address +
          (copyPayload artifact s payload alignment).2) % alignment = 0) := by
  have filled : payload.isEmpty = false := by simpa using nonempty
  obtain ⟨normalized, choice, small, least⟩ : ∃ normalized,
      (if isPowerOfTwo alignment = true then alignment else 1) = normalized ∧
        normalized ≤ alignment ∧ 0 < normalized := by
    refine ⟨_, rfl, ?_, ?_⟩ <;> split_ifs <;> omega
  obtain ⟨nonnull, valid⟩ := block (payload.length + normalized - 1) (by omega) (by omega)
  have padding : (normalized - artifact.place s.allocations (payload.length + normalized - 1) %
      normalized) % normalized < normalized := Nat.mod_lt _ least
  simp only [copyPayload, choice, filled, Bool.false_eq_true, if_false]
  refine ⟨by omega, ?_, fun power => ?_⟩
  · simp only [validMemoryRange, Bool.and_eq_true, decide_eq_true_eq] at valid ⊢
    omega
  · rw [if_pos power] at choice
    rw [choice]
    exact padding_aligns least

theorem effectiveAlignment_pos (alignment : Nat) : 0 < effectiveAlignment alignment := by
  unfold effectiveAlignment
  split
  · exact Nat.one_pos
  · rename_i nonzero
    have : alignment ≠ 0 := by simpa using nonzero
    omega

theorem shimPushOutput_shimmed (placed : Placed artifact s host guest frame)
    (same : t.current = s.current) :
    Shimmed s guest frame (shimPushOutput artifact t frame.push).2 ∧
      SameSchedule t (shimPushOutput artifact t frame.push).1 := by
  by_cases empty : frame.payload = []
  · simp only [shimPushOutput, OutputFrame.push, empty, List.isEmpty_nil, Bool.or_true]
    refine ⟨⟨?_, fun _ => rfl, fun nonempty => (nonempty empty).elim⟩,
      ⟨rfl, rfl, rfl, rfl, rfl, rfl, rfl, rfl⟩⟩
    simp [shimOutputView, OutputFrame.pushed, empty]
  · have filled : frame.payload.isEmpty = false := by simpa using empty
    obtain ⟨nonnull, readable⟩ := placed.buffer empty
    have guarded : (frame.guestPtr == 0 || frame.payload.isEmpty) = false := by
      simp [nonnull, filled]
    simp only [shimPushOutput, OutputFrame.push, guarded, Bool.false_eq_true, if_false]
    rw [findCurrentAlias_congr same]
    cases found : findCurrentAlias s frame.guestPtr frame.payload.length with
    | some choice =>
      obtain ⟨storage, offset⟩ := choice
      obtain ⟨bytes, rfl, slice, address⟩ := placed.guestSlice storage offset found empty
      have aliases : frame.aliases s = true := by simp [OutputFrame.aliases, filled, found]
      refine ⟨⟨rfl, fun absurd => (empty absurd).elim, fun _ => ⟨bytes, rfl, slice, ?_⟩⟩,
        ⟨rfl, rfl, rfl, rfl, rfl, rfl, rfl, rfl⟩⟩
      simp only [address, aliases]
      exact ⟨nonnull, readable, fun _ => trivial, fun absurd => by cases absurd⟩
    | none =>
      have aliases : frame.aliases s = false := by simp [OutputFrame.aliases, found]
      obtain ⟨address, valid, aligned⟩ := copyPayload_placed empty
        (effectiveAlignment_pos frame.alignment)
        (fun size enough bound => placed.block t.allocations size enough empty bound)
      refine ⟨⟨rfl, fun absurd => (empty absurd).elim, fun _ => ⟨_, rfl, ?_, ?_⟩⟩,
        ⟨rfl, rfl, rfl, rfl, rfl, rfl, rfl, rfl⟩⟩
      · exact copyPayload_slice frame.payload _
      · exact ⟨address, valid, fun absurd => by simp [aliases] at absurd, fun _ => aligned⟩

def pushCalls (frames : List OutputFrame) : List ShimCall :=
  frames.map fun frame => .push frame.push

theorem pushCalls_shimmed (frames : List OutputFrame)
    (placed : ∀ frame ∈ frames, Placed artifact s host guest frame) (state : State × ShimState)
    (same : state.1.current = s.current) :
    ∃ outputs, List.Forall₂ (Shimmed s guest) frames outputs ∧
      ((pushCalls frames).foldl (shimStep artifact) state).2.outputs =
        state.2.outputs ++ outputs ∧
      SameSchedule state.1 ((pushCalls frames).foldl (shimStep artifact) state).1 := by
  induction frames generalizing state with
  | nil => exact ⟨[], .nil, by simp [pushCalls], ⟨rfl, rfl, rfl, rfl, rfl, rfl, rfl, rfl⟩⟩
  | cons frame rest ih =>
    obtain ⟨shimmed, kept⟩ := shimPushOutput_shimmed (placed frame (by simp)) same
    obtain ⟨outputs, all, appended, later⟩ := ih (fun other member => placed other (by simp [member]))
      (shimStep artifact state (.push frame.push)) (kept.current.trans same)
    refine ⟨_ :: outputs, .cons shimmed all, ?_, ?_⟩
    · exact appended.trans (by simp [shimStep])
    · exact ⟨later.queues.trans kept.queues, later.nodeStates.trans kept.nodeStates,
        later.current.trans kept.current, later.generation.trans kept.generation,
        later.external.trans kept.external, later.cursor.trans kept.cursor,
        later.pushed.trans kept.pushed, later.handed.trans kept.handed⟩

end Push

section Verdicts
variable {frame : OutputFrame}

theorem taken_iff :
    Taken tables node port view ↔
      view.wireFormat ≤ alignedBinaryFormat ∧ ∀ row ∈ tables.matchingEdges node port,
        row.1.Conveys view.wireFormat view.length ∧ ¬ row.1.Contradicts view ∧
          AlignedFor view.wireFormat view.payload row.1 := by
  constructor
  · rintro ⟨format, edges⟩
    exact ⟨format, fun row member => (edgeRefusal_eq_none_iff format).mp (edges row member)⟩
  · rintro ⟨format, edges⟩
    exact ⟨format, fun row member => (edgeRefusal_eq_none_iff format).mpr (edges row member)⟩

section
variable (shimmed : Shimmed s guest frame out)
include shimmed

theorem Shimmed.length :
    (shimOutputView out).length = frame.payload.length :=
  congrArg (·.length) shimmed.view

theorem Shimmed.presentable :
    Presentable guest (shimOutputView out) frame.port := by
  have port : (shimOutputView out).port = some frame.port := congrArg (·.port) shimmed.view
  refine ⟨port, Nat.le_succ 1, rfl, fun long => ?_⟩
  rw [shimmed.length] at long ⊢
  obtain ⟨storage, owner, _, nonnull, valid, _⟩ :=
    shimmed.stored (List.ne_nil_of_length_pos long)
  simp only [shimOutputView, owner]
  exact ⟨nonnull, valid⟩

theorem Shimmed.carries (aliased : Option (Option PayloadStorage × Nat)) :
    Carries (shimOutputView out) aliased frame.payload := by
  have length := shimmed.length
  by_cases empty : frame.payload = []
  · have none := shimmed.empty empty
    refine ⟨length, ?_, ?_, ?_⟩
    · simp [shimOutputView, none, empty]
    · intro storage owner
      simp [shimOutputView, none] at owner
    · intro _ storage offset _ nonempty
      exact (nonempty empty).elim
  · obtain ⟨storage, owner, slice, _⟩ := shimmed.stored empty
    refine ⟨length, ?_, ?_, ?_⟩
    · have size : out.payloadLength = frame.payload.length := length
      simp only [shimOutputView, owner, Option.elim, size, List.take_take, Nat.min_self]
      exact slice
    · intro other same _
      simp only [shimOutputView, owner, Option.some.injEq] at same ⊢
      subst same
      exact ⟨rfl, slice⟩
    · intro absent
      simp [shimOutputView, owner] at absent

/-- The router takes a pushed frame exactly when its port conveys it and the
push stands. -/
theorem Shimmed.taken_iff :
    Taken tables node frame.port (shimOutputView out) ↔
      Conveyed tables node frame ∧ PushStands tables s node frame := by
  have format : (shimOutputView out).wireFormat = frame.wireFormat :=
    congrArg (·.wireFormat) shimmed.view
  have length := shimmed.length
  have declared : ∀ edge : FlowEdge,
      edge.Contradicts (shimOutputView out) ↔ edge.Contradicts frame.pushed := by
    intro edge
    rw [← shimmed.view]
    rfl
  -- the address matters only where the payload stays in an input buffer
  have address : ∀ edge : FlowEdge, edge.Conveys frame.wireFormat frame.payload.length →
      ¬ edge.Contradicts frame.pushed →
      (AlignedFor frame.wireFormat (shimOutputView out).payload edge ↔
        (frame.aliases s = true → AlignedFor frame.wireFormat frame.guestPtr edge)) := by
    intro edge conveys agrees
    by_cases empty : frame.payload = []
    · have unaliased : frame.aliases s = false := by simp [OutputFrame.aliases, empty]
      simp [shimOutputView, shimmed.empty empty, AlignedFor, unaliased]
    · obtain ⟨storage, owner, _, _, _, shared, copied⟩ := shimmed.stored empty
      simp only [shimOutputView, owner]
      cases aliases : frame.aliases s with
      | true => simp [shared aliases]
      | false =>
        refine iff_of_true (fun aligned typed eligible => ?_) (fun absurd => by cases absurd)
        have power : isPowerOfTwo edge.alignedRequiredAlignment = true := by
          have layout := conveys typed
          rw [if_pos ⟨aligned, eligible⟩] at layout
          exact layout.1
        have same : effectiveAlignment frame.alignment = edge.alignedRequiredAlignment := by
          by_contra different
          refine agrees ?_
          rw [FlowEdge.Contradicts, if_neg (by simp [typed])]
          have positive := effectiveAlignment_pos frame.alignment
          exact .inr ⟨aligned, eligible, .inr (.inr ⟨Nat.ne_of_gt positive, different⟩)⟩
        rw [← same] at power ⊢
        exact copied aliases power
  rw [FlowRuntime.taken_iff, format, length]
  constructor
  · rintro ⟨known, edges⟩
    refine ⟨⟨known, fun row member => (edges row member).1⟩, fun row member => ?_⟩
    obtain ⟨conveys, agrees, aligned⟩ := edges row member
    rw [declared] at agrees
    exact ⟨agrees, (address row.1 conveys agrees).mp aligned⟩
  · rintro ⟨⟨known, conveyed⟩, stands⟩
    refine ⟨known, fun row member => ?_⟩
    obtain ⟨agrees, aligned⟩ := stands row member
    have conveys := conveyed row member
    exact ⟨conveys, (declared row.1).not.mpr agrees, (address row.1 conveys agrees).mpr aligned⟩

end

theorem mem_named (found : frame.named tables node = some row) :
    row ∈ tables.matchingEdges node frame.port :=
  List.mem_of_find?_eq_some found

/-- A descriptor whose payload, port id and generation are in order passes the
checks before the type check exactly when its alignment and format are known. -/
theorem frameStatus_nonneg_iff (owner : fd.ownership ≤ transferredOwnership)
    (immutable : fd.mutability = 0)
    (range : 0 < fd.size → fd.offset ≠ 0 ∧ validMemoryRange memory fd.offset fd.size = true)
    (residue : isPowerOfTwo (effectiveAlignment fd.alignment) = true →
      fd.offset % effectiveAlignment fd.alignment = 0)
    (text : validCString memory fd.portIdPtr = true) (opened : t.current.isSome = true)
    (generation : fd.ingressIndex = t.invocationGeneration) :
    0 ≤ frameStatus memory t fd true ↔
      isPowerOfTwo (effectiveAlignment fd.alignment) = true ∧
        fd.wireFormat ≤ alignedBinaryFormat := by
  have active : t.current.isNone = false := by simpa using opened
  have placed : ¬ (0 < fd.size ∧
      (fd.offset = 0 ∨ validMemoryRange memory fd.offset fd.size = false)) := by
    rintro ⟨long, null | outside⟩
    · exact (range long).1 null
    · rw [(range long).2] at outside
      cases outside
  have limits : ¬ transferredOwnership < fd.ownership ∧ ¬ appendOnlyMutability < 0 :=
    ⟨Nat.not_lt.mpr owner, Nat.not_lt_zero _⟩
  by_cases power : isPowerOfTwo (effectiveAlignment fd.alignment) = true
  · by_cases format : fd.wireFormat ≤ alignedBinaryFormat
    · have known : ¬ alignedBinaryFormat < fd.wireFormat := Nat.not_lt.mpr format
      simp [frameStatus, power, known, limits, immutable, placed, residue power, text, active,
        generation, format]
    · have unknown : alignedBinaryFormat < fd.wireFormat := Nat.lt_of_not_le format
      simp [frameStatus, power, unknown]
  · simp [frameStatus, power]

theorem alignedTypeStatus_descriptor (node generation : Nat) :
    0 ≤ alignedTypeStatus artifact
        (frame.descriptor artifact node generation) true ↔
      ∃ row, frame.named artifact node = some row ∧
        (row.1.opaqueBytes = false → row.1.alignedEligible = true ∧ row.1.alignedByteLength ≠ 0 ∧
          isPowerOfTwo row.1.alignedRequiredAlignment = true ∧
          frame.payload.length = row.1.alignedByteLength ∧
          row.1.alignedRequiredAlignment ≤ effectiveAlignment frame.alignment ∧
          frame.hostOffset % row.1.alignedRequiredAlignment = 0) := by
  cases found : frame.named artifact node with
  | none =>
    have outside : artifact.routeEdgeCount ≤ invalidIndex :=
      Nat.le_trans artifact.route_edges artifact.edges_indexed
    simp [alignedTypeStatus, OutputFrame.descriptor, found, outside]
  | some row =>
    obtain ⟨_, resolved, inside⟩ := artifact.mem_matchingEdges (mem_named found)
    have known : ¬ artifact.routeEdgeCount ≤ row.2 := Nat.not_le.mpr inside
    simp only [alignedTypeStatus, OutputFrame.descriptor, found, Option.elim, known,
      decide_false, Bool.and_false, FlowTables.resolveTypeDescriptor,
      resolved, Option.some.injEq, exists_eq_left']
    cases blind : row.1.opaqueBytes with
    | true => simp
    | false =>
      simp only [Bool.false_eq_true, if_false, forall_const]
      split_ifs with refused
      · refine iff_of_false (by decide) fun layout => ?_
        obtain ⟨eligible, stride, power, length, order, residue⟩ := layout
        simp [eligible, stride, power, length, residue, Nat.not_lt.mpr order] at refused
      · refine iff_of_true (by decide) ?_
        simpa [and_assoc] using refused

section
variable (placed : Placed artifact s host guest frame)
include placed

theorem hostOutputView_described (node generation : Nat) :
    hostOutputView artifact host (frame.descriptor artifact node generation) =
      frame.described artifact node := by
  have port : (if frame.hostPortPtr == 0 then [] else (readCString host frame.hostPortPtr
      (cStringLimit host frame.hostPortPtr)).getD []) = frame.port := by
    rcases placed.portId with ⟨null, empty⟩ | ⟨nonnull, _, text⟩
    · simp [null, empty]
    · simp [nonnull, text]
  cases found : frame.named artifact node with
  | none =>
    have outside : ¬ invalidIndex < artifact.routeEdgeCount :=
      Nat.not_lt.mpr (Nat.le_trans artifact.route_edges artifact.edges_indexed)
    simp only [hostOutputView, OutputFrame.descriptor, OutputFrame.described, found, Option.elim,
      if_neg outside, port, placed.written]
  | some row =>
    obtain ⟨_, resolved, inside⟩ := artifact.mem_matchingEdges (mem_named found)
    simp only [hostOutputView, OutputFrame.descriptor, OutputFrame.described, found, Option.elim,
      if_pos inside, FlowTables.resolveTypeDescriptor, resolved, port, placed.written]

theorem frameStatus_descriptor (node : Nat) (opened : t.current.isSome = true) :
    0 ≤ frameStatus host t
        (frame.descriptor artifact node t.invocationGeneration) true ↔
      isPowerOfTwo (effectiveAlignment frame.alignment) = true ∧
        frame.wireFormat ≤ alignedBinaryFormat := by
  have text : validCString host frame.hostPortPtr = true := by
    rcases placed.portId with ⟨null, _⟩ | ⟨_, inside, found⟩
    · simp [validCString, null]
    · simp [validCString, inside, found]
  exact frameStatus_nonneg_iff (Nat.zero_le _) rfl
    (fun long => placed.writtenAt (List.ne_nil_of_length_pos long)) placed.aligned text opened rfl

/-- The host path takes a frame exactly when its port conveys it and its
descriptor stands. -/
theorem descriptor_taken_iff (node : Nat) (opened : t.current.isSome = true) :
    (0 ≤ validateFrameDescriptor artifact host t
        (frame.descriptor artifact node t.invocationGeneration) true ∧
      Taken artifact node frame.port (frame.described artifact node)) ↔
      Conveyed artifact node frame ∧
        DescriptorStands artifact node frame := by
  have valid : 0 ≤ validateFrameDescriptor artifact host t
        (frame.descriptor artifact node t.invocationGeneration) true ↔
      0 ≤ frameStatus host t
          (frame.descriptor artifact node t.invocationGeneration) true ∧
        (frame.wireFormat = alignedBinaryFormat → 0 ≤ alignedTypeStatus artifact
          (frame.descriptor artifact node t.invocationGeneration) true) := by
    have occupied : (frame.descriptor artifact node
        t.invocationGeneration).occupied = true := rfl
    simp only [validateFrameDescriptor, occupied, Bool.not_true, Bool.false_eq_true,
      if_false, beq_iff_eq]
    split_ifs with negative aligned
    · exact iff_of_false (by omega) (by omega)
    · exact ⟨fun status => ⟨by omega, fun _ => status⟩, fun both => both.2 aligned⟩
    · exact iff_of_true (Int.le_refl 0) ⟨by omega, fun same => (aligned same).elim⟩
  have view : (frame.described artifact node).wireFormat = frame.wireFormat ∧
      (frame.described artifact node).length = frame.payload.length ∧
      (frame.described artifact node).payload = frame.hostOffset := by
    unfold OutputFrame.described
    split <;> exact ⟨rfl, rfl, rfl⟩
  rw [valid, frameStatus_descriptor placed node opened, alignedTypeStatus_descriptor, taken_iff,
    view.1, view.2.1, view.2.2]
  constructor
  · rintro ⟨⟨⟨power, format⟩, typed⟩, _, edges⟩
    refine ⟨⟨format, fun row member => (edges row member).1⟩, power, fun aligned => ?_,
      fun row member => (edges row member).2⟩
    obtain ⟨row, found, layout⟩ := typed aligned
    refine ⟨row, found, fun plain => ?_⟩
    obtain ⟨eligible, stride, _, _, order, _⟩ := layout plain
    exact ⟨eligible, stride, order⟩
  · rintro ⟨⟨format, conveyed⟩, power, typed, edges⟩
    refine ⟨⟨⟨power, format⟩, fun aligned => ?_⟩, format, fun row member =>
      ⟨conveyed row member, edges row member⟩⟩
    obtain ⟨row, found, layout⟩ := typed aligned
    refine ⟨row, found, fun plain => ?_⟩
    obtain ⟨eligible, stride, order⟩ := layout plain
    have conveys := conveyed row (mem_named found) plain
    rw [if_pos ⟨aligned, eligible⟩] at conveys
    exact ⟨eligible, stride, conveys.1, conveys.2 stride, order,
      (edges row (mem_named found)).2 aligned plain eligible⟩

theorem described_presentable (node : Nat) :
    Presentable host (frame.described artifact node) frame.port ∧
      ∀ t : State, t.current = s.current →
        Carries (frame.described artifact node)
          (findCurrentAlias t (frame.described artifact node).payload
            (frame.described artifact node).length) frame.payload := by
  obtain ⟨view, same⟩ : ∃ view, view = frame.described artifact node := ⟨_, rfl⟩
  have fields : view.port = some frame.port ∧ view.payload = frame.hostOffset ∧
      view.length = frame.payload.length ∧ view.contents = frame.payload ∧
      view.ownership = 0 ∧ view.mutability = 0 ∧ view.ownedStorage = none := by
    rw [same]
    unfold OutputFrame.described
    split <;> exact ⟨rfl, rfl, rfl, rfl, rfl, rfl, rfl⟩
  obtain ⟨port, payload, length, contents, ownership, mutability, unowned⟩ := fields
  rw [← same]
  refine ⟨⟨port, by simp [ownership], mutability, fun long => ?_⟩, fun t current => ?_⟩
  · rw [length] at long
    rw [payload, length]
    exact placed.writtenAt (List.ne_nil_of_length_pos long)
  · refine ⟨length, by simp [contents, length], fun storage owner => ?_,
      fun _ storage offset found nonempty => ?_⟩
    · rw [unowned] at owner
      cases owner
    · rw [payload, length, findCurrentAlias_congr current] at found
      exact placed.hostSlice storage offset found nonempty

end

end Verdicts

end SpaceDataModule.FlowRuntime
