import SpaceDataModule.FlowRuntime.Changes

/-! What `route_output` accepts and what it appends. Both dispatch paths end in
it, so both are compared through the two facts proved here: the frames it takes,
and the queue entries a taken frame leaves behind. -/
namespace SpaceDataModule.FlowRuntime

/-- What a consumer can tell of a queued frame apart from its numbering. -/
structure QueueEntry where
  port : CString
  payload : List UInt8
  wireFormat : Nat
  byteLength : Nat
  deriving DecidableEq

def QueuedFrame.entry (frame : QueuedFrame) : QueueEntry :=
  ⟨frame.port, frame.payload, frame.wireFormat, frame.byteLength⟩

def State.entries (s : State) (node : Nat) : List QueueEntry :=
  (s.queues node).map QueuedFrame.entry

def PayloadStorage.slice (storage : PayloadStorage) (offset length : Nat) : List UInt8 :=
  (storage.bytes.drop offset).take length

def FlowEdge.entry (edge : FlowEdge) (wireFormat : Nat) (payload : List UInt8) : QueueEntry :=
  let aligned := !edge.opaqueBytes && edge.alignedEligible && wireFormat == alignedBinaryFormat
  { port := edge.toPort
    payload := payload
    wireFormat := if aligned then wireFormat else flatbufferFormat
    byteLength :=
      if aligned then
        if edge.alignedByteLength != 0 then edge.alignedByteLength else payload.length
      else 0 }

/-- The entries a frame on `(node, port)` leaves in the queue of `target`. -/
def arrivals (tables : FlowTables) (node : Nat) (port : CString) (wireFormat : Nat)
    (payload : List UInt8) (target : Nat) : List QueueEntry :=
  ((tables.matchingEdges node port).filter fun row => row.1.toNode == target).map
    fun row => row.1.entry wireFormat payload

section Edges

def FlowEdge.Conveys (edge : FlowEdge) (wireFormat length : Nat) : Prop :=
  edge.opaqueBytes = false →
    if wireFormat = alignedBinaryFormat ∧ edge.alignedEligible = true then
      isPowerOfTwo edge.alignedRequiredAlignment = true ∧
        (edge.alignedByteLength ≠ 0 → length = edge.alignedByteLength)
    else edge.canonicalFallbackAvailable = true
  deriving Decidable

def FlowEdge.Contradicts (edge : FlowEdge) (out : FlowOutputFrameView) : Prop :=
  if edge.opaqueBytes = true then outputDeclaresIdentity out = true
  else outputMatchesEdgeIdentity out edge = false ∨
    (out.wireFormat = alignedBinaryFormat ∧ edge.alignedEligible = true ∧
      ((edge.alignedByteLength ≠ 0 ∧ out.byteLength ≠ 0 ∧
          out.byteLength ≠ edge.alignedByteLength) ∨
        (out.fixedStringLength ≠ 0 ∧ out.fixedStringLength ≠ edge.alignedFixedStringLength) ∨
        (out.requiredAlignment ≠ 0 ∧ out.requiredAlignment ≠ edge.alignedRequiredAlignment)))
  deriving Decidable

/-- The address suits every edge the frame keeps its aligned layout on. -/
def AlignedFor (wireFormat address : Nat) (edge : FlowEdge) : Prop :=
  wireFormat = alignedBinaryFormat → edge.opaqueBytes = false → edge.alignedEligible = true →
    address % edge.alignedRequiredAlignment = 0
  deriving Decidable

theorem layoutAdmits_iff (out : FlowOutputFrameView) (edge : FlowEdge) :
    layoutAdmits out edge = true ↔
      (isPowerOfTwo edge.alignedRequiredAlignment = true ∧
        (edge.alignedByteLength ≠ 0 → out.length = edge.alignedByteLength)) ∧
      ¬ ((edge.alignedByteLength ≠ 0 ∧ out.byteLength ≠ 0 ∧
            out.byteLength ≠ edge.alignedByteLength) ∨
          (out.fixedStringLength ≠ 0 ∧ out.fixedStringLength ≠ edge.alignedFixedStringLength) ∨
          (out.requiredAlignment ≠ 0 ∧ out.requiredAlignment ≠ edge.alignedRequiredAlignment)) ∧
      out.payload % edge.alignedRequiredAlignment = 0 := by
  simp only [layoutAdmits]
  grind

/-- An edge refuses nothing exactly when it conveys the frame, contradicts no
declaration and finds the payload aligned. -/
theorem edgeRefusal_eq_none_iff (format : out.wireFormat ≤ alignedBinaryFormat) :
    edgeRefusal out edge = none ↔
      edge.Conveys out.wireFormat out.length ∧ ¬ edge.Contradicts out ∧
        AlignedFor out.wireFormat out.payload edge := by
  unfold edgeRefusal FlowEdge.Conveys FlowEdge.Contradicts AlignedFor
  cases blind : edge.opaqueBytes with
  | true => cases outputDeclaresIdentity out <;> simp
  | false =>
    cases same : outputMatchesEdgeIdentity out edge with
    | false => simp
    | true =>
      have formats : out.wireFormat = flatbufferFormat ∨ out.wireFormat = alignedBinaryFormat := by
        unfold alignedBinaryFormat at format ⊢
        unfold flatbufferFormat
        omega
      rcases formats with flat | aligned
      · have other : ¬ flatbufferFormat = alignedBinaryFormat := by decide
        simp [flat, other]
      · have other : (alignedBinaryFormat == flatbufferFormat) = false := by decide
        cases eligible : edge.alignedEligible with
        | false => simp [aligned, other]
        | true => simp [aligned, other, layoutAdmits_iff, and_assoc]

/-- A copy is aligned as the edge asks, or the frame travels as bytes. -/
theorem AlignedFor.usable (aligned : AlignedFor out.wireFormat out.payload edge) :
    (if ridesAligned out edge then edge.alignedRequiredAlignment else 1) ≤ 1 ∨
      out.payload % (if ridesAligned out edge then edge.alignedRequiredAlignment else 1) = 0 := by
  by_cases rides : ridesAligned out edge = true
  · rw [if_pos rides]
    simp only [ridesAligned, Bool.and_eq_true, Bool.not_eq_true', beq_iff_eq] at rides
    exact .inr (aligned rides.2 rides.1.1 rides.1.2)
  · simp [rides]

end Edges

section Storage

theorem copyPayload_slice (payload : List UInt8) (alignment : Nat) :
    (copyPayload artifact s payload alignment).1.slice
      (copyPayload artifact s payload alignment).2 payload.length = payload := by
  unfold copyPayload PayloadStorage.slice
  by_cases empty : payload.isEmpty
  · simp [List.isEmpty_iff.mp empty]
  · simp only [empty, Bool.false_eq_true, if_false]
    rw [List.append_assoc, List.drop_append_of_le_length (by simp), List.drop_replicate,
      Nat.sub_self, List.replicate_zero, List.nil_append, List.take_append_of_le_length (by simp),
      List.take_length]

/-- Whichever storage the router chooses for a frame it takes, it holds `payload`. -/
structure Carries (out : FlowOutputFrameView) (aliased : Option (Option PayloadStorage × Nat))
    (payload : List UInt8) : Prop where
  length : out.length = payload.length
  contents : out.contents.take out.length = payload
  owned : ∀ storage, out.ownedStorage = some storage → payload ≠ [] →
    out.payload = storage.address + out.ownedOffset ∧
      storage.slice out.ownedOffset payload.length = payload
  slices : out.ownedStorage = none → ∀ storage offset, aliased = some (storage, offset) →
    payload ≠ [] → ∃ bytes, storage = some bytes ∧ bytes.slice offset payload.length = payload

/-- A caller-owned payload is shared, since a frame that keeps its layout is
aligned where it lies; any other payload is borrowed or copied. -/
theorem routeStorage_slice (artifact : Artifact) (s : State) (carries : Carries out aliased payload)
    (nonempty : payload ≠ []) (alignment : Nat)
    (usable : alignment ≤ 1 ∨ out.payload % alignment = 0) :
    ∃ bytes, (routeStorage artifact s out aliased alignment).1 = some bytes ∧
      bytes.slice (routeStorage artifact s out aliased alignment).2.1 payload.length =
        payload := by
  cases owner : out.ownedStorage with
  | some storage =>
    obtain ⟨address, slice⟩ := carries.owned storage owner nonempty
    have long : 0 < out.length := by
      rw [carries.length]
      exact List.length_pos_of_ne_nil nonempty
    have shared : (decide (0 < out.length) && (decide (alignment ≤ 1) ||
        (storage.address + out.ownedOffset) % alignment == 0)) = true := by
      rw [← address]
      simpa [long] using usable
    simp only [routeStorage, owner, shared]
    exact ⟨storage, rfl, slice⟩
  | none =>
    simp only [routeStorage, owner, borrowedStorage]
    cases found : aliased with
    | some choice =>
      obtain ⟨storage, offset⟩ := choice
      exact carries.slices owner storage offset found nonempty
    | none =>
      simp only [carries.contents]
      exact ⟨_, rfl, copyPayload_slice payload alignment⟩

/-- The frame built from any storage choice reads back the payload. -/
theorem routedFrame_entry (carries : Carries out aliased payload) (row : FlowEdge × Nat)
    (frameId alignment : Nat) (usable : alignment ≤ 1 ∨ out.payload % alignment = 0) :
    (routedFrame out row frameId (routeStorage artifact s out aliased alignment).1
      (routeStorage artifact s out aliased alignment).2.1).entry =
        row.1.entry out.wireFormat payload := by
  have bytes : (routedFrame out row frameId (routeStorage artifact s out aliased alignment).1
      (routeStorage artifact s out aliased alignment).2.1).payload = payload := by
    by_cases empty : payload = []
    · have zero : out.length = 0 := by rw [carries.length, empty, List.length_nil]
      simp only [QueuedFrame.payload, routedFrame, zero, empty]
      split <;> rfl
    · obtain ⟨bytes, chosen, slice⟩ :=
        routeStorage_slice artifact s carries empty alignment usable
      simp only [routedFrame, chosen, carries.length]
      exact slice
  simp only [QueuedFrame.entry, bytes]
  simp only [routedFrame, carries.length]
  rfl

end Storage

section Routing

theorem routeEdges_entries (carries : Carries out aliased payload) (rows : List (FlowEdge × Nat))
    (aligned : ∀ row ∈ rows, AlignedFor out.wireFormat out.payload row.1) (target : Nat) :
    (rows.foldl (routeEdge artifact out aliased) s).entries target =
      s.entries target ++
        (rows.filter fun row => row.1.toNode == target).map
          fun row => row.1.entry out.wireFormat payload := by
  have arrives : Arrives rows (·.1.toNode) QueuedFrame.entry
      (fun row => row.1.entry out.wireFormat payload) s
      (rows.foldl (routeEdge artifact out aliased) s) target :=
    foldl_arrives rows (fun row member s =>
      ⟨_, rfl, routedFrame_entry carries row _ _ (aligned row member).usable⟩) s target
  obtain ⟨frames, queue, entries⟩ := arrives
  rw [State.entries, queue, List.map_append, entries]
  rfl

/-- The two refusals that do not depend on the edges are absent: the view has a
port, is immutable, and its payload lies in linear memory. -/
structure Presentable (memory : LinearMemory) (out : FlowOutputFrameView) (port : CString) :
    Prop where
  port : out.port = some port
  ownership : out.ownership ≤ transferredOwnership
  immutable : out.mutability = 0
  readable : 0 < out.length →
    out.payload ≠ 0 ∧ validMemoryRange memory out.payload out.length = true

/-- Of a presentable view only the edges and the format decide. -/
theorem routeOutput_cases (artifact : Artifact) (s : State)
    (presentable : Presentable memory out port) (node : Nat) :
    (Taken artifact node port out ∧
      routeOutput artifact memory s node out =
        ((artifact.matchingEdges node port).foldl
          (routeEdge artifact out (findCurrentAlias s out.payload out.length)) s,
          ((artifact.matchingEdges node port).length : Int))) ∨
    (¬ Taken artifact node port out ∧
      (routeOutput artifact memory s node out).1.queues = s.queues ∧
      (routeOutput artifact memory s node out).2 < 0) := by
  rcases routeOutput_spec artifact memory s node out with
    ⟨refused, negative, same⟩ | ⟨-, _, is, taken, result⟩
  · refine .inr ⟨fun taken => ?_, same.queues, negative⟩
    have unrefused := List.findSome?_eq_none_iff.mpr taken.2
    have format := taken.1
    have ownership := presentable.ownership
    have readable := presentable.readable
    simp [outputRefused, presentable.port, presentable.immutable] at refused
    grind
  · rw [presentable.port] at is
    cases is
    exact .inl ⟨taken, result⟩

theorem routeOutput_taken (presentable : Presentable memory out port)
    (carries : Carries out (findCurrentAlias s out.payload out.length) payload) (node : Nat)
    (taken : Taken artifact.toFlowTables node port out) :
    0 ≤ (routeOutput artifact memory s node out).2 ∧
      ∀ target, (routeOutput artifact memory s node out).1.entries target =
        s.entries target ++
          arrivals artifact.toFlowTables node port out.wireFormat payload target := by
  rcases routeOutput_cases artifact s presentable node with ⟨_, result⟩ | ⟨refused, _, _⟩
  · rw [result]
    refine ⟨Int.natCast_nonneg _, fun target => routeEdges_entries carries _ ?_ target⟩
    exact fun row member => ((edgeRefusal_eq_none_iff taken.1).mp (taken.2 row member)).2.2
  · exact (refused taken).elim

theorem routeOutput_refused (presentable : Presentable memory out port) (node : Nat)
    (refused : ¬ Taken artifact.toFlowTables node port out) :
    (routeOutput artifact memory s node out).2 < 0 ∧
      (routeOutput artifact memory s node out).1.queues = s.queues := by
  rcases routeOutput_cases artifact s presentable node with ⟨taken, _⟩ | ⟨_, queues, negative⟩
  · exact (refused taken).elim
  · exact ⟨negative, queues⟩

end Routing

end SpaceDataModule.FlowRuntime
