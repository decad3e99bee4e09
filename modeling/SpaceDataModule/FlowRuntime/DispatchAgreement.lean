import SpaceDataModule.FlowRuntime.OutputFrames

/-! Linked against host-driven dispatch. One list of output frames is pushed
through the invoke shim and, described by one frame descriptor each, applied by
the host. The descriptor check in front of the host path refuses frames the
router takes, so the two paths agree only under a condition on the frames; the
condition is exact. -/
namespace SpaceDataModule.FlowRuntime

section Loops

/-- Outputs the linked loop routes before it stops. -/
def shimAccepted (artifact : Artifact) (memory : LinearMemory) (node : Nat) :
    List ShimOutput → State → Nat
  | [], _ => 0
  | out :: rest, s =>
    let result := routeOutput artifact memory s node (shimOutputView out)
    if result.2 < 0 then 0 else shimAccepted artifact memory node rest result.1 + 1

/-- Frames the host loop routes before it stops. -/
def framesAccepted (artifact : Artifact) (memory : LinearMemory) (node : Nat) :
    List FlowFrameDescriptor → State → Nat
  | [], _ => 0
  | fd :: rest, s =>
    if !fd.occupied then framesAccepted artifact memory node rest s + 1
    else if validateFrameDescriptor artifact memory s fd true < 0 then 0
    else
      let result := routeOutput artifact memory s node (hostOutputView artifact memory fd)
      if result.2 < 0 then 0 else framesAccepted artifact memory node rest result.1 + 1

theorem routeShimOutputs_step (artifact : Artifact) (t : State) (node : Nat)
    (shimmed : Shimmed s guest frame out) (rest : List ShimOutput) (routed : Nat) (status : Int) :
    (Conveyed artifact node frame ∧ PushStands artifact s node frame →
      ∃ next more, next.current = t.current ∧
        (∀ target, next.entries target = t.entries target ++
          arrivals artifact node frame.port frame.wireFormat frame.payload target) ∧
        shimAccepted artifact guest node (out :: rest) t =
          shimAccepted artifact guest node rest next + 1 ∧
        routeShimOutputs artifact guest node (out :: rest) t routed status =
          routeShimOutputs artifact guest node rest next more status) ∧
    (¬ (Conveyed artifact node frame ∧
        PushStands artifact s node frame) →
      shimAccepted artifact guest node (out :: rest) t = 0 ∧
        ∀ target, (routeShimOutputs artifact guest node (out :: rest) t routed status).1.entries
          target = t.entries target) := by
  have format : (shimOutputView out).wireFormat = frame.wireFormat :=
    congrArg (·.wireFormat) shimmed.view
  simp only [shimAccepted, routeShimOutputs]
  constructor
  · intro stands
    obtain ⟨accepted, entries⟩ := routeOutput_taken (s := t) shimmed.presentable
      (shimmed.carries _) node (shimmed.taken_iff.mpr stands)
    rw [format] at entries
    simp only [if_neg (Int.not_lt.mpr accepted)]
    exact ⟨_, _, Deliveries.current (routeOutput_delivers artifact guest t node _), entries,
      rfl, rfl⟩
  · intro falls
    obtain ⟨negative, queues⟩ := routeOutput_refused (s := t) shimmed.presentable node
      fun taken => falls (shimmed.taken_iff.mp taken)
    simp only [if_pos negative, State.entries, queues]
    exact ⟨trivial, fun _ => trivial⟩

/-- One frame through the host loop, refused by the check or by the router alike. -/
theorem applyFrames_step (node : Nat) (placed : Placed artifact s host guest frame)
    (same : t.current = s.current) (opened : s.current.isSome = true)
    (current : t.invocationGeneration = s.invocationGeneration) (rest : List FlowFrameDescriptor)
    (routed : Nat) :
    let fd := frame.descriptor artifact node s.invocationGeneration
    (Conveyed artifact node frame ∧
        DescriptorStands artifact node frame →
      ∃ next more, next.current = t.current ∧
        next.invocationGeneration = t.invocationGeneration ∧
        (∀ target, next.entries target = t.entries target ++
          arrivals artifact node frame.port frame.wireFormat frame.payload target) ∧
        framesAccepted artifact host node (fd :: rest) t =
          framesAccepted artifact host node rest next + 1 ∧
        applyFrames artifact host node (fd :: rest) t routed =
          applyFrames artifact host node rest next more) ∧
    (¬ (Conveyed artifact node frame ∧
        DescriptorStands artifact node frame) →
      framesAccepted artifact host node (fd :: rest) t = 0 ∧
        ∀ target, (applyFrames artifact host node (fd :: rest) t routed).1.entries target =
          t.entries target) := by
  intro fd
  have taken := descriptor_taken_iff (t := t) placed node (same ▸ opened)
  rw [current] at taken
  obtain ⟨presentable, carries⟩ := described_presentable placed node
  have format : (frame.described artifact node).wireFormat = frame.wireFormat := by
    unfold OutputFrame.described
    split <;> rfl
  have occupied : fd.occupied = true := rfl
  have view : hostOutputView artifact host fd = frame.described artifact node :=
    hostOutputView_described placed node s.invocationGeneration
  simp only [framesAccepted, applyFrames, occupied, view, Bool.not_true, Bool.false_eq_true,
    if_false]
  constructor
  · intro stands
    obtain ⟨valid, routes⟩ := taken.mpr stands
    obtain ⟨accepted, entries⟩ := routeOutput_taken (s := t) presentable (carries t same) node routes
    rw [format] at entries
    simp only [fd, if_neg (Int.not_lt.mpr valid), if_neg (Int.not_lt.mpr accepted)]
    have delivered := routeOutput_delivers artifact host t node
      (frame.described artifact node)
    exact ⟨_, _, Deliveries.current delivered, Deliveries.generation delivered, entries, rfl, rfl⟩
  · intro falls
    by_cases valid : validateFrameDescriptor artifact host t fd true < 0
    · simp only [if_pos valid]
      exact ⟨trivial, fun _ => rfl⟩
    · have refused : ¬ Taken artifact node frame.port
          (frame.described artifact node) :=
        fun routes => falls (taken.mp ⟨Int.not_lt.mp valid, routes⟩)
      obtain ⟨negative, queues⟩ := routeOutput_refused (s := t) presentable node refused
      simp only [if_neg valid, if_pos negative, State.entries, queues]
      exact ⟨trivial, fun _ => trivial⟩

theorem diverges_iff :
    Diverges tables s node frame ↔
      ¬ ((Conveyed tables node frame ∧ PushStands tables s node frame) ↔
        (Conveyed tables node frame ∧ DescriptorStands tables node frame)) := by
  unfold Diverges
  tauto

/-- The two loops side by side, from queues that look alike. The induction is on
the frames still to be routed; a frame only one loop takes ends the comparison. -/
theorem loops_agree_iff (shimmed : List.Forall₂ (Shimmed s guest) frames outputs)
    (placed : ∀ frame ∈ frames, Placed artifact s host guest frame)
    (opened : s.current.isSome = true) (u v : State) (left : u.current = s.current)
    (right : v.current = s.current) (generation : v.invocationGeneration = s.invocationGeneration)
    (same : ∀ target, u.entries target = v.entries target) (sent routed : Nat) (status : Int) :
    (shimAccepted artifact guest node outputs u =
        framesAccepted artifact host node (frames.map fun frame =>
          frame.descriptor artifact node s.invocationGeneration) v ∧
      ∀ target, (routeShimOutputs artifact guest node outputs u sent status).1.entries target =
        (applyFrames artifact host node (frames.map fun frame =>
          frame.descriptor artifact node s.invocationGeneration) v routed).1.entries
            target) ↔
      NoneDiverges artifact s node frames := by
  induction shimmed generalizing u v sent routed with
  | nil => exact iff_of_true ⟨rfl, same⟩ trivial
  | @cons frame out frames outputs head tail ih =>
    have here := placed frame (by simp)
    have rest := fun other member => placed other (List.mem_cons_of_mem frame member)
    obtain ⟨linkedTakes, linkedRefuses⟩ :=
      routeShimOutputs_step artifact u node head outputs sent status
    obtain ⟨hostTakes, hostRefuses⟩ := applyFrames_step node here right opened generation
      (frames.map fun frame =>
        frame.descriptor artifact node s.invocationGeneration) routed
    rw [NoneDiverges, diverges_iff, not_not, ← and_imp, List.map_cons]
    by_cases pushed : Conveyed artifact node frame ∧
        PushStands artifact s node frame
    · obtain ⟨u', sent', current, entries, counted, routes⟩ := linkedTakes pushed
      by_cases described : Conveyed artifact node frame ∧
          DescriptorStands artifact node frame
      · obtain ⟨v', routed', current', generation', entries', counted', routes'⟩ :=
          hostTakes described
        rw [counted, counted', routes, routes', Nat.add_right_cancel_iff,
          ih rest u' v' (current.trans left) (current'.trans right)
            (generation'.trans generation) (fun target => by rw [entries, entries', same])]
        exact ⟨fun later => ⟨iff_of_true pushed described, fun _ => later⟩,
          fun both => both.2 pushed⟩
      · obtain ⟨refused, _⟩ := hostRefuses described
        rw [counted, refused]
        exact iff_of_false (fun both => Nat.succ_ne_zero _ both.1)
          (fun both => described (both.1.mp pushed))
    · obtain ⟨refused, kept⟩ := linkedRefuses pushed
      by_cases described : Conveyed artifact node frame ∧
          DescriptorStands artifact node frame
      · obtain ⟨v', routed', _, _, _, counted', _⟩ := hostTakes described
        rw [refused, counted']
        exact iff_of_false (fun both => Nat.succ_ne_zero _ both.1.symm)
          (fun both => pushed (both.1.mpr described))
      · obtain ⟨refused', kept'⟩ := hostRefuses described
        refine iff_of_true ⟨refused.trans refused'.symm, fun target => ?_⟩
          ⟨iff_of_false pushed described, fun both => (pushed both).elim⟩
        rw [kept, kept', same]

end Loops

/-- Output frames `dispatch_current_invocation_direct` accepts. -/
def linkedAccepted (artifact : Artifact) (guest : GuestRun) (s : State) : Nat :=
  match s.current with
  | none => 0
  | some invocation =>
    if !artifact.nodeIsLinked invocation.node then 0
    else
      let called := guest.calls.foldl (shimStep artifact) (s.enterEntry invocation, {})
      shimAccepted artifact guest.memory invocation.node called.2.outputs called.1

/-- Output frames `apply_node_invocation_result` accepts, behind its own checks. -/
def hostAccepted (artifact : Artifact) (memory : LinearMemory) (s : State) (node : Nat)
    (framesPtr : Int) (frameCount : Nat) : Nat :=
  if maxInvocationFrames < frameCount ∨ (0 < frameCount ∧ (framesPtr ≤ 0 ∨
      validMemoryRange memory framesPtr.toNat (frameCount * frameDescriptorSize) = false)) then 0
  else framesAccepted artifact memory node
    ((List.range frameCount).map fun i =>
      memory.frameDescriptor (framesPtr.toNat + i * frameDescriptorSize)) s

/-- The same frames staged for both paths: the entry pushes them in order, and
the host has written one descriptor each. -/
structure Staged (artifact : Artifact) (s : State) (host : LinearMemory) (guest : GuestRun)
    (node : Nat) (framesPtr : Int) (frames : List OutputFrame) : Prop where
  pushes : guest.calls = pushCalls frames
  table : frames ≠ [] → 0 < framesPtr ∧
    validMemoryRange host framesPtr.toNat (frames.length * frameDescriptorSize) = true
  descriptors : (List.range frames.length).map (fun i =>
      host.frameDescriptor (framesPtr.toNat + i * frameDescriptorSize)) =
    frames.map fun frame => frame.descriptor artifact.toFlowTables node s.invocationGeneration
  placed : ∀ frame ∈ frames, Placed artifact s host guest.memory frame

section Agreement

theorem Staged.table_checks (staged : Staged artifact s host guest node framesPtr frames) :
    ¬ (0 < frames.length ∧ (framesPtr ≤ 0 ∨ validMemoryRange host framesPtr.toNat
      (frames.length * frameDescriptorSize) = false)) := by
  rintro ⟨long, refused⟩
  obtain ⟨positive, valid⟩ := staged.table (List.ne_nil_of_length_pos long)
  rcases refused with null | outside
  · omega
  · rw [valid] at outside
    cases outside

/-- The host path over a staged list, as one case distinction. -/
theorem applyNodeInvocationResult_staged (opened : s.current = some invocation)
    (inside : invocation.node < artifact.nodeCount)
    (staged : Staged artifact s host guest invocation.node framesPtr frames)
    (status backlog yielded : Int) :
    let descriptors := frames.map fun frame =>
      frame.descriptor artifact invocation.node s.invocationGeneration
    (frames.length ≤ maxInvocationFrames →
      hostAccepted artifact host s invocation.node framesPtr frames.length =
          framesAccepted artifact host invocation.node descriptors s ∧
        ∀ target, (applyNodeInvocationResult artifact host s invocation.node status backlog yielded
            framesPtr frames.length).1.entries target =
          (applyFrames artifact host invocation.node descriptors s 0).1.entries target) ∧
    (¬ frames.length ≤ maxInvocationFrames →
      hostAccepted artifact host s invocation.node framesPtr frames.length = 0 ∧
        ∀ target, (applyNodeInvocationResult artifact host s invocation.node status backlog yielded
          framesPtr frames.length).1.entries target = s.entries target) := by
  intro descriptors
  have table := staged.table_checks
  rcases applyNodeInvocationResult_cases artifact host s invocation.node status backlog yielded
    framesPtr frames.length with ⟨unread, same⟩ | ⟨read, other, current, node, result⟩
  · have long : ¬ frames.length ≤ maxInvocationFrames := by
      intro short
      apply unread
      rw [TableRead]
      grind
    rw [same, hostAccepted, if_pos (.inl (Nat.lt_of_not_le long))]
    exact ⟨fun short => absurd short long, fun _ => ⟨rfl, fun _ => rfl⟩⟩
  · have short : frames.length ≤ maxInvocationFrames := by
      have := read.2.2.2.2.1
      omega
    rw [result, hostAccepted, if_neg (not_or.mpr ⟨Nat.not_lt.mpr short, table⟩), resultFrames]
    simp only [Int.toNat_natCast, staged.descriptors]
    refine ⟨fun _ => ⟨rfl, fun target => ?_⟩, fun long => absurd short long⟩
    split_ifs <;> rfl

/-- Both paths accept the same frames and leave equal queue entries exactly when
the frames are alike: at most 64 of them, and none that is reached, has a port
that conveys it and stands as pushed or as described but not as both. -/
theorem dispatch_agreement_iff (artifact : Artifact) (s : State) (invocation : Invocation)
    (opened : s.current = some invocation) (inside : invocation.node < artifact.nodeCount)
    (linked : artifact.nodeIsLinked invocation.node = true) (frames : List OutputFrame)
    (host : LinearMemory) (guest : GuestRun) (framesPtr status backlog yielded : Int)
    (staged : Staged artifact s host guest invocation.node framesPtr frames) :
    (linkedAccepted artifact guest s =
        hostAccepted artifact host s invocation.node framesPtr frames.length ∧
      ∀ target, (dispatchCurrentInvocationDirect artifact guest s).1.entries target =
        (applyNodeInvocationResult artifact host s invocation.node status backlog yielded framesPtr
          frames.length).1.entries target) ↔
      Alike artifact.toFlowTables s invocation.node frames := by
  obtain ⟨within, beyond⟩ :=
    applyNodeInvocationResult_staged opened inside staged status backlog yielded
  obtain ⟨outputs, shimmed, collected, kept⟩ := pushCalls_shimmed frames staged.placed
    (s.enterEntry invocation, {}) rfl
  simp only [List.nil_append] at collected
  simp only [linkedAccepted, dispatchCurrentInvocationDirect, opened, linked, Bool.not_true,
    Bool.false_eq_true, if_false, staged.pushes, collected, Alike]
  obtain ⟨called, calledAt⟩ : ∃ called, called =
    ((pushCalls frames).foldl (shimStep artifact) (s.enterEntry invocation, {})).1 := ⟨_, rfl⟩
  rw [← calledAt] at kept ⊢
  have entries : ∀ target, called.entries target = s.entries target := fun target =>
    congrArg (fun queue => (queue target).map QueuedFrame.entry) kept.queues
  split_ifs with short
  · obtain ⟨counted, applied⟩ := within short
    rw [counted]
    simp only [applied]
    exact loops_agree_iff shimmed staged.placed (by simp [opened]) called s kept.current rfl rfl
      entries 0 0 guest.status
  · obtain ⟨counted, applied⟩ := beyond short
    rw [counted]
    simp only [applied]
    cases shimmed with
    | nil => exact (short (Nat.zero_le _)).elim
    | @cons first out rest outputs head tail =>
      obtain ⟨takes, refuses⟩ :=
        routeShimOutputs_step artifact called invocation.node head outputs 0 guest.status
      by_cases pushed : Conveyed artifact.toFlowTables invocation.node first ∧
          PushStands artifact.toFlowTables s invocation.node first
      · obtain ⟨_, _, _, _, more, _⟩ := takes pushed
        rw [more]
        exact iff_of_false (fun both => Nat.succ_ne_zero _ both.1) (fun all => all first rfl pushed)
      · obtain ⟨none, unchanged⟩ := refuses pushed
        refine iff_of_true ⟨none, fun target => (unchanged target).trans (entries target)⟩ ?_
        intro other same
        cases same
        exact pushed

def canonicalOnly : Artifact where
  nodeCount := 2
  triggerCount := 1
  routeEdgeCount := 1
  edges := [
    { fromNode := 0, fromPort := [111], toNode := 1, toPort := [105], schemaName := some [72],
      canonicalFallbackAvailable := true },
    { fromNode := 0, fromPort := [], toNode := 0, toPort := [116] }]
  triggerBindings := [⟨0, 0, [116], 1⟩]
  requiredPorts := []
  nodeIsLinked _ := true
  nodes_pos := Nat.two_pos
  route_edges := by decide
  edges_indexed := by decide
  edges_valid := by decide
  bindings_valid := by decide
  place _ _ := 4096

def tickOpened : State :=
  [Call.enqueueTriggerFrames 0, .beginNodeInvocation 0 64].foldl (step canonicalOnly) State.initial

variable (wireFormat : Nat)

def threeBytes : OutputFrame where
  port := [111]
  schemaName := some [72]
  wireFormat := wireFormat
  payload := [1, 2, 3]
  guestPtr := 2048
  hostOffset := 8192
  hostPortPtr := 1024

def threeBytesMemory : LinearMemory where
  size := 65536
  byte address :=
    if address == 1024 then 111 else if address == 8192 then 1
    else if address == 8193 then 2 else if address == 8194 then 3 else 0
  frameDescriptor _ := (threeBytes wireFormat).descriptor canonicalOnly.toFlowTables 0
    tickOpened.invocationGeneration

def threeBytesGuest : GuestRun where
  calls := pushCalls [threeBytes wireFormat]
  status := 0
  memory := threeBytesMemory wireFormat

theorem threeBytes_staged :
    Staged canonicalOnly tickOpened (threeBytesMemory wireFormat) (threeBytesGuest wireFormat) 0
      16384 [threeBytes wireFormat] := by
  have hostFresh : findCurrentAlias tickOpened 8192 3 = none := by decide
  have guestFresh : findCurrentAlias tickOpened 2048 3 = none := by decide
  have valid : ∀ offset size, offset + size ≤ 65536 →
      validMemoryRange (threeBytesMemory wireFormat) offset size = true := by
    intro offset size fits
    have bounds : offset ≤ 65536 ∧ size ≤ 65536 - offset := by omega
    simpa [validMemoryRange, threeBytesMemory] using bounds
  have limit : cStringLimit (threeBytesMemory wireFormat) 1024 = 1022 + 1 + 1 := by
    simp [cStringLimit, threeBytesMemory]
  have text : readCString (threeBytesMemory wireFormat) 1024
      (cStringLimit (threeBytesMemory wireFormat) 1024) = some [111] := by
    rw [limit]
    rfl
  refine ⟨rfl, fun _ => ⟨by decide, valid _ _ (by simp [frameDescriptorSize])⟩, rfl,
    fun frame member => ?_⟩
  obtain rfl := List.mem_singleton.mp member
  refine ⟨.inr ⟨by simp [threeBytes], by simp [threeBytes, threeBytesMemory], text⟩, rfl,
    fun _ => ⟨by simp [threeBytes], valid _ _ (by simp [threeBytes])⟩, fun _ => Nat.mod_one _, ?_,
    fun _ => ⟨by simp [threeBytes], valid _ _ (by simp [threeBytes])⟩, ?_, ?_⟩
  · intro storage offset found
    cases hostFresh.symm.trans found
  · intro storage offset found
    cases guestFresh.symm.trans found
  · intro index size enough _ bound
    have exact : size = 3 := by
      have short : size < 3 + 1 := bound
      have long : 3 ≤ size := enough
      omega
    subst exact
    exact ⟨by simp [canonicalOnly], valid _ _ (by simp [canonicalOnly])⟩

theorem dispatch_agreement_canonical :
    (tickOpened.current = some ⟨0, (tickOpened.pushed 0).take 1⟩ ∧
      Staged canonicalOnly tickOpened (threeBytesMemory 0) (threeBytesGuest 0) 0 16384
        [threeBytes 0]) ∧
      linkedAccepted canonicalOnly (threeBytesGuest 0) tickOpened =
          hostAccepted canonicalOnly (threeBytesMemory 0) tickOpened 0 16384 1 ∧
        ∀ target, (dispatchCurrentInvocationDirect canonicalOnly (threeBytesGuest 0)
            tickOpened).1.entries target =
          (applyNodeInvocationResult canonicalOnly (threeBytesMemory 0) tickOpened 0 0 0 0 16384
            1).1.entries target := by
  have opened : tickOpened.current = some ⟨0, (tickOpened.pushed 0).take 1⟩ := by decide
  refine ⟨⟨opened, threeBytes_staged 0⟩, ?_⟩
  exact (dispatch_agreement_iff canonicalOnly tickOpened _ opened (by decide) rfl [threeBytes 0]
    (threeBytesMemory 0) (threeBytesGuest 0) 16384 0 0 0 (threeBytes_staged 0)).mpr (by decide)

/-- The same bytes stamped aligned-binary: the linked path delivers them, the host
path refuses the descriptor. -/
theorem dispatch_divergence_aligned :
    (Reachable canonicalOnly tickOpened ∧
      tickOpened.current = some ⟨0, (tickOpened.pushed 0).take 1⟩ ∧
      Staged canonicalOnly tickOpened (threeBytesMemory 1) (threeBytesGuest 1) 0 16384
        [threeBytes 1]) ∧
      (linkedAccepted canonicalOnly (threeBytesGuest 1) tickOpened = 1 ∧
        hostAccepted canonicalOnly (threeBytesMemory 1) tickOpened 0 16384 1 = 0 ∧
        (applyNodeInvocationResult canonicalOnly (threeBytesMemory 1) tickOpened 0 0 0 0 16384
          1).2 = -38) ∧
      ((dispatchCurrentInvocationDirect canonicalOnly (threeBytesGuest 1) tickOpened).1.entries 1 =
          [⟨[105], [1, 2, 3], flatbufferFormat, 0⟩] ∧
        (applyNodeInvocationResult canonicalOnly (threeBytesMemory 1) tickOpened 0 0 0 0 16384
          1).1.entries 1 = []) := by
  have opened : tickOpened.current = some ⟨0, (tickOpened.pushed 0).take 1⟩ := by decide
  refine ⟨⟨⟨_, Transition.Run.of_foldl _⟩, opened, threeBytes_staged 1⟩, ?_, ?_⟩
  · exact ⟨by decide, by decide, by decide⟩
  · exact ⟨by decide, by decide⟩

end Agreement

end SpaceDataModule.FlowRuntime
