import SpaceDataModule.Invoke.Discipline
import SpaceDataModule.Invoke.RoundTrip

/-! The sequence and the end of a stream, from the frame that is encoded or forwarded to the frame
that is decoded. Both are read from one id. -/
namespace SpaceDataModule.Invoke
open Checked

section Conditions

variable (fb : Flatbuffers)

def Decodes (state : State) (bytes : View) (decoded : Decoded) (next : State) :
    Prop :=
  ∃ options, decodePluginInvokeRequest fb state bytes options = .ok (decoded, next) ∨
    decodePluginInvokeResponse fb state bytes options = .ok (decoded, next)

/-- The frames are encoded, in a request or in a response, and decoded. -/
def Passes (frames decoded : List Frame) : Prop :=
  ∃ state bytes, ((∃ request, request.inputs = frames ∧
      encodePluginInvokeRequest fb state request = .ok bytes) ∨
    ∃ response, response.outputs = frames ∧
      encodePluginInvokeResponse fb state response = .ok bytes) ∧
    ∃ reader result next, Decodes fb reader bytes result next ∧ result.frames = decoded

/-- What is read from a buffer fits the fields it is read from. -/
def Flatbuffers.Typed : Prop :=
  ∀ data root, fb.read data = some root → ∀ tab ∈ root.frames, tab.Storable

/-- The id, the sequence and the flag of a decoded frame are those of a number. -/
structure Numbered (number : Int) (decoded : Frame) : Prop where
  frameId : decoded.frameId = some (.bigint number)
  sequence : decoded.sequence = some (.bigint (decodeSdsFrameId number).1)
  endOfStream : decoded.endOfStream = some (decodeSdsFrameId number).2

end Conditions

section Ids

/-- The table of a frame in an arena of the host. -/
theorem normalizeExternalArenaFrame_ok
    (ok : normalizeExternalArenaFrame state view frame = .ok tab) :
    tab.frameId = toUint64 (encodeSdsFrameId frame) ∧ tab.Storable := by
  simp only [normalizeExternalArenaFrame, bind_eq_ok] at ok
  obtain ⟨_, _, _, _, ⟨typeRef, format⟩, typed, alignment, resolved, given, _, size, sized, _, _, _,
    fits, _, _, built⟩ := ok
  obtain ⟨_, sound⟩ := normalizeFrameTypeRef_ok typed
  obtain ⟨power, bounded, below, _⟩ := resolveFrameAlignment_ok sound.requiredAlignment resolved
  obtain ⟨mutability, ownership, rfl⟩ := tabOf_ok built
  have small := readBoundedInteger_le (Nat.zero_le _) sized
  rw [assertAlignedFrameSize, require_eq_ok] at fits
  -- but for its offset the table is one of an arena of its own
  have inner : Tab.Sound ⟨0, size, alignment, format.sds, some typeRef, mutability.sds,
      ownership.sds, toUint64 (encodeSdsFrameId frame), frame.portId⟩ format :=
    ⟨rfl, ⟨typeRef, rfl, sound, below, fun binary => by simpa [binary] using fits⟩, bounded, power,
      ⟨mutability, rfl⟩, ⟨ownership, rfl⟩, by simpa using small, toUint64_lt _⟩
  refine ⟨rfl, { inner.storable with offset := ?_ }⟩
  simp only [toUint32, uint32Max]
  omega

theorem packFramesOf_ok (ok : packFramesOf state frames external = .ok arena) :
    List.Forall₂ (fun frame tab => tab.frameId = toUint64 (encodeSdsFrameId frame) ∧ tab.Storable)
      frames arena.frames := by
  rw [packFramesOf.eq_def] at ok
  split at ok
  · rw [packExternalArenaFrames.eq_def] at ok
    split at ok
    · cases ok
    · obtain ⟨tabs, mapped, ⟨⟩⟩ := bind_eq_ok.mp ok
      exact (mapM_eq_ok.mp mapped).imp fun _ _ => normalizeExternalArenaFrame_ok
  · obtain ⟨packed, holds⟩ := packArenaFrames_ok ok
    rw [holds.tabs, List.forall₂_map_right_iff]
    refine holds.related.imp fun _ _ made => ?_
    obtain ⟨_, writes, sound⟩ := made
    exact ⟨writes.frameId, sound.storable⟩

theorem encodeEnvelope_read (faithful : fb.Faithful)
    (ok : encodeEnvelope fb state kind header frames external = .ok bytes) :
    ∃ root, fb.read bytes = some root ∧
      List.Forall₂ (fun frame tab => tab.frameId = toUint64 (encodeSdsFrameId frame))
        frames root.frames := by
  rw [encodeEnvelope, bind_eq_ok] at ok
  obtain ⟨arena, packed, ok⟩ := ok
  have tabs := packFramesOf_ok packed
  split at ok
  · cases ok
  · rename_i buffer finished
    obtain ⟨_, _, ⟨⟩⟩ := bind_eq_ok.mp ok
    obtain ⟨root, read, _, same, _⟩ := faithful _ _ _ finished fun tab listed => by
      obtain ⟨_, _, _, storable⟩ := forall₂_mem_right tabs listed
      exact storable
    exact ⟨root, read, same ▸ tabs.imp fun _ _ => And.left⟩

theorem decodeEnvelope_numbered (ok : decodeEnvelope state root options = .ok (decoded, next)) :
    List.Forall₂ (fun tab frame => Numbered tab.frameId frame) root.frames decoded.frames := by
  simp only [decodeEnvelope, bind_eq_ok] at ok
  obtain ⟨pairs, read, ⟨lease, after⟩, _, found, _, results, materialized, ⟨⟩⟩ := ok
  have joined := (forall₂_join (mapM_eq_ok.mp read) (mapM_eq_ok.mp materialized)
    (T := fun tab _ frame => Numbered tab.frameId frame) ?_).1
  · exact joined.imp fun _ _ ⟨_, numbered⟩ => numbered
  · intro tab pair frame first second
    obtain ⟨decoded, taken, rfl⟩ := map_eq_ok.mp first
    simp only [materializeSdsArenaFrame, bind_eq_ok] at second
    obtain ⟨_, _, payload, _, ⟨⟩⟩ := second
    simp only [decodeSdsTabFrame, bind_eq_ok] at taken
    obtain ⟨_, _, _, _, _, _, _, _, _, _, _, _, ⟨⟩⟩ := taken
    exact ⟨rfl, rfl, rfl⟩

theorem Decodes.envelope (decodes : Decodes fb state bytes decoded next) :
    ∃ root options, fb.read bytes = some root ∧
      decodeEnvelope state root options = .ok (decoded, next) := by
  obtain ⟨options, ok | ok⟩ := decodes
  · rw [decodePluginInvokeRequest] at ok
    split at ok
    · cases ok
    · split at ok
      · exact ⟨_, options, ‹_›, ok⟩
      · cases ok
  · rw [decodePluginInvokeResponse] at ok
    split at ok
    · cases ok
    · split at ok
      · exact ⟨_, options, ‹_›, ok⟩
      · cases ok

/-- A frame that was encoded and decoded has the id it was encoded with. -/
theorem Passes.numbered (passes : Passes fb frames decoded) (faithful : fb.Faithful) :
    List.Forall₂ (fun frame got => Numbered (toUint64 (encodeSdsFrameId frame)) got)
      frames decoded := by
  obtain ⟨state, bytes, encoded, reader, result, next, decodes, rfl⟩ := passes
  obtain ⟨root, read, tabs⟩ : ∃ root, fb.read bytes = some root ∧
      List.Forall₂ (fun frame tab => tab.frameId = toUint64 (encodeSdsFrameId frame))
        frames root.frames := by
    rcases encoded with ⟨request, rfl, ok⟩ | ⟨response, rfl, ok⟩
    · exact encodeEnvelope_read faithful ok
    · exact encodeEnvelope_read faithful ok
  obtain ⟨same, options, readToo, ok⟩ := decodes.envelope
  obtain rfl := Option.some.inj (read.symm.trans readToo)
  have joined := (forall₂_join tabs (decodeEnvelope_numbered ok)
    (T := fun frame _ got => Numbered (toUint64 (encodeSdsFrameId frame)) got)
    fun _ _ _ id numbered => id ▸ numbered).1
  exact joined.imp fun _ _ ⟨_, numbered⟩ => numbered

end Ids

section Streams

/-- A forward gives on the id of its source. -/
theorem forwardOutputFrameAsInput_frameId
    (ok : forwardOutputFrameAsInput state outputFrame overrides = .ok (forwarded, next)) :
    forwarded.frameId = some (.bigint (encodeSdsFrameId outputFrame)) := by
  simp only [forwardOutputFrameAsInput, bind_eq_ok] at ok
  obtain ⟨payload, _, portId, _, wireFormat, _, ok⟩ := ok
  split_ifs at ok
  · obtain ⟨_, _, ⟨⟩⟩ := bind_eq_ok.mp ok
    rfl
  · simp only [forwardAlias, bind_eq_ok] at ok
    obtain ⟨_, _, _, _, _, _, _, _, _, _, ⟨⟩⟩ := ok
    rfl

theorem toUint64_mod_two (value : Int) : (toUint64 value : Int) % 2 = value % 2 := by
  rw [toUint64]
  omega

/-- The end of a stream is read from the last bit of the id. Without an id of its own a frame ends
a stream when it says so, unless its trace stands in the id. -/
theorem end_of_stream_iff (faithful : fb.Faithful) (passes : Passes fb frames decoded) :
    List.Forall₂ (fun frame got => frame.frameId = none →
      ((got.endOfStream = some true ↔ frame.endOfStream = some true) ↔
        frame.sequence.isSome ∨ frame.endOfStream.isSome ∨ 2 ∣ normalizeBigInt frame.traceId))
      frames decoded := by
  refine (passes.numbered faithful).imp fun frame got numbered absent => ?_
  rw [numbered.endOfStream, decodeSdsFrameId, toUint64_mod_two, encodeSdsFrameId, absent]
  cases sequence : frame.sequence with
  | some number =>
    cases ended : frame.endOfStream with
    | none => simp
    | some flag => cases flag <;> simp
  | none =>
    cases ended : frame.endOfStream with
    | none =>
      simp only [Option.isSome_none, Bool.or_self, if_false,
        Option.some.injEq, beq_iff_eq, reduceCtorEq, iff_false, false_or]
      omega
    | some flag => cases flag <;> simp

def lastFrame : Frame :=
  { portId := some "in", payload := some ⟨0, 0, [1]⟩, sequence := some (.bigint 2),
    endOfStream := some true }

def tracedFrame : Frame :=
  { portId := some "in", payload := some ⟨0, 0, [1]⟩, traceId := some (.bigint 5) }

theorem numbered_passes (packed : packArenaFrames state frames = .ok numberedArena) :
    ∃ decoded, Passes numberedFlatbuffers frames decoded ∧
      decoded.map (·.sequence) = [some (.bigint 2)] ∧
      decoded.map (·.endOfStream) = [some true] :=
  ⟨_, ⟨state, _, .inl ⟨{ inputs := frames }, rfl, storing_encodes packed⟩, {}, _, _,
    ⟨{}, .inl rfl⟩, rfl⟩, rfl, rfl⟩

theorem end_of_stream_last : ∃ decoded, Passes numberedFlatbuffers [lastFrame] decoded ∧
    List.Forall₂ (fun frame got => frame.frameId = none →
      ((got.endOfStream = some true ↔ frame.endOfStream = some true) ↔
        frame.sequence.isSome ∨ frame.endOfStream.isSome ∨ 2 ∣ normalizeBigInt frame.traceId))
      [lastFrame] decoded := by
  obtain ⟨decoded, passes, _⟩ := @numbered_passes {} [lastFrame] rfl
  exact ⟨decoded, passes, end_of_stream_iff (storing_faithful _) passes⟩

/-- A frame with a trace comes back as the end of a stream. -/
theorem trace_ends_stream : tracedFrame.frameId = none ∧ tracedFrame.endOfStream = none ∧
    ∃ decoded, Passes numberedFlatbuffers [tracedFrame] decoded ∧
      decoded.map (·.endOfStream) = [some true] := by
  obtain ⟨decoded, passes, _, ended⟩ := @numbered_passes {} [tracedFrame] rfl
  exact ⟨rfl, rfl, decoded, passes, ended⟩

/-- A forwarded frame is decoded with the sequence and the flag of its source. -/
theorem forwarded_stream_iff (faithful : fb.Faithful) (typed : fb.Typed)
    (decodes : Decodes fb reader bytes result opened) (listed : source ∈ result.frames)
    (sent : forwardOutputFrameAsInput state source overrides = .ok (forwarded, next))
    (passes : Passes fb frames decoded) :
    List.Forall₂ (fun frame got => frame = forwarded →
      (got.sequence = some (.bigint (normalizeBigInt (overrides.sequence.or source.sequence))) ∧
          got.endOfStream = overrides.endOfStream.or source.endOfStream ↔
        (∀ given, overrides.sequence = some given →
          normalizeBigInt (some given) = normalizeBigInt source.sequence) ∧
        ∀ flag, overrides.endOfStream = some flag → source.endOfStream = some flag))
      frames decoded := by
  obtain ⟨root, options, read, ok⟩ := decodes.envelope
  obtain ⟨tab, member, own⟩ := forall₂_mem_right (decodeEnvelope_numbered ok) listed
  have small := (typed bytes root read tab member).frameId
  have carried : encodeSdsFrameId forwarded = tab.frameId := by
    rw [encodeSdsFrameId, forwardOutputFrameAsInput_frameId sent]
    simp only [normalizeBigInt, encodeSdsFrameId, own.frameId]
  refine (passes.numbered faithful).imp fun frame got numbered same => ?_
  subst same
  have stored : (toUint64 (encodeSdsFrameId frame) : Int) = tab.frameId := by
    rw [toUint64]
    omega
  rw [numbered.sequence, numbered.endOfStream, stored, own.sequence, own.endOfStream]
  cases overrides.sequence <;> cases overrides.endOfStream <;> simp [normalizeBigInt, eq_comm]

theorem numberedFlatbuffers_typed : numberedFlatbuffers.Typed := by
  rintro data root ⟨⟩ tab listed
  obtain ⟨_, _, _, storable⟩ := forall₂_mem_right
    (packFramesOf_ok (show packFramesOf {} numberedRequest.inputs none = .ok numberedArena from
      numberedRequest_packed)) listed
  exact storable

def numberedFrame : Frame where
  portId := some "in"
  payload := some ⟨0, 0, [1]⟩
  typeRef := some {
    wireFormat := some (.name "flatbuffer")
    fixedStringLength := some (.finite 0)
    byteLength := some (.finite 0)
    requiredAlignment := some (.finite 0) }
  alignment := some (.finite 8)
  offset := some (.finite 0)
  size := some (.finite 1)
  ownership := some (.code 2)
  mutability := some (.code 0)
  frameId := some (.bigint 5)
  traceId := some (.bigint 5)
  sequence := some (.bigint 2)
  endOfStream := some true
  wireFormat := some (.name "flatbuffer")
  arenaLease := some 0
  arenaGeneration := some 1
  generation := some 1

def numberedLease : State := { leases := [⟨⟨0, 0, [1]⟩, 1, false⟩] }

theorem numberedFrame_decodes : Decodes numberedFlatbuffers {} ⟨0, 0, [1]⟩
    ⟨numberedRequest.header, [numberedFrame], ⟨0, 0, [1]⟩, 0⟩ numberedLease :=
  ⟨{}, .inl rfl⟩

/-- Whatever the overrides say of the stream, the frame is forwarded and decoded with its own. -/
theorem numberedFrame_forwarded (sequence : Option BigIntLike) (ended : Option Bool) :
    ∃ forwarded next decoded, forwardOutputFrameAsInput numberedLease numberedFrame
        { sequence := sequence, endOfStream := ended } = .ok (forwarded, next) ∧
      Passes numberedFlatbuffers [forwarded] decoded ∧
      decoded.map (·.sequence) = [some (.bigint 2)] ∧
      decoded.map (·.endOfStream) = [some true] := by
  obtain ⟨decoded, passes, facts⟩ := @numbered_passes numberedLease [{ numberedFrame with
    object := some 0
    offset := none
    size := none
    sequence := sequence.or (some (.bigint 2))
    endOfStream := ended.or (some true) }] rfl
  exact ⟨_, _, decoded, rfl, passes, facts⟩

theorem forwarded_stream_numbered : ∃ forwarded next decoded,
    forwardOutputFrameAsInput numberedLease numberedFrame {} = .ok (forwarded, next) ∧
      Passes numberedFlatbuffers [forwarded] decoded ∧
      ∀ got ∈ decoded, got.sequence = some (.bigint 2) ∧ got.endOfStream = some true := by
  obtain ⟨forwarded, next, decoded, sent, passes, _⟩ := numberedFrame_forwarded none none
  have kept := forwarded_stream_iff (storing_faithful _) numberedFlatbuffers_typed
    numberedFrame_decodes List.mem_cons_self sent passes
  refine ⟨forwarded, next, decoded, sent, passes, fun got listed => ?_⟩
  obtain ⟨frame, member, trip⟩ := forall₂_mem_right kept listed
  exact (trip (List.mem_singleton.mp member)).mpr ⟨nofun, nofun⟩

/-- The sequence 7 and the flag that the overrides give are lost. -/
theorem forwarded_stream_not_overridden :
    numberedFlatbuffers.Faithful ∧ numberedFlatbuffers.Typed ∧
    Decodes numberedFlatbuffers {} ⟨0, 0, [1]⟩
      ⟨numberedRequest.header, [numberedFrame], ⟨0, 0, [1]⟩, 0⟩ numberedLease ∧
    ∃ forwarded next decoded, forwardOutputFrameAsInput numberedLease numberedFrame
        { sequence := some (.bigint 7), endOfStream := some false } = .ok (forwarded, next) ∧
      Passes numberedFlatbuffers [forwarded] decoded ∧
      decoded.map (·.sequence) = [some (.bigint 2)] ∧
      decoded.map (·.endOfStream) = [some true] :=
  ⟨storing_faithful _, numberedFlatbuffers_typed, numberedFrame_decodes,
    numberedFrame_forwarded (some (.bigint 7)) (some false)⟩

end Streams
end SpaceDataModule.Invoke
