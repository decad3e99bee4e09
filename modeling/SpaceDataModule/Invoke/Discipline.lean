import SpaceDataModule.Invoke.Codec
import SpaceDataModule.Transition

/-! The discipline of arena leases over whole histories of calls: which frames are forwarded and
encoded without a copy, and what becomes of a transfer token. -/
namespace SpaceDataModule.Invoke
open Checked
open JavaScript (Number)
open Transition (Run forall_mem_concat getElem?_concat_cases)

section Histories
variable (fb : Flatbuffers)

inductive Call where
  | createInvokeArenaLease (arena : Option View) (generation : Option Number)
  | advance (lease : Nat) (nextArena : Option (Option View))
  | close (lease : Nat)
  | createTransferToken (lease : Nat) (frame : Frame) (ownership mutability : Option Tag)
  | forwardOutputFrameAsInput (outputFrame : Frame) (overrides : Overrides)
  | encodePluginInvokeRequest (request : Request)
  | encodePluginInvokeResponse (response : Response)

inductive Answer where
  | lease (number : Nat)
  | generation (number : Nat)
  | closed
  | token (number : Nat)
  | frame (forwarded : Frame)
  | buffer (bytes : View)

/-- A call that returns, with what it leaves behind. -/
def perform (state : State) : Call → Except String (Answer × State)
  | .createInvokeArenaLease arena generation =>
    (Invoke.createInvokeArenaLease state arena generation).map fun made => (.lease made.1, made.2)
  | .advance lease nextArena =>
    (Invoke.advance state lease nextArena).map fun made => (.generation made.1, made.2)
  | .close lease => (Invoke.close state lease).map fun after => (.closed, after)
  | .createTransferToken lease frame ownership mutability =>
    (Invoke.createTransferToken state lease frame ownership mutability).map fun made =>
      (.token made.1, made.2)
  | .forwardOutputFrameAsInput outputFrame overrides =>
    (Invoke.forwardOutputFrameAsInput state outputFrame overrides).map fun made =>
      (.frame made.1, made.2)
  | .encodePluginInvokeRequest request =>
    (Invoke.encodePluginInvokeRequest fb state request).map fun bytes => (.buffer bytes, state)
  | .encodePluginInvokeResponse response =>
    (Invoke.encodePluginInvokeResponse fb state response).map fun bytes => (.buffer bytes, state)

structure Exchange where
  call : Call
  answer : Option Answer

def Answered (state : State) (exchange : Exchange) : Prop :=
  exchange.answer = (perform fb state exchange.call).toOption.map (·.1)

def after (state : State) (exchange : Exchange) : State :=
  ((perform fb state exchange.call).toOption.map (·.2)).getD state

/-- Histories of calls from empty tables. -/
abbrev History (history : List Exchange) (state : State) : Prop :=
  Run (Answered fb) (after fb) {} history state

end Histories

section Conditions

/-- The lease of the frame is open, of the generation the frame has, and holds its payload. -/
def Frame.Live (frame : Frame) (state : State) : Prop :=
  ∃ lease found, frame.arenaLease = some lease ∧ state.leases[lease]? = some found ∧
    found.closed = false ∧ frame.capturedGeneration = some found.generation ∧
    ∀ payload, frame.payload = some payload → payload.Within found.arena

def Frame.Guarded (frame : Frame) : Prop :=
  normalizeFrameOwnership frame.ownership = .ok .producerOwned ∨
    normalizeFrameMutability frame.mutability ≠ .ok .immutable

def Encodes (fb : Flatbuffers) (state : State) (frames : List Frame) : Prop :=
  (∃ request bytes, request.inputs = frames ∧
    encodePluginInvokeRequest fb state request = .ok bytes) ∨
  ∃ response bytes, response.outputs = frames ∧
    encodePluginInvokeResponse fb state response = .ok bytes

/-- The exchange mints a token for what the frame has: lease, generation, range and id. -/
def Exchange.Mints (exchange : Exchange) (token : Nat) (frame : Frame) : Prop :=
  ∃ lease minted ownership mutability,
    exchange = ⟨.createTransferToken lease minted ownership mutability, some (.token token)⟩ ∧
    frame.arenaLease = some lease ∧ minted.capturedGeneration = frame.capturedGeneration ∧
    minted.payload.map View.range = frame.payload.map View.range ∧
    encodeSdsFrameId minted = encodeSdsFrameId frame

/-- The exchange forwards a frame without a copy and consumes the token. -/
def Exchange.Consumes (exchange : Exchange) (token : Nat) (forwarded : Frame) : Prop :=
  ∃ outputFrame overrides,
    exchange = ⟨.forwardOutputFrameAsInput outputFrame overrides, some (.frame forwarded)⟩ ∧
    overrides.copyCanonical = false ∧ overrides.arenaTransfer = some token

end Conditions

section Checks

structure Transfer.MintedFor (transfer : Transfer) (lease : Nat) (frame : Frame) : Prop where
  lease : transfer.lease = lease
  generation : some transfer.generation = frame.capturedGeneration
  payload : some transfer.payload = frame.payload.map View.range
  frameId : transfer.frameId = encodeSdsFrameId frame

theorem requireArenaLeaseState_ok (ok : requireArenaLeaseState state lease = .ok found) :
    state.leases[lease]? = some found := by
  rw [requireArenaLeaseState] at ok
  split at ok
  · rename_i listed
    rw [listed, Except.ok.inj ok]
  · cases ok

/-- A frame passes without a lease where none is required, or with a live one. -/
theorem assertFrameArenaLease_ok
    (ok : assertFrameArenaLease state frame description required = .ok found) :
    (frame.arenaLease = none ∧ required = false) ∨
      ∃ lease live, frame.arenaLease = some lease ∧ found = some live ∧
        state.leases[lease]? = some live ∧ frame.capturedGeneration = some live.generation ∧
        frame.Live state := by
  rw [assertFrameArenaLease] at ok
  split at ok
  · rename_i lease leased
    obtain ⟨live, checked, rfl⟩ := map_eq_ok.mp ok
    simp only [assertLiveArenaLease, bind_eq_ok, require_eq_ok, Bool.not_eq_true',
      beq_iff_eq] at checked
    obtain ⟨_, known, _, opened, _, current, _, inside, ⟨⟩⟩ := checked
    have known := requireArenaLeaseState_ok known
    refine .inr ⟨lease, live, leased, rfl, known, current, lease, live, leased, known, opened,
      current, fun view given => ?_⟩
    rw [given, assertPayloadWithinArena, assertViewWithinArena, require_eq_ok] at inside
    exact of_decide_eq_true inside
  · rename_i absent
    split_ifs at ok with needed
    exact .inl ⟨absent, Bool.not_eq_true _ ▸ needed⟩

/-- A frame with a lease is encoded while the lease is live, and a guarded one with a receipt. -/
theorem assertRetainedAliasSafe_ok
    (ok : assertRetainedAliasSafe state frame description = .ok found)
    (leased : frame.arenaLease.isSome) :
    frame.Live state ∧ (frame.Guarded → ∃ object receipt, frame.object = some object ∧
      (object, receipt) ∈ state.receipts ∧ some receipt.lease = frame.arenaLease ∧
      receipt.MintedFor receipt.lease frame) := by
  rw [assertRetainedAliasSafe, bind_eq_ok] at ok
  obtain ⟨checked, lease, ok⟩ := ok
  obtain ⟨absent, _⟩ | ⟨_, live, _, rfl, _, _, alive⟩ := assertFrameArenaLease_ok lease
  · rw [absent] at leased
    cases leased
  · refine ⟨alive, fun guarded => ?_⟩
    simp only [bind_eq_ok, require_eq_ok, Bool.or_eq_true, Bool.and_eq_true, bne_iff_ne, beq_iff_eq,
      Option.any_eq_true] at ok
    obtain ⟨ownership, owner, mutability, access, _, allowed, _⟩ := ok
    rcases allowed with ⟨notOwned, immutable⟩ | ⟨receipt, written, matched⟩
    · rcases guarded with owned | changing
      · exact absurd (Except.ok.inj (owner.symm.trans owned)) notOwned
      · exact absurd (immutable ▸ access) changing
    · rw [receiptOf, Option.bind_eq_some_iff] at written
      obtain ⟨object, same, listed⟩ := written
      obtain ⟨front, back, split, _⟩ := List.lookup_eq_some_iff.mp listed
      have member : (object, receipt) ∈ state.receipts := by
        rw [split]
        exact List.mem_append_right _ List.mem_cons_self
      simp only [receiptMatches, Bool.and_eq_true, beq_iff_eq] at matched
      obtain ⟨⟨⟨⟨⟨⟨_, lease⟩, generation⟩, payload⟩, frameId⟩, _⟩, _⟩ := matched
      exact ⟨object, receipt, same, member, lease, rfl, generation, payload, frameId⟩

end Checks

section Effects

theorem consumeArenaTransferToken_ok
    (ok : consumeArenaTransferToken state token outputFrame payload = .ok (transfer, next)) :
    state.transfers[token]? = some transfer ∧ transfer.consumed = false ∧ next = { state with
      transfers := state.transfers.set token { transfer with consumed := true } } := by
  simp only [consumeArenaTransferToken, bind_eq_ok, require_eq_ok, Bool.not_eq_true'] at ok
  obtain ⟨found, known, _, fresh, _, _, _, _, ⟨⟩⟩ := ok
  refine ⟨?_, fresh, rfl⟩
  rw [findTransfer] at known
  split at known
  · rename_i listed
    rw [listed, Except.ok.inj known]
  · cases known

/-- What a forward does to the tokens and the receipts. -/
inductive Forwarded (state : State) (overrides : Overrides) (next : State) : Prop where
  | kept (transfers : next.transfers = state.transfers) (receipts : next.receipts = state.receipts)
      (none : overrides.copyCanonical = true ∨ overrides.arenaTransfer = none)
  | consumed (token : Nat) (transfer : Transfer) (given : overrides.arenaTransfer = some token)
      (aliased : overrides.copyCanonical = false) (known : state.transfers[token]? = some transfer)
      (fresh : transfer.consumed = false)
      (transfers : next.transfers = state.transfers.set token { transfer with consumed := true })
      (receipts : next.receipts = (state.forwards, transfer) :: state.receipts)

theorem forwardAlias_ok (aliased : overrides.copyCanonical = false)
    (ok : forwardAlias state outputFrame carried payload overrides = .ok (forwarded, next)) :
    outputFrame.Live state ∧ forwarded.object = some state.forwards ∧
      Forwarded state overrides next := by
  simp only [forwardAlias, bind_eq_ok] at ok
  obtain ⟨_, lease, _, _, _, _, _, _, consumed, consuming, ⟨⟩⟩ := ok
  obtain ⟨_, impossible⟩ | ⟨_, _, _, _, _, _, live⟩ := assertFrameArenaLease_ok lease
  · cases impossible
  refine ⟨live, rfl, ?_⟩
  rw [consumeOptional.eq_def] at consuming
  split at consuming
  · rename_i token given
    obtain ⟨⟨transfer, after⟩, taken, rfl⟩ := map_eq_ok.mp consuming
    obtain ⟨known, fresh, rfl⟩ := consumeArenaTransferToken_ok taken
    exact .consumed token transfer given aliased known fresh rfl rfl
  · rename_i given
    cases consuming
    exact .kept rfl rfl (.inr given)

theorem forwardOutputFrameAsInput_ok
    (ok : forwardOutputFrameAsInput state outputFrame overrides = .ok (forwarded, next)) :
    (overrides.copyCanonical = false → outputFrame.Live state) ∧
      forwarded.object = some state.forwards ∧ Forwarded state overrides next := by
  simp only [forwardOutputFrameAsInput, bind_eq_ok] at ok
  obtain ⟨payload, _, portId, _, wireFormat, _, ok⟩ := ok
  split_ifs at ok with copied
  · simp only [bind_eq_ok] at ok
    obtain ⟨_, _, ⟨⟩⟩ := ok
    refine ⟨fun aliased => ?_, rfl, .kept rfl rfl (.inl copied)⟩
    rw [copied] at aliased
    cases aliased
  · have aliased : overrides.copyCanonical = false := Bool.not_eq_true _ ▸ copied
    obtain ⟨live, object, effect⟩ := forwardAlias_ok aliased ok
    exact ⟨fun _ => live, object, effect⟩

theorem createTransferToken_ok
    (ok : createTransferToken state lease frame ownership mutability = .ok (token, next)) :
    token = state.transfers.length ∧ next.receipts = state.receipts ∧
      ∃ transfer, next.transfers = state.transfers ++ [transfer] ∧ transfer.MintedFor lease frame := by
  simp only [createTransferToken, bind_eq_ok, require_eq_ok, beq_iff_eq] at ok
  obtain ⟨_, checked, _, own, found, known, _, _, _, _, _, _, payload, taken, ⟨⟩⟩ := ok
  refine ⟨rfl, rfl, _, rfl, rfl, ?_, ?_, rfl⟩
  · obtain ⟨_, impossible⟩ | ⟨other, live, same, _, listed, current, _⟩ :=
      assertFrameArenaLease_ok checked
    · cases impossible
    · obtain rfl : lease = other := Option.some.inj (own.symm.trans same)
      rw [requireArenaLeaseState, listed] at known
      rw [current, Except.ok.inj known]
  · cases given : frame.payload with
    | none =>
      rw [given] at taken
      cases taken
    | some view =>
      rw [given] at taken
      exact congrArg some (Except.ok.inj taken).symm

theorem safe_of_packFrames (ok : packFrames state offset frames = .ok packed) :
    ∀ frame ∈ frames, ∃ description found,
      assertRetainedAliasSafe state frame description = .ok found := by
  induction frames generalizing offset packed with
  | nil => exact List.forall_mem_nil _
  | cons frame frames ih =>
    simp only [packFrames, bind_eq_ok] at ok
    obtain ⟨first, normalized, rest, later, _⟩ := ok
    obtain ⟨found, safe, _⟩ := bind_eq_ok.mp normalized
    exact List.forall_mem_cons.mpr ⟨⟨_, found, safe⟩, ih later⟩

/-- Every frame of an envelope passes the check on retained aliases. -/
theorem safe_of_encodeEnvelope
    (ok : encodeEnvelope fb state kind header frames externalArena = .ok bytes) :
    ∀ frame ∈ frames, ∃ description found,
      assertRetainedAliasSafe state frame description = .ok found := by
  rw [encodeEnvelope, bind_eq_ok] at ok
  obtain ⟨arena, packed, _⟩ := ok
  rw [packFramesOf.eq_def] at packed
  split at packed
  · rw [packExternalArenaFrames.eq_def] at packed
    split at packed
    · cases packed
    · rename_i view
      obtain ⟨tabs, mapped, _⟩ := bind_eq_ok.mp packed
      intro frame listed
      obtain ⟨tab, _, normalized⟩ := forall₂_mem_left (mapM_eq_ok.mp mapped) listed
      obtain ⟨found, safe, _⟩ := bind_eq_ok.mp normalized
      exact ⟨_, found, safe⟩
  · obtain ⟨items, placed, _⟩ := bind_eq_ok.mp packed
    exact safe_of_packFrames placed

end Effects

section Runs
variable {fb : Flatbuffers} {state next : State} {history : List Exchange}

def Exchange.MintsTransfer (exchange : Exchange) (token : Nat) (transfer : Transfer) : Prop :=
  ∃ lease frame ownership mutability, transfer.MintedFor lease frame ∧
    exchange = ⟨.createTransferToken lease frame ownership mutability, some (.token token)⟩

/-- Every token was minted and every receipt written in the history, and no token is consumed
twice. -/
structure Accounted (history : List Exchange) (state : State) : Prop where
  transfers : ∀ token transfer, state.transfers[token]? = some transfer →
    ∃ mint ∈ history, mint.MintsTransfer token transfer
  receipts : ∀ object transfer, (object, transfer) ∈ state.receipts →
    ∃ token mint forward forwarded, [mint, forward].Sublist history ∧
      mint.MintsTransfer token transfer ∧ forward.Consumes token forwarded ∧
      forwarded.object = some object
  consumed : ∀ exchange ∈ history, ∀ token forwarded, exchange.Consumes token forwarded →
    ∃ transfer, state.transfers[token]? = some transfer ∧ transfer.consumed = true
  once : ∀ token, history.Pairwise fun first second =>
    ∀ one other, first.Consumes token one → ¬ second.Consumes token other

theorem accounted_start : Accounted [] {} where
  transfers token transfer known := by
    cases known
  receipts object transfer written := absurd written List.not_mem_nil
  consumed exchange listed := absurd listed List.not_mem_nil
  once token := .nil

section
variable (accounted : Accounted history state)
include accounted

/-- An exchange that leaves tokens and receipts as they are. -/
theorem Accounted.keep (transfers : next.transfers = state.transfers)
    (receipts : next.receipts = state.receipts)
    (idle : ∀ token forwarded, ¬ exchange.Consumes token forwarded) :
    Accounted (history ++ [exchange]) next := by
  refine ⟨?_, ?_, ?_, ?_⟩
  · intro token transfer known
    rw [transfers] at known
    obtain ⟨mint, listed, mints⟩ := accounted.transfers token transfer known
    exact ⟨mint, List.mem_append_left _ listed, mints⟩
  · intro object transfer written
    rw [receipts] at written
    obtain ⟨token, mint, forward, forwarded, ordered, facts⟩ :=
      accounted.receipts object transfer written
    exact ⟨token, mint, forward, forwarded, ordered.trans (List.sublist_append_left _ _), facts⟩
  · rw [transfers]
    refine forall_mem_concat.mpr ⟨accounted.consumed, ?_⟩
    intro token forwarded consumes
    exact absurd consumes (idle token forwarded)
  · intro token
    refine List.pairwise_append.mpr ⟨accounted.once token, List.pairwise_singleton _ _, ?_⟩
    exact fun _ _ => List.forall_mem_singleton.mpr fun _ other _ => idle token other

/-- A token that is minted is a new one. -/
theorem Accounted.mint (transfers : next.transfers = state.transfers ++ [transfer])
    (receipts : next.receipts = state.receipts)
    (mints : exchange.MintsTransfer state.transfers.length transfer) :
    Accounted (history ++ [exchange]) next := by
  have idle : ∀ token forwarded, ¬ exchange.Consumes token forwarded := by
    rintro token forwarded ⟨_, _, same, _⟩
    obtain ⟨_, _, _, _, _, rfl⟩ := mints
    cases same
  -- all but the new token are as before
  have kept := @Accounted.keep state { next with transfers := state.transfers } history accounted
    exchange rfl receipts idle
  refine ⟨?_, kept.receipts, ?_, kept.once⟩
  · intro token other known
    rcases getElem?_concat_cases (transfers ▸ known) with old | ⟨rfl, rfl⟩
    · exact kept.transfers token other old
    · exact ⟨exchange, List.mem_append_right _ List.mem_cons_self, mints⟩
  · intro other listed token forwarded consumes
    obtain ⟨found, known, spent⟩ := kept.consumed other listed token forwarded consumes
    refine ⟨found, ?_, spent⟩
    rw [transfers, List.getElem?_append_left (List.getElem?_eq_some_iff.mp known).1]
    exact known

/-- A token that is consumed was fresh, so no earlier exchange has consumed it. -/
theorem Accounted.consume (known : state.transfers[token]? = some transfer)
    (fresh : transfer.consumed = false)
    (transfers : next.transfers = state.transfers.set token { transfer with consumed := true })
    (receipts : next.receipts = (state.forwards, transfer) :: state.receipts)
    (consumes : exchange.Consumes token forwarded)
    (object : forwarded.object = some state.forwards) :
    Accounted (history ++ [exchange]) next := by
  obtain ⟨mint, minted, mints⟩ := accounted.transfers token transfer known
  have unique : ∀ other forwarded, exchange.Consumes other forwarded → other = token := by
    rintro other result ⟨_, _, same, _, given⟩
    obtain ⟨_, _, rfl, _, here⟩ := consumes
    cases same
    exact Option.some.inj (given.symm.trans here)
  have spent (other : Nat) : next.transfers[other]? =
      if other = token then some { transfer with consumed := true } else state.transfers[other]? := by
    rw [transfers]
    have inside := (List.getElem?_eq_some_iff.mp known).1
    by_cases same : token = other
    · simp [same, same ▸ inside]
    · simp [same, Ne.symm same]
  refine ⟨?_, ?_, ?_, ?_⟩
  · intro other found listed
    rw [spent] at listed
    split_ifs at listed with same
    · obtain ⟨lease, frame, ownership, mutability, made, written⟩ := mints
      cases listed
      exact ⟨mint, List.mem_append_left _ minted, lease, frame, ownership, mutability,
        ⟨made.lease, made.generation, made.payload, made.frameId⟩, same ▸ written⟩
    · obtain ⟨origin, before, facts⟩ := accounted.transfers other found listed
      exact ⟨origin, List.mem_append_left _ before, facts⟩
  · intro number found written
    rw [receipts] at written
    rcases List.mem_cons.mp written with new | old
    · cases new
      have ordered : [mint, exchange].Sublist (history ++ [exchange]) :=
        (List.singleton_sublist.mpr minted).append (List.Sublist.refl [exchange])
      exact ⟨token, mint, exchange, forwarded, ordered, mints, consumes, object⟩
    · obtain ⟨other, origin, forward, result, ordered, facts⟩ :=
        accounted.receipts number found old
      exact ⟨other, origin, forward, result, ordered.trans (List.sublist_append_left _ _), facts⟩
  · intro earlier listed other result taken
    rw [spent]
    split_ifs with same
    · exact ⟨_, rfl, rfl⟩
    · rcases List.mem_append.mp listed with before | last
      · exact accounted.consumed earlier before other result taken
      · obtain rfl := List.mem_singleton.mp last
        exact absurd (unique other result taken) same
  · intro other
    refine List.pairwise_append.mpr ⟨accounted.once other, List.pairwise_singleton _ _, ?_⟩
    intro first before second last one result taken again
    obtain rfl := List.mem_singleton.mp last
    obtain rfl := unique other result again
    obtain ⟨found, here, used⟩ := accounted.consumed first before _ one taken
    rw [Option.some.inj (known.symm.trans here), used] at fresh
    cases fresh

/-- A call that returned neither minted nor consumed anything it does not say. -/
theorem Accounted.perform (done : perform fb state call = .ok (answer, next)) :
    Accounted (history ++ [⟨call, some answer⟩]) next := by
  cases call with
  | createInvokeArenaLease arena generation =>
    obtain ⟨⟨lease, made⟩, created, ⟨⟩⟩ := map_eq_ok.mp done
    rw [createInvokeArenaLease.eq_def] at created
    split at created
    · cases created
    · obtain ⟨_, _, ⟨⟩⟩ := bind_eq_ok.mp created
      exact accounted.keep rfl rfl (by rintro _ _ ⟨_, _, same, _⟩; cases same)
  | advance lease nextArena =>
    obtain ⟨⟨generation, made⟩, advanced, ⟨⟩⟩ := map_eq_ok.mp done
    simp only [Invoke.advance, bind_eq_ok] at advanced
    obtain ⟨_, _, _, _, _, _, _, _, ⟨⟩⟩ := advanced
    exact accounted.keep rfl rfl (by rintro _ _ ⟨_, _, same, _⟩; cases same)
  | close lease =>
    obtain ⟨made, closed, ⟨⟩⟩ := map_eq_ok.mp done
    obtain ⟨_, _, ⟨⟩⟩ := bind_eq_ok.mp closed
    exact accounted.keep rfl rfl (by rintro _ _ ⟨_, _, same, _⟩; cases same)
  | createTransferToken lease frame ownership mutability =>
    obtain ⟨⟨token, made⟩, created, ⟨⟩⟩ := map_eq_ok.mp done
    obtain ⟨rfl, receipts, transfer, transfers, minted⟩ := createTransferToken_ok created
    exact accounted.mint transfers receipts ⟨lease, frame, ownership, mutability, minted, rfl⟩
  | forwardOutputFrameAsInput outputFrame overrides =>
    obtain ⟨⟨forwarded, made⟩, sent, ⟨⟩⟩ := map_eq_ok.mp done
    obtain ⟨_, object, effect⟩ := forwardOutputFrameAsInput_ok sent
    cases effect with
    | kept transfers receipts idle =>
      refine accounted.keep transfers receipts ?_
      rintro token result ⟨_, _, same, aliased, given⟩
      cases same
      rcases idle with copied | absent
      · rw [copied] at aliased
        cases aliased
      · rw [absent] at given
        cases given
    | consumed token transfer given aliased known fresh transfers receipts =>
      exact accounted.consume known fresh transfers receipts
        ⟨outputFrame, overrides, rfl, aliased, given⟩ object
  | encodePluginInvokeRequest | encodePluginInvokeResponse =>
    obtain ⟨bytes, encoded, ⟨⟩⟩ := map_eq_ok.mp done
    exact accounted.keep rfl rfl (by rintro _ _ ⟨_, _, same, _⟩; cases same)

theorem Accounted.step (answered : Answered fb state exchange) :
    Accounted (history ++ [exchange]) (after fb state exchange) := by
  obtain ⟨call, given⟩ := exchange
  rw [Answered] at answered
  rw [after]
  cases done : Invoke.perform fb state call with
  | error failure =>
    rw [done] at answered
    refine accounted.keep rfl rfl ?_
    rintro token forwarded ⟨_, _, same, _⟩
    cases same
    cases answered
  | ok result =>
    rw [done] at answered
    obtain rfl : given = some result.1 := answered
    exact accounted.perform done

end

/-- What a token was minted for is what the receipt of the frame says. -/
theorem Exchange.MintsTransfer.mints {exchange : Exchange}
    (mints : exchange.MintsTransfer token transfer) (lease : some transfer.lease = frame.arenaLease)
    (receipt : transfer.MintedFor transfer.lease frame) : exchange.Mints token frame := by
  obtain ⟨number, minted, ownership, mutability, made, rfl⟩ := mints
  refine ⟨number, minted, ownership, mutability, rfl, ?_, ?_, ?_, ?_⟩
  · rw [← lease, made.lease]
  · rw [← made.generation, receipt.generation]
  · rw [← made.payload, receipt.payload]
  · rw [← made.frameId, receipt.frameId]

/-- In every history: what is forwarded without a copy has a live lease; what is encoded under a
lease has a live one, and where it is producer-owned or not immutable it is the object of an
earlier forward, with a token minted before for just this frame; and no token is consumed by two
forwards. -/
theorem lease_discipline (run : History fb history state) :
    (∀ outputFrame overrides forwarded next, overrides.copyCanonical = false →
      forwardOutputFrameAsInput state outputFrame overrides = .ok (forwarded, next) →
      outputFrame.Live state) ∧
    (∀ frames, Encodes fb state frames → ∀ frame ∈ frames, frame.arenaLease.isSome →
      frame.Live state ∧ (frame.Guarded → ∃ token mint forward forwarded,
        [mint, forward].Sublist history ∧ mint.Mints token frame ∧
        forward.Consumes token forwarded ∧ frame.object.isSome ∧
        forwarded.object = frame.object)) ∧
    ∀ token, history.Pairwise fun first second =>
      ∀ one other, first.Consumes token one → ¬ second.Consumes token other := by
  have accounted : Accounted history state := by
    induction run with
    | start => exact accounted_start
    | next _ answered ih => exact ih.step answered
  refine ⟨?_, ?_, accounted.once⟩
  · intro outputFrame overrides forwarded next aliased sent
    exact (forwardOutputFrameAsInput_ok sent).1 aliased
  · intro frames encodes frame listed leased
    obtain ⟨live, guardedBy⟩ : frame.Live state ∧ _ := by
      rcases encodes with ⟨request, bytes, rfl, ok⟩ | ⟨response, bytes, rfl, ok⟩
      all_goals
        obtain ⟨description, found, safe⟩ := safe_of_encodeEnvelope ok frame listed
        exact assertRetainedAliasSafe_ok safe leased
    refine ⟨live, fun guarded => ?_⟩
    obtain ⟨object, receipt, same, written, lease, matched⟩ := guardedBy guarded
    obtain ⟨token, mint, forward, forwarded, ordered, mints, consumes, returned⟩ :=
      accounted.receipts object receipt written
    exact ⟨token, mint, forward, forwarded, ordered, mints.mints lease matched, consumes,
      by rw [same]; rfl, by rw [same, returned]⟩

def practiceOutput : Frame where
  portId := some "out"
  payload := some ⟨0, 0, [1, 2]⟩
  ownership := some (.code 1)
  mutability := some (.code 2)
  arenaLease := some 0
  generation := some 1

def practiceForwarded : Frame where
  object := some 0
  portId := some "out"
  payload := some ⟨0, 0, [1, 2]⟩
  wireFormat := some (.name "flatbuffer")
  ownership := some (.code 3)
  mutability := some (.code 2)
  frameId := some (.bigint 0)
  arenaLease := some 0
  arenaGeneration := some 1
  generation := some 1

def practiceHistory : List Exchange := [
  ⟨.createInvokeArenaLease (some ⟨0, 0, [1, 2, 3, 4]⟩) none, some (.lease 0)⟩,
  ⟨.createTransferToken 0 practiceOutput (some (.code 3)) none, some (.token 0)⟩,
  ⟨.forwardOutputFrameAsInput practiceOutput { arenaTransfer := some 0 },
    some (.frame practiceForwarded)⟩]

def practiceTransfer : Transfer where
  lease := 0
  generation := 1
  payload := ⟨0, 0, 2⟩
  frameId := 0
  ownership := .shared
  mutability := .mutable

def practiceState : State where
  leases := [⟨⟨0, 0, [1, 2, 3, 4]⟩, 1, false⟩]
  transfers := [{ practiceTransfer with consumed := true }]
  receipts := [(0, practiceTransfer)]
  forwards := 1

def practiceRun : Request where
  inputs := [practiceForwarded]

def forwardedArena : Arena where
  frames := [⟨0, 2, 8, 0, some bareTypeRef, 1, 2, 0, some "out"⟩]
  arena := [1, 2]
  alignment := 8

def forwardedFlatbuffers : Flatbuffers :=
  storing ⟨practiceRun.header, forwardedArena.frames, forwardedArena.arena⟩

theorem practiceHistory_run : History forwardedFlatbuffers practiceHistory practiceState := by
  let opened : State := { leases := practiceState.leases }
  let minted : State := { opened with transfers := [practiceTransfer] }
  have empty : History forwardedFlatbuffers [] {} := .start
  have first : History forwardedFlatbuffers (practiceHistory.take 1) opened :=
    empty.next (show Answered _ _ practiceHistory[0] from rfl)
  have second : History forwardedFlatbuffers (practiceHistory.take 2) minted :=
    first.next (show Answered _ _ practiceHistory[1] from rfl)
  exact second.next (show Answered _ _ practiceHistory[2] from rfl)

theorem lease_discipline_practice : practiceForwarded.Live practiceState ∧
    ∃ token mint forward forwarded, [mint, forward].Sublist practiceHistory ∧
      mint.Mints token practiceForwarded ∧ forward.Consumes token forwarded ∧
      forwarded.object = some 0 := by
  obtain ⟨_, encoded, _⟩ := lease_discipline practiceHistory_run
  obtain ⟨live, guarded⟩ := encoded [practiceForwarded]
    (.inl ⟨practiceRun, ⟨0, 0, [1, 2]⟩, rfl, storing_encodes rfl⟩) _ List.mem_cons_self rfl
  obtain ⟨token, mint, forward, forwarded, ordered, mints, consumes, _, object⟩ :=
    guarded (.inr nofun)
  exact ⟨live, token, mint, forward, forwarded, ordered, mints, consumes, object⟩

def leaselessFrame : Frame where
  payload := some ⟨0, 0, [1, 2]⟩
  ownership := some (.code 1)

def leaselessRequest : Request where
  inputs := [leaselessFrame]

def leaselessArena : Arena where
  frames := [⟨0, 2, 8, 0, some bareTypeRef, 0, 1, 0, none⟩]
  arena := [1, 2]
  alignment := 8

def leaselessFlatbuffers : Flatbuffers :=
  storing ⟨leaselessRequest.header, leaselessArena.frames, leaselessArena.arena⟩

/-- A frame of its producer that has no lease is encoded, though no forward returned it. -/
theorem leaseless_frame_encoded : History leaselessFlatbuffers [] {} ∧
    Encodes leaselessFlatbuffers {} [leaselessFrame] ∧ leaselessFrame.Guarded ∧
    leaselessFrame.object = none :=
  ⟨.start, .inl ⟨leaselessRequest, ⟨0, 0, [1, 2]⟩, rfl, storing_encodes rfl⟩, .inl rfl, rfl⟩

end Runs

end SpaceDataModule.Invoke
