import SpaceDataModule.Checked
import SpaceDataModule.Json

/-! The host capabilities of a plugin manifest. A declaration names a capability by an id or by
its code; the manifest holds the code, and the reader names the code again. -/
namespace SpaceDataModule.Manifest
open Checked
open JavaScript (Number toLowerCase trim)

section Kinds

inductive HostCapabilityKind where
  | clock | random | logging | timers | pubsub | protocolDial | protocolHandle | storageQuery
  | sceneAccess | entityAccess | renderHooks | http | filesystem | pipe | network | database
  | storageAdapter | storageWrite | walletSign | ipfs | tls | mqtt | websocket | tcp | udp
  | processExec | contextRead | contextWrite | cryptoHash | cryptoSign | cryptoVerify
  | cryptoEncrypt | cryptoDecrypt | cryptoKeyAgreement | cryptoKdf | scheduleCron | storageIngest
  | p2pRead | nodeStatusRead | nodeActivityRead | secrets
  deriving DecidableEq

namespace HostCapabilityKind

def kinds : List HostCapabilityKind :=
  [.clock, .random, .logging, .timers, .pubsub, .protocolDial, .protocolHandle, .storageQuery,
    .sceneAccess, .entityAccess, .renderHooks, .http, .filesystem, .pipe, .network, .database,
    .storageAdapter, .storageWrite, .walletSign, .ipfs, .tls, .mqtt, .websocket, .tcp, .udp,
    .processExec, .contextRead, .contextWrite, .cryptoHash, .cryptoSign, .cryptoVerify,
    .cryptoEncrypt, .cryptoDecrypt, .cryptoKeyAgreement, .cryptoKdf, .scheduleCron,
    .storageIngest, .p2pRead, .nodeStatusRead, .nodeActivityRead, .secrets]

def code (kind : HostCapabilityKind) : Nat := kinds.idxOf kind

def ofCode (code : Nat) : Option HostCapabilityKind := kinds[code]?

def name : HostCapabilityKind → String
  | .clock => "CLOCK" | .random => "RANDOM" | .logging => "LOGGING" | .timers => "TIMERS"
  | .pubsub => "PUBSUB" | .protocolDial => "PROTOCOL_DIAL" | .protocolHandle => "PROTOCOL_HANDLE"
  | .storageQuery => "STORAGE_QUERY" | .sceneAccess => "SCENE_ACCESS"
  | .entityAccess => "ENTITY_ACCESS" | .renderHooks => "RENDER_HOOKS" | .http => "HTTP"
  | .filesystem => "FILESYSTEM" | .pipe => "PIPE" | .network => "NETWORK"
  | .database => "DATABASE" | .storageAdapter => "STORAGE_ADAPTER"
  | .storageWrite => "STORAGE_WRITE" | .walletSign => "WALLET_SIGN" | .ipfs => "IPFS"
  | .tls => "TLS" | .mqtt => "MQTT" | .websocket => "WEBSOCKET" | .tcp => "TCP" | .udp => "UDP"
  | .processExec => "PROCESS_EXEC" | .contextRead => "CONTEXT_READ"
  | .contextWrite => "CONTEXT_WRITE" | .cryptoHash => "CRYPTO_HASH"
  | .cryptoSign => "CRYPTO_SIGN" | .cryptoVerify => "CRYPTO_VERIFY"
  | .cryptoEncrypt => "CRYPTO_ENCRYPT" | .cryptoDecrypt => "CRYPTO_DECRYPT"
  | .cryptoKeyAgreement => "CRYPTO_KEY_AGREEMENT" | .cryptoKdf => "CRYPTO_KDF"
  | .scheduleCron => "SCHEDULE_CRON" | .storageIngest => "STORAGE_INGEST"
  | .p2pRead => "P2P_READ" | .nodeStatusRead => "NODE_STATUS_READ"
  | .nodeActivityRead => "NODE_ACTIVITY_READ" | .secrets => "SECRETS"

theorem ofCode_code (kind : HostCapabilityKind) : ofCode kind.code = some kind := by
  cases kind <;> rfl

theorem mem_kinds (kind : HostCapabilityKind) : kind ∈ kinds := by
  cases kind <;> decide

theorem code_lt (kind : HostCapabilityKind) : kind.code < 65536 := by
  cases kind <;> decide

end HostCapabilityKind

def hostCapabilityByName : List (String × HostCapabilityKind) :=
  [("clock", .clock), ("random", .random), ("logging", .logging), ("timers", .timers),
    ("pubsub", .pubsub), ("protocol_dial", .protocolDial), ("protocol_handle", .protocolHandle),
    ("storage_query", .storageQuery), ("scene_access", .sceneAccess),
    ("entity_access", .entityAccess), ("render_hooks", .renderHooks), ("http", .http),
    ("filesystem", .filesystem), ("pipe", .pipe), ("network", .network), ("database", .database),
    ("storage_adapter", .storageAdapter), ("storage_write", .storageWrite),
    ("wallet_sign", .walletSign), ("ipfs", .ipfs), ("tls", .tls), ("mqtt", .mqtt),
    ("websocket", .websocket), ("tcp", .tcp), ("udp", .udp), ("process_exec", .processExec),
    ("context_read", .contextRead), ("context_write", .contextWrite),
    ("crypto_hash", .cryptoHash), ("crypto_sign", .cryptoSign), ("crypto_verify", .cryptoVerify),
    ("crypto_encrypt", .cryptoEncrypt), ("crypto_decrypt", .cryptoDecrypt),
    ("crypto_key_agreement", .cryptoKeyAgreement), ("crypto_kdf", .cryptoKdf),
    ("schedule_cron", .scheduleCron), ("storage_ingest", .storageIngest)]

def recommendedCapabilityIds : List String :=
  ["clock", "random", "logging", "timers", "schedule_cron", "http", "tls", "websocket", "mqtt",
    "tcp", "udp", "network", "filesystem", "pipe", "pubsub", "protocol_handle", "protocol_dial",
    "p2p_read", "node_status_read", "node_activity_read", "database", "storage_adapter",
    "storage_query", "storage_write", "storage_ingest", "context_read", "context_write",
    "secrets", "process_exec", "crypto_hash", "crypto_sign", "crypto_verify", "crypto_encrypt",
    "crypto_decrypt", "crypto_key_agreement", "crypto_kdf", "wallet_sign", "ipfs", "gpu_compute",
    "scene_access", "entity_access", "render_hooks"]

end Kinds

structure Text where
  /-- `String(value)`, for a value that is no text. -/
  stringOf : Json.Value → String

abbrev Members := List (String × Json.Value)

section Declarations
variable (text : Text)

def pick (members : Members) (keys : List String) : Option Json.Value :=
  keys.findSome? fun key => members.lookup key

/-- `String(value ?? "")`. -/
def textOf : Option Json.Value → String
  | none | some .null => ""
  | some (.string value) => value
  | some value => text.stringOf value

def canonicalEnumKey (value : Option Json.Value) : String :=
  String.ofList ((toLowerCase (trim (textOf text value))).toList.map fun c =>
    if c = '-' then '_' else c)

def normalizeOptionalString (value : Option Json.Value) : Option String :=
  if trim (textOf text value) = "" then none else some (trim (textOf text value))

/-- The properties that the table of names inherits and that are spelled in small letters. What
they hold is no number. -/
def inherited : List String := ["constructor", "__proto__"]

def resolveHostCapability : Option Json.Value → Number
  | some (.number value) => value
  | value =>
    match hostCapabilityByName.lookup (canonicalEnumKey text value) with
    | some kind => .finite kind.code
    | none =>
      if canonicalEnumKey text value ∈ inherited then .nan
      else .finite HostCapabilityKind.clock.code

/-- What a builder leaves of a number in a field of two bytes. -/
def uint16 : Number → Nat
  | .finite value => (value.num.tdiv value.den % 65536).toNat
  | _ => 0

structure HostCapability where
  capability : Nat
  scope : Option String
  required : Bool
  description : Option String

def sourceOf : Json.Value → Members
  | .string value => [("capability", .string value)]
  | .object members => members
  | _ => []

def capabilityOf (declaration : Json.Value) : Option Json.Value :=
  pick (sourceOf declaration) ["capability", "CAPABILITY", "name"]

/-- `value === false`. -/
def isFalse : Option Json.Value → Bool
  | some (.bool false) => true
  | _ => false

def addHostCapability (declaration : Json.Value) : HostCapability where
  capability := uint16 (resolveHostCapability text (capabilityOf declaration))
  scope := normalizeOptionalString text (pick (sourceOf declaration) ["scope", "SCOPE"])
  required := !isFalse (pick (sourceOf declaration) ["required", "REQUIRED"])
  description :=
    normalizeOptionalString text (pick (sourceOf declaration) ["description", "DESCRIPTION"])

def hostCapabilityName (code : Nat) : String :=
  match HostCapabilityKind.ofCode code with
  | some kind => toLowerCase kind.name
  | none => "clock"

structure DecodedCapability where
  capability : String
  scope : Option String
  required : Bool
  description : Option String

def hostCapabilityToObject (capability : HostCapability) : DecodedCapability where
  capability := hostCapabilityName capability.capability
  scope := capability.scope.filter (· ≠ "")
  required := capability.required
  description := capability.description.filter (· ≠ "")

end Declarations

section Manifests

structure Plg (Fields : Type) where
  fields : Fields
  hostCapabilities : List HostCapability

/-- The platform, its FlatBuffers, and what becomes of the other fields of a manifest. -/
structure Platform (Fields Objects Buffer : Type) extends Text where
  build : Plg Fields → Buffer
  /-- None for a buffer with another identifier. -/
  read : Buffer → Option (Plg Fields)
  /-- What the other fields are written as; a flow edge without a contract is refused. -/
  writeFields : Members → Except String Fields
  readFields : Fields → Except String Objects

variable {Fields Objects Buffer : Type} (platform : Platform Fields Objects Buffer)

/-- A buffer gives back what was built, and the reader refuses no field that the writer wrote. -/
structure Platform.Faithful : Prop where
  reads : ∀ plg, (∀ capability ∈ plg.hostCapabilities, capability.capability < 65536) →
    platform.read (platform.build plg) = some plg
  accepts : ∀ {manifest fields}, platform.writeFields manifest = .ok fields →
    ∃ objects, platform.readFields fields = .ok objects

def isText : Option Json.Value → Bool
  | some (.string value) => value ≠ ""
  | _ => false

def declarations (manifest : Members) : List Json.Value :=
  match pick manifest ["hostCapabilities", "host_capabilities", "HOST_CAPABILITIES",
      "capabilities", "CAPABILITIES"] with
  | some (.array items) => items
  | _ => []

def encodePlgManifest (manifest : Members) : Except String Buffer := do
  require (isText (pick manifest ["pluginId", "plugin_id", "PLUGIN_ID"]) &&
      isText (pick manifest ["name", "NAME"]) && isText (pick manifest ["version", "VERSION"]))
    "encodePlgManifest requires string pluginId, name, and version fields."
  let fields ← platform.writeFields manifest
  return platform.build ⟨fields, (declarations manifest).map (addHostCapability platform.toText)⟩

structure Decoded (Objects : Type) where
  objects : Objects
  hostCapabilities : List DecodedCapability

def decodePlgManifest (buffer : Buffer) : Except String (Decoded Objects) :=
  match platform.read buffer with
  | none => .error "PLG manifest buffer identifier mismatch (expected $PLG)."
  | some plg => (platform.readFields plg.fields).map fun objects =>
      ⟨objects, plg.hostCapabilities.map hostCapabilityToObject⟩

end Manifests

section Surviving
variable (text : Text)

/-- The id that a declaration names, in small letters and with `_` for `-`. A code names the kind
that has it. -/
def declaredId (declaration : Json.Value) : Option String :=
  match capabilityOf declaration with
  | some (.number value) =>
    (HostCapabilityKind.kinds.find? fun kind => value = .finite kind.code).map
      fun kind => toLowerCase kind.name
  | value => some (canonicalEnumKey text value)

/-- The declaration gives a code of a kind, or an id that the table of names lists. -/
def Listed (declaration : Json.Value) : Prop :=
  match capabilityOf declaration with
  | some (.number value) => ∃ kind : HostCapabilityKind, value = .finite kind.code
  | value => canonicalEnumKey text value ∈ hostCapabilityByName.map Prod.fst

section
variable (kind : HostCapabilityKind)

/-- The table of names spells a kind as the reader does. -/
theorem name_of_listed : ∀ entry ∈ hostCapabilityByName,
    toLowerCase entry.2.name = entry.1 := by decide

theorem uint16_code : uint16 (.finite kind.code) = kind.code := by
  have bound := kind.code_lt
  rw [uint16, Rat.num_natCast, Rat.den_natCast, Nat.cast_one, Int.tdiv_one]
  omega

theorem hostCapabilityName_code :
    hostCapabilityName kind.code = toLowerCase kind.name := by
  rw [hostCapabilityName, HostCapabilityKind.ofCode_code]

end

def recordedId (declaration : Json.Value) : String :=
  hostCapabilityName (uint16 (resolveHostCapability text (capabilityOf declaration)))

theorem recorded_number :
    some (hostCapabilityName (uint16 value)) =
        (HostCapabilityKind.kinds.find? fun kind => value = .finite kind.code).map
          (fun kind => toLowerCase kind.name) ↔
      ∃ kind : HostCapabilityKind, value = .finite kind.code := by
  cases found : HostCapabilityKind.kinds.find? fun kind => value = .finite kind.code with
  | none =>
    refine ⟨nofun, fun ⟨kind, same⟩ => ?_⟩
    have other := List.find?_eq_none.mp found kind kind.mem_kinds
    exact absurd (decide_eq_true same) other
  | some kind =>
    have held := List.find?_some found
    have same : value = .finite kind.code := of_decide_eq_true held
    refine ⟨fun _ => ⟨kind, same⟩, fun _ => ?_⟩
    rw [same, uint16_code, hostCapabilityName_code]
    rfl

theorem recorded_text (key : String) :
    hostCapabilityName (uint16 (match hostCapabilityByName.lookup key with
      | some kind => .finite kind.code
      | none => if key ∈ inherited then .nan else .finite HostCapabilityKind.clock.code)) = key ↔
      key ∈ hostCapabilityByName.map Prod.fst := by
  cases found : hostCapabilityByName.lookup key with
  | none =>
    have unlisted : key ∉ hostCapabilityByName.map Prod.fst := by
      intro listed
      obtain ⟨entry, member, rfl⟩ := List.mem_map.mp listed
      simpa using List.lookup_eq_none_iff.mp found entry member
    have clock : hostCapabilityName (uint16 (if key ∈ inherited then .nan
        else .finite HostCapabilityKind.clock.code)) = "clock" := by
      have coded : uint16 (if key ∈ inherited then .nan
          else .finite HostCapabilityKind.clock.code) = HostCapabilityKind.clock.code := by
        split <;> rfl
      rw [coded, hostCapabilityName_code]
      rfl
    refine ⟨fun same => ?_, fun listed => absurd listed unlisted⟩
    rw [← same, clock]
    decide
  | some kind =>
    obtain ⟨before, after, table, _⟩ := List.lookup_eq_some_iff.mp found
    have member : (key, kind) ∈ hostCapabilityByName := by
      rw [table]
      exact List.mem_append_right before List.mem_cons_self
    refine ⟨fun _ => List.mem_map.mpr ⟨_, member, rfl⟩, fun _ => ?_⟩
    rw [uint16_code, hostCapabilityName_code]
    exact name_of_listed (key, kind) member

theorem recorded_iff (declaration : Json.Value) :
    some (recordedId text declaration) = declaredId text declaration ↔
      Listed text declaration := by
  rw [recordedId, declaredId, Listed, resolveHostCapability.eq_def]
  split
  · exact recorded_number
  · rw [Option.some_inj]
    generalize canonicalEnumKey text (capabilityOf declaration) = key
    exact recorded_text key

variable {Fields Objects Buffer : Type} {platform : Platform Fields Objects Buffer}

theorem uint16_lt (value : Number) : uint16 value < 65536 := by
  cases value with
  | finite value =>
    rw [uint16]
    omega
  | nan | infinity => exact Nat.zero_lt_succ _

theorem decodePlgManifest_encoded (faithful : platform.Faithful)
    (encoded : encodePlgManifest platform manifest = .ok buffer) :
    ∃ decoded, decodePlgManifest platform buffer = .ok decoded ∧
      decoded.hostCapabilities.map DecodedCapability.capability =
        (declarations manifest).map (recordedId platform.toText) := by
  rw [encodePlgManifest, require_bind_eq_ok, bind_eq_ok] at encoded
  obtain ⟨_, fields, written, built⟩ := encoded
  cases built
  obtain ⟨objects, accepted⟩ := faithful.accepts written
  refine ⟨⟨objects, ((declarations manifest).map (addHostCapability platform.toText)).map
    hostCapabilityToObject⟩, ?_, ?_⟩
  · have small : ∀ capability ∈ (declarations manifest).map (addHostCapability platform.toText),
        capability.capability < 65536 := by
      intro capability member
      obtain ⟨declaration, _, rfl⟩ := List.mem_map.mp member
      exact uint16_lt _
    rw [decodePlgManifest, faithful.reads _ small]
    dsimp only
    rw [accepted]
    rfl
  · rw [List.map_map, List.map_map]
    rfl

/-- The reader lists the declared capabilities, in their order, exactly if each declaration gives
a code of a kind or an id that the table of names lists. -/
theorem host_capabilities_survive_iff (faithful : platform.Faithful) {manifest : Members}
    {buffer : Buffer} (encoded : encodePlgManifest platform manifest = .ok buffer) :
    ∃ decoded, decodePlgManifest platform buffer = .ok decoded ∧
      (decoded.hostCapabilities.map (fun capability => some capability.capability) =
          (declarations manifest).map (declaredId platform.toText) ↔
        ∀ declaration ∈ declarations manifest, Listed platform.toText declaration) := by
  obtain ⟨decoded, read, recorded⟩ := decodePlgManifest_encoded faithful encoded
  refine ⟨decoded, read, ?_⟩
  have named : decoded.hostCapabilities.map (fun capability => some capability.capability) =
      (declarations manifest).map fun declaration =>
        some (recordedId platform.toText declaration) := by
    have both := congrArg (List.map some) recorded
    rwa [List.map_map, List.map_map] at both
  rw [named, List.map_inj_left]
  exact forall₂_congr fun declaration _ => recorded_iff platform.toText declaration

def practice : Platform Unit Unit (Plg Unit) where
  stringOf _ := ""
  build plg := plg
  read buffer := some buffer
  writeFields _ := .ok ()
  readFields _ := .ok ()

theorem practice_faithful : practice.Faithful where
  reads _ _ := rfl
  accepts _ := ⟨(), rfl⟩

def manifestOf (hostCapabilities : List Json.Value) : Members :=
  [("pluginId", .string "p"), ("name", .string "n"), ("version", .string "1"),
    ("hostCapabilities", .array hostCapabilities)]

/-- An id in another spelling, an id under another key, and a code. -/
def spelled : Members :=
  manifestOf [.string " Crypto-KDF ", .object [("name", .string "http")],
    .object [("capability", .number (.finite 40))]]

theorem host_capabilities_survive_iff_spelled :
    practice.Faithful ∧ ∃ buffer decoded,
      encodePlgManifest practice spelled = .ok buffer ∧
      decodePlgManifest practice buffer = .ok decoded ∧
      decoded.hostCapabilities.map (fun capability => some capability.capability) =
        [some "crypto_kdf", some "http", some "secrets"] := by
  have encoded : encodePlgManifest practice spelled = .ok _ := rfl
  obtain ⟨decoded, read, survives⟩ := host_capabilities_survive_iff practice_faithful encoded
  have listed : ∀ declaration ∈ declarations spelled, Listed practice.toText declaration := by
    rintro _ (_ | ⟨_, _ | ⟨_, _ | ⟨_, ⟨⟩⟩⟩⟩)
    · show canonicalEnumKey practice.toText (some (.string " Crypto-KDF ")) ∈ _
      decide
    · show canonicalEnumKey practice.toText (some (.string "http")) ∈ _
      decide
    · exact ⟨.secrets, rfl⟩
  exact ⟨practice_faithful, _, decoded, encoded, read, (survives.mpr listed).trans rfl⟩

/-- Five ids that the SDK recommends are recorded as the clock. -/
theorem recommended_recorded_as_clock :
    (["p2p_read", "node_status_read", "node_activity_read", "secrets", "gpu_compute"].all
      fun id => recommendedCapabilityIds.contains id) = true ∧
    ∃ buffer decoded, encodePlgManifest practice (manifestOf [.string "p2p_read",
        .string "node_status_read", .string "node_activity_read", .string "secrets",
        .string "gpu_compute"]) = .ok buffer ∧
      decodePlgManifest practice buffer = .ok decoded ∧
      decoded.hostCapabilities.map DecodedCapability.capability =
        ["clock", "clock", "clock", "clock", "clock"] :=
  ⟨by decide, _, _, rfl, rfl, by decide⟩

end Surviving

end SpaceDataModule.Manifest
