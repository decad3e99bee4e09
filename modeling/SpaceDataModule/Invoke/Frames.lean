import SpaceDataModule.Checked
import SpaceDataModule.JavaScript

/-! Frames of the PIV/TAB invoke envelope, as a caller gives them: numbers, names and types are
read and checked here. A number, a bigint or a text is the number it stands for. -/
namespace SpaceDataModule.Invoke
open Checked (require)
open JavaScript (Number)

abbrev Bytes := List UInt8

def uint16Max : Nat := 0xffff
def uint32Max : Nat := 0xffffffff

def invokeArenaAlignment : Nat := 8

section Views

/-- A `Uint8Array`: bytes of a buffer from an offset on. -/
structure View where
  buffer : Nat
  byteOffset : Nat
  bytes : Bytes
  deriving DecidableEq

def View.byteLength (view : View) : Nat := view.bytes.length

structure Range where
  buffer : Nat
  byteOffset : Nat
  byteLength : Nat
  deriving DecidableEq

def View.range (view : View) : Range := ⟨view.buffer, view.byteOffset, view.byteLength⟩

def View.Within (view arena : View) : Prop :=
  view.buffer = arena.buffer ∧ arena.byteOffset ≤ view.byteOffset ∧
    view.byteOffset + view.byteLength ≤ arena.byteOffset + arena.byteLength
  deriving Decidable

def assertViewWithinArena (view arena : View) (description : String) : Except String Unit :=
  require (view.Within arena) (description ++ " is outside its arena lease.")

/-- `subarray`, for bounds inside the view. -/
def View.subarray (view : View) (start stop : Nat) : View :=
  ⟨view.buffer, view.byteOffset + start, (view.bytes.drop start).take (stop - start)⟩

end Views

section Numbers

/-- `readBoundedInteger` from zero on; no number stands for undefined, null and the empty text. -/
def readBoundedInteger (description : String) (defaultValue : Option Nat) (maximum : Nat) :
    Option Number → Except String Nat
  | none =>
    match defaultValue with
    | some value => .ok value
    | none => .error (description ++ " is required.")
  | some (.finite value) =>
    if value.den = 1 ∧ 0 ≤ value.num ∧ value.num ≤ maximum then .ok value.num.toNat
    else .error (description ++ " must be an integer between 0 and " ++ toString maximum ++ ".")
  | some _ =>
    .error (description ++ " must be an integer between 0 and " ++ toString maximum ++ ".")

def isPositivePowerOfTwo (value : Nat) : Bool := 2 ^ value.log2 == value

def readAlignment (description : String) (defaultValue : Option Nat) (maximum : Nat)
    (value : Option Number) : Except String Nat := do
  let alignment ← readBoundedInteger description defaultValue maximum value
  require (isPositivePowerOfTwo alignment) (description ++ " must be a positive power of two.")
  return alignment

def assertUint32FrameRange (offset : Int) (size : Nat) (description : String) :
    Except String Unit :=
  require (offset + size ≤ uint32Max)
    (description ++ " offset + size exceeds the uint32 address range.")

/-- A value `normalizeBigInt` is applied to. A text is given by what `BigInt` reads in it. -/
inductive BigIntLike where
  | bigint (value : Int)
  | number (value : Number)
  | text (read : Option Int)

/-- `BigInt(Math.trunc(value))`. -/
def truncated (value : ℚ) : Int := if 0 ≤ value then ⌊value⌋ else -⌊-value⌋

def normalizeBigInt : Option BigIntLike → Int
  | some (.bigint value) => value
  | some (.number (.finite value)) => truncated value
  | some (.text (some value)) => value
  | _ => 0

def alignOffset (offset alignment : Nat) : Nat :=
  if alignment ≤ 1 then offset
  else if offset % alignment = 0 then offset
  else offset + alignment - offset % alignment

end Numbers

section Names

/-- A value of an enumeration as a caller gives it: by its code or by a name. -/
inductive Tag where
  | code (value : Int)
  | name (text : String)

/-- `String(value)`. -/
def Tag.text : Tag → String
  | .code value => toString value
  | .name text => text

inductive WireFormat where
  | flatbuffer | alignedBinary
  deriving DecidableEq

/-- The names of the two formats, once trimmed and in lower case; any code but one is taken for a
FlatBuffer. -/
def normalizePayloadWireFormat : Option Tag → Except String WireFormat
  | none => .ok .flatbuffer
  | some (.code value) => .ok (if value = 1 then .alignedBinary else .flatbuffer)
  | some (.name text) =>
    let normalized := JavaScript.toLowerCase (JavaScript.trim text)
    if normalized ∈ ["aligned-binary", "aligned_binary", "alignedbinary"] then .ok .alignedBinary
    else if normalized ∈ ["", "flatbuffer"] then .ok .flatbuffer
    else .error ("Unsupported SDS PIV/TAB wire format: " ++ text ++ ".")

def WireFormat.name : WireFormat → String
  | .flatbuffer => "flatbuffer"
  | .alignedBinary => "aligned-binary"

def WireFormat.sds : WireFormat → Nat
  | .flatbuffer => 0
  | .alignedBinary => 1

variable (value : Option Tag)

def toSdsWireFormat : Except String Nat :=
  (normalizePayloadWireFormat value).map WireFormat.sds

def fromSdsWireFormat (value : Nat) : Except String WireFormat :=
  if value = 1 then .ok .alignedBinary
  else if value = 0 then .ok .flatbuffer
  else .error ("Unsupported SDS PIV/TAB wire format value: " ++ toString value ++ ".")

inductive Mutability where
  | immutable | appendOnly | mutable
  deriving DecidableEq

def Mutability.sds : Mutability → Nat
  | .immutable => 0
  | .mutable => 1
  | .appendOnly => 2

def Mutability.code : Mutability → Int
  | .immutable => 0
  | .appendOnly => 1
  | .mutable => 2

def normalizeFrameMutability : Option Tag → Except String Mutability
  | none | some (.code 0) => .ok .immutable
  | some (.code 1) => .ok .appendOnly
  | some (.code 2) => .ok .mutable
  | some (.code value) => .error ("Unsupported SDS PIV/TAB mutability: " ++ toString value ++ ".")
  | some (.name text) =>
    if text ∈ ["immutable", "IMMUTABLE"] then .ok .immutable
    else if text ∈ ["append-only", "APPEND_ONLY"] then .ok .appendOnly
    else if text ∈ ["mutable", "single-writer-mutable", "SINGLE_WRITER_MUTABLE"] then .ok .mutable
    else .error ("Unsupported SDS PIV/TAB mutability: " ++ text ++ ".")

def toSdsMutability : Except String Nat :=
  (normalizeFrameMutability value).map Mutability.sds

def fromSdsMutability (value : Nat) : Except String Mutability :=
  if value = 2 then .ok .appendOnly
  else if value = 1 then .ok .mutable
  else if value = 0 then .ok .immutable
  else .error ("Unsupported SDS PIV/TAB mutability value: " ++ toString value ++ ".")

/-- Who owns the bytes, once borrowed is host-owned. -/
inductive Ownership where
  | producerOwned | hostOwned | shared
  deriving DecidableEq

def Ownership.sds : Ownership → Nat
  | .hostOwned => 0
  | .producerOwned => 1
  | .shared => 2

def Ownership.code : Ownership → Int
  | .producerOwned => 1
  | .hostOwned => 2
  | .shared => 3

def normalizeFrameOwnership : Option Tag → Except String Ownership
  | none | some (.code 0) | some (.code 2) => .ok .hostOwned
  | some (.code 1) => .ok .producerOwned
  | some (.code 3) => .ok .shared
  | some (.code value) => .error ("Unsupported SDS PIV/TAB ownership: " ++ toString value ++ ".")
  | some (.name text) =>
    if text ∈ ["borrowed", "BORROWED", "host-owned", "host_owned", "HOST_OWNED"] then
      .ok .hostOwned
    else if text ∈ ["producer-owned", "producer_owned", "PRODUCER_OWNED", "plugin-owned",
        "plugin_owned", "PLUGIN_OWNED"] then .ok .producerOwned
    else if text ∈ ["shared", "SHARED", "transferred", "TRANSFERRED"] then .ok .shared
    else .error ("Unsupported SDS PIV/TAB ownership: " ++ text ++ ".")

def toSdsOwnership : Except String Nat :=
  (normalizeFrameOwnership value).map Ownership.sds

def fromSdsOwnership (value : Nat) : Except String Ownership :=
  if value = 1 then .ok .producerOwned
  else if value = 2 then .ok .shared
  else if value = 0 then .ok .hostOwned
  else .error ("Unsupported SDS PIV/TAB ownership value: " ++ toString value ++ ".")

end Names

section Types

/-- What `inspectPayloadSchemaHash` finds. -/
inductive SchemaHash where
  | absent
  | invalid
  | bytes (contents : Bytes)

structure TypeRef where
  schemaName : Option String := none
  fileIdentifier : Option String := none
  schemaVersion : Option String := none
  rootTypeName : Option String := none
  schemaHash : SchemaHash := .absent
  acceptsAnyFlatbuffer : Bool := false
  wireFormat : Option Tag := none
  fixedStringLength : Option Number := none
  byteLength : Option Number := none
  requiredAlignment : Option Number := none

structure TypeRefTable where
  schemaName : Option String
  fileIdentifier : Option String
  schemaVersion : Option String
  rootType : Option String
  schemaHash : Bytes
  acceptsAnyFlatbuffer : Bool
  wireFormat : Nat
  fixedStringLength : Nat
  byteLength : Nat
  requiredAlignment : Nat
  deriving DecidableEq

def schemaHashBytes : SchemaHash → Except String Bytes
  | .absent => .ok []
  | .invalid => .error "SDS PIV/TAB schemaHash must contain valid bytes or hex."
  | .bytes contents => .ok contents

/-- `toSdsFlatBufferTypeRefT`; a format of the type itself comes before the one that is given. -/
def toSdsFlatBufferTypeRefT (value : TypeRef) (wireFormat : WireFormat) :
    Except String TypeRefTable := do
  let schemaHash ← schemaHashBytes value.schemaHash
  let sds ← toSdsWireFormat (value.wireFormat.or (some (.name wireFormat.name)))
  let fixedStringLength ← readBoundedInteger "SDS PIV/TAB fixedStringLength" (some 0) uint16Max
    value.fixedStringLength
  let byteLength ← readBoundedInteger "SDS PIV/TAB byteLength" (some 0) uint32Max value.byteLength
  let requiredAlignment ← readBoundedInteger "SDS PIV/TAB requiredAlignment" (some 0) uint16Max
    value.requiredAlignment
  return {
    schemaName := value.schemaName
    fileIdentifier := value.fileIdentifier
    schemaVersion := value.schemaVersion
    rootType := value.rootTypeName
    schemaHash := schemaHash
    acceptsAnyFlatbuffer := value.acceptsAnyFlatbuffer
    wireFormat := sds
    fixedStringLength := fixedStringLength
    byteLength := byteLength
    requiredAlignment := requiredAlignment }

end Types

section Frames

/-- A frame object. The bytes of the payload are as they are at the call; other values of a payload
than bytes are none. -/
structure Frame where
  /-- The number of the forward that returned the object, if one did. -/
  object : Option Nat := none
  portId : Option String := none
  payload : Option View := none
  typeRef : Option TypeRef := none
  wireFormat : Option Tag := none
  alignment : Option Number := none
  offset : Option Number := none
  size : Option Number := none
  byteLength : Option Number := none
  mutability : Option Tag := none
  ownership : Option Tag := none
  frameId : Option BigIntLike := none
  traceId : Option BigIntLike := none
  sequence : Option BigIntLike := none
  /-- Whether the flag is `true`, if there is one. -/
  endOfStream : Option Bool := none
  arenaLease : Option Nat := none
  arenaGeneration : Option Nat := none
  generation : Option Nat := none

variable (frame : Frame)

/-- An id wins over sequence and flag, and these over the trace. -/
def encodeSdsFrameId : Int :=
  match frame.frameId with
  | some id => normalizeBigInt (some id)
  | none =>
    if frame.sequence.isSome || frame.endOfStream.isSome then
      2 * normalizeBigInt frame.sequence + if frame.endOfStream = some true then 1 else 0
    else normalizeBigInt frame.traceId

def decodeSdsFrameId (frameId : Int) : Int × Bool := (frameId / 2, frameId % 2 == 1)

/-- The declared formats of the frame and of its type agree. -/
def frameWireFormat : Except String WireFormat := do
  let declared := frame.typeRef.bind (·.wireFormat)
  let wireFormat ← normalizePayloadWireFormat (declared.or frame.wireFormat)
  match declared, frame.wireFormat with
  | some ofType, some ofFrame => do
    let first ← normalizePayloadWireFormat (some ofType)
    let second ← normalizePayloadWireFormat (some ofFrame)
    require (first == second) "SDS PIV/TAB frame and typeRef wire formats disagree."
    return wireFormat
  | _, _ => return wireFormat

/-- An aligned type declares an alignment; another one may. -/
def checkedTypeRef (typeRef : TypeRefTable) : WireFormat → Except String TypeRefTable
  | .alignedBinary => do
    let requiredAlignment ← readAlignment "SDS PIV/TAB aligned type requiredAlignment" none
      uint16Max (some (.finite typeRef.requiredAlignment))
    return { typeRef with requiredAlignment := requiredAlignment }
  | .flatbuffer => do
    require (typeRef.requiredAlignment == 0 || isPositivePowerOfTwo typeRef.requiredAlignment)
      "SDS PIV/TAB type requiredAlignment must be a positive power of two when declared."
    return typeRef

def normalizeFrameTypeRef : Except String (TypeRefTable × WireFormat) := do
  let wireFormat ← frameWireFormat frame
  let typeRef ← toSdsFlatBufferTypeRefT (frame.typeRef.getD {}) wireFormat
  let checked ← checkedTypeRef typeRef wireFormat
  return (checked, wireFormat)

def resolveFrameAlignment (requiredAlignment : Nat) : Except String Nat := do
  let alignment ← readAlignment "SDS PIV/TAB frame alignment"
    (some (max invokeArenaAlignment requiredAlignment)) uint32Max frame.alignment
  require (requiredAlignment ≤ alignment) ("SDS PIV/TAB frame alignment " ++ toString alignment ++
    " is below required alignment " ++ toString requiredAlignment ++ ".")
  return alignment

def assertAlignedFrameSize (wireFormat : WireFormat) (typeRef : TypeRefTable) (size : Nat) :
    Except String Unit :=
  require (wireFormat != .alignedBinary || typeRef.byteLength == 0 || size == typeRef.byteLength)
    ("SDS PIV/TAB aligned payload size " ++ toString size ++
      " does not match declared byteLength " ++ toString typeRef.byteLength ++ ".")

end Frames

end SpaceDataModule.Invoke
