import Mathlib.Data.List.GetD
import Mathlib.Data.Nat.Notation
import Mathlib.Tactic.MkIffOfInductiveProp

/-! Reading FlatBuffers. A table leads to its vtable, the vtable says where in the object a
field stands, and a field of variable length is a reference to a length and the contents. The
accessors are those of the runtime; `Table`, `Vector` and `References` say what the format
demands of a buffer. -/
namespace FlatBuffers

abbrev Bytes := List UInt8

section Scalars
variable (buffer : Bytes) (offset : Nat)

def byte : Nat := (buffer.getD offset 0).toNat

def uint16 : Nat := byte buffer offset + 256 * byte buffer (offset + 1)

def uint32 : Nat := uint16 buffer offset + 65536 * uint16 buffer (offset + 2)

def uint64 : Nat := uint32 buffer offset + 4294967296 * uint32 buffer (offset + 4)

def int32 : Int :=
  if uint32 buffer offset < 2147483648 then uint32 buffer offset
  else (uint32 buffer offset : Int) - 4294967296

theorem uint32_append (front back : Bytes) :
    uint32 (front ++ back) front.length = uint32 back 0 := by
  have same (index : Nat) : byte (front ++ back) (front.length + index) = byte back index := by
    rw [byte, byte, List.getD_append_right _ _ _ _ (Nat.le_add_right ..), Nat.add_sub_cancel_left]
  simp only [uint32, uint16, Nat.add_assoc, same]
  rw [← Nat.add_zero front.length, same]

end Scalars

section Accessors
variable (buffer : Bytes)

def vtable (table : Nat) : Int := table - int32 buffer table

variable (table slot : Nat)

/-- `__offset`: where in the object the field of a vtable slot stands, 0 if it is absent. -/
def fieldOffset : Nat :=
  let start := (vtable buffer table).toNat
  if slot < uint16 buffer start then uint16 buffer (start + slot) else 0

/-- `__indirect`: what the reference at a place leads to. -/
def target (place : Nat) : Nat := (place + int32 buffer place).toNat

def contents (place : Nat) : Bytes :=
  let start := target buffer place
  (buffer.drop (start + 4)).take (uint32 buffer start)

def vectorLength (place : Nat) : Nat := uint32 buffer (target buffer place)

def uint8Field (absent : UInt8) : UInt8 :=
  let offset := fieldOffset buffer table slot
  if offset = 0 then absent else buffer.getD (table + offset) 0

def uint64Field : UInt64 :=
  let offset := fieldOffset buffer table slot
  if offset = 0 then 0 else UInt64.ofNat (uint64 buffer (table + offset))

def bytesField : Option Bytes :=
  let offset := fieldOffset buffer table slot
  if offset = 0 then none else some (contents buffer (table + offset))

def elementTable (place index : Nat) : Nat := target buffer (target buffer place + 4 + 4 * index)

end Accessors

section Format
variable (buffer : Bytes)

def objectLength (table : Nat) : Nat := uint16 buffer ((vtable buffer table).toNat + 2)

def vtableLength (table : Nat) : Nat := uint16 buffer (vtable buffer table).toNat

/-- A table with its vtable inside the buffer, and every field inside the object. -/
@[mk_iff]
structure Table (table : Nat) : Prop where
  vtable_nonneg : 0 ≤ vtable buffer table
  vtable_inside : (vtable buffer table).toNat + vtableLength buffer table ≤ buffer.length
  header : 4 ≤ vtableLength buffer table
  even : vtableLength buffer table % 2 = 0
  object : 4 ≤ objectLength buffer table
  object_inside : table + objectLength buffer table ≤ buffer.length
  fields : ∀ index < (vtableLength buffer table - 4) / 2,
    uint16 buffer ((vtable buffer table).toNat + 4 + 2 * index) = 0 ∨
      4 ≤ uint16 buffer ((vtable buffer table).toNat + 4 + 2 * index) ∧
        uint16 buffer ((vtable buffer table).toNat + 4 + 2 * index) < objectLength buffer table

/-- The reference at a place stays in the buffer and leads to a length word. -/
@[mk_iff]
structure References (place : Nat) : Prop where
  inside : place + 4 ≤ buffer.length
  forward : 0 ≤ (place : Int) + int32 buffer place
  leads : target buffer place + 4 ≤ buffer.length

/-- The reference at a place leads to a vector or a string with these bytes. -/
@[mk_iff]
structure Vector (place : Nat) (bytes : Bytes) : Prop extends References buffer place where
  length : vectorLength buffer place = bytes.length
  fits : target buffer place + 4 + bytes.length ≤ buffer.length
  holds : contents buffer place = bytes

/-- An optional field that is a byte vector or a string. -/
def VectorField (table slot : Nat) : Option Bytes → Prop
  | none => fieldOffset buffer table slot = 0
  | some bytes => fieldOffset buffer table slot ≠ 0 ∧
      Vector buffer (table + fieldOffset buffer table slot) bytes

/-- A field that refers to a table. -/
@[mk_iff]
structure TableField (table slot : Nat) : Prop where
  present : fieldOffset buffer table slot ≠ 0
  refers : References buffer (table + fieldOffset buffer table slot)

variable {buffer}

theorem VectorField.read (field : VectorField buffer table slot bytes) :
    bytesField buffer table slot = bytes := by
  cases bytes with
  | none => exact if_pos field
  | some bytes =>
    obtain ⟨present, vector⟩ := field
    exact (if_neg present).trans (congrArg some vector.holds)

end Format

section Decidability
variable (buffer : Bytes)

instance (table : Nat) : Decidable (Table buffer table) := decidable_of_iff _ (table_iff ..).symm

instance (place : Nat) : Decidable (References buffer place) :=
  decidable_of_iff _ (references_iff ..).symm

instance (place : Nat) (bytes : Bytes) : Decidable (Vector buffer place bytes) :=
  decidable_of_iff _ (vector_iff ..).symm

instance (table slot : Nat) (bytes : Option Bytes) :
    Decidable (VectorField buffer table slot bytes) := by
  unfold VectorField
  split <;> infer_instance

instance (table slot : Nat) : Decidable (TableField buffer table slot) :=
  decidable_of_iff _ (tableField_iff ..).symm

end Decidability

end FlatBuffers
