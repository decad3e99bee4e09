import SpaceDataModule.Doubles
import SpaceDataModule.Hostcall.Envelope
import SpaceDataModule.TextDecoder

/-! SQL values on the wire: a tag, the length of a payload and the payload, value after value. The
guest and the host each have a reader of such bytes. -/
namespace SpaceDataModule.Hostcall
open Bundle (Bytes utf8)
open Checked
open FlatBuffers (byte uint32 uint64)
open JavaScript (Number decodeText)

/-- `SqlValue` of the guest: what stands in the bytes. -/
structure SqlValue where
  tag : UInt8
  payload : Bytes

namespace SqlValue
variable (value : SqlValue)

/-- `SqlValues::put`. -/
def put : Bytes := value.tag :: (word value.payload.length ++ value.payload)

/-- `as_bool`; a byte that is not there is read as 0 here and below. -/
def asBool : Bool := byte value.payload 0 != 0

/-- `as_i64`. -/
def asI64 : Int := (BitVec.ofNat 64 (uint64 value.payload 0)).toInt

/-- `as_f64`. -/
def asF64 : Number := .ofBits (uint64 value.payload 0)

end SqlValue

/-- `read_sql_values`, none where it returns false. -/
def readSqlValues : Bytes → Option (List SqlValue)
  | [] => some []
  | tag :: b₀ :: b₁ :: b₂ :: b₃ :: rest =>
    if rest.length < uint32 [b₀, b₁, b₂, b₃] 0 then none
    else (readSqlValues (rest.drop (uint32 [b₀, b₁, b₂, b₃] 0))).map
      (⟨tag, rest.take (uint32 [b₀, b₁, b₂, b₃] 0)⟩ :: ·)
  | _ => none
termination_by bytes => bytes.length
decreasing_by
  simp only [List.length_cons, List.length_drop]
  omega

inductive SqlTag where
  | null | bool | i64 | f64 | str | bytes
  deriving Inhabited

/-- `SQL_TAG_NAME`. -/
def sqlTag : UInt8 → Option SqlTag
  | 0 => some .null
  | 1 => some .bool
  | 2 => some .i64
  | 3 => some .f64
  | 4 => some .str
  | 5 => some .bytes
  | _ => none

namespace SqlTag

def name : SqlTag → String
  | .null => "null"
  | .bool => "bool"
  | .i64 => "i64"
  | .f64 => "f64"
  | .str => "str"
  | .bytes => "bytes"

/-- The payload size of the tags that have one. -/
def fixed : SqlTag → Option Nat
  | .null => some 0
  | .bool => some 1
  | .i64 | .f64 => some 8
  | .str | .bytes => none

end SqlTag

/-- The host's tagged values `{t, v}`. -/
inductive SqlCell where
  | null
  | bool (value : Bool)
  | i64 (value : Int)
  | f64 (value : Number)
  | str (value : String)
  | bytes (value : Bytes)

def word64 (value : Nat) : Bytes := word value ++ word (value / 2 ^ 32)

/-- What `encodeSqlValues` writes of a cell: `setBigInt64` keeps the low 64 bits. -/
def SqlCell.value : SqlCell → SqlValue
  | .null => ⟨0, []⟩
  | .bool value => ⟨1, [if value then 1 else 0]⟩
  | .i64 value => ⟨2, word64 (BitVec.ofInt 64 value).toNat⟩
  | .f64 value => ⟨3, word64 value.toBits⟩
  | .str value => ⟨4, utf8 value⟩
  | .bytes value => ⟨5, value⟩

def encodeSqlValues (cells : List SqlCell) : Bytes := cells.flatMap fun cell => cell.value.put

def SqlTag.cell (payload : Bytes) : SqlTag → SqlCell
  | .null => .null
  | .bool => .bool (byte payload 0 != 0)
  | .i64 => .i64 (BitVec.ofNat 64 (uint64 payload 0)).toInt
  | .f64 => .f64 (.ofBits (uint64 payload 0))
  | .str => .str (decodeText payload)
  | .bytes => .bytes payload

/-- The host's checks of one value. -/
def decodeSqlValue (value : SqlValue) : Except String SqlCell :=
  match sqlTag value.tag with
  | none => .error ("SQL values: unknown tag " ++ toString value.tag.toNat)
  | some tag =>
    if ∀ size ∈ tag.fixed, value.payload.length = size then .ok (tag.cell value.payload)
    else .error ("SQL values: a " ++ tag.name ++ " carries " ++ toString (tag.fixed.getD 0) ++
      " bytes, not " ++ toString value.payload.length)

def decodeSqlValues : Bytes → Except String (List SqlCell)
  | [] => .ok []
  | tag :: b₀ :: b₁ :: b₂ :: b₃ :: rest =>
    if rest.length < uint32 [b₀, b₁, b₂, b₃] 0 then
      .error "SQL values: payload exceeds the buffer"
    else do
      let cell ← decodeSqlValue ⟨tag, rest.take (uint32 [b₀, b₁, b₂, b₃] 0)⟩
      let cells ← decodeSqlValues (rest.drop (uint32 [b₀, b₁, b₂, b₃] 0))
      .ok (cell :: cells)
  | _ => .error "SQL values: truncated value header"
termination_by bytes => bytes.length
decreasing_by
  simp only [List.length_cons, List.length_drop]
  omega

/-- The value has a tag, and the size that the tag fixes. -/
def SqlValue.Fits (value : SqlValue) (tag : SqlTag) : Prop :=
  sqlTag value.tag = some tag ∧ ∀ size ∈ tag.fixed, value.payload.length = size

/-- The cell has the tag of the guest's value, and the payload as the guest takes it. -/
def SqlValue.Means (value : SqlValue) : SqlCell → Prop
  | .null => value.Fits .null
  | .bool bool => value.Fits .bool ∧ value.asBool = bool
  | .i64 int => value.Fits .i64 ∧ value.asI64 = int
  | .f64 number => value.Fits .f64 ∧ value.asF64 = number
  | .str text => value.Fits .str ∧ value.payload = utf8 text
  | .bytes bytes => value.Fits .bytes ∧ value.payload = bytes

/-- The readers accept the same bytes, with the same tags and payloads. -/
def ReadersAgree (bytes : Bytes) : Prop :=
  ((∃ run, readSqlValues bytes = some run) ↔ ∃ cells, decodeSqlValues bytes = .ok cells) ∧
  ∀ run cells, readSqlValues bytes = some run → decodeSqlValues bytes = .ok cells →
    List.Forall₂ SqlValue.Means run cells

theorem word_uint32 (b₀ b₁ b₂ b₃ : UInt8) :
    word (uint32 [b₀, b₁, b₂, b₃] 0) = [b₀, b₁, b₂, b₃] := by
  have h₀ := b₀.toNat_lt
  have h₁ := b₁.toNat_lt
  have h₂ := b₂.toNat_lt
  have h₃ := b₃.toNat_lt
  simp only [word, uint32, FlatBuffers.uint16, byte, List.getD_cons_zero, List.getD_cons_succ,
    List.cons.injEq, ← UInt8.toNat_inj, UInt8.toNat_ofNat', and_true]
  omega

theorem uint64_word64 (value : Nat) : uint64 (word64 value) 0 = value % 2 ^ 64 := by
  have low := uint32_word value (word (value / 2 ^ 32))
  have high := FlatBuffers.uint32_append (word value) (word (value / 2 ^ 32))
  have top := uint32_word (value / 2 ^ 32) []
  rw [List.append_nil] at top
  rw [top, show (word value).length = 0 + 4 from rfl] at high
  rw [word64, uint64, low, high]
  omega

theorem readSqlValues_put (small : value.payload.length < 2 ^ 32) :
    readSqlValues (value.put ++ rest) = (readSqlValues rest).map (value :: ·) := by
  have size := uint32_word value.payload.length []
  rw [Nat.mod_eq_of_lt small, List.append_nil, word] at size
  simp [SqlValue.put, word, readSqlValues, size]

/-- The guest reads every run of complete values, whatever their tags and sizes. -/
theorem readSqlValues_eq_some : readSqlValues bytes = some run ↔
    run.flatMap SqlValue.put = bytes ∧ ∀ value ∈ run, value.payload.length < 2 ^ 32 := by
  constructor
  · intro read
    induction bytes using readSqlValues.induct generalizing run with
    | case1 =>
      rw [readSqlValues] at read
      cases read
      simp
    | case2 tag b₀ b₁ b₂ b₃ rest short =>
      rw [readSqlValues, if_pos short] at read
      cases read
    | case3 tag b₀ b₁ b₂ b₃ rest enough ih =>
      rw [readSqlValues, if_neg enough, Option.map_eq_some_iff] at read
      obtain ⟨later, again, rfl⟩ := read
      obtain ⟨written, small⟩ := ih again
      have length := List.length_take_of_le (not_lt.mp enough)
      rw [List.flatMap_cons, written, SqlValue.put, length, word_uint32, List.forall_mem_cons,
        length]
      exact ⟨by simp, uint32_lt _ _, small⟩
    | case4 bytes filled short =>
      rw [readSqlValues.eq_3 _ filled short] at read
      cases read
  · rintro ⟨rfl, small⟩
    induction run with
    | nil => rw [List.flatMap_nil, readSqlValues]
    | cons value run ih =>
      obtain ⟨first, later⟩ := List.forall_mem_cons.mp small
      rw [List.flatMap_cons, readSqlValues_put first, ih later, Option.map_some]

/-- Bytes that fit a memory of 32 bits are read as a run exactly when they are the values of this
run, written one after the other. -/
theorem sql_run_round_trip (run : List SqlValue) (bytes : Bytes) :
    bytes.length < 2 ^ 32 ∧ readSqlValues bytes = some run ↔
      bytes.length < 2 ^ 32 ∧ run.flatMap SqlValue.put = bytes := by
  rw [readSqlValues_eq_some, and_congr_right_iff]
  refine fun short => and_iff_left_of_imp ?_
  rintro rfl value listed
  obtain ⟨before, after, rfl⟩ := List.append_of_mem listed
  simp [SqlValue.put] at short
  omega

theorem decodeSqlValue_eq_ok : decodeSqlValue value = .ok cell ↔
    ∃ tag, value.Fits tag ∧ tag.cell value.payload = cell := by
  unfold decodeSqlValue SqlValue.Fits
  cases sqlTag value.tag with
  | none => simp
  | some tag =>
    simp only [Option.some.injEq, and_assoc, exists_eq_left']
    split_ifs with sized
    · exact ⟨fun same => ⟨sized, Except.ok.inj same⟩, fun fits => congrArg _ fits.2⟩
    · exact ⟨nofun, fun fits => absurd fits.1 sized⟩

/-- The host reads the values that the guest reads, and checks each of them. -/
theorem decodeSqlValues_eq_ok : decodeSqlValues bytes = .ok cells ↔
    ∃ run, readSqlValues bytes = some run ∧ List.Forall₂ (fun value cell =>
      ∃ tag, value.Fits tag ∧ tag.cell value.payload = cell) run cells := by
  induction bytes using readSqlValues.induct generalizing cells with
  | case1 => simp [readSqlValues, decodeSqlValues]
  | case2 tag b₀ b₁ b₂ b₃ rest short => simp [readSqlValues, decodeSqlValues, short]
  | case3 tag b₀ b₁ b₂ b₃ rest enough ih =>
    simp only [readSqlValues, decodeSqlValues, if_neg enough, bind_eq_ok, decodeSqlValue_eq_ok, ih,
      Option.map_eq_some_iff, Except.ok.injEq]
    constructor
    · rintro ⟨cell, fits, others, ⟨run, read, same⟩, rfl⟩
      exact ⟨_, ⟨run, read, rfl⟩, .cons fits same⟩
    · rintro ⟨_, ⟨run, read, rfl⟩, _ | ⟨fits, same⟩⟩
      exact ⟨_, fits, _, ⟨run, read, same⟩, rfl⟩
  | case4 bytes filled short =>
    simp [readSqlValues.eq_3 _ filled short, decodeSqlValues.eq_3 _ filled short]

/-- The payload is a text in UTF-8 without a byte order mark in front. -/
def SqlValue.Plain (value : SqlValue) : Prop :=
  ∃ text, value.payload = utf8 text ∧ text.toList.head? ≠ some '\uFEFF'

theorem payload_eq_utf8_decodeText_iff (value : SqlValue) :
    value.payload = utf8 (decodeText value.payload) ↔ value.Plain := by
  constructor
  · intro same
    refine ⟨_, same, JavaScript.stripByteOrderMark_eq_self.mp ?_⟩
    rw [← JavaScript.decodeText_utf8]
    exact congrArg decodeText same.symm
  · rintro ⟨text, same, unmarked⟩
    have decoded : decodeText value.payload = text := by
      rw [same, utf8, JavaScript.decodeText_utf8,
        JavaScript.stripByteOrderMark_eq_self.mpr unmarked]
    rw [decoded, same]

/-- What the host makes of a value is what the guest has, but for some texts. -/
theorem means_cell_iff {value : SqlValue} (fits : value.Fits tag) :
    value.Means (tag.cell value.payload) ↔ (tag = .str → value.Plain) := by
  cases tag <;> simp [SqlTag.cell, SqlValue.Means, SqlValue.asBool, SqlValue.asI64, SqlValue.asF64,
    fits, payload_eq_utf8_decodeText_iff]

theorem means_cells_iff (made : List.Forall₂ (fun value cell =>
      ∃ tag, value.Fits tag ∧ tag.cell value.payload = cell) run cells) :
    List.Forall₂ SqlValue.Means run cells ↔
      ∀ value ∈ run, ∃ tag, value.Fits tag ∧ (tag = .str → value.Plain) := by
  refine forall₂_iff_forall_mem made ?_
  rintro value _ ⟨tag, fits, rfl⟩
  rw [means_cell_iff fits]
  refine ⟨fun plain => ⟨tag, fits, plain⟩, ?_⟩
  rintro ⟨other, again, plain⟩
  cases fits.1.symm.trans again.1
  exact plain

/-- **The two readers of SQL values.** They agree on bytes unless the bytes are a run of complete
values of which one has an unknown tag or not the size of its tag, which the guest reads all the
same, or is a text that a decoder changes. -/
theorem sql_readers_agree_iff (bytes : Bytes) : ReadersAgree bytes ↔
    ∀ run : List SqlValue, run.flatMap SqlValue.put = bytes →
      (∀ value ∈ run, value.payload.length < 2 ^ 32) →
      ∀ value ∈ run, ∃ tag, value.Fits tag ∧ (tag = .str → value.Plain) := by
  simp only [ReadersAgree, decodeSqlValues_eq_ok]
  constructor
  · intro ⟨accepts, agree⟩ run written small
    have read := readSqlValues_eq_some.mpr ⟨written, small⟩
    obtain ⟨cells, other, again, made⟩ := accepts.mp ⟨run, read⟩
    cases read.symm.trans again
    exact (means_cells_iff made).mp (agree run cells read ⟨run, read, made⟩)
  · intro fit
    refine ⟨⟨fun ⟨run, read⟩ => ?_, fun ⟨_, run, read, _⟩ => ⟨run, read⟩⟩, ?_⟩
    · obtain ⟨written, small⟩ := readSqlValues_eq_some.mp read
      choose! tagOf fits using fit run written small
      refine ⟨run.map fun value => (tagOf value).cell value.payload, run, read, ?_⟩
      rw [List.forall₂_map_right_iff, List.forall₂_same]
      exact fun value member => ⟨_, (fits value member).1, rfl⟩
    · rintro run cells read ⟨other, again, made⟩
      cases read.symm.trans again
      obtain ⟨written, small⟩ := readSqlValues_eq_some.mp read
      exact (means_cells_iff made).mpr (fit run written small)

/-- A value with a tag that no one writes is read by the guest, and a text may lose its front. -/
theorem unknown_tag_read : readSqlValues [9, 0, 0, 0, 0] = some [⟨9, []⟩] ∧
    decodeSqlValues [9, 0, 0, 0, 0] = .error "SQL values: unknown tag 9" ∧
    readSqlValues [4, 3, 0, 0, 0, 0xEF, 0xBB, 0xBF] = some [⟨4, [0xEF, 0xBB, 0xBF]⟩] ∧
    decodeSqlValues [4, 3, 0, 0, 0, 0xEF, 0xBB, 0xBF] = .ok [.str ""] := by
  have marked : readSqlValues [4, 3, 0, 0, 0, 0xEF, 0xBB, 0xBF] = some [⟨4, [0xEF, 0xBB, 0xBF]⟩] :=
    readSqlValues_eq_some.mpr ⟨rfl, by simp⟩
  refine ⟨readSqlValues_eq_some.mpr ⟨rfl, by simp⟩, ?_, marked, ?_⟩
  · rw [decodeSqlValues]
    rfl
  · exact decodeSqlValues_eq_ok.mpr ⟨_, marked, .cons ⟨.str, ⟨rfl, nofun⟩, rfl⟩ .nil⟩

end SpaceDataModule.Hostcall
