import Mathlib.Algebra.Order.BigOperators.Group.List
import SpaceDataModule.Hostcall.SqlValues

/-! The rows of a sandboxed query. The columns of an answer are the keys of its first row, and the
cells are the values of each row in the order of the row. The members of an object stand in the
order of `Object.keys`. -/
namespace SpaceDataModule.Hostcall
open Bundle (Bytes utf8)
open Checked

def nestedCell (kind : String) : Except String SqlCell :=
  .error ("storage.query_sandboxed: a cell is a " ++ kind ++ " (nested values are not SQL values)")

def sqlCell : Json.Value → Except String SqlCell
  | .null => .ok .null
  | .bool value => .ok (.bool value)
  | .number (.finite value) => .ok (if value.den = 1 then .i64 value.num else .f64 (.finite value))
  | .number value => .ok (.f64 value)
  | .string value => .ok (.str value)
  | .array _ => nestedCell "list"
  | .object _ => nestedCell "object"

structure RowsAnswer where
  rows : Nat
  columns : List String
  cells : Bytes

def rowCells : Json.Value → Except String (List SqlCell)
  | .object members => members.mapM fun member => sqlCell member.2
  | _ => .error "storage.query_sandboxed: a row is not an object"

/-- The keys of the first row. -/
def columnsOf : List Json.Value → List String
  | .object members :: _ => members.map Prod.fst
  | _ => []

/-- The rows branch of the codec, on the parsed answer. -/
def rowsAnswer : Json.Value → Except String RowsAnswer
  | .array rows => do
    let cells ← rows.mapM rowCells
    .ok ⟨rows.length, columnsOf rows, encodeSqlValues cells.flatten⟩
  | _ => .error "storage.query_sandboxed: rows are not a JSON array"

/-- A number is a double, and a text has a length of 32 bits. -/
def Storable : Json.Value → Prop
  | .number number => ∃ bits, .ofBits bits = number
  | .string text => (utf8 text).length < 2 ^ 32
  | _ => True

structure Row where
  members : List (String × Json.Value)
  distinct : (members.map Prod.fst).Nodup
  storable : ∀ member ∈ members, Storable member.2

namespace Row
variable (row : Row)

def values : List Json.Value := row.members.map Prod.snd

def value (column : String) : Json.Value := (row.members.lookup column).getD .null

end Row

/-- The guest reads the cells row by row, each the value of its row under the name of its column. -/
def IsMatrix (rows : List Row) (answer : RowsAnswer) : Prop :=
  answer.rows = rows.length ∧ ∃ run, readSqlValues answer.cells = some run ∧
    List.Forall₂ (fun value json => ∃ cell, sqlCell json = .ok cell ∧ value.Means cell) run
      (rows.flatMap fun row => answer.columns.map row.value)

/-- The JSON value of a cell. -/
def SqlCell.json : SqlCell → Json.Value
  | .null | .bytes _ => .null
  | .bool value => .bool value
  | .i64 value => .number (.finite value)
  | .f64 value => .number value
  | .str value => .string value

/-- The cell that is read where this one was written. -/
def SqlCell.stored : SqlCell → SqlCell
  | .i64 value => .i64 (BitVec.ofInt 64 value).toInt
  | cell => cell

theorem json_of_sqlCell (made : sqlCell value = .ok cell) : value = cell.json := by
  unfold sqlCell at made
  split at made
  case h_3 value =>
    split_ifs at made with whole
    all_goals cases made
    · rw [SqlCell.json, Rat.coe_int_num_of_den_eq_one whole]
    · rfl
  all_goals cases made
  all_goals rfl

theorem sqlCell_stored (made : sqlCell value = .ok cell) :
    sqlCell cell.stored.json = .ok cell.stored := by
  cases json_of_sqlCell made
  cases cell with
  | i64 value => simp [SqlCell.stored, SqlCell.json, sqlCell]
  | null => rfl
  | bool value => rfl
  | str value => rfl
  | bytes value => cases made
  | f64 value => exact made

theorem means_unique {value : SqlValue} (left : value.Means cell) (right : value.Means other) :
    cell = other := by
  cases cell <;> cases other <;> simp_all [SqlValue.Means, SqlValue.Fits, Bundle.utf8_injective.eq_iff]

/-- A written value is read as the cell, cut to 64 bits. -/
theorem means_value_iff {cell : SqlCell} (storable : Storable cell.json) :
    cell.value.Means other ↔ other = cell.stored := by
  have stored : cell.value.Means cell.stored := by
    cases cell with
    | null => exact ⟨rfl, by simp [SqlTag.fixed, SqlCell.value]⟩
    | bool value =>
      cases value <;> exact ⟨⟨rfl, by simp [SqlTag.fixed, SqlCell.value]⟩, rfl⟩
    | i64 value =>
      refine ⟨⟨rfl, by simp [SqlTag.fixed, SqlCell.value, word64, word]⟩, ?_⟩
      rw [SqlCell.value, SqlValue.asI64, uint64_word64, Nat.mod_eq_of_lt (BitVec.isLt _),
        BitVec.ofNat_toNat, BitVec.setWidth_eq]
    | f64 value =>
      obtain ⟨bits, rfl⟩ := storable
      obtain ⟨small, same⟩ := JavaScript.Number.ofBits_toBits bits
      refine ⟨⟨rfl, by simp [SqlTag.fixed, SqlCell.value, word64, word]⟩, ?_⟩
      rw [SqlCell.value, SqlValue.asF64, uint64_word64, Nat.mod_eq_of_lt small, same]
    | str value | bytes value => exact ⟨⟨rfl, by simp [SqlTag.fixed]⟩, rfl⟩
  exact ⟨fun means => means_unique means stored, fun same => same ▸ stored⟩

/-- The answer has the cells of all values, each row in its own order. -/
theorem rowsAnswer_eq_ok {rows : List Row}
    (accepted : rowsAnswer (.array (rows.map fun row => .object row.members)) = .ok answer) :
    ∃ cells, List.Forall₂ (fun value cell => sqlCell value = .ok cell) (rows.flatMap Row.values) cells ∧
      answer.rows = rows.length ∧ answer.cells = encodeSqlValues cells ∧
      answer.columns = columnsOf (rows.map fun row => .object row.members) := by
  obtain ⟨parts, listed, ⟨⟩⟩ := bind_eq_ok.mp accepted
  rw [mapM_eq_ok, List.forall₂_map_left_iff] at listed
  refine ⟨_, ?_, List.length_map .., rfl, rfl⟩
  rw [List.flatMap_def]
  refine List.rel_flatten (List.forall₂_map_left_iff.mpr (listed.imp fun row cells made => ?_))
  rw [Row.values, List.forall₂_map_left_iff]
  exact mapM_eq_ok.mp made

theorem forall₂_congr_mem {R S : α → β → Prop}
    (same : ∀ item ∈ items, ∀ other, R item other ↔ S item other) :
    List.Forall₂ R items others ↔ List.Forall₂ S items others := by
  induction items generalizing others with
  | nil => rw [List.forall₂_nil_left_iff, List.forall₂_nil_left_iff]
  | cons item items ih =>
    obtain ⟨first, rest⟩ := List.forall_mem_cons.mp same
    simp only [List.forall₂_cons_left_iff, first, ih rest]

/-- The matrix is read where each written value is the one looked up. -/
theorem isMatrix_iff {rows : List Row} (counted : answer.rows = rows.length)
    (written : answer.cells = encodeSqlValues cells)
    (made : ∀ cell ∈ cells, ∃ value, Storable value ∧ sqlCell value = .ok cell) :
    IsMatrix rows answer ↔
      (rows.flatMap fun row => answer.columns.map row.value) = cells.map (·.stored.json) := by
  have small : ∀ value ∈ cells.map SqlCell.value, value.payload.length < 2 ^ 32 := by
    intro value listed
    obtain ⟨cell, member, rfl⟩ := List.mem_map.mp listed
    obtain ⟨value, storable, same⟩ := made cell member
    cases json_of_sqlCell same
    cases cell with
    | str text => exact storable
    | bytes bytes => cases same
    | _ => simp [SqlCell.value, word64, word]
  have read : readSqlValues answer.cells = some (cells.map SqlCell.value) :=
    readSqlValues_eq_some.mpr ⟨by rw [written, encodeSqlValues, List.flatMap_map], small⟩
  simp only [IsMatrix, counted, read, Option.some.injEq, exists_eq_left', true_and]
  rw [List.forall₂_map_left_iff, eq_comm, ← List.forall₂_eq_eq_eq, List.forall₂_map_left_iff]
  refine forall₂_congr_mem fun cell member json => ?_
  obtain ⟨value, storable, same⟩ := made cell member
  cases json_of_sqlCell same
  simp only [means_value_iff storable, exists_eq_right]
  exact ⟨fun kept => (json_of_sqlCell kept).symm, fun kept => kept ▸ sqlCell_stored same⟩

/-- An integer of 64 bits. -/
def fitsI64 : Json.Value → Bool
  | .number (.finite value) => value.den == 1 && decide (-2 ^ 63 ≤ value.num ∧ value.num < 2 ^ 63)
  | _ => false

/-- Looking up distinct columns finds no value more often than the row has it. -/
theorem countP_value_le (row : Row) {columns : List String} (distinct : columns.Nodup) :
    (columns.map row.value).countP fitsI64 ≤ row.values.countP fitsI64 := by
  rw [List.countP_map, List.countP_eq_length_filter, Row.values, List.countP_map,
    List.countP_eq_length_filter, ← List.length_map Prod.fst]
  refine (List.subperm_of_subset (distinct.filter _) fun column found => ?_).length_le
  obtain ⟨-, fits⟩ := List.mem_filter.mp found
  rw [Function.comp_apply, Row.value] at fits
  cases looked : row.members.lookup column with
  | none => simp [looked, fitsI64] at fits
  | some value =>
    rw [looked] at fits
    exact List.mem_map.mpr ⟨(column, value), List.mem_filter.mpr
      ⟨(Bundle.lookup_eq_some_iff_mem row.distinct).mp looked, fits⟩, rfl⟩

theorem fitsI64_int (value : Int) :
    fitsI64 (.number (.finite value)) = true ↔ -2 ^ 63 ≤ value ∧ value < 2 ^ 63 := by
  rw [fitsI64, Rat.den_intCast, Rat.num_intCast, beq_self_eq_true, Bool.true_and, decide_eq_true_iff]

theorem fitsI64_stored (value : Int) : fitsI64 (SqlCell.i64 value).stored.json = true :=
  (fitsI64_int _).mpr ⟨BitVec.le_toInt _, BitVec.toInt_lt⟩

theorem stored_of_fits (fits : -2 ^ 63 ≤ value ∧ value < 2 ^ 63) :
    (SqlCell.i64 value).stored = .i64 value := by
  rw [SqlCell.stored, BitVec.toInt_ofInt, Int.bmod_eq_of_le (by omega) (by omega)]

/-- Nothing that is looked up was cut to 64 bits: the integers that fit would be more than those
of the rows. -/
theorem stored_of_looked_up {rows : List Row} {cells : List SqlCell} {columns : List String}
    (distinct : columns.Nodup) (own : rows.flatMap Row.values = cells.map SqlCell.json)
    (same : (rows.flatMap fun row => columns.map row.value) = cells.map (·.stored.json)) :
    ∀ cell ∈ cells, cell.stored = cell := by
  have fewer : (cells.filter fun cell => fitsI64 cell.stored.json).length ≤
      (cells.filter fun cell => fitsI64 cell.json).length := by
    have looked := congrArg (List.countP fitsI64) same
    have there := congrArg (List.countP fitsI64) own
    rw [List.countP_map, List.countP_flatMap] at looked there
    rw [← List.countP_eq_length_filter, ← List.countP_eq_length_filter]
    refine looked.ge.trans (le_trans ?_ there.le)
    exact List.sum_le_sum fun row _ => countP_value_le row distinct
  have part : (cells.filter fun cell => fitsI64 cell.json).Sublist
      (cells.filter fun cell => fitsI64 cell.stored.json) :=
    List.monotone_filter_right cells fun cell fits => by
      cases cell with
      | i64 value => exact fitsI64_stored value
      | _ => exact fits
  intro cell member
  cases cell with
  | i64 value =>
    have kept : .i64 value ∈ cells.filter fun cell => fitsI64 cell.stored.json :=
      List.mem_filter.mpr ⟨member, fitsI64_stored value⟩
    rw [← part.eq_of_length_le fewer] at kept
    exact stored_of_fits ((fitsI64_int value).mp (List.mem_filter.mp kept).2)
  | _ => rfl

/-- A row with one short text. -/
def oneCell : Row := ⟨[("a", .string "x")], by decide, List.forall_mem_singleton.mpr
  (show (utf8 "x").length < 2 ^ 32 by decide)⟩

end SpaceDataModule.Hostcall
