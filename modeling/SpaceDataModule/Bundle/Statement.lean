import Mathlib.Data.List.Perm.Basic
import Mathlib.Data.List.Sort
import SpaceDataModule.Json

/-! The canonical bytes of a bundle statement: members in the order of their UTF-8
keys, JSON text with Go's escapes, UTF-8. -/
namespace SpaceDataModule.Bundle
open Json

abbrev Bytes := List UInt8

def utf8 (text : String) : Bytes := text.toUTF8.data.toList

/-- `compareUtf8Keys(left, right) <= 0`. -/
def utf8Ordered (left right : String) : Bool :=
  decide ((utf8 left).map UInt8.toNat ≤ (utf8 right).map UInt8.toNat)

/-- The number an own property key is an array index for. -/
def arrayIndex (key : String) : Option Nat :=
  let digits := key.toList
  let value := digits.foldl (fun sum c => sum * 10 + (c.toNat - 48)) 0
  if digits ≠ [] ∧ digits.all Char.isDigit ∧ (digits.head? = some '0' → digits = ['0']) ∧
      value < 4294967295 then some value
  else none

/-- `Object.fromEntries`: the keys that are array indices come first, ascending. -/
def propertyOrder (members : List (String × Value)) : List (String × Value) :=
  (members.filter fun member => (arrayIndex member.1).isSome).insertionSort
      (fun left right => (arrayIndex left.1).getD 0 ≤ (arrayIndex right.1).getD 0) ++
    members.filter fun member => !(arrayIndex member.1).isSome

def sortMembers (members : List (String × Value)) : List (String × Value) :=
  propertyOrder (members.insertionSort fun left right => utf8Ordered left.1 right.1)

mutual
/-- `normalizeBundleStatementValue`. A parsed value has no undefined parts. -/
def normalizeBundleStatementValue : Value → Value
  | .array items => .array (normalizeItems items)
  | .object members => .object (sortMembers (normalizeMembers members))
  | .null => .null
  | .bool value => .bool value
  | .number value => .number value
  | .string value => .string value

def normalizeItems : List Value → List Value
  | [] => []
  | item :: rest => normalizeBundleStatementValue item :: normalizeItems rest

def normalizeMembers : List (String × Value) → List (String × Value)
  | [] => []
  | (key, value) :: rest => (key, normalizeBundleStatementValue value) :: normalizeMembers rest
end

def canonicalBundleStatementBytes (format : NumberFormat) (statement : Value) : Bytes :=
  let json := text escapeChar format (normalizeBundleStatementValue statement)
  utf8 (String.ofList (json.flatMap escapeMarkup))

/-- `value[key]` on a parsed value. -/
def property (key : String) : Value → Option Value
  | .object members => members.lookup key
  | _ => none

def shown (value : Value) : Value := seen (normalizeBundleStatementValue value)

theorem utf8_injective : Function.Injective utf8 := by
  intro left right same
  exact String.toByteArray_inj.mp (ByteArray.ext (Array.toList_inj.mp same))

theorem shown_eq_of_bytes
    (same : canonicalBundleStatementBytes format left = canonicalBundleStatementBytes format right) :
    shown left = shown right := by
  have texts := String.ofList_injective (utf8_injective same)
  rw [text_escapeMarkup, text_escapeMarkup] at texts
  have escaped : text goEscape.code format (normalizeBundleStatementValue left) =
      text goEscape.code format (normalizeBundleStatementValue right) := texts
  exact seen_eq_of_text escaped

theorem normalizeItems_eq_map (items : List Value) :
    normalizeItems items = items.map normalizeBundleStatementValue := by
  induction items with
  | nil => rfl
  | cons item rest ih => rw [normalizeItems, ih, List.map_cons]

section
variable (members : List (String × Value))

theorem normalizeMembers_eq_map :
    normalizeMembers members =
      members.map fun member => (member.1, normalizeBundleStatementValue member.2) := by
  induction members with
  | nil => rfl
  | cons member rest ih => rw [normalizeMembers, ih, List.map_cons]

theorem sortMembers_perm : (sortMembers members).Perm members := by
  refine List.Perm.trans ?_
    (List.perm_insertionSort (fun left right => utf8Ordered left.1 right.1) members)
  refine List.Perm.trans ?_ (List.filter_append_perm (fun member => (arrayIndex member.1).isSome) _)
  exact (List.perm_insertionSort _ _).append_right _

theorem lookup_eq_some_iff_mem {members : List (String × α)}
    (distinct : (members.map Prod.fst).Nodup) :
    members.lookup key = some value ↔ (key, value) ∈ members := by
  constructor
  · intro found
    obtain ⟨front, back, rfl, _⟩ := List.lookup_eq_some_iff.mp found
    simp
  · intro member
    obtain ⟨front, back, rfl⟩ := List.append_of_mem member
    refine List.lookup_eq_some_iff.mpr ⟨front, back, rfl, ?_⟩
    intro pair inFront
    rw [List.map_append, List.nodup_append] at distinct
    have apart := distinct.2.2 pair.1 (List.mem_map_of_mem inFront) key (by simp)
    simpa [bne_iff_ne] using apart.symm

theorem lookup_perm {left right : List (String × Value)} (perm : left.Perm right)
    (distinct : (right.map Prod.fst).Nodup) (key : String) : left.lookup key = right.lookup key := by
  have leftDistinct : (left.map Prod.fst).Nodup := (perm.map Prod.fst).nodup_iff.mpr distinct
  refine Option.ext fun value => ?_
  rw [lookup_eq_some_iff_mem leftDistinct, lookup_eq_some_iff_mem distinct]
  exact perm.mem_iff

theorem lookup_map_snd (f : Value → Value) (key : String) :
    (members.map fun member => (member.1, f member.2)).lookup key =
      (members.lookup key).map f := by
  induction members with
  | nil => rfl
  | cons member rest ih =>
    obtain ⟨name, value⟩ := member
    rw [List.map_cons, List.lookup_cons, List.lookup_cons, ih]
    cases key == name <;> rfl

end

/-- The canonical bytes show every property of an object. -/
theorem property_shown (distinct : (members.map Prod.fst).Nodup) (key : String) :
    property key (shown (.object members)) = (members.lookup key).map shown := by
  have keys : ((normalizeMembers members).map Prod.fst).Nodup := by
    rw [normalizeMembers_eq_map, List.map_map]
    exact distinct
  rw [shown, normalizeBundleStatementValue, seen, property, seenMembers_eq_map, lookup_map_snd,
    lookup_perm (sortMembers_perm _) keys, normalizeMembers_eq_map, lookup_map_snd, Option.map_map]
  rfl

theorem shown_array (items : List Value) : shown (.array items) = .array (items.map shown) := by
  rw [shown, normalizeBundleStatementValue, seen, normalizeItems_eq_map, seenItems_eq_map,
    List.map_map]
  rfl

end SpaceDataModule.Bundle
