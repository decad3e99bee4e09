import SpaceDataModule.Bundle.Statement

/-! Canonical payload bytes: members sorted by `localeCompare`, JSON text, UTF-8. What the
JavaScript engine computes stands in `Engine`. -/
namespace SpaceDataModule.Auth
open Json Bundle

/-- The parts of a JavaScript engine that text and JSON payloads go through. -/
structure Engine where
  /-- `Number.prototype.toString`. -/
  numbers : NumberFormat
  /-- `left.localeCompare(right) <= 0`. -/
  localeOrdered : String → String → Bool
  /-- `JSON.parse`; `none` where it throws. -/
  parseJson : String → Option Value
  /-- `String(value)` and `Number(value)` for a value that is not null. -/
  stringOf : Value → String
  numberOf : Value → JavaScript.Number
  /-- `new TextDecoder().decode`. -/
  decodeText : Bytes → String
  /-- A decoder drops a leading byte order mark and nothing else of valid text. -/
  decodeText_utf8 : ∀ text : String, text.toList.head? ≠ some '\uFEFF' →
    decodeText (utf8 text) = text

section Canonical
variable (engine : Engine)

/-- The entries of an object by `localeCompare`, put back into an object. -/
def sortEntries (members : List (String × Value)) : List (String × Value) :=
  propertyOrder (members.insertionSort fun left right => engine.localeOrdered left.1 right.1)

mutual
/-- `normalizeCanonicalValue` on a JSON value without other numbers than finite ones. -/
def canonical : Value → Value
  | .array items => .array (canonicalItems items)
  | .object members => .object (sortEntries engine (canonicalMembers members))
  | .null => .null
  | .bool value => .bool value
  | .number value => .number value
  | .string value => .string value

def canonicalItems : List Value → List Value
  | [] => []
  | item :: rest => canonical item :: canonicalItems rest

def canonicalMembers : List (String × Value) → List (String × Value)
  | [] => []
  | (key, value) :: rest => (key, canonical value) :: canonicalMembers rest
end

mutual
def finite : Value → Bool
  | .number (.finite _) => true
  | .number _ => false
  | .array items => finiteItems items
  | .object members => finiteMembers members
  | .null | .bool _ | .string _ => true

def finiteItems : List Value → Bool
  | [] => true
  | item :: rest => finite item && finiteItems rest

def finiteMembers : List (String × Value) → Bool
  | [] => true
  | (_, value) :: rest => finite value && finiteMembers rest
end

def normalizeCanonicalValue (value : Value) : Except String Value :=
  if finite value then .ok (canonical engine value)
  else .error "Canonical payloads cannot contain non-finite numbers."

def stableStringify (value : Value) : Except String String :=
  (normalizeCanonicalValue engine value).map fun normalized =>
    String.ofList (text escapeChar engine.numbers normalized)

def canonicalBytes (value : Value) : Except String Bytes :=
  (stableStringify engine value).map utf8

variable {engine}

theorem canonicalBytes_of_finite (numbers : finite value = true) :
    canonicalBytes engine value =
      .ok (utf8 (String.ofList (text escapeChar engine.numbers (canonical engine value)))) := by
  rw [canonicalBytes, stableStringify, normalizeCanonicalValue, if_pos numbers]
  rfl

theorem canonicalItems_eq_map (items : List Value) :
    canonicalItems engine items = items.map (canonical engine) := by
  induction items with
  | nil => rfl
  | cons item rest ih => rw [canonicalItems, ih, List.map_cons]

theorem canonicalMembers_eq_map (members : List (String × Value)) :
    canonicalMembers engine members =
      members.map fun member => (member.1, canonical engine member.2) := by
  induction members with
  | nil => rfl
  | cons member rest ih => rw [canonicalMembers, ih, List.map_cons]

theorem sortEntries_perm (members : List (String × Value)) :
    (sortEntries engine members).Perm members := by
  refine List.Perm.trans ?_
    (List.perm_insertionSort (fun left right => engine.localeOrdered left.1 right.1) members)
  refine List.Perm.trans ?_ (List.filter_append_perm (fun member => (arrayIndex member.1).isSome) _)
  exact (List.perm_insertionSort _ _).append_right _

theorem finite_of_canonicalBytes (written : canonicalBytes engine value = .ok bytes) :
    finite value = true := by
  rw [canonicalBytes, stableStringify, normalizeCanonicalValue] at written
  by_contra infinite
  rw [if_neg infinite] at written
  cases written

/-- Values with the same canonical bytes are the same to a reader. -/
theorem seen_eq_of_canonicalBytes (first : canonicalBytes engine left = .ok bytes)
    (second : canonicalBytes engine right = .ok bytes) :
    seen (canonical engine left) = seen (canonical engine right) := by
  have written (value : Value) (ok : canonicalBytes engine value = .ok bytes) :
      utf8 (String.ofList (text plainEscape.code engine.numbers (canonical engine value))) =
        bytes := by
    unfold canonicalBytes stableStringify normalizeCanonicalValue at ok
    split_ifs at ok
    · exact Except.ok.inj ok
    · cases ok
  have same := (written left first).trans (written right second).symm
  exact seen_eq_of_text (String.ofList_injective (utf8_injective same))

/-- The canonical bytes show every property of an object. -/
theorem property_canonical (distinct : (members.map Prod.fst).Nodup) (key : String) :
    property key (seen (canonical engine (.object members))) =
      (members.lookup key).map fun value => seen (canonical engine value) := by
  have keys : ((canonicalMembers engine members).map Prod.fst).Nodup := by
    rw [canonicalMembers_eq_map, List.map_map]
    exact distinct
  rw [canonical, seen, property, seenMembers_eq_map, lookup_map_snd,
    lookup_perm (sortEntries_perm _) keys, canonicalMembers_eq_map, lookup_map_snd, Option.map_map]
  rfl

end Canonical

end SpaceDataModule.Auth
