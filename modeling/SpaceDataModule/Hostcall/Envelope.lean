import SpaceDataModule.Bundle.Statement
import SpaceDataModule.Checked
import SpaceDataModule.FlatBuffers

/-! The binary envelope of a hostcall: a JSON document and the byte arrays that it refers to. A
byte array stands in the document as an object with the one key `$bin`. -/
namespace SpaceDataModule.Hostcall
open Bundle (Bytes utf8 arrayIndex)
open Checked
open FlatBuffers (uint32)
open JavaScript (Number)

/-- The values that cross the boundary. The members of an object are those that `Object.entries`
lists, in its order; a date is its ISO text. -/
inductive Value where
  | undefined
  | null
  | bool (value : Bool)
  | number (value : Number)
  | string (value : String)
  | bytes (value : Bytes)
  | date (iso : String)
  | bigint (value : Int)
  | array (items : List Value)
  | object (members : List (String × Value))

structure Engine where
  /-- `JSON.stringify`; none where the text would be too long for a string. -/
  stringify : Json.Value → Option String
  /-- `JSON.parse`; none where it throws. -/
  parse : String → Option Json.Value
  decodeText : Bytes → String
  /-- `String(value)`, for messages. -/
  stringOf : Json.Value → String

def binaryRefKey : String := "$bin"

def binaryRef (index : Nat) : Json.Value := .object [(binaryRefKey, .number (.finite index))]

section Detaching

def Value.isUndefined : Value → Bool
  | .undefined => true
  | _ => false

mutual
def detachBinaryValues : Value → List Bytes → Json.Value × List Bytes
  | .undefined, segments | .null, segments => (.null, segments)
  | .bool value, segments => (.bool value, segments)
  | .number value, segments => (.number value, segments)
  | .string value, segments => (.string value, segments)
  | .bytes value, segments => (binaryRef segments.length, segments ++ [value])
  | .date iso, segments => (.string iso, segments)
  | .bigint value, segments => (.string (toString value), segments)
  | .array items, segments =>
    (.array (detachItems items segments).1, (detachItems items segments).2)
  | .object members, segments =>
    (.object (detachMembers members segments).1, (detachMembers members segments).2)

def detachItems : List Value → List Bytes → List Json.Value × List Bytes
  | [], segments => ([], segments)
  | item :: rest, segments =>
    let first := detachBinaryValues item segments
    let others := detachItems rest first.2
    (first.1 :: others.1, others.2)

/-- A member that is undefined is left out. -/
def detachMembers : List (String × Value) → List Bytes → List (String × Json.Value) × List Bytes
  | [], segments => ([], segments)
  | (key, value) :: rest, segments =>
    match value.isUndefined with
    | true => detachMembers rest segments
    | false =>
      let first := detachBinaryValues value segments
      let others := detachMembers rest first.2
      ((key, first.1) :: others.1, others.2)
end

end Detaching

section Attaching
variable (engine : Engine) (segments : List Bytes)

/-- The value of an object with the one key `$bin`. -/
def refOf : List (String × Json.Value) → Option Json.Value
  | [(key, index)] => if key = binaryRefKey then some index else none
  | _ => none

/-- `segments[index]`, for an index of a segment. -/
def segmentAt (index : Json.Value) : Except String Value :=
  let missing : Except String Value :=
    .error ("Hostcall envelope references missing binary segment " ++ engine.stringOf index ++ ".")
  match index with
  | .number (.finite place) =>
    if place.den = 1 ∧ 0 ≤ place.num then
      match segments[place.num.toNat]? with
      | some segment => .ok (.bytes segment)
      | none => missing
    else missing
  | _ => missing

mutual
def attachBinaryValues : Json.Value → Except String Value
  | .null => .ok .null
  | .bool value => .ok (.bool value)
  | .number value => .ok (.number value)
  | .string value => .ok (.string value)
  | .array items => (attachItems items).map .array
  | .object members =>
    match refOf members with
    | some index => segmentAt engine segments index
    | none => (attachMembers members).map .object

def attachItems : List Json.Value → Except String (List Value)
  | [] => .ok []
  | item :: rest => do
    let first ← attachBinaryValues item
    let others ← attachItems rest
    return first :: others

def attachMembers : List (String × Json.Value) → Except String (List (String × Value))
  | [] => .ok []
  | (key, value) :: rest => do
    let first ← attachBinaryValues value
    let others ← attachMembers rest
    return (key, first) :: others
end

end Attaching

section Envelopes
variable (engine : Engine)

/-- `setUint32(offset, value, true)`. -/
def word (value : Nat) : Bytes :=
  [UInt8.ofNat value, UInt8.ofNat (value / 256), UInt8.ofNat (value / 65536),
    UInt8.ofNat (value / 16777216)]

def segmentBytes (segments : List Bytes) : Bytes :=
  segments.flatMap fun segment => word segment.length ++ segment

def encodeHostcallEnvelope (document : Json.Value) (segments : List Bytes) : Except String Bytes :=
  match engine.stringify document with
  | none => .error "Invalid string length"
  | some text => .ok (word (utf8 text).length ++ utf8 text ++ word segments.length ++
      segmentBytes segments)

def readSegments (bytes : Bytes) : Nat → Nat → Except String (List Bytes)
  | 0, _ => .ok []
  | count + 1, offset => do
    require (decide (offset + 4 ≤ bytes.length)) "Hostcall envelope segment table is truncated."
    require (decide (offset + 4 + uint32 bytes offset ≤ bytes.length))
      "Hostcall envelope segment exceeds envelope bounds."
    let others ← readSegments bytes count (offset + 4 + uint32 bytes offset)
    return (bytes.drop (offset + 4)).take (uint32 bytes offset) :: others

/-- `JSON.parse` of the decoded text. -/
def readDocument (bytes : Bytes) : Except String Json.Value :=
  match engine.parse (engine.decodeText bytes) with
  | some document => .ok document
  | none => .error "SyntaxError"

def decodeHostcallEnvelope (bytes : Bytes) : Except String (Json.Value × List Bytes) := do
  require (decide (8 ≤ bytes.length)) "Hostcall envelope is truncated."
  let metaLength := uint32 bytes 0
  require (decide (4 + metaLength + 4 ≤ bytes.length))
    "Hostcall envelope meta exceeds envelope bounds."
  let document ← readDocument engine ((bytes.drop 4).take metaLength)
  let segments ← readSegments bytes (uint32 bytes (4 + metaLength)) (4 + metaLength + 4)
  return (document, segments)

def encodeHostcallValueEnvelope (value : Value) : Except String Bytes :=
  encodeHostcallEnvelope engine (detachBinaryValues value []).1 (detachBinaryValues value []).2

def decodeHostcallValueEnvelope (bytes : Bytes) : Except String Value := do
  let envelope ← decodeHostcallEnvelope engine bytes
  attachBinaryValues engine envelope.2 envelope.1

end Envelopes

section Shapes

/-- The order of own keys: array indices ascend, and stand before the others. -/
def keyBefore (left right : String) : Bool :=
  match arrayIndex left, arrayIndex right with
  | some first, some second => decide (first < second)
  | none, some _ => false
  | _, none => true

def OwnKeys (keys : List String) : Prop :=
  keys.Nodup ∧ keys.Pairwise fun left right => keyBefore left right = true

mutual
/-- Null, booleans, finite numbers, strings, byte arrays, arrays and objects of these. -/
def Value.Plain : Value → Prop
  | .undefined | .date _ | .bigint _ => False
  | .number (.finite _) => True
  | .number _ => False
  | .array items => PlainItems items
  | .object members => OwnKeys (members.map Prod.fst) ∧ PlainMembers members
  | .null | .bool _ | .string _ | .bytes _ => True

def PlainItems : List Value → Prop
  | [] => True
  | item :: rest => item.Plain ∧ PlainItems rest

def PlainMembers : List (String × Value) → Prop
  | [] => True
  | (_, value) :: rest => value.Plain ∧ PlainMembers rest
end

mutual
def Value.Unmarked : Value → Prop
  | .array items => UnmarkedItems items
  | .object members => members.map Prod.fst ≠ [binaryRefKey] ∧ UnmarkedMembers members
  | _ => True

def UnmarkedItems : List Value → Prop
  | [] => True
  | item :: rest => item.Unmarked ∧ UnmarkedItems rest

def UnmarkedMembers : List (String × Value) → Prop
  | [] => True
  | (_, value) :: rest => value.Unmarked ∧ UnmarkedMembers rest
end

mutual
def Value.leaves : Value → List Bytes
  | .bytes value => [value]
  | .array items => leavesItems items
  | .object members => leavesMembers members
  | _ => []

def leavesItems : List Value → List Bytes
  | [] => []
  | item :: rest => item.leaves ++ leavesItems rest

def leavesMembers : List (String × Value) → List Bytes
  | [] => []
  | (_, value) :: rest => value.leaves ++ leavesMembers rest
end

mutual
def Settled : Json.Value → Prop
  | .number (.finite _) => True
  | .number _ => False
  | .array items => SettledItems items
  | .object members => OwnKeys (members.map Prod.fst) ∧ SettledMembers members
  | .null | .bool _ | .string _ => True

def SettledItems : List Json.Value → Prop
  | [] => True
  | item :: rest => Settled item ∧ SettledItems rest

def SettledMembers : List (String × Json.Value) → Prop
  | [] => True
  | (_, value) :: rest => Settled value ∧ SettledMembers rest
end

/-- `JSON.parse` gives back what `JSON.stringify` wrote, and no string has 2 ^ 32 bytes. -/
structure Engine.Faithful (engine : Engine) : Prop where
  reads : ∀ {document text}, Settled document → engine.stringify document = some text →
    engine.parse (engine.decodeText (utf8 text)) = some document
  sized : ∀ {document text}, engine.stringify document = some text → (utf8 text).length < 2 ^ 32

end Shapes

section Leaves

mutual
/-- The walk appends the byte arrays to the segments. -/
theorem detachBinaryValues_segments : ∀ (value : Value) (segments : List Bytes),
    (detachBinaryValues value segments).2 = segments ++ value.leaves
  | .bytes _, _ => rfl
  | .array items, segments => detachItems_segments items segments
  | .object members, segments => detachMembers_segments members segments
  | .undefined, _ | .null, _ | .bool _, _ | .number _, _ => (List.append_nil _).symm
  | .string _, _ | .date _, _ | .bigint _, _ => (List.append_nil _).symm

theorem detachItems_segments : ∀ (items : List Value) (segments : List Bytes),
    (detachItems items segments).2 = segments ++ leavesItems items
  | [], segments => (List.append_nil _).symm
  | item :: rest, segments => by
    rw [detachItems, leavesItems, ← List.append_assoc, ← detachBinaryValues_segments item segments]
    exact detachItems_segments rest _

theorem detachMembers_segments : ∀ (members : List (String × Value)) (segments : List Bytes),
    (detachMembers members segments).2 = segments ++ leavesMembers members
  | [], segments => (List.append_nil _).symm
  | (key, value) :: rest, segments => by
    rw [detachMembers, leavesMembers, ← List.append_assoc]
    cases skipped : value.isUndefined with
    | true =>
      have none : value.leaves = [] := by
        cases value with
        | undefined => rfl
        | _ => nomatch skipped
      rw [none, List.append_nil]
      exact detachMembers_segments rest segments
    | false =>
      rw [← detachBinaryValues_segments value segments]
      exact detachMembers_segments rest _
end

theorem append_prefix_drop {first second whole : List α} :
    first ++ second <+: whole.drop start ↔
      first <+: whole.drop start ∧ second <+: whole.drop (start + first.length) := by
  rw [← List.drop_drop]
  constructor
  · rintro ⟨rest, same⟩
    rw [List.append_assoc] at same
    refine ⟨⟨second ++ rest, same⟩, rest, ?_⟩
    rw [← same, List.drop_left]
  · rintro ⟨⟨rest, same⟩, later⟩
    rw [← same, List.drop_left] at later
    rw [← same]
    exact (List.prefix_append_right_inj first).mpr later

theorem singleton_prefix_drop {whole : List α} :
    [item] <+: whole.drop start ↔ whole[start]? = some item := by
  rw [← List.head?_drop]
  cases whole.drop start with
  | nil => simp
  | cons head rest => simp [eq_comm]

end Leaves

section RoundTrip
variable {engine : Engine} {segments : List Bytes}

theorem segmentAt_nat {index : Nat} :
    segmentAt engine segments (.number (.finite index)) = .ok (.bytes value) ↔
      segments[index]? = some value := by
  have number : (index : ℚ).num.toNat = index := by simp
  simp only [segmentAt, number]
  cases segments[index]? with
  | none => exact ⟨nofun, nofun⟩
  | some segment => simp

/-- Only byte arrays stand behind a reference. -/
theorem segmentAt_ne_object : segmentAt engine segments index ≠ .ok (.object members) := by
  intro found
  rw [segmentAt.eq_def] at found
  split at found
  · split_ifs at found
    split at found <;> cases found
  · cases found

theorem detachMembers_cons (plain : PlainMembers ((key, value) :: rest)) (before : List Bytes) :
    (detachMembers ((key, value) :: rest) before).1 =
      (key, (detachBinaryValues value before).1) ::
        (detachMembers rest (before ++ value.leaves)).1 := by
  have defined : value.isUndefined = false := by
    cases value with
    | undefined => exact plain.1.elim
    | _ => rfl
  rw [detachMembers, defined, ← detachBinaryValues_segments]

theorem detachMembers_keys : ∀ {members : List (String × Value)} (_ : PlainMembers members)
    (before : List Bytes), (detachMembers members before).1.map Prod.fst = members.map Prod.fst
  | [], _, _ => rfl
  | (key, value) :: rest, plain, before => by
    rw [detachMembers_cons plain, List.map_cons, List.map_cons, detachMembers_keys plain.2]

theorem refOf_eq_none : refOf members = none ↔ members.map Prod.fst ≠ [binaryRefKey] := by
  match members with
  | [] => simp [refOf]
  | [(key, index)] => simp [refOf]
  | _ :: _ :: _ => simp [refOf]

mutual
/-- What was detached is attached again from segments that start with its byte arrays, unless an
object looks like a reference. -/
theorem attach_detach : ∀ (value : Value) (before : List Bytes) (_ : value.Plain),
    attachBinaryValues engine segments (detachBinaryValues value before).1 = .ok value ↔
      value.Unmarked ∧ value.leaves <+: segments.drop before.length
  | .null, _, _ | .bool _, _, _ | .string _, _, _ =>
    ⟨fun _ => ⟨trivial, List.nil_prefix⟩, fun _ => rfl⟩
  | .number (.finite _), _, _ => ⟨fun _ => ⟨trivial, List.nil_prefix⟩, fun _ => rfl⟩
  | .bytes value, before, _ => by
    have attached : attachBinaryValues engine segments (detachBinaryValues (.bytes value) before).1 =
        segmentAt engine segments (.number (.finite before.length)) := rfl
    rw [attached, segmentAt_nat, Value.leaves, singleton_prefix_drop]
    exact ⟨fun found => ⟨trivial, found⟩, fun found => found.2⟩
  | .array items, before, plain => by
    rw [detachBinaryValues, attachBinaryValues, map_eq_ok]
    simp only [Value.array.injEq, exists_eq_right]
    exact attach_detachItems items before plain
  | .object members, before, plain => by
    obtain ⟨_, plain⟩ := plain
    have keys := detachMembers_keys plain before
    rw [detachBinaryValues, attachBinaryValues]
    by_cases marked : members.map Prod.fst = [binaryRefKey]
    · have refers : refOf (detachMembers members before).1 ≠ none := by
        rw [ne_eq, refOf_eq_none, keys]
        exact fun other => other marked
      obtain ⟨index, found⟩ := Option.ne_none_iff_exists'.mp refers
      rw [found]
      exact ⟨fun other => absurd other segmentAt_ne_object, fun other => absurd marked other.1.1⟩
    · rw [refOf_eq_none.mpr (keys ▸ marked)]
      rw [map_eq_ok]
      simp only [Value.object.injEq, exists_eq_right, Value.Unmarked, Value.leaves]
      rw [attach_detachMembers members before plain, and_assoc, and_iff_right marked]

theorem attach_detachItems : ∀ (items : List Value) (before : List Bytes) (_ : PlainItems items),
    attachItems engine segments (detachItems items before).1 = .ok items ↔
      UnmarkedItems items ∧ leavesItems items <+: segments.drop before.length
  | [], _, _ => ⟨fun _ => ⟨trivial, List.nil_prefix⟩, fun _ => rfl⟩
  | item :: rest, before, plain => by
    have later := attach_detachItems rest (before ++ item.leaves) plain.2
    rw [List.length_append] at later
    simp only [detachItems, attachItems, detachBinaryValues_segments, bind_eq_ok, UnmarkedItems,
      leavesItems, append_prefix_drop, pure, Except.pure, Except.ok.injEq, List.cons.injEq,
      exists_eq_right_right]
    rw [attach_detach item before plain.1, later, and_and_and_comm]

theorem attach_detachMembers : ∀ (members : List (String × Value)) (before : List Bytes)
    (_ : PlainMembers members),
    attachMembers engine segments (detachMembers members before).1 = .ok members ↔
      UnmarkedMembers members ∧ leavesMembers members <+: segments.drop before.length
  | [], _, _ => ⟨fun _ => ⟨trivial, List.nil_prefix⟩, fun _ => rfl⟩
  | (key, value) :: rest, before, plain => by
    have later := attach_detachMembers rest (before ++ value.leaves) plain.2
    rw [List.length_append] at later
    simp only [detachMembers_cons plain, attachMembers, bind_eq_ok, UnmarkedMembers, leavesMembers,
      append_prefix_drop, pure, Except.pure, Except.ok.injEq, List.cons.injEq, Prod.mk.injEq,
      true_and, exists_eq_right_right]
    rw [attach_detach value before plain.1, later, and_and_and_comm]
end

mutual
theorem settled_detached : ∀ (value : Value) (before : List Bytes) (_ : value.Plain),
    Settled (detachBinaryValues value before).1
  | .null, _, _ | .bool _, _, _ | .string _, _, _ | .number (.finite _), _, _ => trivial
  | .bytes _, _, _ => ⟨⟨List.nodup_singleton _, List.pairwise_singleton _ _⟩, trivial, trivial⟩
  | .array items, before, plain => settled_detachedItems items before plain
  | .object members, before, plain =>
    ⟨(detachMembers_keys plain.2 before).symm ▸ plain.1,
      settled_detachedMembers members before plain.2⟩

theorem settled_detachedItems : ∀ (items : List Value) (before : List Bytes)
    (_ : PlainItems items), SettledItems (detachItems items before).1
  | [], _, _ => trivial
  | item :: rest, before, plain =>
    ⟨settled_detached item before plain.1, settled_detachedItems rest _ plain.2⟩

theorem settled_detachedMembers : ∀ (members : List (String × Value)) (before : List Bytes)
    (_ : PlainMembers members), SettledMembers (detachMembers members before).1
  | [], _, _ => trivial
  | (key, value) :: rest, before, plain => by
    rw [detachMembers_cons plain]
    exact ⟨settled_detached value before plain.1, settled_detachedMembers rest _ plain.2⟩
end

end RoundTrip

section Reading

theorem length_word (value : Nat) : (word value).length = 4 := rfl

/-- A word holds a number up to the size of a word. -/
theorem uint32_word (value : Nat) (back : Bytes) :
    uint32 (word value ++ back) 0 = value % 2 ^ 32 := by
  simp only [word, uint32, FlatBuffers.uint16, FlatBuffers.byte, List.cons_append,
    List.getD_cons_zero, List.getD_cons_succ, UInt8.toNat_ofNat']
  omega

theorem uint32_lt (bytes : Bytes) (offset : Nat) : uint32 bytes offset < 2 ^ 32 := by
  have small (place : Nat) : FlatBuffers.byte bytes place < 256 := UInt8.toNat_lt _
  have first := small offset
  have second := small (offset + 1)
  have third := small (offset + 2)
  have fourth := small (offset + 2 + 1)
  rw [uint32, FlatBuffers.uint16, FlatBuffers.uint16]
  omega

/-- As many segments are read as were asked for, each with a length that fits a word. -/
theorem readSegments_eq_ok : ∀ {count offset : Nat} {segments : List Bytes},
    readSegments bytes count offset = .ok segments →
      segments.length = count ∧ ∀ segment ∈ segments, segment.length < 2 ^ 32
  | 0, _, _, read => by
    cases read
    exact ⟨rfl, nofun⟩
  | count + 1, offset, segments, read => by
    rw [readSegments, require_bind_eq_ok, require_bind_eq_ok, bind_eq_ok] at read
    obtain ⟨_, _, others, read, same⟩ := read
    cases same
    obtain ⟨many, short⟩ := readSegments_eq_ok read
    exact ⟨by rw [List.length_cons, many], List.forall_mem_cons.mpr
      ⟨(List.length_take_le _ _).trans_lt (uint32_lt bytes offset), short⟩⟩

theorem readSegments_segmentBytes : ∀ (segments : List Bytes) (front : Bytes)
    (_ : ∀ segment ∈ segments, segment.length < 2 ^ 32),
    readSegments (front ++ segmentBytes segments) segments.length front.length = .ok segments
  | [], _, _ => rfl
  | segment :: rest, front, short => by
    have size : uint32 (front ++ segmentBytes (segment :: rest)) front.length = segment.length := by
      rw [FlatBuffers.uint32_append, segmentBytes, List.flatMap_cons, List.append_assoc,
        uint32_word, Nat.mod_eq_of_lt (short segment List.mem_cons_self)]
    have layout : front ++ segmentBytes (segment :: rest) =
        (front ++ word segment.length ++ segment) ++ segmentBytes rest := by
      rw [segmentBytes, List.flatMap_cons, segmentBytes]
      simp only [List.append_assoc]
    have place : (front ++ word segment.length ++ segment).length =
        front.length + 4 + segment.length := by
      rw [List.length_append, List.length_append, length_word]
    have start : (front ++ word segment.length).length = front.length + 4 := by
      rw [List.length_append, length_word]
    have later := readSegments_segmentBytes rest (front ++ word segment.length ++ segment)
      fun other member => short other (List.mem_cons_of_mem segment member)
    rw [← layout, place] at later
    have bound : front.length + 4 + segment.length ≤
        (front ++ segmentBytes (segment :: rest)).length := by
      rw [layout, List.length_append, place]
      exact Nat.le_add_right _ _
    have taken : ((front ++ segmentBytes (segment :: rest)).drop (front.length + 4)).take
        segment.length = segment := by
      rw [layout, List.append_assoc, ← start, List.drop_left, List.take_left]
    rw [List.length_cons, readSegments, size,
      require_of_true (decide_eq_true (Nat.le_trans (Nat.le_add_right _ _) bound)), require_of_true (decide_eq_true bound), later, taken]
    rfl

/-- The reader finds the document that was written, and reads the segments behind it. -/
theorem decodeHostcallEnvelope_encoded (faithful : engine.Faithful) (settled : Settled document)
    (encoded : encodeHostcallEnvelope engine document segments = .ok bytes) :
    ∃ front, bytes = front ++ segmentBytes segments ∧
      decodeHostcallEnvelope engine bytes =
        (readSegments bytes (segments.length % 2 ^ 32) front.length).map (document, ·) := by
  rw [encodeHostcallEnvelope.eq_def] at encoded
  cases written : engine.stringify document with
  | none =>
    rw [written] at encoded
    cases encoded
  | some text =>
    rw [written] at encoded
    cases encoded
    have parsed := faithful.reads settled written
    have sized := faithful.sized written
    set bytes := word (utf8 text).length ++ utf8 text ++ word segments.length ++
      segmentBytes segments with layout
    have size : uint32 bytes 0 = (utf8 text).length := by
      rw [layout, List.append_assoc, List.append_assoc, uint32_word, Nat.mod_eq_of_lt sized]
    have start : (word (utf8 text).length ++ utf8 text).length = 4 + (utf8 text).length := by
      rw [List.length_append, length_word]
    have count : uint32 bytes (4 + (utf8 text).length) = segments.length % 2 ^ 32 := by
      rw [← start, layout, List.append_assoc, FlatBuffers.uint32_append, uint32_word]
    have bound : 4 + (utf8 text).length + 4 ≤ bytes.length := by
      rw [List.length_append, List.length_append, start]
      exact Nat.le_add_right _ _
    have taken : (bytes.drop 4).take (utf8 text).length = utf8 text := by
      rw [layout, List.append_assoc, List.append_assoc, ← length_word (utf8 text).length,
        List.drop_left, List.take_left]
    have front : (word (utf8 text).length ++ utf8 text ++ word segments.length).length =
        4 + (utf8 text).length + 4 := by
      rw [List.length_append, start, length_word]
    refine ⟨_, layout, ?_⟩
    have read : readDocument engine (utf8 text) = .ok document := by
      rw [readDocument, parsed]
    rw [front, decodeHostcallEnvelope, size]
    dsimp only
    rw [count, taken, read, require_of_true (decide_eq_true (by omega)),
      require_of_true (decide_eq_true bound)]
    rfl

end Reading

section Practice

def oneRef : String := "[\x7b\"$bin\":0\x7d]"

def twoRefs : String := "[\x7b\"$bin\":0\x7d,\x7b\"$bin\":0\x7d]"

/-- A platform as it behaves on two documents, an array of one reference to the first segment
and an array of two; the texts of others are too long for it. -/
def practice : Engine where
  stringify
    | .array [.object [(key, .number (.finite index))]] =>
      if key = binaryRefKey ∧ index = 0 then some oneRef else none
    | .array [.object [(key, .number (.finite index))],
        .object [(next, .number (.finite other))]] =>
      if (key = binaryRefKey ∧ index = 0) ∧ next = binaryRefKey ∧ other = 0 then some twoRefs
      else none
    | _ => none
  parse text :=
    if text = oneRef then some (.array [binaryRef 0])
    else if text = twoRefs then some (.array [binaryRef 0, binaryRef 0])
    else none
  decodeText bytes := if bytes = utf8 oneRef then oneRef else twoRefs
  stringOf _ := "0"

theorem practice_faithful : practice.Faithful where
  reads := by
    intro document text _ written
    simp only [practice] at written ⊢
    split at written
    · split_ifs at written with both
      cases written
      obtain ⟨rfl, rfl⟩ := both
      rfl
    · split_ifs at written with both
      cases written
      obtain ⟨⟨rfl, rfl⟩, rfl, rfl⟩ := both
      rfl
    · cases written
  sized := by
    intro document text written
    simp only [practice] at written
    split at written
    · split_ifs at written
      cases written
      decide
    · split_ifs at written
      cases written
      decide
    · cases written

end Practice

section Theorem

/-- A value is read back as it was written exactly if no object in it has `$bin` as its only key
and its byte arrays, and their number, fit the words of the envelope. -/
theorem hostcall_value_round_trip_iff (faithful : engine.Faithful) {value : Value} {bytes : Bytes}
    (plain : value.Plain) (encoded : encodeHostcallValueEnvelope engine value = .ok bytes) :
    decodeHostcallValueEnvelope engine bytes = .ok value ↔
      value.Unmarked ∧ value.leaves.length < 2 ^ 32 ∧
        ∀ leaf ∈ value.leaves, leaf.length < 2 ^ 32 := by
  have leaves : (detachBinaryValues value []).2 = value.leaves := by
    rw [detachBinaryValues_segments, List.nil_append]
  rw [encodeHostcallValueEnvelope, leaves] at encoded
  obtain ⟨front, layout, decoded⟩ :=
    decodeHostcallEnvelope_encoded faithful (settled_detached value [] plain) encoded
  have attached (segments : List Bytes) :
      attachBinaryValues engine segments (detachBinaryValues value []).1 = .ok value ↔ _ :=
    attach_detach value [] plain
  simp only [decodeHostcallValueEnvelope, decoded, bind_eq_ok, map_eq_ok]
  constructor
  · rintro ⟨_, ⟨segments, read, rfl⟩, same⟩
    obtain ⟨unmarked, written⟩ := (attached segments).mp same
    rw [List.length_nil, List.drop_zero] at written
    obtain ⟨many, short⟩ := readSegments_eq_ok read
    have few := written.length_le
    exact ⟨unmarked, by omega, fun leaf member => short leaf (written.subset member)⟩
  · rintro ⟨unmarked, few, short⟩
    have read :
        readSegments bytes (value.leaves.length % 2 ^ 32) front.length = .ok value.leaves := by
      rw [Nat.mod_eq_of_lt few, layout]
      exact readSegments_segmentBytes value.leaves front short
    exact ⟨_, ⟨value.leaves, read, rfl⟩,
      (attached value.leaves).mpr ⟨unmarked, List.prefix_rfl⟩⟩

theorem hostcall_value_round_trip_iff_array :
    practice.Faithful ∧ (Value.array [.bytes [7]]).Plain ∧
      ∃ bytes, encodeHostcallValueEnvelope practice (.array [.bytes [7]]) = .ok bytes ∧
        decodeHostcallValueEnvelope practice bytes = .ok (.array [.bytes [7]]) := by
  have plain : (Value.array [.bytes [7]]).Plain := ⟨trivial, trivial⟩
  refine ⟨practice_faithful, plain, word 12 ++ utf8 oneRef ++ [1, 0, 0, 0, 1, 0, 0, 0, 7], rfl, ?_⟩
  refine (hostcall_value_round_trip_iff practice_faithful plain rfl).mpr ⟨⟨trivial, trivial⟩, ?_⟩
  decide

/-- An object that is written with `$bin` as its only key comes back as the byte array beside it,
and does not come back at all where there is none. -/
theorem plain_object_read_as_bytes :
    (∃ bytes, encodeHostcallValueEnvelope practice
        (.array [.bytes [7], .object [("$bin", .number (.finite 0))]]) = .ok bytes ∧
      decodeHostcallValueEnvelope practice bytes = .ok (.array [.bytes [7], .bytes [7]])) ∧
    ∃ bytes, encodeHostcallValueEnvelope practice
        (.array [.object [("$bin", .number (.finite 0))]]) = .ok bytes ∧
      decodeHostcallValueEnvelope practice bytes =
        .error "Hostcall envelope references missing binary segment 0." :=
  ⟨⟨word 23 ++ utf8 twoRefs ++ [1, 0, 0, 0, 1, 0, 0, 0, 7], rfl, rfl⟩,
    ⟨word 12 ++ utf8 oneRef ++ [0, 0, 0, 0], rfl, rfl⟩⟩

end Theorem

end SpaceDataModule.Hostcall
