import SpaceDataModule.Bundle.Codec

/-! A type of a payload that was decoded is written as text and reads back as it was, its members
in canonical order. -/
namespace SpaceDataModule.Bundle
open Json Auth

section Keys

mutual
def keyed : Value → Bool
  | .array items => keyedItems items
  | .object members => decide (members.map Prod.fst).Nodup && keyedMembers members
  | .null | .bool _ | .number _ | .string _ => true

def keyedItems : List Value → Bool
  | [] => true
  | item :: rest => keyed item && keyedItems rest

def keyedMembers : List (String × Value) → Bool
  | [] => true
  | (_, value) :: rest => keyed value && keyedMembers rest
end

/-- `JSON.parse` gives back what `JSON.stringify` wrote for an object in property order, and no
key twice; `Number` of a number is that number. -/
structure Reads (engine : Engine) : Prop where
  parse_canonical : ∀ value, finite value = true → keyed value = true →
    engine.parseJson (String.ofList (text escapeChar engine.numbers (canonical engine value))) =
      some (canonical engine value)
  parse_keyed : ∀ {written value}, engine.parseJson written = some value → keyed value = true
  numberOf_number : ∀ number, engine.numberOf (.number number) = number

theorem keyed_array : keyed (.array items) = true ↔ ∀ item ∈ items, keyed item = true := by
  rw [keyed]
  induction items with
  | nil => simp [keyedItems]
  | cons item rest ih => simp [keyedItems, ih]

theorem keyed_object : keyed (.object members) = true ↔
    (members.map Prod.fst).Nodup ∧ ∀ member ∈ members, keyed member.2 = true := by
  have all : keyedMembers members = members.all fun member => keyed member.2 := by
    induction members with
    | nil => rfl
    | cons member rest ih => rw [keyedMembers, ih, List.all_cons]
  rw [keyed, all, Bool.and_eq_true, decide_eq_true_iff, List.all_eq_true]

theorem finite_array : finite (.array items) = true ↔ ∀ item ∈ items, finite item = true := by
  rw [finite]
  induction items with
  | nil => simp [finiteItems]
  | cons item rest ih => simp [finiteItems, ih]

theorem finite_object :
    finite (.object members) = true ↔ ∀ member ∈ members, finite member.2 = true := by
  rw [finite]
  induction members with
  | nil => simp [finiteMembers]
  | cons member rest ih => simp [finiteMembers, ih]

end Keys

section Members
variable {members : List (String × Value)}

theorem lookup_replaced (members : List (String × Value)) (key other : String) (value : Value) :
    (members.map fun member => if member.1 == key then (key, value) else member).lookup other =
      if other = key then (members.lookup key).map fun _ => value else members.lookup other := by
  induction members with
  | nil => simp
  | cons member rest ih =>
    obtain ⟨name, content⟩ := member
    rw [List.map_cons, List.lookup_cons, List.lookup_cons]
    by_cases named : name = key
    · subst named
      rw [if_pos (beq_self_eq_true name), List.lookup_cons, ih, beq_self_eq_true]
      by_cases asked : other = name
      · rw [if_pos asked, if_pos asked, beq_iff_eq.mpr asked]
        rfl
      · rw [if_neg asked, beq_eq_false_iff_ne.mpr asked, if_neg asked]
    · rw [beq_eq_false_iff_ne.mpr named, if_neg Bool.false_ne_true, List.lookup_cons, ih]
      by_cases asked : other = key
      · rw [if_pos asked, if_pos asked, asked, beq_eq_false_iff_ne.mpr (Ne.symm named)]
      · rw [if_neg asked, if_neg asked]

theorem lookup_ne_none_iff : members.lookup key ≠ none ↔ members.any (·.1 == key) = true := by
  rw [ne_eq, List.lookup_eq_none_iff, List.any_eq_true]
  push Not
  refine exists_congr fun member => and_congr_right fun _ => ?_
  rw [ne_eq, bne_iff_ne, not_not, beq_iff_eq, eq_comm]

theorem lookup_setMember (members : List (String × Value)) (key other : String) (value : Value) :
    (setMember members key value).lookup other =
      if other = key then some value else members.lookup other := by
  rw [setMember]
  split_ifs with present asked asked
  · obtain ⟨found, listed⟩ := Option.ne_none_iff_exists'.mp (lookup_ne_none_iff.mpr present)
    rw [lookup_replaced, if_pos asked, listed, Option.map_some]
  · rw [lookup_replaced, if_neg asked]
  · have missing : members.lookup key = none := by
      by_contra listed
      exact present (lookup_ne_none_iff.mp listed)
    rw [List.lookup_append, asked, missing, Option.none_or, List.lookup_cons_self]
  · have alone : [(key, value)].lookup other = none := by
      rw [List.lookup_cons, beq_eq_false_iff_ne.mpr asked]
      rfl
    rw [List.lookup_append, alone, Option.or_none]

theorem setMember_of_lookup (distinct : (members.map Prod.fst).Nodup)
    (present : members.lookup key = some value) : setMember members key value = members := by
  have listed := (lookup_eq_some_iff_mem distinct).mp present
  have found : members.any (·.1 == key) = true :=
    List.any_eq_true.mpr ⟨_, listed, beq_self_eq_true key⟩
  rw [setMember, if_pos found]
  conv_rhs => rw [← List.map_id members]
  apply List.map_congr_left
  rintro ⟨name, content⟩ member
  by_cases named : name = key
  · subst named
    rw [if_pos (beq_self_eq_true name)]
    have same := (lookup_eq_some_iff_mem distinct).mpr member
    rw [present] at same
    cases same
    rfl
  · have apart : (name == key) = false := by simpa using named
    rw [apart]
    rfl

theorem forall_setMember {P : Value → Prop} (holds : ∀ member ∈ members, P member.2)
    (new : P value) : ∀ member ∈ setMember members key value, P member.2 := by
  intro member listed
  rw [setMember] at listed
  split_ifs at listed
  · obtain ⟨before, was, rfl⟩ := List.mem_map.mp listed
    split_ifs
    · exact new
    · exact holds before was
  · exact List.forall_mem_append.mpr ⟨holds, List.forall_mem_singleton.mpr new⟩ member listed

theorem setMember_distinct (distinct : (members.map Prod.fst).Nodup) :
    ((setMember members key value).map Prod.fst).Nodup := by
  rw [setMember]
  split_ifs with present
  · have keys : (members.map fun member => if member.1 == key then (key, value) else member).map
        Prod.fst = members.map Prod.fst := by
      rw [List.map_map]
      apply List.map_congr_left
      intro member _
      by_cases named : member.1 = key
      · simp [named]
      · simp [named]
    rw [keys]
    exact distinct
  · rw [List.map_append, List.nodup_append]
    refine ⟨distinct, List.nodup_singleton key, ?_⟩
    intro name listed other only same
    obtain ⟨member, was, rfl⟩ := List.mem_map.mp listed
    obtain rfl : other = key := List.mem_singleton.mp only
    exact present (List.any_eq_true.mpr ⟨member, was, beq_iff_eq.mpr same⟩)

end Members

section Defaults

theorem forall_withTypeDefaults {P : Value → Prop} (texts : ∀ text, P (.string text))
    (numbers : ∀ number, P (.number (.finite number))) (holds : ∀ member ∈ members, P member.2) :
    ∀ member ∈ withTypeDefaults engine members, P member.2 := by
  exact forall_setMember (forall_setMember (forall_setMember (forall_setMember holds (texts _))
    (numbers _)) (numbers _)) (numbers _)

theorem keyed_withTypeDefaults (keys : keyed (.object members) = true) :
    keyed (.object (withTypeDefaults engine members)) = true := by
  rw [keyed_object] at keys ⊢
  exact ⟨setMember_distinct (setMember_distinct (setMember_distinct (setMember_distinct keys.1))),
    forall_withTypeDefaults (P := (keyed · = true)) (fun _ => rfl) (fun _ => rfl) keys.2⟩

structure Typed (members : List (String × Value)) : Prop where
  wireFormat : ∃ format, format ∈ ["aligned-binary", "flatbuffer"] ∧
    members.lookup "wireFormat" = some (.string format)
  counts : ∀ key ∈ ["fixedStringLength", "byteLength", "requiredAlignment"], ∃ count : Nat,
    members.lookup key = some (.number (.finite count))

theorem withTypeDefaults_typed : Typed (withTypeDefaults engine members) := by
  constructor
  · refine ⟨normalizePayloadWireFormat engine (members.lookup "wireFormat"), ?_, ?_⟩
    · rw [normalizePayloadWireFormat.eq_def]
      dsimp only
      split_ifs <;> simp
    · rw [withTypeDefaults]
      rw [lookup_setMember, if_neg (by decide), lookup_setMember, if_neg (by decide),
        lookup_setMember, if_neg (by decide), lookup_setMember, if_pos rfl]
  · intro key listed
    simp only [List.mem_cons, List.not_mem_nil, or_false] at listed
    rcases listed with rfl | rfl | rfl
    all_goals
      simp only [withTypeDefaults, lookup_setMember]
      exact ⟨_, rfl⟩

theorem dashed_of_plain {text : String} (dense : ∀ c ∈ text.toList, JavaScript.isSpace c = false)
    (small : ∀ c ∈ text.toList, c.toNat < 128)
    (plain : ∀ c ∈ text.toList, (if c.toLower = '_' then '-' else c.toLower) = c) :
    dashed text = text := by
  rw [dashed, JavaScript.trim_eq_of_plain dense, JavaScript.toLowerCase_of_small small,
    String.toList_ofList, List.map_map]
  conv_rhs => rw [← @String.ofList_toList text, ← List.map_id text.toList]
  exact congrArg String.ofList (List.map_congr_left plain)

theorem normalizePayloadWireFormat_string (listed : format ∈ ["aligned-binary", "flatbuffer"]) :
    normalizePayloadWireFormat engine (some (.string format)) = format := by
  have plain : ∀ c ∈ format.toList,
      JavaScript.isSpace c = false ∧ c.toNat < 128 ∧
        (if c.toLower = '_' then '-' else c.toLower) = c := by
    rcases List.mem_pair.mp listed with rfl | rfl <;>
      exact List.forall_iff_forall_mem.mp (by decide)
  have same : dashed format = format :=
    dashed_of_plain (fun c member => (plain c member).1) (fun c member => (plain c member).2.1)
      fun c member => (plain c member).2.2
  rw [normalizePayloadWireFormat.eq_def]
  dsimp only
  rw [if_neg Bool.false_ne_true, same]
  simp only [List.mem_cons, List.not_mem_nil, or_false] at listed
  rcases listed with rfl | rfl
  · rfl
  · rw [if_neg (by decide)]

theorem normalizeUnsignedInteger_number (reads : Reads engine) (count : Nat) :
    normalizeUnsignedInteger engine (some (.number (.finite count))) = count := by
  rw [normalizeUnsignedInteger, reads.numberOf_number]
  · exact Nat.floor_natCast count
  · nofun

theorem withTypeDefaults_of_typed (reads : Reads engine) (distinct : (members.map Prod.fst).Nodup)
    (typed : Typed members) : withTypeDefaults engine members = members := by
  obtain ⟨format, listed, wireFormat⟩ := typed.wireFormat
  have formatted : normalizePayloadWireFormat engine (members.lookup "wireFormat") = format := by
    rw [wireFormat, normalizePayloadWireFormat_string listed]
  have counted {key : String}
      (named : key ∈ ["fixedStringLength", "byteLength", "requiredAlignment"]) :
      members.lookup key =
        some (.number (.finite (normalizeUnsignedInteger engine (members.lookup key)))) := by
    obtain ⟨count, found⟩ := typed.counts key named
    rw [found, normalizeUnsignedInteger_number reads]
  rw [withTypeDefaults, formatted]
  rw [setMember_of_lookup distinct wireFormat, setMember_of_lookup distinct (counted (by simp)),
    setMember_of_lookup distinct (counted (by simp)),
    setMember_of_lookup distinct (counted (by simp))]

end Defaults

section Canonical

/-- The members of an object in canonical order are its members in canonical form. -/
theorem mem_canonical : member ∈ sortEntries engine (canonicalMembers engine members) ↔
    ∃ before ∈ members, (before.1, canonical engine before.2) = member := by
  rw [(sortEntries_perm _).mem_iff, canonicalMembers_eq_map, List.mem_map]

theorem finite_canonical (value : Value) (numbers : finite value = true) :
    finite (canonical engine value) = true := by
  induction value using Value.induction with
  | null | bool | number | string => exact numbers
  | array items ih =>
    rw [finite_array] at numbers
    rw [canonical, canonicalItems_eq_map, finite_array, List.forall_mem_map]
    exact fun item listed => ih item listed (numbers item listed)
  | object members ih =>
    rw [finite_object] at numbers
    rw [canonical, finite_object]
    intro member listed
    obtain ⟨before, was, rfl⟩ := mem_canonical.mp listed
    exact ih before was (numbers before was)

section
variable {members : List (String × Value)} (distinct : (members.map Prod.fst).Nodup)
include distinct

theorem canonical_distinct :
    ((sortEntries engine (canonicalMembers engine members)).map Prod.fst).Nodup := by
  rw [((sortEntries_perm _).map Prod.fst).nodup_iff, canonicalMembers_eq_map, List.map_map]
  exact distinct

theorem lookup_canonical (key : String) :
    (sortEntries engine (canonicalMembers engine members)).lookup key =
      (members.lookup key).map (canonical engine) := by
  have keys : ((canonicalMembers engine members).map Prod.fst).Nodup := by
    rw [canonicalMembers_eq_map, List.map_map]
    exact distinct
  rw [lookup_perm (sortEntries_perm _) keys, canonicalMembers_eq_map, lookup_map_snd]

theorem Typed.canonical (typed : Typed members) :
    Typed (sortEntries engine (canonicalMembers engine members)) := by
  constructor
  · obtain ⟨format, listed, found⟩ := typed.wireFormat
    exact ⟨format, listed, by rw [lookup_canonical distinct, found]; rfl⟩
  · intro key named
    obtain ⟨count, found⟩ := typed.counts key named
    exact ⟨count, by rw [lookup_canonical distinct, found]; rfl⟩

end

end Canonical

section TypeRefs
variable {engine : Engine}

theorem decodeText_object (members : List (String × Value)) :
    engine.decodeText (utf8 (String.ofList (text escapeChar engine.numbers (.object members)))) =
      String.ofList (text escapeChar engine.numbers (.object members)) := by
  apply engine.decodeText_utf8
  rw [String.toList_ofList]
  exact ne_of_beq_false rfl

theorem keyed_spread (keys : keyed (.array items) = true) :
    keyed (.object (items.mapIdx fun index item => (toString index, item))) = true := by
  rw [keyed_object]
  constructor
  · rw [List.nodup_iff_injective_getElem]
    intro first second same
    simp only [List.getElem_map, List.getElem_mapIdx] at same
    exact Fin.ext (toDigits_injective (String.ofList_injective same))
  · intro member listed
    obtain ⟨index, bound, rfl⟩ := List.mem_mapIdx.mp listed
    exact keyed_array.mp keys _ (List.getElem_mem bound)

theorem finite_of_stringified
    (stringified : stringifyTypeRef engine (.object members) = .ok written) :
    finite (.object members) = true ∧ written = some (engine.decodeText (utf8 (String.ofList
      (text escapeChar engine.numbers (canonical engine (.object members)))))) := by
  rw [stringifyTypeRef] at stringified
  · by_cases numbers : finite (.object members) = true
    · rw [canonicalBytes_of_finite numbers] at stringified
      cases stringified
      exact ⟨numbers, rfl⟩
    · rw [canonicalBytes, stableStringify, normalizeCanonicalValue, if_neg numbers] at stringified
      cases stringified
  all_goals simp

section
variable (reads : Reads engine)
include reads

/-- A decoded type: nothing, a text that is no JSON of an object, or an object with its four
members. -/
theorem parseTypeRef_cases (typeRef : Option String) :
    parseTypeRef engine typeRef = .null ∨
    (∃ text, parseTypeRef engine typeRef = .string text ∧
      parseTypeRef engine (some text) = .string text) ∨
    ∃ members, parseTypeRef engine typeRef = .object members ∧
      keyed (.object members) = true ∧ Typed members := by
  cases typeRef with
  | none => exact .inl rfl
  | some text =>
    rw [parseTypeRef]
    split_ifs with blank
    · exact .inl rfl
    · split
      · rename_i members parsed
        exact .inr (.inr ⟨_, rfl, keyed_withTypeDefaults (reads.parse_keyed parsed),
          withTypeDefaults_typed⟩)
      · rename_i items parsed
        exact .inr (.inr ⟨_, rfl, keyed_withTypeDefaults (keyed_spread (reads.parse_keyed parsed)),
          withTypeDefaults_typed⟩)
      · rename_i noObject noArray
        refine .inr (.inl ⟨text, rfl, ?_⟩)
        rw [parseTypeRef, if_neg blank]
        split
        · rename_i members parsed
          exact absurd parsed (noObject members)
        · rename_i items parsed
          exact absurd parsed (noArray items)
        · rfl

/-- An object that is written as a type reads back with its members in canonical order, and with
those every type has. -/
theorem parseTypeRef_object (keys : keyed (.object members) = true)
    (stringified : stringifyTypeRef engine (.object members) = .ok written) :
    parseTypeRef engine written = .object (withTypeDefaults engine
      (sortEntries engine (canonicalMembers engine members))) := by
  obtain ⟨numbers, rfl⟩ := finite_of_stringified stringified
  have filled : String.ofList (text escapeChar engine.numbers
      (canonical engine (.object members))) ≠ "" := by
    intro empty
    cases String.ofList_injective empty
  have parsed := reads.parse_canonical _ numbers keys
  rw [canonical] at filled parsed ⊢
  rw [decodeText_object, parseTypeRef, if_neg filled, parsed]

/-- A decoded type that is written again reads as before, its members in canonical order. -/
theorem parseTypeRef_written (stringified :
    stringifyTypeRef engine (parseTypeRef engine typeRef) = .ok written) :
    parseTypeRef engine written = canonical engine (parseTypeRef engine typeRef) := by
  rcases parseTypeRef_cases reads typeRef with nothing | ⟨text, same, again⟩ |
    ⟨members, same, keys, typed⟩
  · rw [nothing] at stringified ⊢
    cases stringified
    rfl
  · rw [same] at stringified ⊢
    cases stringified
    rw [again]
    rfl
  · have distinct := (keyed_object.mp keys).1
    rw [same] at stringified ⊢
    rw [parseTypeRef_object reads keys stringified,
      withTypeDefaults_of_typed reads (canonical_distinct distinct) (typed.canonical distinct),
      canonical]

end

end TypeRefs

section Reading

theorem keyed_canonical (value : Value) (keys : keyed value = true) :
    keyed (canonical engine value) = true := by
  induction value using Value.induction with
  | null | bool | number | string => exact keys
  | array items ih =>
    rw [keyed_array] at keys
    rw [canonical, canonicalItems_eq_map, keyed_array, List.forall_mem_map]
    exact fun item listed => ih item listed (keys item listed)
  | object members ih =>
    rw [keyed_object] at keys
    rw [canonical, keyed_object]
    refine ⟨canonical_distinct keys.1, fun member listed => ?_⟩
    obtain ⟨before, was, rfl⟩ := mem_canonical.mp listed
    exact ih before was (keys.2 before was)

/-- A reader gets a value back as it is, if its numbers are finite. -/
theorem seen_of_finite (value : Value) (numbers : finite value = true) : seen value = value := by
  induction value using Value.induction with
  | null | bool | string => rfl
  | number value =>
    cases value with
    | finite => rfl
    | nan | infinity => cases numbers
  | array items ih =>
    rw [finite_array] at numbers
    rw [seen, seenItems_eq_map,
      List.map_congr_left fun item listed => ih item listed (numbers item listed), List.map_id']
  | object members ih =>
    rw [finite_object] at numbers
    have same : ∀ member ∈ members, (member.1, seen member.2) = member :=
      fun member listed => Prod.ext rfl (ih member listed (numbers member listed))
    rw [seen, seenMembers_eq_map, List.map_congr_left same, List.map_id']

open Classical in
/-- A reader of the texts that are written for finite values without a key twice. -/
noncomputable def readJson (numbers : NumberFormat) (written : String) : Option Value :=
  if found : ∃ value, finite value = true ∧ keyed value = true ∧
      String.ofList (text escapeChar numbers value) = written then some found.choose
  else none

theorem reads_readJson (parses : engine.parseJson = readJson engine.numbers)
    (numberOf : ∀ number, engine.numberOf (.number number) = number) : Reads engine := by
  refine ⟨fun value numbers keys => ?_, fun {written value} read => ?_, numberOf⟩
  · have found : ∃ other, finite other = true ∧ keyed other = true ∧
        String.ofList (text escapeChar engine.numbers other) =
          String.ofList (text escapeChar engine.numbers (canonical engine value)) :=
      ⟨_, finite_canonical value numbers, keyed_canonical value keys, rfl⟩
    obtain ⟨finite, -, same⟩ := found.choose_spec
    have seen := @seen_eq_of_text plainEscape engine.numbers _ _ (String.ofList_injective same)
    rw [seen_of_finite _ finite, seen_of_finite _ (finite_canonical value numbers)] at seen
    rw [parses, readJson, dif_pos found, seen]
  · rw [parses, readJson] at read
    split_ifs at read with found
    obtain rfl := Option.some.inj read
    exact found.choose_spec.2.1

end Reading

end SpaceDataModule.Bundle
