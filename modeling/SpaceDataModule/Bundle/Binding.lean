import Mathlib.Data.List.Nodup
import SpaceDataModule.Bundle.Verifying
import SpaceDataModule.Sha256
import SpaceDataModule.TextDecoder

/-! What a bundle signature binds. Two artifacts with one digest have the same
covered entries, as far as JSON text shows them; entries that look like signatures
are outside the digest, while the manifest lookup may select one. -/
namespace SpaceDataModule.Bundle
open Json

section Checks

variable {Manifest : Type}

/-- What the loop over the covered entries leaves established. -/
theorem checkEntries_ok {seen : List String} (ok : checkEntries host seen entries = .ok ()) :
    (∀ entry ∈ entries, entry.entryId.getD "" ∉ seen ∧ host.sha256 entry.payload = entry.sha256) ∧
      (entries.map fun entry => entry.entryId.getD "").Nodup ∧
      ∀ entry ∈ entries, entry.entryId.getD "" ≠ "" := by
  induction entries generalizing seen with
  | nil => simp
  | cons entry rest ih =>
    simp only [checkEntries, bind_eq_ok, require_eq_ok, bne_iff_ne, beq_iff_eq, Bool.not_eq_true',
      List.contains_eq_mem, decide_eq_false_iff_not] at ok
    obtain ⟨_, named, _, fresh, _, hashed, ok⟩ := ok
    obtain ⟨later, distinct, laterNamed⟩ := ih ok
    refine ⟨List.forall_mem_cons.mpr ⟨⟨fresh, hashed⟩, fun other inRest => ?_⟩, ?_,
      List.forall_mem_cons.mpr ⟨named, laterNamed⟩⟩
    · obtain ⟨unseen, otherHashed⟩ := later other inRest
      exact ⟨fun inSeen => unseen (List.mem_cons_of_mem _ inSeen), otherHashed⟩
    · rw [List.map_cons, List.nodup_cons]
      refine ⟨?_, distinct⟩
      intro repeated
      obtain ⟨other, inRest, same⟩ := List.mem_map.mp repeated
      exact (later other inRest).1 (by simp [same])

/-- A bundle whose digest was computed. -/
structure Digested (host : Host Manifest) (bundle : ModuleBundle) (digest : String) : Prop where
  named : ∀ entry ∈ coveredEntries host bundle, entry.entryId.getD "" ≠ ""
  distinct : ((coveredEntries host bundle).map fun entry => entry.entryId.getD "").Nodup
  hashed : ∀ entry ∈ coveredEntries host bundle, host.sha256 entry.payload = entry.sha256
  manifest : ∀ entry, manifestEntry host bundle = some entry →
    host.sha256 entry.payload = bundle.manifestHash
  digest : digest = bytesToHex
    (host.sha256 (canonicalBundleStatementBytes host.numbers (bundleStatement host bundle)))

theorem computeModuleBundleSignatureHash_ok {hash : BundleHash}
    (ok : computeModuleBundleSignatureHash host bundle wasmBytes = .ok hash) :
    Digested host bundle (bytesToHex hash.hashBytes) := by
  simp only [computeModuleBundleSignatureHash, bind_eq_ok] at ok
  obtain ⟨_, checked, _, _, _, _, _, _, _, pinned, ⟨⟩⟩ := ok
  obtain ⟨hashed, distinct, named⟩ := checkEntries_ok checked
  refine ⟨named, distinct, fun entry member => (hashed entry member).2, ?_, rfl⟩
  intro entry found
  rw [checkManifestHash, found] at pinned
  exact beq_iff_eq.mp (require_eq_ok.mp pinned)

/-- `verifyModuleArtifact` accepts the artifact for the whole bundle, under this key
and digest. -/
def Accepts (host : Host Manifest) (trusted : List String) (bytes : Bytes) (key digest : String) :
    Prop :=
  ∃ requireSignature report,
    verifyModuleArtifact host bytes trusted requireSignature = .ok (.verified report) ∧
      report.signatureScope = .bundle ∧ report.publicKeyHex = key ∧ report.signedHashHex = digest

theorem signedDigest_bundle
    (ok : signedDigest host bytes canonicalHash algorithm = .ok (digest, .bundle)) :
    ∃ parsed, parseSingleFileBundle host bytes = some parsed ∧
      Digested host parsed.bundle (bytesToHex digest) := by
  rw [signedDigest] at ok
  split_ifs at ok
  · simp only [bind_eq_ok] at ok
    obtain ⟨parsed, parses, hash, computed, ⟨⟩⟩ := ok
    exact ⟨parsed, orThrow_eq_ok parses, computeModuleBundleSignatureHash_ok computed⟩
  · obtain ⟨_, _, ⟨⟩⟩ := bind_eq_ok.mp ok

theorem Accepts.digested (accepted : Accepts host trusted bytes key digest) :
    ∃ parsed, parseSingleFileBundle host bytes = some parsed ∧
      Digested host parsed.bundle digest := by
  obtain ⟨requireSignature, report, verified, scope, _, rfl⟩ := accepted
  unfold verifyModuleArtifact at verified
  split at verified
  case h_2 =>
    split_ifs at verified
    cases verified
  case h_1 artifact bundle entry _ =>
    simp only [verifySigned, bind_eq_ok] at verified
    obtain ⟨material, _, _, _, verified⟩ := verified
    split_ifs at verified
    · simp only [verifyStatement, bind_eq_ok] at verified
      obtain ⟨_, _, _, _, _, _, _, _, _, _, ⟨⟩⟩ := verified
      cases scope
    · simp only [verifyDigest, bind_eq_ok] at verified
      obtain ⟨_, _, _, _, ⟨digest, digestScope⟩, computed, _, _, _, _, _, _, ⟨⟩⟩ := verified
      obtain rfl : digestScope = .bundle := scope
      exact signedDigest_bundle computed

end Checks

section Digests
variable {Manifest : Type}

theorem nullable_injective : Function.Injective nullable := by
  intro left right same
  cases left <;> cases right <;> simp_all [nullable]

theorem integer_injective : Function.Injective integer := by
  intro left right same
  simpa [integer] using same

@[simp] theorem shown_nullable (text : Option String) : shown (nullable text) = nullable text := by
  cases text <;> rfl

@[simp] theorem shown_integer (value : Int) : shown (integer value) = integer value := rfl

@[simp] theorem shown_string (value : String) : shown (.string value) = .string value := rfl

structure Alike (left right : Entry) : Prop where
  entryId : left.entryId = right.entryId
  role : left.role = right.role
  sectionName : left.sectionName = right.sectionName
  typeRef : shown left.typeRef = shown right.typeRef
  payloadEncoding : left.payloadEncoding = right.payloadEncoding
  mediaType : left.mediaType = right.mediaType
  flags : left.flags = right.flags
  sha256 : left.sha256 = right.sha256
  description : left.description = right.description

/-- Objects that are shown alike agree in each property. -/
theorem shown_property (leftDistinct : (left.map Prod.fst).Nodup)
    (rightDistinct : (right.map Prod.fst).Nodup)
    (same : shown (.object left) = shown (.object right)) (key : String)
    (leftFound : left.lookup key = some first) (rightFound : right.lookup key = some second) :
    shown first = shown second := by
  have properties := congrArg (property key) same
  rw [property_shown leftDistinct, property_shown rightDistinct, leftFound, rightFound] at properties
  exact Option.some.inj properties

theorem entryMembers_distinct (entry : Entry) : ((entryMembers entry).map Prod.fst).Nodup := by
  have keys : (entryMembers entry).map Prod.fst = ["entryId", "role", "sectionName", "typeRef",
      "payloadEncoding", "mediaType", "flags", "sha256Hex", "payloadLength", "description"] := rfl
  rw [keys]
  decide

theorem statementMembers_distinct (bundle : ModuleBundle) :
    ((statementMembers host bundle).map Prod.fst).Nodup := by
  have keys : (statementMembers host bundle).map Prod.fst = ["version", "bundleVersion",
      "moduleFormat", "canonicalization", "canonicalModuleHashHex", "manifestHashHex",
      "manifestExportSymbol", "manifestSizeSymbol", "entries"] := rfl
  rw [keys]
  decide

theorem alike_of_shown
    (same : shown (normalizedBundleEntryForSignature left) =
      shown (normalizedBundleEntryForSignature right)) : Alike left right := by
  have field (key : String) {first second : Value}
      (leftFound : (entryMembers left).lookup key = some first)
      (rightFound : (entryMembers right).lookup key = some second) : shown first = shown second :=
    shown_property (entryMembers_distinct left) (entryMembers_distinct right) same key leftFound
      rightFound
  have entryId := field "entryId" rfl rfl
  have role := field "role" rfl rfl
  have sectionName := field "sectionName" rfl rfl
  have payloadEncoding := field "payloadEncoding" rfl rfl
  have mediaType := field "mediaType" rfl rfl
  have flags := field "flags" rfl rfl
  have sha256 := field "sha256Hex" rfl rfl
  have description := field "description" rfl rfl
  simp only [shown_nullable, shown_string, Value.string.injEq] at *
  exact {
    entryId := nullable_injective entryId
    role := integer_injective role
    sectionName := nullable_injective sectionName
    typeRef := field "typeRef" rfl rfl
    payloadEncoding := integer_injective payloadEncoding
    mediaType := nullable_injective mediaType
    flags := Int.ofNat_injective (integer_injective flags)
    sha256 := bytesToHex_injective sha256
    description := nullable_injective description }

end Digests

section Pairs
variable {Manifest : Type} (host : Host Manifest)

def hashedMessages (bundle : ModuleBundle) : List Bytes :=
  canonicalBundleStatementBytes host.numbers (bundleStatement host bundle) ::
    (coveredEntries host bundle).map (·.payload)

/-- No two of the messages that are hashed for two bundles collide. -/
def CollisionFree (left right : ModuleBundle) : Prop :=
  ∀ first ∈ hashedMessages host left ++ hashedMessages host right,
    ∀ second ∈ hashedMessages host left ++ hashedMessages host right,
      host.sha256 first = host.sha256 second → first = second

def spareSignatures (bundle : ModuleBundle) : List Entry :=
  (bundle.entries.filter (isSignatureEntry host)).tail

def Entry.ordered (entry : Entry) : Entry :=
  { entry with typeRef := normalizeBundleStatementValue entry.typeRef }

variable {host} {digest : String}

theorem CollisionFree.symm (free : CollisionFree host left right) :
    CollisionFree host right left := by
  intro first inFirst second inSecond
  exact free first (List.perm_append_comm.mem_iff.mp inFirst) second
    (List.perm_append_comm.mem_iff.mp inSecond)

structure Paired (host : Host Manifest) (left right : ModuleBundle) (digest : String) : Prop where
  first : Digested host left digest
  second : Digested host right digest
  free : CollisionFree host left right

theorem Paired.symm (pair : Paired host left right digest) : Paired host right left digest :=
  ⟨pair.second, pair.first, pair.free.symm⟩

theorem sortedById_perm (entries : List Entry) : (sortedById entries).Perm entries :=
  List.perm_insertionSort _ _

theorem forall₂_mem (pairs : List.Forall₂ R first second) :
    List.Forall₂ (fun entry other => entry ∈ first ∧ other ∈ second ∧ R entry other) first second := by
  induction pairs with
  | nil => exact .nil
  | cons related _ ih =>
    refine .cons ⟨List.mem_cons_self, List.mem_cons_self, related⟩ (ih.imp ?_)
    rintro entry other ⟨inFirst, inSecond, holds⟩
    exact ⟨List.mem_cons_of_mem _ inFirst, List.mem_cons_of_mem _ inSecond, holds⟩

theorem Digested.entry_unique (digested : Digested host left digest)
    (inFirst : first ∈ coveredEntries host left) (inSecond : second ∈ coveredEntries host left)
    (same : first.entryId = second.entryId) : first = second :=
  List.inj_on_of_nodup_map digested.distinct inFirst inSecond (by rw [same])

section
variable (pair : Paired host left right digest)
include pair

theorem statement_shown :
    shown (bundleStatement host left) = shown (bundleStatement host right) := by
  have hashes := bytesToHex_injective (pair.first.digest.symm.trans pair.second.digest)
  exact shown_eq_of_bytes (pair.free _ (by simp [hashedMessages]) _ (by simp [hashedMessages]) hashes)

theorem manifestHash_eq :
    left.manifestHash = right.manifestHash := by
  have same := shown_property (statementMembers_distinct left) (statementMembers_distinct right)
    (statement_shown pair) "manifestHashHex" rfl rfl
  simp only [shown_string, Value.string.injEq] at same
  exact bytesToHex_injective same

/-- In the order of their ids, the covered entries are alike one by one. -/
theorem sorted_alike :
    List.Forall₂ Alike (sortedById (coveredEntries host left))
      (sortedById (coveredEntries host right)) := by
  have same := shown_property (statementMembers_distinct left) (statementMembers_distinct right)
    (statement_shown pair) "entries" rfl rfl
  simp only [shown_array, List.map_map, Value.array.injEq] at same
  rw [← List.forall₂_eq_eq_eq, List.forall₂_map_left_iff, List.forall₂_map_right_iff] at same
  exact same.imp fun _ _ => alike_of_shown

theorem payload_eq_of_alike (inLeft : entry ∈ coveredEntries host left)
    (inRight : other ∈ coveredEntries host right) (alike : Alike entry other) :
    entry.payload = other.payload := by
  apply pair.free
  · exact List.mem_append_left _ (List.mem_cons_of_mem _ (List.mem_map_of_mem inLeft))
  · exact List.mem_append_right _ (List.mem_cons_of_mem _ (List.mem_map_of_mem inRight))
  · rw [pair.first.hashed entry inLeft, pair.second.hashed other inRight, alike.sha256]

theorem exists_alike (inLeft : entry ∈ coveredEntries host left) :
    ∃ other ∈ coveredEntries host right, Alike entry other ∧ entry.payload = other.payload := by
  have pairs := sorted_alike pair
  obtain ⟨other, member, alike⟩ :=
    Checked.forall₂_mem_left pairs ((sortedById_perm _).mem_iff.mpr inLeft)
  have inRight := (sortedById_perm _).mem_iff.mp member
  exact ⟨other, inRight, alike,
    payload_eq_of_alike pair inLeft inRight alike⟩

end

/-- Removing the first element of a kind leaves the others of the kind and the rest. -/
theorem eraseP_perm (test : Entry → Bool) (entries : List Entry) :
    (entries.eraseP test).Perm
      (entries.filter (fun entry => !test entry) ++ (entries.filter test).tail) := by
  induction entries with
  | nil => exact .nil
  | cons entry rest ih =>
    cases kind : test entry with
    | true =>
      rw [List.eraseP_cons_of_pos kind, List.filter_cons_of_pos kind,
        List.filter_cons_of_neg (by simp [kind])]
      exact (List.perm_append_comm.trans (List.filter_append_perm test rest)).symm
    | false =>
      have keep : (!test entry) = true := by rw [kind, Bool.not_false]
      rw [List.eraseP_cons_of_neg (by simp [kind]),
        List.filter_cons_of_pos (p := fun entry => !test entry) keep,
        List.filter_cons_of_neg (by simp [kind])]
      exact ih.cons entry

theorem isSignatureEntry_ordered (entry : Entry) :
    isSignatureEntry host entry.ordered = isSignatureEntry host entry := rfl

theorem covered_not_signature (member : entry ∈ (coveredEntries host bundle).map Entry.ordered) :
    isSignatureEntry host entry = false := by
  obtain ⟨source, inside, rfl⟩ := List.mem_map.mp member
  simpa [isSignatureEntry_ordered] using (List.mem_filter.mp inside).2

theorem spare_signature (member : entry ∈ (spareSignatures host bundle).map Entry.ordered) :
    isSignatureEntry host entry = true := by
  obtain ⟨source, inside, rfl⟩ := List.mem_map.mp member
  exact (List.mem_filter.mp (List.mem_of_mem_tail inside)).2

/-- Bundles agree apart from the verified signature when they agree in what is
covered and in the spare signatures. -/
theorem apart_perm_iff :
    ((left.entries.eraseP (isSignatureEntry host)).map Entry.ordered).Perm
        ((right.entries.eraseP (isSignatureEntry host)).map Entry.ordered) ↔
      ((coveredEntries host left).map Entry.ordered).Perm
          ((coveredEntries host right).map Entry.ordered) ∧
        ((spareSignatures host left).map Entry.ordered).Perm
          ((spareSignatures host right).map Entry.ordered) := by
  have parts : ∀ bundle : ModuleBundle,
      ((bundle.entries.eraseP (isSignatureEntry host)).map Entry.ordered).Perm
        ((coveredEntries host bundle).map Entry.ordered ++
          (spareSignatures host bundle).map Entry.ordered) := by
    intro bundle
    rw [← List.map_append]
    exact (eraseP_perm _ _).map _
  have split : ∀ bundle : ModuleBundle,
      ((coveredEntries host bundle).map Entry.ordered ++
        (spareSignatures host bundle).map Entry.ordered).filter (isSignatureEntry host) =
          (spareSignatures host bundle).map Entry.ordered := by
    intro bundle
    have dropped : ((coveredEntries host bundle).map Entry.ordered).filter (isSignatureEntry host) =
        [] := List.filter_eq_nil_iff.mpr fun _ member => by simp [covered_not_signature member]
    rw [List.filter_append, dropped, List.filter_eq_self.mpr fun _ => spare_signature]
    exact List.nil_append _
  rw [(parts left).congr_left, (parts right).congr_right]
  constructor
  · intro whole
    have spare := whole.filter (isSignatureEntry host)
    rw [split left, split right] at spare
    have covered := (spare.append_left _).symm.trans whole
    exact ⟨(List.perm_append_right_iff _).mp covered, spare⟩
  · rintro ⟨covered, spare⟩
    exact covered.append spare

section Manifest

/-- A search that finds an element of a part finds it in the part. -/
theorem find?_filter_of_found {entries : List Entry}
    (found : ∀ entry, entries.find? test = some entry → keep entry = true) :
    (entries.filter keep).find? test = entries.find? test := by
  cases hit : entries.find? test with
  | none =>
    rw [List.find?_eq_none] at hit ⊢
    exact fun entry member => hit entry (List.mem_of_mem_filter member)
  | some entry =>
    obtain ⟨passes, front, back, rfl, missed⟩ := List.find?_eq_some_iff_append.mp hit
    rw [List.filter_append, List.filter_cons_of_pos (found entry hit), List.find?_eq_some_iff_append]
    exact ⟨passes, _, _, rfl, fun other member => missed other (List.mem_of_mem_filter member)⟩

/-- The manifest lookup stays in the covered entries if it selects no signature. -/
theorem lookup_covered
    (unsigned : ∀ entry, findModuleBundleEntry host left.entries "manifest" = some entry →
      isSignatureEntry host entry = false) :
    findModuleBundleEntry host left.entries "manifest" =
      findModuleBundleEntry host (coveredEntries host left) "manifest" := by
  rw [findModuleBundleEntry_manifest] at unsigned
  rw [findModuleBundleEntry_manifest, findModuleBundleEntry_manifest, coveredEntries]
  cases byId : left.entries.find? hasManifestId with
  | some entry =>
    rw [byId] at unsigned
    rw [find?_filter_of_found, byId, Option.some_or, Option.some_or]
    intro other found
    rw [byId] at found
    cases found
    rw [unsigned entry rfl, Bool.not_false]
  | none =>
    rw [byId] at unsigned
    rw [find?_filter_of_found (by simp [byId]), byId, Option.none_or, Option.none_or,
      find?_filter_of_found]
    intro entry found
    rw [unsigned entry found, Bool.not_false]

theorem exists_find? (test : Entry → Bool) {entries : List Entry} (member : entry ∈ entries)
    (hit : test entry = true) : ∃ found, entries.find? test = some found :=
  Option.isSome_iff_exists.mp (List.find?_isSome.mpr ⟨entry, member, hit⟩)

/-- Without an entry under the manifest's id, `manifestHash` pins the entry with its role. -/
theorem manifestEntry_eq
    (byId : (coveredEntries host left).find? hasManifestId = none) :
    manifestEntry host left = (coveredEntries host left).find? (hasManifestRole host) := by
  rw [List.find?_eq_none] at byId
  unfold manifestEntry
  generalize coveredEntries host left = entries at byId
  induction entries with
  | nil => rfl
  | cons entry rest ih =>
    obtain ⟨unnamed, later⟩ := List.forall_mem_cons.mp byId
    simp only [List.find?_cons, Bool.eq_false_of_not_eq_true unnamed, Bool.false_or, ih later]

/-- Two searches of which each finds the payload that the other one finds. -/
theorem payload_eq_of_found {first second : Option Entry}
    (forth : ∀ entry, first = some entry → ∃ other, second = some other ∧
      entry.payload = other.payload)
    (back : ∀ entry, second = some entry → ∃ other, first = some other ∧
      entry.payload = other.payload) : first.map (·.payload) = second.map (·.payload) := by
  cases first with
  | some entry =>
    obtain ⟨other, rfl, payloads⟩ := forth entry rfl
    exact congrArg some payloads
  | none =>
    cases second with
    | none => rfl
    | some other => exact nomatch back other rfl

section
variable (pair : Paired host left right digest)
include pair

/-- An entry found under the manifest's id has its counterpart in the other bundle. -/
theorem find?_id_alike (entry : Entry)
    (found : (coveredEntries host left).find? hasManifestId = some entry) :
    ∃ other, (coveredEntries host right).find? hasManifestId = some other ∧
      entry.payload = other.payload := by
  have named := List.find?_some found
  obtain ⟨other, inRight, alike, payloads⟩ :=
    exists_alike pair (List.mem_of_find?_eq_some found)
  rw [hasManifestId, alike.entryId] at named
  obtain ⟨first, otherFound⟩ := exists_find? hasManifestId inRight named
  have firstNamed := List.find?_some otherFound
  rw [beq_iff_eq] at named firstNamed
  obtain rfl : first = other := by
    apply pair.second.entry_unique (List.mem_of_find?_eq_some otherFound) inRight
    rw [firstNamed, named]
  exact ⟨first, otherFound, payloads⟩

theorem find?_role_alike
    (leftId : (coveredEntries host left).find? hasManifestId = none)
    (rightId : (coveredEntries host right).find? hasManifestId = none) (entry : Entry)
    (found : (coveredEntries host left).find? (hasManifestRole host) = some entry) :
    ∃ other, (coveredEntries host right).find? (hasManifestRole host) = some other ∧
      entry.payload = other.payload := by
  have inLeft := List.mem_of_find?_eq_some found
  have role := List.find?_some found
  obtain ⟨other, inRight, alike, _⟩ := exists_alike pair inLeft
  rw [hasManifestRole, alike.role] at role
  obtain ⟨first, otherFound⟩ := exists_find? (hasManifestRole host) inRight role
  refine ⟨first, otherFound, ?_⟩
  apply pair.free
  · exact List.mem_append_left _ (List.mem_cons_of_mem _ (List.mem_map_of_mem inLeft))
  · exact List.mem_append_right _ (List.mem_cons_of_mem _
      (List.mem_map_of_mem (List.mem_of_find?_eq_some otherFound)))
  · rw [pair.first.manifest entry (by rw [manifestEntry_eq leftId, found]),
      pair.second.manifest first (by rw [manifestEntry_eq rightId, otherFound]),
      manifestHash_eq pair]

theorem covered_lookup_payload :
    (findModuleBundleEntry host (coveredEntries host left) "manifest").map (·.payload) =
      (findModuleBundleEntry host (coveredEntries host right) "manifest").map (·.payload) := by
  have byId := payload_eq_of_found (find?_id_alike pair) (find?_id_alike pair.symm)
  rw [findModuleBundleEntry_manifest, findModuleBundleEntry_manifest, Option.map_or, Option.map_or,
    ← byId]
  cases leftId : (coveredEntries host left).find? hasManifestId with
  | some entry => rfl
  | none =>
    rw [leftId, Option.map_none, eq_comm, Option.map_eq_none_iff] at byId
    exact payload_eq_of_found (find?_role_alike pair leftId byId)
      (find?_role_alike pair.symm byId leftId)

end

end Manifest

end Pairs

section Binding
variable {Manifest : Type} (host : Host Manifest)

/-- The entries a consumer reads, apart from the signature that is verified. Two
type references that differ in the order of members are one. -/
def entriesApart (parsed : ParsedBundle Manifest) : List (ParsedEntry Manifest) :=
  (parsed.entries.eraseP fun entry => isSignatureEntry host entry.entry).map fun entry =>
    { entry with entry := entry.entry.ordered }

def ManifestCovered (bundle : ModuleBundle) : Prop :=
  ∀ entry, findModuleBundleEntry host bundle.entries "manifest" = some entry →
    isSignatureEntry host entry = false

/-- Two parsed artifacts show a consumer the same manifest and entries, and the
manifest of each is one that the signature covers. -/
structure Bound (left right : ParsedBundle Manifest) : Prop where
  manifest : left.manifest = right.manifest
  entries : (entriesApart host left).Perm (entriesApart host right)
  leftCovered : ManifestCovered host left.bundle
  rightCovered : ManifestCovered host right.bundle

/-- An entry that looks like a signature stands first under the manifest's id, or
first with its role where no entry has the id. -/
def HasDecoy (bundle : ModuleBundle) : Prop :=
  ∃ before decoy after, bundle.entries = before ++ decoy :: after ∧
    isSignatureEntry host decoy = true ∧
    ((decoy.entryId = some "manifest" ∧ ∀ entry ∈ before, entry.entryId ≠ some "manifest") ∨
      (decoy.role = host.roles.manifest ∧ (∀ entry ∈ before, entry.role ≠ host.roles.manifest) ∧
        ∀ entry ∈ bundle.entries, entry.entryId ≠ some "manifest"))

/-- What the digest leaves open, and two artifacts have to agree in. -/
structure Agree (left right : ModuleBundle) : Prop where
  leftClean : ¬ HasDecoy host left
  rightClean : ¬ HasDecoy host right
  spare : ((spareSignatures host left).map Entry.ordered).Perm
    ((spareSignatures host right).map Entry.ordered)
  typeRefs : ∀ entry ∈ coveredEntries host left, ∀ other ∈ coveredEntries host right,
    entry.entryId = other.entryId →
      normalizeBundleStatementValue entry.typeRef = normalizeBundleStatementValue other.typeRef

variable {host}

theorem parseSingleFileBundle_fields (parses : parseSingleFileBundle host bytes = some parsed) :
    parsed.entries = buildParsedEntries host parsed.bundle ∧
      parsed.manifest = manifestOf host parsed.bundle := by
  unfold parseSingleFileBundle at parses
  simp only [Option.bind_eq_bind, Option.bind_eq_some_iff, Option.pure_def,
    Option.some.injEq] at parses
  obtain ⟨artifact, _, bundle, _, sections, _, canonical, _, rfl⟩ := parses
  exact ⟨rfl, rfl⟩

theorem entriesApart_eq (parses : parseSingleFileBundle host bytes = some parsed) :
    entriesApart host parsed =
      ((parsed.bundle.entries.eraseP (isSignatureEntry host)).map Entry.ordered).map
        (buildParsedEntry host) := by
  rw [entriesApart, (parseSingleFileBundle_fields parses).1, buildParsedEntries, List.eraseP_map,
    List.map_map, List.map_map]
  rfl

/-- What the manifest lookup selects, by its place among the entries. -/
theorem manifest_lookup_iff :
    findModuleBundleEntry host entries "manifest" = some entry ↔
      ∃ before after, entries = before ++ entry :: after ∧
        ((entry.entryId = some "manifest" ∧ ∀ other ∈ before, other.entryId ≠ some "manifest") ∨
          (entry.role = host.roles.manifest ∧
            (∀ other ∈ before, other.role ≠ host.roles.manifest) ∧
            ∀ other ∈ entries, other.entryId ≠ some "manifest")) := by
  rw [findModuleBundleEntry_manifest, Option.or_eq_some_iff]
  simp only [List.find?_eq_some_iff_append, List.find?_eq_none, beq_iff_eq, Bool.not_eq_true',
    beq_eq_false_iff_ne]
  constructor
  · rintro (⟨named, before, after, split, earlier⟩ |
      ⟨unnamed, role, before, after, split, earlier⟩)
    · exact ⟨before, after, split, .inl ⟨named, earlier⟩⟩
    · exact ⟨before, after, split, .inr ⟨role, earlier, unnamed⟩⟩
  · rintro ⟨before, after, split, ⟨named, earlier⟩ | ⟨role, earlier, unnamed⟩⟩
    · exact .inl ⟨named, before, after, split, earlier⟩
    · exact .inr ⟨unnamed, role, before, after, split, earlier⟩

/-- The manifest lookup leaves the covered entries exactly for a decoy. -/
theorem manifestCovered_iff : ManifestCovered host bundle ↔ ¬ HasDecoy host bundle := by
  constructor
  · rintro covered ⟨before, decoy, after, split, signature, first⟩
    have unsigned := covered decoy (manifest_lookup_iff.mpr ⟨before, after, split, first⟩)
    rw [signature] at unsigned
    cases unsigned
  · intro clean entry found
    obtain ⟨before, after, split, first⟩ := manifest_lookup_iff.mp found
    by_contra signature
    apply clean
    exact ⟨before, entry, after, split, Bool.eq_true_of_not_eq_false signature, first⟩

/-- The covered entries agree up to their order and that of type reference members. -/
theorem covered_perm (pair : Paired host left right digest) (agree : Agree host left right) :
    ((coveredEntries host left).map Entry.ordered).Perm
      ((coveredEntries host right).map Entry.ordered) := by
  have pairs := sorted_alike pair
  have ordered : (sortedById (coveredEntries host left)).map Entry.ordered =
      (sortedById (coveredEntries host right)).map Entry.ordered := by
    rw [← List.forall₂_eq_eq_eq, List.forall₂_map_left_iff, List.forall₂_map_right_iff]
    refine List.Forall₂.imp ?_ (forall₂_mem pairs)
    rintro entry other ⟨inFirst, inSecond, alike⟩
    have inLeft := (sortedById_perm _).mem_iff.mp inFirst
    have inRight := (sortedById_perm _).mem_iff.mp inSecond
    have payloads := payload_eq_of_alike pair inLeft inRight alike
    have typeRefs := agree.typeRefs entry inLeft other inRight alike.entryId
    obtain ⟨entryId, role, sectionName, _, payloadEncoding, mediaType, flags, sha256,
      description⟩ := alike
    simp only [Entry.ordered, entryId, role, sectionName, typeRefs, payloadEncoding, mediaType,
      flags, sha256, payloads, description]
  have leftSorted := (sortedById_perm (coveredEntries host left)).map Entry.ordered
  have rightSorted := (sortedById_perm (coveredEntries host right)).map Entry.ordered
  exact leftSorted.symm.trans (ordered ▸ rightSorted)

/-- Covered entries that agree leave no room for different type references. -/
theorem typeRef_of_perm (rightDigested : Digested host right digest)
    (covered : ((coveredEntries host left).map Entry.ordered).Perm
      ((coveredEntries host right).map Entry.ordered)) (inLeft : entry ∈ coveredEntries host left)
    (inRight : other ∈ coveredEntries host right) (named : entry.entryId = other.entryId) :
    normalizeBundleStatementValue entry.typeRef = normalizeBundleStatementValue other.typeRef := by
  obtain ⟨twin, isTwin, same⟩ :=
    List.mem_map.mp (covered.mem_iff.mp (List.mem_map_of_mem inLeft))
  obtain rfl : twin = other := by
    apply rightDigested.entry_unique isTwin inRight
    have ids : twin.ordered.entryId = entry.ordered.entryId := by rw [same]
    exact ids.trans named
  exact (congrArg Entry.typeRef same).symm

/-- Of two artifacts that are accepted under one key and digest, a consumer reads
the same manifest and entries exactly if they agree in what the digest leaves open. -/
theorem bundle_signature_binds_iff {trusted : List String} {leftBytes rightBytes : Bytes}
    {key digest : String} {left right : ParsedBundle Manifest}
    (leftAccepted : Accepts host trusted leftBytes key digest)
    (rightAccepted : Accepts host trusted rightBytes key digest)
    (leftParses : parseSingleFileBundle host leftBytes = some left)
    (rightParses : parseSingleFileBundle host rightBytes = some right)
    (free : CollisionFree host left.bundle right.bundle) :
    Bound host left right ↔ Agree host left.bundle right.bundle := by
  obtain ⟨_, parses, leftDigested⟩ := leftAccepted.digested
  obtain rfl := Option.some.inj (leftParses.symm.trans parses)
  obtain ⟨_, parses, rightDigested⟩ := rightAccepted.digested
  obtain rfl := Option.some.inj (rightParses.symm.trans parses)
  have entries : (entriesApart host left).Perm (entriesApart host right) ↔
      ((left.bundle.entries.eraseP (isSignatureEntry host)).map Entry.ordered).Perm
        ((right.bundle.entries.eraseP (isSignatureEntry host)).map Entry.ordered) := by
    rw [entriesApart_eq leftParses, entriesApart_eq rightParses,
      List.map_perm_map_iff fun _ _ same => congrArg ParsedEntry.entry same]
  rw [apart_perm_iff] at entries
  constructor
  · rintro ⟨_, perm, leftCovered, rightCovered⟩
    obtain ⟨covered, spare⟩ := entries.mp perm
    exact ⟨manifestCovered_iff.mp leftCovered, manifestCovered_iff.mp rightCovered, spare,
      fun _ inLeft _ inRight => typeRef_of_perm rightDigested covered inLeft inRight⟩
  · intro agree
    have leftCovered := manifestCovered_iff.mpr agree.leftClean
    have rightCovered := manifestCovered_iff.mpr agree.rightClean
    have pair : Paired host left.bundle right.bundle digest := ⟨leftDigested, rightDigested, free⟩
    refine ⟨?_, entries.mpr ⟨covered_perm pair agree, agree.spare⟩, leftCovered, rightCovered⟩
    rw [(parseSingleFileBundle_fields leftParses).2, (parseSingleFileBundle_fields rightParses).2]
    have payloads := covered_lookup_payload pair
    rw [← lookup_covered leftCovered, ← lookup_covered rightCovered] at payloads
    have manifests := congrArg (Option.bind · host.decodeBundleManifest) payloads
    rwa [Option.bind_map, Option.bind_map] at manifests

section Decoy

-- An artifact as it is under any hash and any text of numbers, the real ones among them.
variable (sha256 : Bytes → Bytes) (numbers : NumberFormat)

def plainModule : Bytes := List.replicate 32 0

def manifestNamed (role : Int) (payload : Bytes) : Entry where
  entryId := some "manifest"
  role := role
  payloadEncoding := 1
  sha256 := sha256 payload
  payload := payload

def signatureNamed : Entry where
  entryId := some "signature"
  role := 2
  payloadEncoding := 2
  sha256 := sha256 [1]
  payload := [1]

def plainBundle (entries : List Entry) : ModuleBundle where
  bundleVersion := 1
  moduleFormat := "wasm"
  canonicalization := none
  canonicalModuleHash := sha256 plainModule
  manifestHash := sha256 [7]
  manifestExportSymbol := ""
  manifestSizeSymbol := ""
  entries := entries

/-- A signed bundle, the same in another order, and the same with a second entry
under the manifest's id that has the role of a signature. -/
def practiceEntries : Bytes → Option (List Entry)
  | [1] => some [manifestNamed sha256 0 [7], signatureNamed sha256]
  | [2] => some [signatureNamed sha256, manifestNamed sha256 0 [7]]
  | [3] => some [signatureNamed sha256, manifestNamed sha256 2 [8], manifestNamed sha256 0 [7]]
  | _ => none

def signerKey : Bytes := List.replicate 32 171
def signatureValue : Bytes := List.replicate 64 205

def signaturePayload (digest : Bytes) : Value := .object [
  ("algorithm", .string "ed25519"),
  ("publicKeyHex", .string (bytesToHex signerKey)),
  ("signatureHex", .string (bytesToHex signatureValue)),
  ("signedHashHex", .string (bytesToHex digest)),
  ("signedHashAlgorithm", .string bundleSignatureHashAlgorithm)]

def practiceHost (digest : Bytes) : Host Bytes where
  roles := ⟨0, 1, 2, 3, 4, 5, by decide⟩
  encodings := ⟨0, 1, 2, 3, by decide⟩
  numbers := numbers
  sha256 := sha256
  ed25519Verify message signature publicKey :=
    message == digest && signature == signatureValue && publicKey == signerKey
  extractPublicationRecordCollection bytes :=
    (practiceEntries sha256 bytes).map fun entries =>
      ⟨plainModule, some (plainBundle sha256 entries)⟩
  listWasmCustomSections _ := some []
  stripWasmCustomSections bytes _ := some bytes
  parseJson _ := some (signaturePayload digest)
  stringOf _ := ""
  decodeBundleManifest := some

def practiceDigest : Bytes :=
  sha256 (canonicalBundleStatementBytes numbers (bundleStatement (practiceHost sha256 numbers [])
    (plainBundle sha256 [manifestNamed sha256 0 [7]])))

def signedHost : Host Bytes := practiceHost sha256 numbers (practiceDigest sha256 numbers)

/-- What `parseSingleFileBundle` returns for stored entries. -/
def practiceParsed (entries : List Entry) : ParsedBundle Bytes where
  wasmBytes := plainModule
  bundle := plainBundle sha256 entries
  entries := buildParsedEntries (signedHost sha256 numbers) (plainBundle sha256 entries)
  manifest := manifestOf (signedHost sha256 numbers) (plainBundle sha256 entries)
  deploymentPlan :=
    (entries.find? isDeploymentEntry).bind (deploymentPlanOf (signedHost sha256 numbers))
  customSections := []
  canonicalWasmBytes := plainModule
  canonicalModuleHash := sha256 plainModule

theorem practice_describes (digest : Bytes) : Describes (signaturePayload digest) signerKey
    signatureValue digest bundleSignatureHashAlgorithm := by
  have known : ∀ key ∈ ["algorithm", "publicKeyHex", "signatureHex", "signedHashHex",
      "signedHashAlgorithm"], signaturePayloadKeys.contains key = true := by decide
  refine ⟨⟨_, rfl, ?_⟩, rfl, rfl, rfl, rfl, rfl, rfl⟩
  simpa using known

variable {sha256 numbers}

theorem practice_extracts (stored : practiceEntries sha256 bytes = some entries) :
    (signedHost sha256 numbers).extractPublicationRecordCollection bytes =
      some ⟨plainModule, some (plainBundle sha256 entries)⟩ := by
  simp only [signedHost, practiceHost, stored, Option.map_some]

theorem practice_parses (bytes : Bytes) (stored : practiceEntries sha256 bytes = some entries) :
    parseSingleFileBundle (signedHost sha256 numbers) bytes =
      some (practiceParsed sha256 numbers entries) := by
  unfold parseSingleFileBundle
  rw [practice_extracts stored]
  rfl

section
variable (covered : coveredEntries (signedHost sha256 numbers) (plainBundle sha256 entries) =
  [manifestNamed sha256 0 [7]])
include covered

theorem practice_statement :
    bundleStatement (signedHost sha256 numbers) (plainBundle sha256 entries) =
      bundleStatement (practiceHost sha256 numbers [])
        (plainBundle sha256 [manifestNamed sha256 0 [7]]) := by
  unfold bundleStatement statementMembers
  rw [covered]
  rfl

theorem practice_messages :
    hashedMessages (signedHost sha256 numbers) (plainBundle sha256 entries) =
      [canonicalBundleStatementBytes numbers (bundleStatement (practiceHost sha256 numbers [])
        (plainBundle sha256 [manifestNamed sha256 0 [7]])), [7]] := by
  rw [hashedMessages, practice_statement covered, covered]
  rfl

variable (sized : (sha256 plainModule).length = 32)
include sized

theorem practice_hash :
    ∃ statement, computeModuleBundleSignatureHash (signedHost sha256 numbers)
      (plainBundle sha256 entries) plainModule = .ok ⟨statement, practiceDigest sha256 numbers,
        bytesToHex (practiceDigest sha256 numbers)⟩ := by
  have canonical : orThrow (computeCanonicalModuleHash (signedHost sha256 numbers) plainModule
      (strippedPrefix (plainBundle sha256 entries))) = .ok (plainModule, sha256 plainModule) := rfl
  have checked : checkEntries (signedHost sha256 numbers) [] [manifestNamed sha256 0 [7]] =
      .ok () := by
    simp [checkEntries, manifestNamed, signedHost, practiceHost, require, ok_bind]
  have pinned : checkManifestHash (signedHost sha256 numbers) (plainBundle sha256 entries) =
      .ok () := by
    have found : manifestEntry (signedHost sha256 numbers) (plainBundle sha256 entries) =
        some (manifestNamed sha256 0 [7]) := by
      rw [manifestEntry, covered]
      rfl
    rw [checkManifestHash, found]
    exact require_eq_ok.mpr (beq_self_eq_true (sha256 [7]))
  refine ⟨bundleStatement (signedHost sha256 numbers) (plainBundle sha256 entries), ?_⟩
  have digest : (signedHost sha256 numbers).sha256 (canonicalBundleStatementBytes
      (signedHost sha256 numbers).numbers
        (bundleStatement (signedHost sha256 numbers) (plainBundle sha256 entries))) =
      practiceDigest sha256 numbers := by
    rw [practice_statement covered]
    rfl
  simp only [computeModuleBundleSignatureHash, covered, checked, canonical, pinned, digest, ok_bind]
  simp [plainBundle, sized, require, ok_bind]

theorem practice_accepts (bytes : Bytes) (stored : practiceEntries sha256 bytes = some entries)
    (signature : findSignatureEntry (signedHost sha256 numbers) entries =
      some (signatureNamed sha256)) :
    Accepts (signedHost sha256 numbers) [bytesToHex signerKey] bytes (bytesToHex signerKey)
      (bytesToHex (practiceDigest sha256 numbers)) := by
  have digested : signedDigest (signedHost sha256 numbers) bytes plainModule
      bundleSignatureHashAlgorithm = .ok (practiceDigest sha256 numbers, .bundle) := by
    obtain ⟨statement, hashed⟩ := practice_hash covered sized
    unfold signedDigest
    rw [practice_parses bytes stored]
    simp only [orThrow, ok_bind, practiceParsed, hashed]
    rfl
  have signed : signatureOf (signedHost sha256 numbers) bytes =
      some (⟨plainModule, some (plainBundle sha256 entries)⟩, plainBundle sha256 entries,
        signatureNamed sha256) := by
    have inside : (plainBundle sha256 entries).entries = entries := rfl
    unfold signatureOf
    simp only [practice_extracts stored, Option.bind_eq_bind, Option.bind_some, inside, signature]
    rfl
  have genuine : (signedHost sha256 numbers).ed25519Verify (practiceDigest sha256 numbers)
      signatureValue signerKey = true := by
    simp [signedHost, practiceHost]
  have trusted : (normalizeTrustedPublicKeys [bytesToHex signerKey]).contains
      (bytesToHex signerKey) = true := trusted_of_mem (by decide) (by simp)
  have canonical : computeCanonicalModuleHash (signedHost sha256 numbers)
      (⟨plainModule, some (plainBundle sha256 entries)⟩ : ProtectedArtifact).payloadBytes
      sdsCustomSectionPrefix = some (plainModule, sha256 plainModule) := rfl
  have recorded : (plainBundle sha256 entries).canonicalModuleHash = sha256 plainModule := rfl
  obtain ⟨report, verified, fields⟩ :=
    (practice_describes _).verifyDigest_ok canonical recorded digested trusted genuine
  refine ⟨true, report, ?_, fields⟩
  rw [verifyModuleArtifact, signed]
  dsimp only
  rw [(practice_describes _).verifySigned_eq rfl (by decide) (by decide) (by decide)]
  exact verified

end

abbrev realHost : Host Bytes := signedHost Sha256.sha256 decimalNumbers

theorem practice_free
    (left : coveredEntries realHost (plainBundle Sha256.sha256 first) =
      [manifestNamed Sha256.sha256 0 [7]])
    (right : coveredEntries realHost (plainBundle Sha256.sha256 second) =
      [manifestNamed Sha256.sha256 0 [7]]) :
    CollisionFree realHost (plainBundle Sha256.sha256 first)
      (plainBundle Sha256.sha256 second) := by
  have apart : practiceDigest Sha256.sha256 decimalNumbers ≠ Sha256.sha256 [7] := by
    rw [practiceDigest, canonicalBundleStatementBytes, utf8, JavaScript.toUTF8_data,
      String.toList_ofList]
    decide +kernel
  unfold practiceDigest at apart
  unfold CollisionFree
  rw [practice_messages left, practice_messages right]
  generalize canonicalBundleStatementBytes _ _ = statement at apart ⊢
  have either {message : Bytes} (member : message ∈ [statement, [7]] ++ [statement, [7]]) :
      message = statement ∨ message = [7] := by
    simpa [or_comm, or_left_comm] using member
  intro one inOne other inOther same
  rcases either inOne with rfl | rfl <;> rcases either inOther with rfl | rfl
  · rfl
  · exact (apart same).elim
  · exact (apart same.symm).elim
  · rfl

theorem bundle_signature_binds_reordered :
    Bound realHost
      (practiceParsed Sha256.sha256 decimalNumbers
        [manifestNamed Sha256.sha256 0 [7], signatureNamed Sha256.sha256])
      (practiceParsed Sha256.sha256 decimalNumbers
        [signatureNamed Sha256.sha256, manifestNamed Sha256.sha256 0 [7]]) := by
  have sized := Sha256.length_sha256 plainModule
  refine (bundle_signature_binds_iff (practice_accepts rfl sized [1] rfl rfl)
    (practice_accepts rfl sized [2] rfl rfl) (practice_parses [1] rfl)
    (practice_parses [2] rfl) (practice_free rfl rfl)).mpr ?_
  refine ⟨?_, ?_, .refl _, ?_⟩
  · rw [← manifestCovered_iff]
    rintro _ ⟨⟩
    rfl
  · rw [← manifestCovered_iff]
    rintro _ ⟨⟩
    rfl
  · rintro entry (_ | ⟨_, ⟨⟩⟩) other (_ | ⟨_, ⟨⟩⟩) _
    rfl

/-- The two artifacts are accepted under one key and digest without a collision. -/
theorem bundle_manifest_replaced :
    let key := bytesToHex signerKey
    let digest := practiceDigest Sha256.sha256 decimalNumbers
    (∀ message signature publicKey, realHost.ed25519Verify message signature publicKey = true →
      message = digest) ∧
    (∃ left right, parseSingleFileBundle realHost [1] = some left ∧
      parseSingleFileBundle realHost [3] = some right ∧
      CollisionFree realHost left.bundle right.bundle ∧
      left.manifest = some [7] ∧ right.manifest = some [8]) ∧
    Accepts realHost [key] [1] key (bytesToHex digest) ∧
    Accepts realHost [key] [3] key (bytesToHex digest) := by
  have sized := Sha256.length_sha256 plainModule
  refine ⟨?_, ⟨_, _, practice_parses [1] rfl, practice_parses [3] rfl, practice_free rfl rfl, rfl,
    rfl⟩, practice_accepts rfl sized [1] rfl rfl, practice_accepts rfl sized [3] rfl rfl⟩
  intro message signature publicKey verified
  simp only [signedHost, practiceHost, Bool.and_eq_true, beq_iff_eq] at verified
  exact verified.1.1

end Decoy

end Binding

end SpaceDataModule.Bundle
