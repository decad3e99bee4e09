import SpaceDataModule.Transport.Decoded

/-! Two ways to take a trailer off. The host of a flow runtime goes by the footer alone, the
verifier of a signature takes off only what decodes as a record collection. -/
namespace SpaceDataModule.Transport
open Bundle (Bytes)
open FlatBuffers hiding Bytes

section Definitions
variable (platform : Platform)

/-- The length in the footer, put together with shifts. -/
def recLength (bytes : Bytes) (footer : Nat) : Nat :=
  (byte bytes footer ||| byte bytes (footer + 1) <<< 8 ||| byte bytes (footer + 2) <<< 16 |||
    byte bytes (footer + 3) <<< 24) % 2 ^ 32

/-- `stripPublicationTrailer` of the flow runtime host. -/
def stripPublicationTrailer (bytes : Bytes) : Bytes :=
  if bytes.length < 8 then bytes
  else
    let footer := bytes.length - 8
    if bytes.drop (footer + 4) = [0x24, 0x52, 0x45, 0x43] then
      if recLength bytes footer = 0 ∨ footer < recLength bytes footer then bytes
      else bytes.take (footer - recLength bytes footer)
    else bytes

def stripPublicationRecordCollection (bytes : Bytes) : Bytes :=
  ((extractPublicationRecordCollection platform bytes).map (·.payloadBytes)).getD bytes

end Definitions

section Agreement

theorem byte_lt (bytes : Bytes) (offset : Nat) : byte bytes offset < 2 ^ 8 :=
  (bytes.getD offset 0).toNat_lt

theorem recLength_eq (bytes : Bytes) (footer : Nat) : recLength bytes footer = uint32 bytes footer := by
  have first := byte_lt bytes footer
  have second := byte_lt bytes (footer + 1)
  have third := byte_lt bytes (footer + 2)
  have fourth := byte_lt bytes (footer + 3)
  have low : byte bytes footer ||| byte bytes (footer + 1) <<< 8 =
      byte bytes (footer + 1) * 2 ^ 8 + byte bytes footer := by
    rw [Nat.or_comm, ← Nat.shiftLeft_add_eq_or_of_lt first, Nat.shiftLeft_eq]
  have middle : byte bytes footer ||| byte bytes (footer + 1) <<< 8 |||
      byte bytes (footer + 2) <<< 16 = byte bytes (footer + 2) * 2 ^ 16 +
        (byte bytes (footer + 1) * 2 ^ 8 + byte bytes footer) := by
    rw [low, Nat.or_comm, ← Nat.shiftLeft_add_eq_or_of_lt (by omega), Nat.shiftLeft_eq]
  rw [recLength, Nat.or_comm, ← Nat.shiftLeft_add_eq_or_of_lt (by omega), uint32, uint16, uint16,
    show footer + 2 + 1 = footer + 3 from rfl]
  omega

/-- The host strips by the footer that the verifier reads. -/
theorem stripPublicationTrailer_eq (bytes : Bytes) : stripPublicationTrailer bytes =
    match readFooterLength bytes with
    | none => bytes
    | some length =>
      if length = 0 ∨ bytes.length - 8 < length then bytes
      else bytes.take (bytes.length - 8 - length) := by
  rw [stripPublicationTrailer, readFooterLength]
  by_cases short : bytes.length < 8
  · rw [if_pos short, if_pos short]
  · have footer : bytes.length - 8 + 4 = bytes.length - 4 := by omega
    have magic : trailerMagic = [0x24, 0x52, 0x45, 0x43] := by decide
    rw [if_neg short, if_neg short, magic]
    dsimp only
    rw [footer]
    by_cases marked : bytes.drop (bytes.length - 4) = [0x24, 0x52, 0x45, 0x43]
    · rw [if_pos marked, if_pos marked, recLength_eq]
    · rw [if_neg marked, if_neg marked]

def collectionBytes (bytes : Bytes) (length : Nat) : Bytes :=
  (bytes.drop (bytes.length - 8 - length)).take length

theorem stripPublicationRecordCollection_eq (footer : readFooterLength bytes = some length)
    (fits : length ≤ bytes.length - 8) :
    stripPublicationRecordCollection platform bytes =
      match decodePublicationRecordCollection platform (collectionBytes bytes length) with
      | .ok _ => bytes.take (bytes.length - 8 - length)
      | .error _ => bytes := by
  rw [stripPublicationRecordCollection, extractPublicationRecordCollection, footer]
  simp only [Option.bind_eq_bind, Option.bind_some, Nat.not_lt.mpr fits]
  rw [collectionBytes]
  cases decodePublicationRecordCollection platform
      ((bytes.drop (bytes.length - 8 - length)).take length) with
  | error failure => rfl
  | ok decoded => rfl

/-- The two agree on the bytes without a footer, on those whose footer cannot be followed, and on
those where what it calls a record collection decodes; on no others. -/
theorem strippers_agree_iff (bytes : Bytes) :
    stripPublicationTrailer bytes = stripPublicationRecordCollection platform bytes ↔
      ∀ length, readFooterLength bytes = some length →
        length = 0 ∨ bytes.length - 8 < length ∨
          ∃ collection, decodePublicationRecordCollection platform (collectionBytes bytes length) =
            .ok collection := by
  rw [stripPublicationTrailer_eq]
  cases footer : readFooterLength bytes with
  | none =>
    refine ⟨fun _ => by simp, fun _ => ?_⟩
    rw [stripPublicationRecordCollection, extractPublicationRecordCollection, footer]
    rfl
  | some length =>
    have one : (∀ other, some length = some other → other = 0 ∨ bytes.length - 8 < other ∨
        ∃ collection, decodePublicationRecordCollection platform (collectionBytes bytes other) =
          .ok collection) ↔ length = 0 ∨ bytes.length - 8 < length ∨
        ∃ collection, decodePublicationRecordCollection platform (collectionBytes bytes length) =
          .ok collection := by
      simp only [Option.some.injEq, forall_eq']
    rw [one]
    dsimp only
    by_cases long : bytes.length - 8 < length
    · refine ⟨fun _ => .inr (.inl long), fun _ => ?_⟩
      rw [stripPublicationRecordCollection, extractPublicationRecordCollection, footer]
      simp [long]
    · have fits := Nat.not_lt.mp long
      rw [stripPublicationRecordCollection_eq footer fits]
      cases decoded : decodePublicationRecordCollection platform (collectionBytes bytes length) with
      | ok collection =>
        have filled : length ≠ 0 := by
          rintro rfl
          rw [show collectionBytes bytes 0 = [] from List.take_zero] at decoded
          exact absurd (identifier_of_decoded decoded) (by decide)
        refine ⟨fun _ => .inr (.inr ⟨collection, rfl⟩), fun _ => ?_⟩
        rw [if_neg (by omega)]
      | error failure =>
        dsimp only
        by_cases empty : length = 0
        · exact ⟨fun _ => .inl empty, fun _ => if_pos (.inl empty)⟩
        · rw [if_neg (by omega)]
          constructor
          · intro same
            have lengths := congrArg List.length same
            rw [List.length_take] at lengths
            omega
          · rintro (zero | beyond | ⟨_, other⟩)
            · exact absurd zero empty
            · exact absurd beyond long
            · cases other

/-- One byte and a footer that calls it a record collection: the host takes off all nine bytes, the
verifier none. -/
theorem unread_trailer_stripped :
    stripPublicationTrailer [0, 1, 0, 0, 0, 36, 82, 69, 67] = [] ∧
      ∀ platform, stripPublicationRecordCollection platform [0, 1, 0, 0, 0, 36, 82, 69, 67] =
        [0, 1, 0, 0, 0, 36, 82, 69, 67] := by
  refine ⟨by decide, fun platform => ?_⟩
  cases decoded : decodePublicationRecordCollection platform
      (collectionBytes [0, 1, 0, 0, 0, 36, 82, 69, 67] 1) with
  | error failure => rfl
  | ok collection => exact absurd (identifier_of_decoded decoded) (by decide)

end Agreement
end SpaceDataModule.Transport
