import Mathlib.Data.List.Pairwise
import Mathlib.Tactic.Common
import SpaceDataModule.ByteFiles

/-! Extents laid out one behind the other in an arena, each on a multiple of its alignment, and
the arena once every extent is filled. -/
namespace ArenaLayout
open ByteFiles (Bytes byteAt writeAt readAt)

structure Extent where
  offset : Nat
  size : Nat
  alignment : Nat

/-- The extents stand between a start and a stop, in order, each aligned. -/
inductive Packed : Nat → List Extent → Nat → Prop where
  | nil (start : Nat) : Packed start [] start
  | cons {start stop : Nat} {extent : Extent} {extents : List Extent}
      (behind : start ≤ extent.offset) (aligned : extent.alignment ∣ extent.offset)
      (rest : Packed (extent.offset + extent.size) extents stop) :
      Packed start (extent :: extents) stop

namespace Packed

section
variable (packed : Packed start extents stop)
include packed

theorem start_le : start ≤ stop := by
  induction packed with
  | nil start => exact Nat.le_refl start
  | cons behind _ _ ih => omega

theorem within :
    ∀ extent ∈ extents, start ≤ extent.offset ∧ extent.offset + extent.size ≤ stop := by
  induction packed with
  | nil start => nofun
  | cons behind _ rest ih =>
    intro other listed
    rcases List.mem_cons.mp listed with rfl | listed
    · exact ⟨behind, rest.start_le⟩
    · obtain ⟨after, before⟩ := ih other listed
      omega

theorem aligned :
    ∀ extent ∈ extents, extent.alignment ∣ extent.offset := by
  induction packed with
  | nil start => nofun
  | cons _ aligned _ ih => exact List.forall_mem_cons.mpr ⟨aligned, ih⟩

theorem disjoint :
    extents.Pairwise fun first second => first.offset + first.size ≤ second.offset := by
  induction packed with
  | nil start => exact .nil
  | cons _ _ rest ih => exact .cons (fun other listed => (rest.within other listed).1) ih

end

end Packed

def fill (arena : Bytes) (blocks : List (Nat × Bytes)) : Bytes :=
  blocks.foldl (fun arena block => writeAt arena block.1 block.2) arena

section Filling
variable {arena : Bytes}

theorem length_fill (fits : ∀ block ∈ blocks, block.1 + block.2.length ≤ arena.length) :
    (fill arena blocks).length = arena.length := by
  induction blocks generalizing arena with
  | nil => rfl
  | cons block blocks ih =>
    obtain ⟨first, later⟩ := List.forall_mem_cons.mp fits
    have kept : (writeAt arena block.1 block.2).length = arena.length := by
      rw [ByteFiles.length_writeAt]
      split_ifs
      · rfl
      · omega
    exact (ih (fun other listed => kept ▸ later other listed)).trans kept

theorem byteAt_fill
    (outside : ∀ block ∈ blocks, index < block.1 ∨ block.1 + block.2.length ≤ index) :
    byteAt (fill arena blocks) index = byteAt arena index := by
  induction blocks generalizing arena with
  | nil => rfl
  | cons block blocks ih =>
    obtain ⟨first, later⟩ := List.forall_mem_cons.mp outside
    have kept := @ih (writeAt arena block.1 block.2) later
    rw [ByteFiles.byteAt_writeAt, if_neg (by omega)] at kept
    exact kept

/-- Blocks that do not overlap are read back. -/
theorem readAt_fill (fits : ∀ block ∈ blocks, block.1 + block.2.length ≤ arena.length)
    (apart : blocks.Pairwise fun first second => first.1 + first.2.length ≤ second.1) :
    ∀ block ∈ blocks, readAt (fill arena blocks) block.1 block.2.length = block.2 := by
  induction blocks generalizing arena with
  | nil => nofun
  | cons block blocks ih =>
    obtain ⟨first, later⟩ := List.forall_mem_cons.mp fits
    obtain ⟨before, apart⟩ := List.pairwise_cons.mp apart
    have length : (writeAt arena block.1 block.2).length = arena.length := by
      have all := @length_fill arena [block] (List.forall_mem_singleton.mpr first)
      exact all
    have fits : ∀ other ∈ blocks,
        other.1 + other.2.length ≤ (writeAt arena block.1 block.2).length := by
      rw [length]
      exact later
    refine List.forall_mem_cons.mpr ⟨?_, ih fits apart⟩
    have whole : (fill arena (block :: blocks)).length = arena.length :=
      (length_fill fits).trans length
    rw [← ByteFiles.map_byteAt_range (whole.symm ▸ first)]
    apply ByteFiles.ext_byteAt
    · rw [List.length_map, List.length_range]
    · intro index inside
      have kept := @byteAt_fill (writeAt arena block.1 block.2) blocks (block.1 + index)
        fun other listed => .inl (Nat.lt_of_lt_of_le (by omega) (before other listed))
      rw [ByteFiles.byteAt_writeAt, if_pos (by omega), Nat.add_sub_cancel_left] at kept
      rw [← kept, ByteFiles.byteAt, List.getD_eq_getElem _ _ (by simpa using inside),
        List.getElem_map, List.getElem_range]
      rfl

end Filling
end ArenaLayout
