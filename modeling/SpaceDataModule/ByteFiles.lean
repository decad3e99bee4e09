import Mathlib.Data.List.GetD
import Mathlib.Logic.Function.Basic
import Mathlib.Tactic.SplitIfs

/-! File contents as byte lists, with holes that read as zeros, and byte memories
under sequences of stores. -/
namespace ByteFiles

abbrev Bytes := List UInt8

section Contents

def byteAt (content : Bytes) (i : Nat) : UInt8 := content.getD i 0

def resize (content : Bytes) (size : Nat) : Bytes :=
  content.take size ++ List.replicate (size - content.length) 0

/-- The content after a write at an offset; a gap before it is filled with zeros. -/
def writeAt (content : Bytes) (offset : Nat) (bytes : Bytes) : Bytes :=
  if bytes = [] then content
  else resize content offset ++ bytes ++ content.drop (offset + bytes.length)

def readAt (content : Bytes) (offset length : Nat) : Bytes := (content.drop offset).take length

theorem byteAt_append :
    byteAt (front ++ back) i =
      if i < front.length then byteAt front i else byteAt back (i - front.length) := by
  split_ifs with inside
  · exact List.getD_append _ _ _ _ inside
  · exact List.getD_append_right _ _ _ _ (Nat.le_of_not_lt inside)

theorem byteAt_take (inside : i < count) : byteAt (content.take count) i = byteAt content i := by
  simp only [byteAt, List.getD_eq_getElem?_getD, List.getElem?_take_of_lt inside]

theorem byteAt_drop : byteAt (content.drop count) i = byteAt content (count + i) := by
  simp only [byteAt, List.getD_eq_getElem?_getD, List.getElem?_drop]

theorem byteAt_of_length_le (past : content.length ≤ i) : byteAt content i = 0 :=
  List.getD_eq_default _ _ past

theorem byteAt_replicate : byteAt (List.replicate count 0) i = 0 := by
  by_cases inside : i < count
  · exact List.getD_replicate _ inside
  · apply byteAt_of_length_le
    rwa [List.length_replicate, ← Nat.not_lt]

theorem length_resize : (resize content size).length = size := by
  simp only [resize, List.length_append, List.length_take, List.length_replicate]
  omega

theorem byteAt_resize :
    byteAt (resize content size) i = if i < size then byteAt content i else 0 := by
  unfold resize
  rw [byteAt_append, List.length_take, byteAt_replicate]
  split_ifs with kept within within
  · exact byteAt_take within
  · omega
  · rw [byteAt_of_length_le (by omega)]
  · rfl

theorem length_writeAt :
    (writeAt content offset bytes).length =
      if bytes = [] then content.length else max content.length (offset + bytes.length) := by
  unfold writeAt
  split_ifs
  · rfl
  · simp only [List.length_append, length_resize, List.length_drop]
    omega

theorem byteAt_writeAt :
    byteAt (writeAt content offset bytes) i =
      if offset ≤ i ∧ i < offset + bytes.length then byteAt bytes (i - offset)
      else byteAt content i := by
  unfold writeAt
  split_ifs with empty within within
  · subst empty
    exact absurd within.2 (Nat.not_lt_of_le within.1)
  · rfl
  · rw [byteAt_append, List.length_append, length_resize, if_pos within.2, byteAt_append,
      length_resize, if_neg (Nat.not_lt_of_le within.1)]
  · rw [byteAt_append, List.length_append, length_resize]
    split_ifs with early
    · rw [byteAt_append, length_resize, if_pos (by omega), byteAt_resize, if_pos (by omega)]
    · rw [byteAt_drop, Nat.add_sub_of_le (Nat.le_of_not_lt early)]

theorem ext_byteAt (length : first.length = second.length)
    (bytes : ∀ i < second.length, byteAt first i = byteAt second i) : first = second := by
  apply List.ext_getElem length
  intro i inFirst inSecond
  have same := bytes i inSecond
  rwa [byteAt, byteAt, List.getD_eq_getElem _ _ inFirst, List.getD_eq_getElem _ _ inSecond] at same

/-- A read inside the file, byte by byte. -/
theorem map_byteAt_range (inside : offset + count ≤ content.length) :
    (List.range count).map (fun k => byteAt content (offset + k)) = readAt content offset count := by
  apply List.ext_getElem
  · simp only [readAt, List.length_map, List.length_range, List.length_take, List.length_drop]
    omega
  · intro i _ within
    simp only [readAt, List.getElem_map, List.getElem_range, List.getElem_take, List.getElem_drop]
    apply List.getD_eq_getElem

theorem readAt_min :
    readAt content offset (min length (content.length - offset)) = readAt content offset length := by
  rw [← List.length_drop]
  exact List.take_eq_take_min.symm

end Contents

section Stores

abbrev Store := Nat × UInt8

def apply (stores : List Store) (memory : Nat → UInt8) : Nat → UInt8 :=
  stores.foldl (fun memory store => Function.update memory store.1 store.2) memory

def placing (offset : Nat) : Bytes → List Store
  | [] => []
  | byte :: bytes => (offset, byte) :: placing (offset + 1) bytes

def filling (first stop : Nat) : List Store := placing first (List.replicate (stop - first) 0)

variable {memory : Nat → UInt8}

theorem apply_append :
    apply (front ++ back) memory = apply back (apply front memory) :=
  List.foldl_append

theorem apply_placing :
    apply (placing offset bytes) memory i =
      if offset ≤ i ∧ i < offset + bytes.length then byteAt bytes (i - offset) else memory i := by
  induction bytes generalizing offset memory with
  | nil => exact (if_neg fun within => absurd within.2 (Nat.not_lt_of_le within.1)).symm
  | cons byte bytes ih =>
    change apply (placing (offset + 1) bytes) (Function.update memory offset byte) i = _
    rw [ih, List.length_cons]
    rcases Nat.lt_trichotomy i offset with before | rfl | after
    · rw [if_neg (by omega), if_neg (by omega), Function.update_of_ne (Nat.ne_of_lt before)]
    · rw [if_neg (by omega), if_pos (by omega), Function.update_self, Nat.sub_self]
      rfl
    · obtain ⟨k, rfl⟩ : ∃ k, i = offset + 1 + k := Nat.exists_eq_add_of_le after
      rw [show offset + 1 + k - (offset + 1) = k by omega,
        show offset + 1 + k - offset = k + 1 by omega,
        Function.update_of_ne (Nat.ne_of_gt after)]
      by_cases within : k < bytes.length
      · rw [if_pos (by omega), if_pos (by omega)]
        rfl
      · rw [if_neg (by omega), if_neg (by omega)]

theorem apply_filling :
    apply (filling first stop) memory i = if first ≤ i ∧ i < stop then 0 else memory i := by
  rw [filling, apply_placing, List.length_replicate, byteAt_replicate]
  by_cases within : first ≤ i ∧ i < stop
  · rw [if_pos within, if_pos (by omega)]
  · rw [if_neg within, if_neg (by omega)]

end Stores
end ByteFiles
