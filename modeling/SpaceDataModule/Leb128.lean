import Mathlib.Data.Nat.Basic
import Mathlib.Tactic.Ring

/-! Unsigned LEB128, with a bound on the number of bytes a decoder reads. -/
namespace Leb128

def encode (value : Nat) : List UInt8 :=
  if value < 128 then [UInt8.ofNat value]
  else UInt8.ofNat (value % 128 + 128) :: encode (value / 128)
termination_by value
decreasing_by omega

/-- The value of at most `limit` bytes, and the bytes behind it. -/
def decode : (limit : Nat) → List UInt8 → Option (Nat × List UInt8)
  | 0, _ => none
  | _, [] => none
  | limit + 1, byte :: rest =>
    if byte.toNat < 128 then some (byte.toNat, rest)
    else (decode limit rest).map fun (value, rest) => (byte.toNat % 128 + 128 * value, rest)

theorem decode_encode (small : value < 128 ^ limit) (positive : 0 < limit) (rest : List UInt8) :
    decode limit (encode value ++ rest) = some (value, rest) := by
  induction limit generalizing value with
  | zero => cases positive
  | succ limit ih =>
    rw [encode]
    by_cases last : value < 128
    · have byte : (UInt8.ofNat value).toNat = value := by
        rw [UInt8.toNat_ofNat']
        omega
      rw [if_pos last, List.singleton_append, decode, byte, if_pos last]
    · have byte : (UInt8.ofNat (value % 128 + 128)).toNat = value % 128 + 128 := by
        rw [UInt8.toNat_ofNat']
        omega
      have shorter : value / 128 < 128 ^ limit := by
        rw [Nat.div_lt_iff_lt_mul (by decide)]
        rwa [pow_succ] at small
      have more : 0 < limit := by
        rcases Nat.eq_zero_or_pos limit with rfl | more
        · omega
        · exact more
      have whole : (value % 128 + 128) % 128 + 128 * (value / 128) = value := by omega
      rw [if_neg last, List.cons_append, decode, byte, if_neg (by omega), ih shorter more,
        Option.map_some]
      simp only [whole]

/-- A decoder reads a part of its input, and that part alone decides what it reads. -/
theorem decode_consumes (decoded : decode limit bytes = some (value, rest)) :
    ∃ consumed, bytes = consumed ++ rest ∧
      consumed ≠ [] ∧ ∀ other, decode limit (consumed ++ other) = some (value, other) := by
  induction limit generalizing value bytes with
  | zero => cases decoded
  | succ limit ih =>
    cases bytes with
    | nil => cases decoded
    | cons byte bytes =>
      rw [decode] at decoded
      split_ifs at decoded with last
      · cases decoded
        refine ⟨[byte], rfl, nofun, fun other => ?_⟩
        rw [List.singleton_append, decode, if_pos last]
      · obtain ⟨⟨inner, after⟩, found, same⟩ := Option.map_eq_some_iff.mp decoded
        cases same
        obtain ⟨consumed, rfl, -, determined⟩ := ih found
        refine ⟨byte :: consumed, rfl, nofun, fun other => ?_⟩
        rw [List.cons_append, decode, if_neg last, determined, Option.map_some]

/-- A decoder stops at the first byte without the continuation bit. -/
theorem decode_length_le (decoded : decode limit bytes = some (value, rest))
    (found : bytes[index]? = some byte) (last : byte.toNat < 128) :
    bytes.length ≤ rest.length + index + 1 := by
  induction limit generalizing value index bytes with
  | zero => cases decoded
  | succ limit ih =>
    cases bytes with
    | nil => cases decoded
    | cons first bytes =>
      rw [decode] at decoded
      split_ifs at decoded with ends
      · cases decoded
        simp
      · obtain ⟨⟨inner, after⟩, decoded, same⟩ := Option.map_eq_some_iff.mp decoded
        cases same
        cases index with
        | zero =>
          cases found
          exact absurd last ends
        | succ index =>
          have shorter := ih decoded found
          rw [List.length_cons]
          omega

end Leb128
