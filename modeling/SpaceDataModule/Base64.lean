import Mathlib.Data.List.Basic

/-! Base64 with padding, and a decoder that also takes the alphabet for URLs. -/
namespace Base64

def alphabet : List Char :=
  "ABCDEFGHIJKLMNOPQRSTUVWXYZabcdefghijklmnopqrstuvwxyz0123456789+/".toList

def digit (value : Nat) : Char := alphabet.getD value '='

def digitValue (c : Char) : Option Nat :=
  if c = '-' then some 62
  else if c = '_' then some 63
  else alphabet.findIdx? (· == c)

def sextets : List UInt8 → List Nat
  | [] => []
  | [a] => [a.toNat / 4, a.toNat % 4 * 16]
  | [a, b] => [a.toNat / 4, a.toNat % 4 * 16 + b.toNat / 16, b.toNat % 16 * 4]
  | a :: b :: c :: rest =>
    a.toNat / 4 :: (a.toNat % 4 * 16 + b.toNat / 16) :: (b.toNat % 16 * 4 + c.toNat / 64) ::
      c.toNat % 64 :: sextets rest

/-- A group of fewer than two values makes no byte. -/
def octets : List Nat → List UInt8
  | p :: q :: r :: s :: rest =>
    UInt8.ofNat (p * 4 + q / 16) :: UInt8.ofNat (q % 16 * 16 + r / 4) ::
      UInt8.ofNat (r % 4 * 64 + s) :: octets rest
  | [p, q, r] => [UInt8.ofNat (p * 4 + q / 16), UInt8.ofNat (q % 16 * 16 + r / 4)]
  | [p, q] => [UInt8.ofNat (p * 4 + q / 16)]
  | _ => []

def padding (length : Nat) : List Char := List.replicate ((3 - length % 3) % 3) '='

def encode (bytes : List UInt8) : List Char :=
  (sextets bytes).map digit ++ padding bytes.length

/-- Characters outside both alphabets are passed over. -/
def decode (text : List Char) : List UInt8 :=
  octets ((text.takeWhile (· != '=')).filterMap digitValue)

theorem digitValue_digit (small : value < 64) : digitValue (digit value) = some value := by
  have every : ∀ value < 64, digitValue (digit value) = some value := by decide +kernel
  exact every value small

theorem digit_mem (small : value < 64) : digit value ∈ alphabet := by
  have every : ∀ value < 64, digit value ∈ alphabet := by decide +kernel
  exact every value small

section
variable (bytes : List UInt8)

theorem sextets_lt : ∀ value ∈ sextets bytes, value < 64 := by
  induction bytes using sextets.induct with
  | case1 => nofun
  | case2 a =>
    have := a.toNat_lt
    simp only [sextets, List.forall_mem_cons]
    refine ⟨?_, ?_, nofun⟩ <;> omega
  | case3 a b =>
    have := a.toNat_lt
    have := b.toNat_lt
    simp only [sextets, List.forall_mem_cons]
    refine ⟨?_, ?_, ?_, nofun⟩ <;> omega
  | case4 a b c rest ih =>
    have := a.toNat_lt
    have := b.toNat_lt
    have := c.toNat_lt
    simp only [sextets, List.forall_mem_cons]
    refine ⟨?_, ?_, ?_, ?_, ih⟩ <;> omega

theorem octets_sextets : octets (sextets bytes) = bytes := by
  have byte (value : UInt8) {n : Nat} (same : n = value.toNat) : UInt8.ofNat n = value := by
    rw [same, UInt8.ofNat_toNat]
  induction bytes using sextets.induct with
  | case1 => rfl
  | case2 a =>
    rw [sextets, octets, byte a (by omega)]
  | case3 a b =>
    have := b.toNat_lt
    rw [sextets, octets, byte a (by omega), byte b (by omega)]
  | case4 a b c rest ih =>
    have := b.toNat_lt
    have := c.toNat_lt
    rw [sextets, octets, ih, byte a (by omega), byte b (by omega),
      byte c (by omega)]

theorem decode_encode : decode (encode bytes) = bytes := by
  have small := sextets_lt bytes
  have plain : ∀ c ∈ (sextets bytes).map digit, (c != '=') = true := by
    intro c member
    obtain ⟨value, listed, rfl⟩ := List.mem_map.mp member
    have inside := digit_mem (small value listed)
    have every : ∀ c ∈ alphabet, (c != '=') = true :=
      List.forall_iff_forall_mem.mp (by decide +kernel)
    exact every _ inside
  have body : (encode bytes).takeWhile (· != '=') = (sextets bytes).map digit := by
    rw [encode, List.takeWhile_append_of_pos plain, padding]
    simp
  have values : ((sextets bytes).map digit).filterMap digitValue = sextets bytes := by
    rw [List.filterMap_map]
    refine (List.filterMap_congr fun value listed => ?_).trans List.filterMap_some
    exact digitValue_digit (small value listed)
  rw [decode, body, values, octets_sextets]

theorem length_encode :
    (encode bytes).length = 4 * ((bytes.length + 2) / 3) := by
  rw [encode, padding, List.length_append, List.length_map, List.length_replicate]
  induction bytes using sextets.induct with
  | case1 => rfl
  | case2 a => simp [sextets]
  | case3 a b => simp [sextets]
  | case4 a b c rest ih =>
    simp only [sextets, List.length_cons]
    omega

end

theorem mem_encode (member : c ∈ encode bytes) : c ∈ '=' :: alphabet := by
  rcases List.mem_append.mp member with body | filling
  · obtain ⟨value, listed, rfl⟩ := List.mem_map.mp body
    exact List.mem_cons_of_mem _ (digit_mem (sextets_lt bytes value listed))
  · rw [List.eq_of_mem_replicate filling]
    exact List.mem_cons_self

end Base64
