import Mathlib.Data.Nat.Log
import Mathlib.Tactic.Positivity
import SpaceDataModule.JavaScript

/-! Doubles: the 64 bits that a number is stored as, and the double that is nearest to an
integer. -/
namespace JavaScript

namespace Number

/-- The magnitude of a finite double, counted in the smallest one, 2 to the -1074. -/
def units (exponent fraction : Nat) : Nat :=
  if exponent = 0 then fraction else (2 ^ 52 + fraction) * 2 ^ (exponent - 1)

def ofFields (negative : Bool) (exponent fraction : Nat) : Number :=
  if exponent = 2047 then if fraction = 0 then .infinity negative else .nan
  else .finite ((if negative then -1 else 1) * units exponent fraction / 2 ^ 1074)

/-- `getFloat64`: the sign, eleven bits of exponent and the fraction. -/
def ofBits (bits : Nat) : Number :=
  ofFields (bits / 2 ^ 63 == 1) (bits / 2 ^ 52 % 2 ^ 11) (bits % 2 ^ 52)

/-- Exponent and fraction of a magnitude that a double has. -/
def magnitudeBits (units : Nat) : Nat :=
  (units.log2 - 52) * 2 ^ 52 + units / 2 ^ (units.log2 - 52)

/-- `setFloat64` of a double. -/
def toBits : Number → Nat
  | .nan => 0x7FF8000000000000
  | .infinity negative => (if negative then 2 ^ 63 else 0) + 0x7FF0000000000000
  | .finite value => (if value < 0 then 2 ^ 63 else 0) + magnitudeBits (|value| * 2 ^ 1074).num.natAbs

theorem magnitudeBits_units (small : fraction < 2 ^ 52) :
    magnitudeBits (units exponent fraction) = exponent * 2 ^ 52 + fraction := by
  cases exponent with
  | zero =>
    have below : fraction.log2 - 52 = 0 := by
      by_cases zero : fraction = 0
      · rw [zero]
        decide
      · have := (Nat.log2_lt zero).mpr small
        omega
    simp [units, magnitudeBits, below]
  | succ exponent =>
    have top : ((2 ^ 52 + fraction) * 2 ^ exponent).log2 = 52 + exponent := by
      rw [Nat.log2_eq_iff (by positivity), Nat.pow_add, Nat.add_right_comm, Nat.pow_add]
      exact ⟨Nat.mul_le_mul_right _ (by omega),
        Nat.mul_lt_mul_of_pos_right (by omega) (by positivity)⟩
    rw [units, if_neg exponent.succ_ne_zero, Nat.add_sub_cancel, magnitudeBits, top,
      Nat.add_sub_cancel_left, Nat.mul_div_cancel _ (by positivity)]
    omega

theorem ofBits_fields (negative : Bool) (exponent_lt : exponent < 2 ^ 11) (fraction_lt : fraction < 2 ^ 52) :
    ofBits ((if negative = true then 2 ^ 63 else 0) + (exponent * 2 ^ 52 + fraction)) =
      ofFields negative exponent fraction := by
  have sign : ((if negative = true then 2 ^ 63 else 0) + (exponent * 2 ^ 52 + fraction)) / 2 ^ 63 =
      if negative = true then 1 else 0 := by
    split_ifs <;> omega
  rw [ofBits, sign]
  congr 1
  · cases negative <;> rfl
  · split_ifs <;> omega
  · split_ifs <;> omega

/-- A double is read back from the 64 bits it is stored as. -/
theorem ofBits_toBits (bits : Nat) :
    toBits (ofBits bits) < 2 ^ 64 ∧ ofBits (toBits (ofBits bits)) = ofBits bits := by
  have fraction_lt := Nat.mod_lt bits (Nat.two_pow_pos 52)
  have exponent_lt := Nat.mod_lt (bits / 2 ^ 52) (Nat.two_pow_pos 11)
  rw [ofBits.eq_1 bits]
  revert fraction_lt exponent_lt
  generalize bits % 2 ^ 52 = fraction, bits / 2 ^ 52 % 2 ^ 11 = exponent,
    (bits / 2 ^ 63 == 1) = negative
  intro fraction_lt exponent_lt
  by_cases special : exponent = 2047
  · cases negative <;> by_cases whole : fraction = 0 <;>
      simp [ofFields, special, whole, toBits, ofBits]
  rw [ofFields, if_neg special, toBits]
  generalize size : units exponent fraction = count
  have scale : (0 : ℚ) < 2 ^ 1074 := by positivity
  -- The two zeros are one value, so the sign is only known of the others.
  have sign : ((if negative = true then -1 else 1) * (count : ℚ) / 2 ^ 1074 < 0) ↔
      negative = true ∧ count ≠ 0 := by
    rw [div_lt_iff₀ scale, zero_mul]
    cases negative <;> simp [Nat.pos_iff_ne_zero]
  have magnitude : |(if negative = true then -1 else 1) * (count : ℚ) / 2 ^ 1074| * 2 ^ 1074 =
      (count : ℚ) := by
    rw [abs_div, abs_of_pos scale, div_mul_cancel₀ _ scale.ne']
    cases negative <;> simp
  rw [magnitude, if_congr sign rfl rfl, Rat.num_natCast, Int.natAbs_natCast, ← size,
    magnitudeBits_units fraction_lt]
  refine ⟨by split_ifs <;> omega, ?_⟩
  by_cases zero : units exponent fraction = 0
  · have unsigned := ofBits_fields false exponent_lt fraction_lt
    simpa [ofFields, special, zero] using unsigned
  · have signed := ofBits_fields negative exponent_lt fraction_lt
    simpa [ofFields, special, zero] using signed

end Number

section Rounding

/-- `Number` of a BigInt that is not negative: the nearest double, the even one of two. -/
def nearestDouble (value : Nat) : Nat :=
  let unit := 2 ^ (value.log2 - 52)
  let below := value / unit
  let rest := 2 * (value % unit)
  (if unit < rest ∨ unit = rest ∧ below % 2 = 1 then below + 1 else below) * unit

theorem nearestDouble_of_dvd (whole : 2 ^ (value.log2 - 52) ∣ value) :
    nearestDouble value = value := by
  rw [nearestDouble, Nat.mod_eq_zero_of_dvd whole, if_neg (by simp), Nat.div_mul_cancel whole]

theorem nearestDouble_of_lt (small : value < 2 ^ 53) : nearestDouble value = value := by
  apply nearestDouble_of_dvd
  by_cases zero : value = 0
  · rw [zero]
    exact Nat.dvd_zero _
  · have low : value.log2 - 52 = 0 := by
      have := (Nat.log2_lt zero).mpr small
      omega
    rw [low]
    exact Nat.one_dvd _

/-- A double has at most 53 binary digits, or is the power of two behind them. -/
theorem nearestDouble_eq (value : Nat) : ∃ digits, digits ≤ 2 ^ 53 ∧
    nearestDouble value = digits * 2 ^ (value.log2 - 52) := by
  have top : value / 2 ^ (value.log2 - 52) < 2 ^ 53 := by
    rw [Nat.div_lt_iff_lt_mul (Nat.two_pow_pos _), ← Nat.pow_add]
    exact Nat.lt_of_lt_of_le Nat.lt_log2_self (Nat.pow_le_pow_right (by decide) (by omega))
  refine ⟨_, ?_, rfl⟩
  split_ifs <;> omega

theorem nearestDouble_idem (value : Nat) :
    nearestDouble (nearestDouble value) = nearestDouble value := by
  obtain ⟨digits, few, same⟩ := nearestDouble_eq value
  rw [same]
  generalize value.log2 - 52 = places
  apply nearestDouble_of_dvd
  rcases Nat.lt_or_eq_of_le few with few | rfl
  · by_cases zero : digits = 0
    · simp [zero]
    · refine Nat.dvd_mul_left_of_dvd (Nat.pow_dvd_pow 2 ?_) digits
      have bound : (digits * 2 ^ places).log2 < 53 + places := by
        rw [Nat.log2_lt (by positivity), Nat.pow_add]
        exact Nat.mul_lt_mul_of_pos_right few (Nat.two_pow_pos _)
      omega
  · rw [← Nat.pow_add, Nat.log2_two_pow]
    exact Nat.pow_dvd_pow 2 (by omega)

theorem nearestDouble_le (small : value < 2 ^ 64) : nearestDouble value ≤ 2 ^ 64 := by
  obtain ⟨digits, few, same⟩ := nearestDouble_eq value
  have places : value.log2 - 52 ≤ 11 := by
    by_cases zero : value = 0
    · rw [zero]
      decide
    · have := (Nat.log2_lt zero).mpr small
      omega
  calc nearestDouble value = digits * 2 ^ (value.log2 - 52) := same
    _ ≤ 2 ^ 53 * 2 ^ 11 := Nat.mul_le_mul few (Nat.pow_le_pow_right (by decide) places)
    _ = 2 ^ 64 := by rw [← Nat.pow_add]

/-- An integer comes back from 64 bits exactly when it is a double in their range. -/
theorem nearestDouble_ofInt_iff (value : Int) :
    (nearestDouble (UInt64.ofInt value).toNat : Int) = value ↔
      value < 2 ^ 64 ∧ (nearestDouble value.toNat : Int) = value := by
  have stored : (UInt64.ofInt value).toNat = (value % 2 ^ 64).toNat := by
    rw [UInt64.ofInt, UInt64.toNat_ofNat']
    omega
  rw [stored]
  constructor
  · intro same
    have bound := @nearestDouble_le (value % 2 ^ 64).toNat (by omega)
    have small : value < 2 ^ 64 := by
      by_contra large
      obtain rfl : value = 2 ^ 64 := by omega
      exact absurd same (by decide)
    refine ⟨small, ?_⟩
    rwa [Int.emod_eq_of_lt (by omega) small] at same
  · rintro ⟨small, same⟩
    rwa [Int.emod_eq_of_lt (by omega) small]

end Rounding

end JavaScript
