import SpaceDataModule.FlatsqlIo.Contract

/-! Which of several providers `flatsql_io_open` asks. The bytes of a path are hashed as the guest
gives them; what they name is worked out later, by the provider. -/
namespace SpaceDataModule.FlatsqlIo

def hashFlatsqlIoPath (bytes : ByteArray) : UInt32 :=
  bytes.data.toList.foldl (fun hash byte => (hash ^^^ byte.toUInt32) * 0x01000193) 0x811c9dc5

/-- The index of the provider that `flatsql_io_open` asks. -/
def routeOpen (providers : Nat) (bytes : ByteArray) : Nat :=
  if 1 < providers then (hashFlatsqlIoPath bytes).toNat % providers else 0

def Names (bytes : ByteArray) (components : List String) : Prop :=
  (decodeFlatsqlIoPath bytes).bind splitFlatsqlIoPath = .ok components
  deriving Decidable

/-- Where hashes go to one provider, their difference is a multiple of the number of providers. -/
theorem dvd_sub_of_routeOpen (several : 1 < providers)
    (same : routeOpen providers first = routeOpen providers second) :
    providers ∣ (hashFlatsqlIoPath first).toNat - (hashFlatsqlIoPath second).toNat := by
  simp only [routeOpen, several] at same
  exact Nat.dvd_of_mod_eq_zero (Nat.sub_mod_eq_zero_of_mod_eq same)

/-- All spellings of a path go to one provider only where there is no other. -/
theorem one_worker_iff (providers : Nat) :
    (∀ first second components, Names first components → Names second components →
      routeOpen providers first = routeOpen providers second) ↔ providers ≤ 1 := by
  constructor
  · intro together
    by_contra several
    -- the hashes of three spellings differ by numbers that have no common divisor
    have slash := dvd_sub_of_routeOpen (Nat.lt_of_not_le several)
      (together "a".toUTF8 "/a".toUTF8 ["a"] (by decide) (by decide))
    have trailing := dvd_sub_of_routeOpen (Nat.lt_of_not_le several)
      (together "a".toUTF8 "a/".toUTF8 ["a"] (by decide) (by decide))
    have one : providers ∣ 1 := (Nat.dvd_gcd slash trailing).trans (by decide)
    exact several (Nat.le_of_dvd Nat.one_pos one)
  · intro single first second _ _ _
    rw [routeOpen, routeOpen, if_neg (Nat.not_lt.mpr single), if_neg (Nat.not_lt.mpr single)]

/-- Of two providers, one is asked for `a` and the other for `/a`. -/
theorem spellings_split : Names "a".toUTF8 ["a"] ∧ Names "/a".toUTF8 ["a"] ∧
    routeOpen 2 "a".toUTF8 = 0 ∧ routeOpen 2 "/a".toUTF8 = 1 := by decide

end SpaceDataModule.FlatsqlIo
