import Mathlib.Data.List.Nodup

/-!
# Counted numbers

Counters of 64 bits give out their numbers from zero on, and begin again behind the last one. So the
number that comes after `given` others is `UInt64.ofNat given`, and it tells them apart as long as
there were no more of them than there are numbers of 64 bits.
-/

namespace Highlight

/-- A number is below the count of those given out with it. -/
theorem toNat_ofNat_lt_succ (given : Nat) : (UInt64.ofNat given).toNat < given + 1 := by
  rw [UInt64.toNat_ofNat']
  exact Nat.lt_succ_of_le (Nat.mod_le ..)

/-- As long as there are numbers left, the next one is new. -/
theorem ne_ofNat_of_toNat_lt {number : UInt64} {given : Nat} (hlt : number.toNat < given)
    (hroom : given < UInt64.size) : number ≠ .ofNat given := by
  rintro rfl
  rw [UInt64.toNat_ofNat_of_lt' hroom] at hlt
  exact Nat.lt_irrefl given hlt

theorem nodup_map_ofNat_range {given : Nat} (hroom : given ≤ UInt64.size) :
    ((List.range given).map UInt64.ofNat).Nodup := by
  refine List.nodup_range.map_on fun a ha b hb heq => ?_
  have hsame := congrArg UInt64.toNat heq
  rwa [UInt64.toNat_ofNat_of_lt' (Nat.lt_of_lt_of_le (List.mem_range.mp ha) hroom),
    UInt64.toNat_ofNat_of_lt' (Nat.lt_of_lt_of_le (List.mem_range.mp hb) hroom)] at hsame

end Highlight
