import Highlight.Line.Token
import Mathlib.Algebra.Group.Nat.Defs
import Mathlib.Data.List.Chain

/-!
# Corrected starts never go back

A corrected start is the greater of the one before it and the reported one. The correction compares
signed numbers although it keeps unsigned ones, so this rests on an invariant: corrected starts are
below `2 ^ 63`, and as signed numbers they are what they are as unsigned ones.
-/

namespace Highlight

/-! ### One start -/

theorem toInt_toInt64 {start : UInt64} (hfits : start.toNat < 2 ^ 63) :
    start.toInt64.toInt = start.toNat := by
  have hsigned : start.toInt64.toInt = (start.toNat : Int).bmod (2 ^ 64) :=
    BitVec.toInt_eq_toNat_bmod start.toBitVec
  rw [hsigned]
  exact Int.bmod_eq_of_le (by omega) (by omega)

theorem toNat_toUInt64 {reported : Int64} (hnonneg : 0 ≤ reported.toInt) :
    reported.toUInt64.toNat = reported.toInt.toNat := by
  rw [Int64.toNat_toUInt64_of_le (Int64.le_iff_toInt_le.mpr hnonneg)]
  rfl

/-- A corrected start is the greater of the one before it and the reported one. -/
theorem toNat_correctedStart {previous : UInt64} (hfits : previous.toNat < 2 ^ 63)
    (reported : Int64) :
    (correctedStart previous reported).toNat = max previous.toNat reported.toInt.toNat := by
  have hprevious := toInt_toInt64 hfits
  unfold correctedStart
  -- `omega` compares the signed readings, which are exact here, with the unsigned starts
  by_cases hback : reported < previous.toInt64
  · have hlt := Int64.lt_iff_toInt_lt.mp hback
    rw [if_pos hback]
    omega
  · have hle : previous.toInt64.toInt ≤ reported.toInt := by
      rw [Int64.lt_iff_toInt_lt] at hback
      omega
    rw [if_neg hback, toNat_toUInt64 (by omega)]
    omega

/-- The number that is carried along at the start of a line. -/
theorem zero_fits : (0 : UInt64).toNat < 2 ^ 63 := by decide

theorem correctedStart_fits {previous : UInt64} (hfits : previous.toNat < 2 ^ 63)
    (reported : Int64) : (correctedStart previous reported).toNat < 2 ^ 63 := by
  have hreported := reported.toInt_lt
  rw [toNat_correctedStart hfits]
  omega

/-! ### All starts of a line -/

/-- The starts are at least `bound` and never decrease. -/
def StartsFrom (bound : Nat) (starts : List Nat) : Prop :=
  (bound :: starts).IsChain (· ≤ ·)

theorem StartsFrom.nil {bound : Nat} : StartsFrom bound [] :=
  List.isChain_singleton bound

theorem startsFrom_cons {bound start : Nat} {rest : List Nat} :
    StartsFrom bound (start :: rest) ↔ bound ≤ start ∧ StartsFrom start rest :=
  List.isChain_cons_cons

/-- The bound is a bound for every start, not only for the first one. -/
theorem StartsFrom.le {bound start : Nat} {starts : List Nat} (hstarts : StartsFrom bound starts)
    (hmem : start ∈ starts) : bound ≤ start :=
  (List.pairwise_cons.mp hstarts.pairwise).1 start hmem

theorem StartsFrom.weaken {bound lower : Nat} {starts : List Nat}
    (hstarts : StartsFrom bound starts) (hlower : lower ≤ bound) : StartsFrom lower starts := by
  cases starts with
  | nil => exact .nil
  | cons start rest =>
      obtain ⟨hbound, hrest⟩ := startsFrom_cons.mp hstarts
      exact startsFrom_cons.mpr ⟨Nat.le_trans hlower hbound, hrest⟩

def correctedStarts (tokens : List (UInt64 × RawToken)) : List Nat :=
  tokens.map fun token => token.1.toNat

theorem startsFrom_correctedStarts_cons {bound : Nat} {start : UInt64} {token : RawToken}
    {rest : List (UInt64 × RawToken)} :
    StartsFrom bound (correctedStarts ((start, token) :: rest)) ↔
      bound ≤ start.toNat ∧ StartsFrom start.toNat (correctedStarts rest) :=
  startsFrom_cons

/-- Behind a token the corrected starts go on from its start. -/
theorem startsFrom_correctedFrom {previous : UInt64} (hfits : previous.toNat < 2 ^ 63)
    (tokens : List RawToken) :
    StartsFrom previous.toNat (correctedStarts (correctedFrom previous tokens)) := by
  induction tokens generalizing previous with
  | nil => exact .nil
  | cons token rest ih =>
      refine startsFrom_correctedStarts_cons.mpr
        ⟨?_, ih (correctedStart_fits hfits token.start)⟩
      rw [toNat_correctedStart hfits]
      exact Nat.le_max_left ..

/-- **The corrected starts of a line never decrease.** -/
theorem startsFrom_corrected (tokens : List RawToken) :
    StartsFrom 0 (correctedStarts (corrected tokens)) := by
  cases tokens with
  | nil => exact .nil
  | cons token rest =>
      exact startsFrom_correctedStarts_cons.mpr
        ⟨Nat.le_refl 0, startsFrom_correctedFrom zero_fits rest⟩

end Highlight
