import Webshelf.Lib.Tickets
import Webshelf.Routing.Router

/-!
# Choosing a replica by weight

`select_weighted_index` with its machine integers. The `u32` weights are summed up as
`u64`; the loop takes one weight after the other off the random number and stops at
the first that is larger. A sum or a difference that does not fit would panic; here it
is `none`.
-/

namespace Webshelf

namespace Routing

/-- The sum of two `u64`, where it fits. -/
def checkedAdd (a b : UInt64) : Option UInt64 :=
  if a.toNat + b.toNat < 2 ^ 64 then some (a + b) else none

/-- The difference of two `u64`, where it is not negative. -/
def checkedSub (a b : UInt64) : Option UInt64 := if b ≤ a then some (a - b) else none

/-- `weights.iter().map(|&w| w as u64).sum()`, which adds up from `total`. -/
def sumWeights (total : UInt64) : List UInt32 → Option UInt64
  | [] => some total
  | w :: weights => (checkedAdd total w.toUInt64).bind fun total => sumWeights total weights

/-- The loop over the replicas with their weights: the index it breaks with, if it does. -/
def rollLoop : List (Nat × UInt32) → UInt64 → Option (Option Nat)
  | [], _ => some none
  | (idx, w) :: rest, roll =>
    if roll < w.toUInt64 then some (some idx)
    else (checkedSub roll w.toUInt64).bind fun roll => rollLoop rest roll

/-- `select_weighted_index`, where the generator gives `roll`: the index, and what has become
of the counter of the round robin. -/
def selectWeightedIndex (healthy : List Nat) (weights : List UInt32) (rrCounter : UInt64)
    (roll : UInt64) : Option (Nat × UInt64) :=
  (sumWeights 0 weights).bind fun total =>
    if total = 0 then some (healthy.getD (rrCounter.toNat % healthy.length) 0, rrCounter + 1)
    else (rollLoop (healthy.zip weights) roll).map fun chosen =>
      (chosen.getD (healthy.headD 0), rrCounter)

/-- The replicas with their weights as numbers. -/
def ticketsOf (weighted : List (Nat × UInt32)) : List (Nat × Nat) :=
  weighted.map fun e => (e.1, e.2.toNat)

variable {healthy : List Nat} {weights : List UInt32} {weighted : List (Nat × UInt32)}
  {total roll rrCounter : UInt64}

/-- The sum is the one of the numbers, if that fits. -/
theorem sumWeights_eq_some (h : total.toNat + (weights.map UInt32.toNat).sum < 2 ^ 64) :
    ∃ sum, sumWeights total weights = some sum ∧
      sum.toNat = total.toNat + (weights.map UInt32.toNat).sum := by
  induction weights generalizing total with
  | nil => exact ⟨total, rfl, by simp⟩
  | cons w weights ih =>
    simp only [List.map_cons, List.sum_cons] at h ⊢
    have hfits : total.toNat + w.toUInt64.toNat < 2 ^ 64 := by
      rw [UInt32.toNat_toUInt64]
      omega
    have hadd : (total + w.toUInt64).toNat = total.toNat + w.toNat := by
      rw [UInt64.toNat_add, Nat.mod_eq_of_lt hfits, UInt32.toNat_toUInt64]
    obtain ⟨sum, hsum, hnat⟩ := @ih (total + w.toUInt64) (by omega)
    refine ⟨sum, ?_, by omega⟩
    rw [sumWeights, checkedAdd, if_pos hfits, Option.bind_some, hsum]

/-- A sum that does not panic is the sum of the numbers. -/
theorem toNat_of_sumWeights {sum : UInt64} (h : sumWeights total weights = some sum) :
    sum.toNat = total.toNat + (weights.map UInt32.toNat).sum := by
  induction weights generalizing total with
  | nil =>
    cases h
    simp
  | cons w weights ih =>
    obtain ⟨next, hnext, hsum⟩ := Option.bind_eq_some_iff.mp h
    rw [checkedAdd] at hnext
    split at hnext
    · rename_i hfits
      cases hnext
      have hadd : (total + w.toUInt64).toNat = total.toNat + w.toNat := by
        rw [UInt64.toNat_add, Nat.mod_eq_of_lt hfits, UInt32.toNat_toUInt64]
      rw [ih hsum, hadd, List.map_cons, List.sum_cons, Nat.add_assoc]
    · cases hnext

/-- Fewer than `2^32` weights cannot overflow the sum. -/
theorem sum_fits (h : weights.length < 2 ^ 32) :
    (weights.map UInt32.toNat).sum < 2 ^ 64 := by
  have hbound : ∀ ws : List UInt32, (ws.map UInt32.toNat).sum ≤ ws.length * (2 ^ 32 - 1) := by
    intro ws
    induction ws with
    | nil => simp
    | cons w ws ih =>
      have hw := w.toNat_lt
      simp only [List.map_cons, List.sum_cons, List.length_cons]
      omega
  have := hbound weights
  omega

/-- The loop picks the holder of the ticket; nothing in it underflows. -/
theorem rollLoop_eq (weighted : List (Nat × UInt32)) (roll : UInt64) :
    rollLoop weighted roll = some (Tickets.pick (ticketsOf weighted) roll.toNat) := by
  induction weighted generalizing roll with
  | nil => rfl
  | cons e rest ih =>
    obtain ⟨idx, w⟩ := e
    rw [rollLoop, ticketsOf, List.map_cons, Tickets.pick]
    by_cases hlt : roll < w.toUInt64
    · have hnat : roll.toNat < w.toNat := by
        rwa [UInt64.lt_iff_toNat_lt, UInt32.toNat_toUInt64] at hlt
      rw [if_pos hlt, if_pos hnat]
    · have hnat : ¬ roll.toNat < w.toNat := by
        rwa [UInt64.lt_iff_toNat_lt, UInt32.toNat_toUInt64] at hlt
      have hle : w.toUInt64 ≤ roll := by
        rw [UInt64.le_iff_toNat_le, UInt32.toNat_toUInt64]
        omega
      rw [if_neg hlt, if_neg hnat, checkedSub, if_pos hle, Option.bind_some, ih,
        UInt64.toNat_sub_of_le _ _ hle, UInt32.toNat_toUInt64]
      rfl

/-- It is the loop of the router's model. -/
theorem rollLoop_refines (chosen : Nat) :
    (rollLoop weighted roll).map (·.getD chosen) =
      some (AutoRouter.pickWeighted chosen (ticketsOf weighted) roll.toNat) := by
  rw [rollLoop_eq, Option.map_some]
  congr 1
  generalize roll.toNat = ticket
  generalize ticketsOf weighted = entries
  induction entries generalizing ticket with
  | nil => rfl
  | cons e rest ih =>
    rw [Tickets.pick, AutoRouter.pickWeighted]
    split
    · rfl
    · exact ih _

section
variable (hlen : healthy.length = weights.length)
include hlen

theorem total_zip :
    Tickets.total (ticketsOf (healthy.zip weights)) = (weights.map UInt32.toNat).sum := by
  have hsnd : (ticketsOf (healthy.zip weights)).map (·.2) = weights.map UInt32.toNat := by
    rw [ticketsOf, List.map_map, ← List.map_snd_zip hlen.ge, List.map_map,
      List.map_snd_zip hlen.ge]
    rfl
  rw [Tickets.total, hsnd]

theorem names_zip : (ticketsOf (healthy.zip weights)).map (·.1) = healthy := by
  have hfst := List.map_fst_zip hlen.le
  rw [ticketsOf, List.map_map]
  exact hfst

/-- With a positive sum and a random number below it, the loop breaks with a replica that has
a weight, so the value `chosen` starts with is not used. -/
theorem rollLoop_breaks (hroll : roll.toNat < (weights.map UInt32.toNat).sum) :
    ∃ (i : Nat) (hi : i < healthy.length), 0 < weights[i] ∧
      rollLoop (healthy.zip weights) roll = some (some healthy[i]) := by
  rw [← total_zip hlen] at hroll
  obtain ⟨e, he, hpos, hpick⟩ := Tickets.pick_of_lt hroll
  obtain ⟨e, hmem, rfl⟩ := List.mem_map.mp he
  obtain ⟨i, hi, rfl⟩ := List.getElem_of_mem hmem
  have hi' : i < healthy.length := by
    rw [List.length_zip] at hi
    omega
  refine ⟨i, hi', ?_, ?_⟩
  · rw [List.getElem_zip] at hpos
    exact UInt32.lt_iff_toNat_lt.mpr hpos
  · rw [rollLoop_eq, hpick, List.getElem_zip]

omit hlen in
/-- What the choice gives for a random number below a positive sum. -/
theorem selectWeightedIndex_eq (hsum : sumWeights 0 weights = some total) (hpos : 0 < total) :
    selectWeightedIndex healthy weights rrCounter roll =
      some ((Tickets.pick (ticketsOf (healthy.zip weights)) roll.toNat).getD (healthy.headD 0),
        rrCounter) := by
  have hne : total ≠ 0 := by
    rintro rfl
    exact absurd hpos (by decide)
  rw [selectWeightedIndex, hsum, Option.bind_some, if_neg hne, rollLoop_eq, Option.map_some]

omit hlen in
theorem toNat_total (hsum : sumWeights 0 weights = some total) :
    total.toNat = (weights.map UInt32.toNat).sum := by
  rw [toNat_of_sumWeights hsum, UInt64.toNat_zero, Nat.zero_add]

/-- The weights are the shares of the random numbers. -/
theorem count_rolls (hdistinct : healthy.Nodup) (hsum : sumWeights 0 weights = some total)
    (hpos : 0 < total) {i : Nat} (hi : i < healthy.length) :
    (List.range total.toNat).countP (fun roll =>
      selectWeightedIndex healthy weights rrCounter (UInt64.ofNat roll) =
        some (healthy[i], rrCounter)) = weights[i].toNat := by
  have htotal : Tickets.total (ticketsOf (healthy.zip weights)) = total.toNat := by
    rw [total_zip hlen, toNat_total hsum]
  have hmem : (healthy[i], weights[i].toNat) ∈ ticketsOf (healthy.zip weights) := by
    apply List.mem_map.mpr
    refine ⟨(healthy[i], weights[i]), ?_, rfl⟩
    apply List.mem_iff_getElem.mpr
    exact ⟨i, by rw [List.length_zip]; omega, List.getElem_zip⟩
  have hmass := @Tickets.mass_of_mem _ _ _ _ _ ((names_zip hlen).symm ▸ hdistinct) hmem
  rw [← hmass, ← Tickets.count_pick, htotal]
  apply List.countP_congr
  intro roll hroll
  have hlt : roll < total.toNat := List.mem_range.mp hroll
  have hroll : (UInt64.ofNat roll).toNat = roll :=
    UInt64.toNat_ofNat_of_lt' (Nat.lt_trans hlt total.toNat_lt)
  obtain ⟨e, -, -, hpick⟩ := Tickets.pick_of_lt (htotal.symm ▸ hlt)
  rw [selectWeightedIndex_eq hsum hpos, hroll, hpick]
  simp

end

/-- **The weighted choice is exact.** For distinct replicas and weights with a positive sum, each
replica is what the choice makes of as many of the random numbers below the sum as its weight
says. Each of these numbers makes the loop break, with a replica that has a weight, and no
difference in it underflows; the sum does not overflow for fewer than `2^32` weights. -/
theorem weighted_selection_exact (hlen : healthy.length = weights.length)
    (hdistinct : healthy.Nodup) (hpos : 0 < (weights.map UInt32.toNat).sum) (rrCounter : UInt64) :
    (weights.length < 2 ^ 32 → (sumWeights 0 weights).isSome = true) ∧
    ∀ total, sumWeights 0 weights = some total →
      total.toNat = (weights.map UInt32.toNat).sum ∧
      (∀ roll < total, ∃ (i : Nat) (hi : i < healthy.length), 0 < weights[i] ∧
        rollLoop (healthy.zip weights) roll = some (some healthy[i])) ∧
      ∀ (i : Nat) (hi : i < healthy.length),
        (List.range total.toNat).countP (fun roll =>
          selectWeightedIndex healthy weights rrCounter (UInt64.ofNat roll) =
            some (healthy[i], rrCounter)) = weights[i].toNat := by
  constructor
  · intro hshort
    have hfits := sum_fits hshort
    obtain ⟨sum, hsum, -⟩ := @sumWeights_eq_some weights 0 (by simpa using hfits)
    rw [hsum, Option.isSome_some]
  · intro total hsum
    have htotal := toNat_total hsum
    refine ⟨htotal, ?_, ?_⟩
    · intro roll hroll
      apply rollLoop_breaks hlen
      rw [← htotal]
      exact UInt64.lt_iff_toNat_lt.mp hroll
    · intro i hi
      apply count_rolls hlen hdistinct hsum
      rw [UInt64.lt_iff_toNat_lt, htotal]
      exact hpos

/-- Two replicas, one of them three times as heavy, and one without a weight. -/
theorem weighted_selection_of_three :
    (List.range 4).countP (fun roll =>
      selectWeightedIndex [4, 0, 7] [3, 0, 1] 0 (UInt64.ofNat roll) = some (4, 0)) = 3 :=
  ((@weighted_selection_exact [4, 0, 7] [3, 0, 1] rfl (by decide) (by decide) 0).2 4
    (by decide)).2.2 0 (by decide)

end Routing

end Webshelf
