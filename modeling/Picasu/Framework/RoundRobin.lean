import Mathlib.Algebra.BigOperators.Group.Finset.Piecewise
import Mathlib.Algebra.Order.BigOperators.Group.Finset
import Mathlib.Tactic.Linarith
import Mathlib.Tactic.Ring

/-! # Smooth Weighted Round-Robin

Lanes with weights and credits. In a round every lane that is ready accrues its weight, the one
with the most credit wins, and the winner pays the total of all weights.

If all lanes are ready in every round, what is accrued is what is paid. If some are not, more is
paid than accrued, and the sum of the credits falls by the missing weights (`sum_round`). How
unevenly a sum is spread over the lanes does not depend on who was ready: the credits of `k` out
of `n` lanes with total weight `W` never exceed `W * k * (n - k) / 2` (`Even.round`). The bound
for `k` lanes follows from those for `k + 1` and for fewer.
-/

namespace RoundRobin

open Finset

section Rounds

variable {ι : Type} (weight : ι → Int)

/-- Every lane that is ready accrues its weight. -/
def accrue (ready : ι → Bool) (credit : ι → Int) : ι → Int :=
  fun i => if ready i = true then credit i + weight i else credit i

/-- The winner pays the total. -/
def pay [Fintype ι] [DecidableEq ι] (winner : ι) (credit : ι → Int) : ι → Int :=
  Function.update credit winner (credit winner - ∑ i, weight i)

/-- Among the lanes that are ready, none has more credit. -/
structure Wins (ready : ι → Bool) (credit : ι → Int) (winner : ι) : Prop where
  is_ready : ready winner = true
  most : ∀ i, ready i = true → credit i ≤ credit winner

/-- The weight that is not accrued in a round. -/
def missing [Fintype ι] (ready : ι → Bool) : Int :=
  ∑ i, if ready i = true then 0 else weight i

/-- No group of lanes has more credit than its size allows. -/
def Even [Fintype ι] (weight credit : ι → Int) : Prop :=
  ∀ S : Finset ι, 2 * ∑ i ∈ S, credit i ≤ (∑ i, weight i) * (S.card * (Fintype.card ι - S.card))

end Rounds

section Sums

variable {ι : Type} {weight credit : ι → Int} {ready : ι → Bool}

theorem sum_accrue (weight : ι → Int) (ready : ι → Bool) (credit : ι → Int) (S : Finset ι) :
    ∑ i ∈ S, accrue weight ready credit i =
      ∑ i ∈ S, credit i + ∑ i ∈ S, if ready i = true then weight i else 0 := by
  rw [← Finset.sum_add_distrib]
  apply Finset.sum_congr rfl
  intro i _
  unfold accrue
  split
  · rfl
  · rw [add_zero]

/-- The lanes of a group that are not ready have what they had. -/
theorem sum_accrue_parts (weight : ι → Int) (ready : ι → Bool) (credit : ι → Int) (S : Finset ι) :
    ∑ i ∈ S, accrue weight ready credit i =
      ∑ i ∈ S with ready i = true, accrue weight ready credit i +
        ∑ i ∈ S with ¬ ready i = true, credit i := by
  rw [← Finset.sum_filter_add_sum_filter_not S fun i => ready i = true]
  congr 1
  apply Finset.sum_congr rfl
  intro i hi
  exact if_neg (Finset.mem_filter.mp hi).2

/-- What a group accrues is at most the total. -/
theorem sum_ready_le [Fintype ι] (hweight : ∀ i, 0 ≤ weight i) (ready : ι → Bool) (S : Finset ι) :
    (∑ i ∈ S, if ready i = true then weight i else 0) ≤ ∑ i, weight i := by
  calc (∑ i ∈ S, if ready i = true then weight i else 0)
      ≤ ∑ i ∈ S, weight i := by
        apply Finset.sum_le_sum
        intro i _
        split
        · exact le_refl _
        · exact hweight i
    _ ≤ ∑ i, weight i :=
        Finset.sum_le_sum_of_subset_of_nonneg (Finset.subset_univ S) fun i _ _ => hweight i

theorem even_zero [Fintype ι] (hweight : ∀ i, 0 ≤ weight i) : Even weight 0 := by
  intro S
  have hcard : (S.card : Int) ≤ Fintype.card ι := by exact_mod_cast Finset.card_le_univ S
  have htotal : 0 ≤ ∑ i, weight i := Finset.sum_nonneg fun i _ => hweight i
  have hprod : (0 : Int) ≤ S.card * (Fintype.card ι - S.card) :=
    mul_nonneg (Int.natCast_nonneg _) (by linarith)
  simpa using mul_nonneg htotal hprod

variable [Fintype ι] [DecidableEq ι] {winner : ι}

theorem sum_pay_of_mem {S : Finset ι} (h : winner ∈ S) :
    ∑ i ∈ S, pay weight winner credit i = ∑ i ∈ S, credit i - ∑ i, weight i := by
  unfold pay
  rw [Finset.sum_update_of_mem h, ← Finset.add_sum_erase S credit h, Finset.sdiff_singleton_eq_erase]
  ring

theorem sum_pay_of_not_mem {S : Finset ι} (h : winner ∉ S) :
    ∑ i ∈ S, pay weight winner credit i = ∑ i ∈ S, credit i := by
  unfold pay
  exact Finset.sum_update_of_notMem h _ _

/-- A round takes the missing weights off the sum. -/
theorem sum_round (weight : ι → Int) (ready : ι → Bool) (credit : ι → Int) (winner : ι) :
    ∑ i, pay weight winner (accrue weight ready credit) i =
      ∑ i, credit i - missing weight ready := by
  -- what is accrued and what is missing add up to what the winner pays
  have hsplit : ∑ i, weight i =
      (∑ i, if ready i = true then weight i else 0) + missing weight ready := by
    rw [missing, ← Finset.sum_add_distrib]
    apply Finset.sum_congr rfl
    intro i _
    split
    · rw [add_zero]
    · rw [zero_add]
  rw [sum_pay_of_mem (Finset.mem_univ winner), sum_accrue, hsplit]
  ring

end Sums

/-! ## How even the credits stay -/

/-- The bound for a group that the winner is not in. With the winner, who has at least the average
credit of the `a` ready lanes of the group, it has at most what `k + 1` lanes had and accrued;
the others of the group have not changed. -/
theorem le_of_parts {x y d total k a n : Int} (ha : 1 ≤ a) (htotal : 0 ≤ total) (hx : x ≤ a * d)
    (hwith : 2 * (x + y + d) ≤ total * ((k + 1) * (n - (k + 1))) + 2 * total)
    (hrest : 2 * y ≤ total * ((k - a) * (n - (k - a)))) :
    2 * (x + y) ≤ total * (k * (n - k)) := by
  -- `a` times the bound with the winner, and once the bound of the others
  have hscaled : (a + 1) * (2 * (x + y)) ≤ (a + 1) * (total * (k * (n - k))) := by
    have h1 : a * (2 * (x + y + d)) ≤ a * (total * ((k + 1) * (n - (k + 1))) + 2 * total) :=
      mul_le_mul_of_nonneg_left hwith (by linarith)
    have h2 : 0 ≤ total * (a * (a - 1)) :=
      mul_nonneg htotal (mul_nonneg (by linarith) (by linarith))
    calc (a + 1) * (2 * (x + y))
        ≤ a * (2 * (x + y + d)) + 2 * y := by linarith
      _ ≤ a * (total * ((k + 1) * (n - (k + 1))) + 2 * total) +
            total * ((k - a) * (n - (k - a))) := by linarith
      _ = (a + 1) * (total * (k * (n - k))) - total * (a * (a - 1)) := by ring
      _ ≤ (a + 1) * (total * (k * (n - k))) := by linarith
  exact le_of_mul_le_mul_left hscaled (by linarith)

section Even

variable {ι : Type} [Fintype ι] [DecidableEq ι] {weight credit : ι → Int} {ready : ι → Bool}
  {winner : ι}

theorem Even.round (h : Even weight credit) (hweight : ∀ i, 0 ≤ weight i)
    (hwins : Wins ready (accrue weight ready credit) winner) :
    Even weight (pay weight winner (accrue weight ready credit)) := by
  intro S
  by_cases hmem : winner ∈ S
  · -- the winner pays at least what the group accrues
    have haccrued := sum_ready_le hweight ready S
    have hbefore := h S
    rw [sum_pay_of_mem hmem, sum_accrue]
    linarith
  · rw [sum_pay_of_not_mem hmem]
    have htotal : 0 ≤ ∑ i, weight i := Finset.sum_nonneg fun i _ => hweight i
    have hcard := Finset.card_filter_add_card_filter_not (s := S) fun i => ready i = true
    have hrest := h (S.filter fun i => ¬ ready i = true)
    rw [sum_accrue_parts]
    by_cases hnone : (S.filter fun i => ready i = true) = ∅
    · -- nobody in the group is ready
      rw [hnone, Finset.card_empty, zero_add] at hcard
      rw [hnone, Finset.sum_empty, zero_add]
      rwa [hcard] at hrest
    · -- the winner has at least the average of those who are ready
      have hwith := h (insert winner S)
      have haccrued := sum_accrue weight ready credit (insert winner S)
      have hready := sum_ready_le hweight ready (insert winner S)
      have hsize : ((S.filter fun i => ¬ ready i = true).card : Int) =
          S.card - (S.filter fun i => ready i = true).card := by
        omega
      rw [Finset.sum_insert hmem, sum_accrue_parts] at haccrued
      rw [Finset.card_insert_of_notMem hmem, Nat.cast_add, Nat.cast_one] at hwith
      rw [hsize] at hrest
      refine le_of_parts ?_ htotal (Finset.sum_le_card_nsmul _ _ (accrue weight ready credit winner)
        fun i hi => hwins.most i (Finset.mem_filter.mp hi).2) ?_ hrest
      · have hpos := Finset.card_pos.mpr (Finset.nonempty_iff_ne_empty.mpr hnone)
        omega
      · linarith

omit [DecidableEq ι] in
theorem Even.le (h : Even weight credit) (i : ι) :
    2 * credit i ≤ (∑ i, weight i) * (Fintype.card ι - 1) := by
  have hone := h {i}
  simpa using hone

/-- One lane's debt, beyond the common one. -/
theorem Even.ge (h : Even weight credit) (i : ι) :
    2 * ∑ i, credit i - (∑ i, weight i) * (Fintype.card ι - 1) ≤ 2 * credit i := by
  -- the debt of one lane is what the others have too much
  have hothers := h (Finset.univ.erase i)
  have hcard : ((Finset.univ.erase i).card : Int) = Fintype.card ι - 1 := by
    have hpos : 0 < Fintype.card ι := Fintype.card_pos_iff.mpr ⟨i⟩
    rw [Finset.card_erase_of_mem (Finset.mem_univ i), Finset.card_univ]
    omega
  rw [hcard] at hothers
  rw [← Finset.add_sum_erase Finset.univ credit (Finset.mem_univ i)]
  linarith

end Even

end RoundRobin
