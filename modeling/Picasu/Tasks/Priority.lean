import Mathlib.Data.Fin.VecNotation
import Picasu.Framework.RoundRobin
import Picasu.Framework.Run

/-! # Priority Lanes

Background items wait in five lanes. `pick_lane` decides which lane is served next among those
that hold items: by smooth weighted round-robin, except that a lane that was ready and passed over
so many times in a row is served first.

The two mechanisms meet in one place only: a lane that is served for its age neither pays nor lets
the others age. So a lane can wait for its own age, and for each of the other lanes at most twice
in that time (`bounded_waiting`).

The winner of a round pays the weights of all lanes, also of those that were not ready and did not
accrue theirs. A lane that is alone for a long time runs into a debt that has no bound
(`deficit_unbounded`), and it is this debt alone that has none (`deficits_bounded`).

Deficits are integers without a width. They are the `i32` values of the source as long as every
sum and difference is one, which is what `deficits_bounded` says.
-/

open LTS RoundRobin

abbrev laneCount : Nat := 5

abbrev Lane := Fin laneCount

/-- `Priority`, strongest first. -/
inductive Priority where
  | interactive
  | watcher
  | scan
  | expire
  | verify
  deriving DecidableEq

def Priority.lane_index : Priority → Lane
  | .interactive => 0
  | .watcher => 1
  | .scan => 2
  | .expire => 3
  | .verify => 4

def laneWeights : Lane → Int := ![8, 4, 2, 1, 1]

def maxSkips : Nat := 64

structure SchedulerState where
  deficit : Lane → Int
  skips : Lane → Nat

namespace SchedulerState

def default : SchedulerState := ⟨0, 0⟩

variable (ready : Lane → Bool)

/-- The first loop of `pick_lane`: a ready lane that has waited too long. -/
def aged_lane (state : SchedulerState) : Option Lane :=
  (List.finRange laneCount).find? fun index => ready index && decide (maxSkips ≤ state.skips index)

/-- The third loop of `pick_lane`: the first of the ready lanes with the greatest deficit. -/
def best_lane (deficit : Lane → Int) : Option Lane :=
  (List.finRange laneCount).foldl (fun best index =>
    if ready index && best.all (fun current => decide (deficit current < deficit index)) then
      some index
    else best) none

def pick_lane (state : SchedulerState) : Option Lane × SchedulerState :=
  match aged_lane ready state with
  | some index => (some index, { state with skips := Function.update state.skips index 0 })
  | none =>
    let deficit := accrue laneWeights ready state.deficit
    match best_lane ready deficit with
    | some winner =>
      (some winner,
        { deficit := pay laneWeights winner deficit
          skips := fun index =>
            if index = winner then 0
            else if ready index then min (state.skips index + 1) (2 ^ 32 - 1)
            else state.skips index })
    | none => (none, { state with deficit })

def next (state : SchedulerState) (ready : Lane → Bool) : SchedulerState :=
  (pick_lane ready state).2

inductive Pick (ready : Lane → Bool) (s : SchedulerState) : Option Lane × SchedulerState → Prop
  /-- A lane is served for its age. -/
  | aged (lane : Lane) (hready : ready lane = true) (hage : maxSkips ≤ s.skips lane) :
    Pick ready s (some lane, { s with skips := Function.update s.skips lane 0 })
  /-- A lane wins a round. No lane that is ready is aged. -/
  | won (winner : Lane) (hyoung : ∀ lane, ready lane = true → s.skips lane < maxSkips)
    (hwins : Wins ready (accrue laneWeights ready s.deficit) winner) :
    Pick ready s (some winner,
      { deficit := pay laneWeights winner (accrue laneWeights ready s.deficit)
        skips := fun index =>
          if index = winner then 0
          else if ready index then min (s.skips index + 1) (2 ^ 32 - 1)
          else s.skips index })
  /-- No lane is ready. -/
  | idle (hnone : ∀ lane, ready lane = false) : Pick ready s (none, s)

section Picks

variable {ready : Lane → Bool} {s : SchedulerState}

/-- The loop keeps a ready lane with the greatest deficit so far. -/
theorem best_loop (ready : Lane → Bool) (deficit : Lane → Int) (indices : List Lane)
    (best : Option Lane) (hbest : ∀ lane ∈ best, ready lane = true) :
    let result := indices.foldl (fun best index =>
      if ready index && best.all (fun current => decide (deficit current < deficit index)) then
        some index
      else best) best
    (∀ lane ∈ result, ready lane = true) ∧
      (∀ lane, lane ∈ best ∨ lane ∈ indices ∧ ready lane = true →
        ∃ winner ∈ result, deficit lane ≤ deficit winner) := by
  induction indices generalizing best with
  | nil =>
    refine ⟨hbest, fun lane hlane => ?_⟩
    rcases hlane with hlane | ⟨hlane, -⟩
    · exact ⟨lane, hlane, le_refl _⟩
    · exact absurd hlane List.not_mem_nil
  | cons index indices ih =>
    rw [List.foldl_cons]
    split
    · -- the lane takes the lead from one with a smaller deficit
      rename_i hlead
      rw [Bool.and_eq_true, Option.all_eq_true] at hlead
      obtain ⟨hready, hmost⟩ := ih (some index) fun lane hlane => by
        rw [← Option.mem_some.mp hlane]
        exact hlead.1
      obtain ⟨winner, hwinner, hle⟩ := hmost index (Or.inl rfl)
      refine ⟨hready, fun lane hlane => ?_⟩
      rcases hlane with hlane | ⟨hlane, hlane_ready⟩
      · have hless := of_decide_eq_true (hlead.2 lane hlane)
        exact ⟨winner, hwinner, by omega⟩
      · rcases List.mem_cons.mp hlane with rfl | hlane
        · exact ⟨winner, hwinner, hle⟩
        · exact hmost lane (Or.inr ⟨hlane, hlane_ready⟩)
    · rename_i hfollow
      obtain ⟨hready, hmost⟩ := ih best hbest
      refine ⟨hready, fun lane hlane => ?_⟩
      rcases hlane with hlane | ⟨hlane, hlane_ready⟩
      · exact hmost lane (Or.inl hlane)
      rcases List.mem_cons.mp hlane with rfl | hlane
      · -- some lane is ahead of this one
        rw [hlane_ready, Bool.true_and, Option.all_eq_true] at hfollow
        simp only [decide_eq_true_eq, not_forall, not_lt] at hfollow
        obtain ⟨current, hcurrent, hahead⟩ := hfollow
        obtain ⟨winner, hwinner, hle⟩ := hmost current (Or.inl hcurrent)
        exact ⟨winner, hwinner, le_trans hahead hle⟩
      · exact hmost lane (Or.inr ⟨hlane, hlane_ready⟩)

theorem best_lane_eq_some {deficit : Lane → Int} {winner : Lane}
    (h : best_lane ready deficit = some winner) : Wins ready deficit winner := by
  obtain ⟨hready, hmost⟩ := best_loop ready deficit (List.finRange laneCount) none (by simp)
  refine ⟨hready winner h, fun lane hlane => ?_⟩
  obtain ⟨other, hother, hle⟩ := hmost lane (Or.inr ⟨List.mem_finRange lane, hlane⟩)
  obtain rfl : winner = other := Option.mem_unique h hother
  exact hle

theorem best_lane_eq_none {deficit : Lane → Int} (h : best_lane ready deficit = none)
    (lane : Lane) : ready lane = false := by
  obtain ⟨-, hmost⟩ := best_loop ready deficit (List.finRange laneCount) none (by simp)
  by_contra hready
  obtain ⟨other, hother, -⟩ := hmost lane (Or.inr ⟨List.mem_finRange lane, by simpa using hready⟩)
  exact absurd (h.symm.trans hother) (by simp)

theorem pick_lane_spec (ready : Lane → Bool) (s : SchedulerState) :
    Pick ready s (pick_lane ready s) := by
  unfold pick_lane
  cases haged : aged_lane ready s with
  | some lane =>
    have htest := List.find?_some haged
    simp only [Bool.and_eq_true, decide_eq_true_eq] at htest
    exact .aged lane htest.1 htest.2
  | none =>
    have hyoung : ∀ lane, ready lane = true → s.skips lane < maxSkips := by
      intro lane hready
      have htest := List.find?_eq_none.mp haged lane (List.mem_finRange lane)
      simpa [hready] using htest
    dsimp only
    cases hbest : best_lane ready (accrue laneWeights ready s.deficit) with
    | some winner => exact .won winner hyoung (best_lane_eq_some hbest)
    | none =>
      have hnone := best_lane_eq_none hbest
      -- with no lane ready nothing is accrued
      have hsame : accrue laneWeights ready s.deficit = s.deficit := by
        funext lane
        simp [accrue, hnone lane]
      rw [hsame]
      exact .idle hnone

end Picks

/-! ## Waiting -/

/-- No lane has been passed over more often than allowed. -/
def Young (s : SchedulerState) : Prop := ∀ lane, s.skips lane ≤ maxSkips

/-- How long a lane can wait: until it is aged, and in that time for every other lane as often as
that one can be. -/
def wait (lane : Lane) (s : SchedulerState) : Nat :=
  (maxSkips - s.skips lane) +
    ∑ other ∈ Finset.univ.erase lane, (s.skips other + (maxSkips - s.skips lane)) / maxSkips

section Waiting

variable {ready : Lane → Bool} {s : SchedulerState} {picked : Option Lane × SchedulerState}
  {lane : Lane}

theorem young_default : Young default := fun _ => Nat.zero_le _

theorem Pick.young (hpick : Pick ready s picked) (h : Young s) : Young picked.2 := by
  intro index
  have hindex := h index
  cases hpick with
  | aged lane hready hage =>
    dsimp only
    by_cases hne : index = lane
    · rw [hne, Function.update_self]
      exact Nat.zero_le _
    · rwa [Function.update_of_ne hne]
  | won winner hyoung hwins =>
    dsimp only
    split
    · exact Nat.zero_le _
    split
    · rename_i hready
      -- an aged lane that is ready would have been picked before
      have hless := hyoung index hready
      omega
    · exact hindex
  | idle hnone => exact hindex

theorem Young.next (h : Young s) (ready : Lane → Bool) : Young (s.next ready) :=
  (pick_lane_spec ready s).young h

theorem wait_le (h : Young s) (lane : Lane) : s.wait lane ≤ maxSkips + 2 * (laneCount - 1) := by
  -- in the time that a lane needs to age, every other lane ages at most twice
  have hterm : ∀ other ∈ Finset.univ.erase lane,
      (s.skips other + (maxSkips - s.skips lane)) / maxSkips ≤ 2 := by
    intro other _
    have hother := h other
    unfold maxSkips at *
    omega
  have hcard : (Finset.univ.erase lane).card = laneCount - 1 := by
    rw [Finset.card_erase_of_mem (Finset.mem_univ lane), Finset.card_univ, Fintype.card_fin]
  have hsum := Finset.sum_le_card_nsmul _ _ 2 hterm
  rw [hcard, show (laneCount - 1) • 2 = 2 * (laneCount - 1) from rfl] at hsum
  unfold wait
  omega

/-- A pick of another lane brings a ready lane closer to its turn. -/
theorem Pick.wait_lt (hpick : Pick ready s picked) (hready : ready lane = true)
    (hother : picked.1 ≠ some lane) : picked.2.wait lane < s.wait lane := by
  cases hpick with
  | aged other hother_ready hage =>
    -- the other lane's turn is counted, and its count starts again
    have hne : other ≠ lane := fun heq => hother (congrArg some heq)
    have hsame : Function.update s.skips other 0 lane = s.skips lane :=
      Function.update_of_ne (Ne.symm hne) _ _
    unfold wait
    dsimp only
    rw [hsame]
    apply Nat.add_lt_add_left
    apply Finset.sum_lt_sum
    · intro index _
      apply Nat.div_le_div_right
      by_cases hindex : index = other
      · rw [hindex, Function.update_self]
        omega
      · rw [Function.update_of_ne hindex]
    · refine ⟨other, Finset.mem_erase.mpr ⟨hne, Finset.mem_univ other⟩, ?_⟩
      rw [Function.update_self]
      unfold maxSkips at *
      omega
  | won winner hyoung hwins =>
    -- the lane ages, and no other lane ages faster
    have hne : lane ≠ winner := fun heq => hother (congrArg some heq.symm)
    have hless := hyoung lane hready
    have hage : (if lane = winner then 0
        else if ready lane then min (s.skips lane + 1) (2 ^ 32 - 1) else s.skips lane) =
          s.skips lane + 1 := by
      rw [if_neg hne, if_pos hready]
      unfold maxSkips at hless
      omega
    unfold wait
    dsimp only
    rw [hage]
    apply Nat.add_lt_add_of_lt_of_le
    · omega
    · apply Finset.sum_le_sum
      intro index _
      apply Nat.div_le_div_right
      split
      · omega
      · split
        · omega
        · omega
  | idle hnone =>
    rw [hnone lane] at hready
    cases hready

end Waiting

/-- From every state that picks can reach: a lane that is ready at each of the next 73 picks is
chosen by one of them, whatever the other lanes do. -/
theorem bounded_waiting (past future : List (Lane → Bool)) (lane : Lane)
    (hlength : future.length = maxSkips + 2 * (laneCount - 1) + 1)
    (hready : ∀ ready ∈ future, ready lane = true) :
    ∃ done ready, done ++ [ready] <+: future ∧
      (pick_lane ready (run next (run next default past) done)).1 = some lane := by
  have hyoung : Young (run next default past) :=
    run_invariant (I := Young) young_default fun _ ready _ h => h.next ready
  refine exists_step_of_measure (I := Young) (μ := wait lane)
    (G := fun s ready => (pick_lane ready s).1 = some lane) hyoung
    (fun _ ready _ h => h.next ready)
    (fun s ready hmem _ hother => (pick_lane_spec ready s).wait_lt (hready ready hmem) hother) ?_
  have hwait := wait_le hyoung lane
  omega

/-- All lanes are ready all the time. The last one has its turn. -/
theorem bounded_waiting_verify :
    let busy : List (Lane → Bool) := List.replicate 73 fun _ => true
    ∃ done ready, done ++ [ready] <+: busy ∧
      (pick_lane ready (run next (run next default []) done)).1 = some Priority.verify.lane_index :=
  bounded_waiting [] _ Priority.verify.lane_index rfl fun ready hready => by
    rw [List.eq_of_mem_replicate hready]

/-! ## Deficits -/

/-- The weight that the winner of a pick pays and nobody accrues: that of the lanes that are not
ready, if there is a round. -/
def shortfall (s : SchedulerState) (ready : Lane → Bool) : Int :=
  if (∃ lane, ready lane = true ∧ maxSkips ≤ s.skips lane) ∨ ∀ lane, ready lane = false then 0
  else missing laneWeights ready

/-- What is paid and not accrued in a run. -/
def shortfalls (s : SchedulerState) : List (Lane → Bool) → Int
  | [] => 0
  | ready :: masks => s.shortfall ready + shortfalls (s.next ready) masks

section Deficits

variable {ready : Lane → Bool} {s : SchedulerState} {picked : Option Lane × SchedulerState}

theorem laneWeights_nonneg : ∀ lane, 0 ≤ laneWeights lane := by decide

theorem sum_laneWeights : ∑ lane, laneWeights lane = 16 := by decide

theorem Pick.even (hpick : Pick ready s picked) (h : Even laneWeights s.deficit) :
    Even laneWeights picked.2.deficit := by
  cases hpick with
  | aged lane hready hage => exact h
  | won winner hyoung hwins => exact h.round laneWeights_nonneg hwins
  | idle hnone => exact h

theorem Pick.sum_deficit (hpick : Pick ready s picked) :
    ∑ lane, picked.2.deficit lane = ∑ lane, s.deficit lane - s.shortfall ready := by
  unfold shortfall
  cases hpick with
  | aged lane hready hage => rw [if_pos (Or.inl ⟨lane, hready, hage⟩), sub_zero]
  | won winner hyoung hwins =>
    rw [if_neg ?_]
    · exact sum_round laneWeights ready s.deficit winner
    · rintro (⟨lane, hready, hage⟩ | hnone)
      · have hless := hyoung lane hready
        omega
      · have hready := hwins.is_ready
        rw [hnone winner] at hready
        cases hready
  | idle hnone => rw [if_pos (Or.inr hnone), sub_zero]

/-- The common debt of the lanes is what was paid and not accrued. -/
theorem sum_deficit_run (s : SchedulerState) (masks : List (Lane → Bool)) :
    ∑ lane, (run next s masks).deficit lane = ∑ lane, s.deficit lane - s.shortfalls masks := by
  induction masks generalizing s with
  | nil => exact (sub_zero _).symm
  | cons ready masks ih =>
    have hstep := (pick_lane_spec ready s).sum_deficit
    rw [run_cons, ih, shortfalls]
    unfold next at *
    rw [hstep]
    ring

/-- The deficits after a run: none is above 32, and none is below the common debt by more than 32. -/
theorem deficit_run_bounds (masks : List (Lane → Bool)) (lane : Lane) :
    -(default.shortfalls masks + 32) ≤ (run next default masks).deficit lane ∧
      (run next default masks).deficit lane ≤ 32 := by
  have heven : Even laneWeights (run next default masks).deficit :=
    run_invariant (I := fun s => Even laneWeights s.deficit) (even_zero laneWeights_nonneg)
      fun s ready _ h => (pick_lane_spec ready s).even h
  have hsum := sum_deficit_run default masks
  have hzero : ∑ lane, default.deficit lane = 0 := Finset.sum_const_zero
  have hle := heven.le lane
  have hge := heven.ge lane
  rw [hsum, hzero, sum_laneWeights, Fintype.card_fin] at hge
  rw [sum_laneWeights, Fintype.card_fin] at hle
  unfold laneCount at hle hge
  constructor
  · omega
  · omega

theorem accrue_bounds (ready : Lane → Bool) (deficit : Lane → Int) (lane : Lane) :
    deficit lane ≤ accrue laneWeights ready deficit lane ∧
      accrue laneWeights ready deficit lane ≤ deficit lane + 8 := by
  have hweights : ∀ lane, 0 ≤ laneWeights lane ∧ laneWeights lane ≤ 8 := by decide
  have hweight := hweights lane
  unfold accrue
  split
  · constructor
    · omega
    · omega
  · constructor
    · omega
    · omega

/-- Every lane's deficit is within these bounds. -/
def Within (B : Int) (deficit : Lane → Int) : Prop := ∀ lane, -B ≤ deficit lane ∧ deficit lane ≤ B

theorem shortfalls_le_of_within {B : Int} {masks : List (Lane → Bool)}
    (h : Within B (run next default masks).deficit) : default.shortfalls masks ≤ 5 * B := by
  have hsum := sum_deficit_run default masks
  have hzero : ∑ lane, default.deficit lane = 0 := Finset.sum_const_zero
  have hbound : ∑ lane : Lane, -B ≤ ∑ lane, (run next default masks).deficit lane :=
    Finset.sum_le_sum fun lane _ => (h lane).1
  have hconst : ∑ _lane : Lane, -B = 5 * -B := by simp
  rw [hsum, hzero, hconst] at hbound
  linarith

end Deficits

def i32Max : Int := 2 ^ 31 - 1

/-- For every set of runs from the default state: if what is paid and not accrued, that is, the
weights of the lanes that are not ready, added up over the rounds, is at most `K` up to every pick
of every run, and `K + 32` is below the greatest `i32`, then one bound below the greatest `i32`
holds for the deficits in every state reached, and for the sums that a pick forms on the way to
the next one. Where the deficits have any bound, there is such a `K`. -/
theorem deficits_bounded (runs : Set (List (Lane → Bool))) :
    (∀ K, K + 32 < i32Max →
      (∀ masks ∈ runs, ∀ done, done <+: masks → default.shortfalls done ≤ K) →
      ∃ B, B < i32Max ∧ ∀ masks ∈ runs,
        (∀ done, done <+: masks → Within B (run next default done).deficit) ∧
        ∀ done ready, done ++ [ready] <+: masks →
          Within B (accrue laneWeights ready (run next default done).deficit)) ∧
    ∀ B, (∀ masks ∈ runs, ∀ done, done <+: masks → Within B (run next default done).deficit) →
      ∀ masks ∈ runs, ∀ done, done <+: masks → default.shortfalls done ≤ 5 * B := by
  constructor
  · intro K hK hshort
    refine ⟨max (K + 32) 40, max_lt hK (by decide), fun masks hmasks => ⟨?_, ?_⟩⟩
    · intro done hdone lane
      obtain ⟨hge, hle⟩ := deficit_run_bounds done lane
      have hpaid := hshort masks hmasks done hdone
      constructor
      · omega
      · omega
    · intro done ready hdone lane
      obtain ⟨hge, hle⟩ := deficit_run_bounds done lane
      obtain ⟨hmore, hmost⟩ := accrue_bounds ready (run next default done).deficit lane
      have hpaid := hshort masks hmasks done ((List.prefix_append done [ready]).trans hdone)
      constructor
      · omega
      · omega
  · exact fun B hB masks hmasks done hdone => shortfalls_le_of_within (hB masks hmasks done hdone)

/-- Runs in which all lanes are ready at every pick. -/
theorem deficits_bounded_all_ready :
    ∃ B, B < i32Max ∧ ∀ masks ∈ {masks : List (Lane → Bool) | ∀ ready ∈ masks, ready = fun _ => true},
      (∀ done, done <+: masks → Within B (run next default done).deficit) ∧
      ∀ done ready, done ++ [ready] <+: masks →
        Within B (accrue laneWeights ready (run next default done).deficit) := by
  refine (deficits_bounded _).1 0 (by decide) fun masks hmasks done hdone => ?_
  have hready : ∀ ready ∈ done, ready = fun _ => true := fun ready hmem =>
    hmasks ready (hdone.subset hmem)
  generalize default = s
  clear hdone
  induction done generalizing s with
  | nil => exact le_refl 0
  | cons ready done ih =>
    obtain ⟨rfl, hrest⟩ := List.forall_mem_cons.mp hready
    have hhere : s.shortfall (fun _ => true) = 0 := by
      unfold shortfall
      split
      · rfl
      · simp [missing]
    rw [shortfalls, hhere, zero_add]
    exact ih hrest (s.next fun _ => true)

def scan_only : Lane → Bool := fun lane => lane == Priority.scan.lane_index

/-- Alone, a lane pays 16 for every 2 that it accrues. -/
theorem next_alone (d : Int) :
    next ⟨Function.update 0 Priority.scan.lane_index d, 0⟩ scan_only =
      ⟨Function.update 0 Priority.scan.lane_index (d - 14), 0⟩ := by
  have hpick := pick_lane_spec scan_only ⟨Function.update 0 Priority.scan.lane_index d, 0⟩
  unfold next
  generalize pick_lane scan_only _ = picked at hpick
  cases hpick with
  | aged lane hready hage => exact absurd hage (by decide : ¬ maxSkips ≤ 0)
  | won winner hyoung hwins =>
    obtain rfl : winner = Priority.scan.lane_index := by simpa [scan_only] using hwins.is_ready
    have hweight : laneWeights Priority.scan.lane_index = 2 := rfl
    refine congrArg₂ mk (funext fun lane => ?_) (funext fun lane => ?_)
    · by_cases hlane : lane = Priority.scan.lane_index
      · subst hlane
        simp only [pay, accrue, scan_only, Function.update_self, beq_self_eq_true, if_true,
          sum_laneWeights, hweight]
        omega
      · simp [pay, accrue, scan_only, hlane]
    · simp only [scan_only, beq_iff_eq]
      split
      · rfl
      · rfl
  | idle hnone => exact absurd (hnone Priority.scan.lane_index) (by decide)

theorem run_alone (n : Nat) :
    run next default (List.replicate n scan_only) =
      ⟨Function.update 0 Priority.scan.lane_index (-14 * n), 0⟩ := by
  induction n with
  | zero =>
    refine congrArg₂ mk ?_ rfl
    simp
  | succ n ih =>
    rw [List.replicate_succ', run_append, ih, run_cons, run_nil, next_alone]
    refine congrArg₂ mk ?_ rfl
    congr 1
    push_cast
    ring

theorem deficit_alone (n : Nat) :
    (run next default (List.replicate n scan_only)).deficit Priority.scan.lane_index = -14 * n := by
  rw [run_alone]
  dsimp only
  rw [Function.update_self]

/-- The deficit of a lane that is alone falls below every bound, and after 153,391,690 picks below
the smallest 32-bit number. -/
theorem deficit_unbounded :
    (∀ B : Int, ∃ masks, ¬ Within B (run next default masks).deficit) ∧
      (run next default (List.replicate 153391690 scan_only)).deficit Priority.scan.lane_index <
        -2 ^ 31 := by
  refine ⟨fun B => ⟨List.replicate (B.toNat + 1) scan_only, fun hwithin => ?_⟩, ?_⟩
  · have hge := (hwithin Priority.scan.lane_index).1
    rw [deficit_alone] at hge
    have hB := Int.self_le_toNat B
    push_cast at hge
    omega
  · rw [deficit_alone]
    decide

end SchedulerState
