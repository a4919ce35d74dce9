import Mathlib.Data.List.Induction

/-! # Runs of a Transition Function

A transition system given by a function `next : State → Label → State`: a label is one atomic
step, with everything the environment chooses for it (arguments, clock readings, which caller
moves), and a *run* is the fold of `next` over a list of labels. Any interleaving of any number of
callers is one such list, so a statement over all lists of labels is a statement over all
interleavings.

The rules below are the only inductions over runs:

* `run_induction` carries a property of the labels taken so far and the state they lead to;
* `run_invariant` is its special case for a state invariant;
* `run_invariant_iff` characterises the runs that keep an invariant by a condition on the single
  steps, for a condition that is exact;
* `exists_step_of_measure` finds a step of some kind in a run that is longer than a measure which
  every other step lowers.

`forall_step_cons` takes a condition on the steps of a given run apart, one step at a time, and
`forall_prefix_cons` one on its states.
-/

namespace LTS

variable {State Label : Type} (next : State → Label → State)

/-- The state after taking the steps `ls` from `s`. -/
def run (s : State) (ls : List Label) : State := ls.foldl next s

@[simp] theorem run_nil (s : State) : run next s [] = s := rfl

@[simp] theorem run_cons (s : State) (l : Label) (ls : List Label) :
    run next s (l :: ls) = run next (next s l) ls := rfl

@[simp] theorem run_append (s : State) (ls ls' : List Label) :
    run next s (ls ++ ls') = run next (run next s ls) ls' :=
  List.foldl_append

variable {next} {s : State} {ls : List Label} {I : State → Prop} {C : State → Label → Prop}

/-- Induction along a run: `Q` holds of no labels and the first state, and every step of the run
carries it on. The step may use that the labels taken so far are a prefix of the run. -/
theorem run_induction {Q : List Label → State → Prop} (h0 : Q [] s)
    (hstep : ∀ pre l, pre ++ [l] <+: ls → Q pre (run next s pre) →
      Q (pre ++ [l]) (next (run next s pre) l)) :
    Q ls (run next s ls) := by
  suffices h : ∀ pre, pre <+: ls → Q pre (run next s pre) from h ls (List.prefix_refl ls)
  intro pre
  -- the labels taken so far grow at their end, as a run does
  induction pre using List.reverseRecOn with
  | nil => exact fun _ => h0
  | append_singleton pre l ih =>
    intro hpre
    rw [run_append]
    exact hstep pre l hpre (ih ((List.prefix_append pre [l]).trans hpre))

/-- A state property that every step of a run keeps holds after the run. -/
theorem run_invariant (h0 : I s) (hstep : ∀ t, ∀ l ∈ ls, I t → I (next t l)) :
    I (run next s ls) :=
  run_induction (Q := fun _ t => I t) h0 fun _ l hpre hinv => hstep _ l (hpre.subset (by simp)) hinv

/-- If, in every state of the run that satisfies the invariant, the next step keeps it exactly when
the step meets `C`, then the run keeps the invariant throughout exactly when its every step
meets `C`. -/
theorem run_invariant_iff (h0 : I s) (hstep : ∀ pre l, pre ++ [l] <+: ls → I (run next s pre) →
      (I (next (run next s pre) l) ↔ C (run next s pre) l)) :
    (∀ pre, pre <+: ls → I (run next s pre)) ↔
      ∀ pre l, pre ++ [l] <+: ls → C (run next s pre) l := by
  constructor
  · intro hinv pre l hpre
    have hbefore := hinv pre ((List.prefix_append pre [l]).trans hpre)
    have hafter := hinv (pre ++ [l]) hpre
    rw [run_append] at hafter
    exact (hstep pre l hpre hbefore).mp hafter
  · intro hgood pre hpre
    refine run_induction (Q := fun _ t => I t) h0 fun done l hdone hinv => ?_
    have hin : done ++ [l] <+: ls := hdone.trans hpre
    exact (hstep done l hin hinv).mpr (hgood done l hin)

/-- A measure that every step lowers, except those of one kind: a run that is longer than the
measure has a step of that kind. -/
theorem exists_step_of_measure {G : State → Label → Prop} {μ : State → Nat} (h0 : I s)
    (hinv : ∀ t, ∀ l ∈ ls, I t → I (next t l))
    (hdrop : ∀ t, ∀ l ∈ ls, I t → ¬ G t l → μ (next t l) < μ t) (hlong : μ s < ls.length) :
    ∃ pre l, pre ++ [l] <+: ls ∧ G (run next s pre) l := by
  induction ls generalizing s with
  | nil => exact absurd hlong (Nat.not_lt_zero _)
  | cons l ls ih =>
    by_cases hgood : G s l
    · exact ⟨[], l, by simp, hgood⟩
    have hhere := hdrop s l List.mem_cons_self h0 hgood
    rw [List.length_cons] at hlong
    obtain ⟨pre, l', hpre, hfound⟩ := ih (hinv s l List.mem_cons_self h0)
      (fun t l' hl' => hinv t l' (List.mem_cons_of_mem l hl'))
      (fun t l' hl' => hdrop t l' (List.mem_cons_of_mem l hl')) (by omega)
    exact ⟨l :: pre, l', List.cons_prefix_cons.mpr ⟨rfl, hpre⟩, hfound⟩

/-! ## Given runs -/

theorem forall_step_nil :
    (∀ pre l, pre ++ [l] <+: [] → C (run next s pre) l) ↔ True := by
  simp

/-- Every step of a run meets `C`: the first does, and every later one. -/
theorem forall_step_cons {l₀ : Label} :
    (∀ pre l, pre ++ [l] <+: l₀ :: ls → C (run next s pre) l) ↔
      C s l₀ ∧ ∀ pre l, pre ++ [l] <+: ls → C (run next (next s l₀) pre) l := by
  constructor
  · intro h
    refine ⟨h [] l₀ (by simp), fun pre l hpre => h (l₀ :: pre) l ?_⟩
    rw [List.cons_append]
    exact (List.cons_prefix_cons).mpr ⟨rfl, hpre⟩
  · rintro ⟨hfirst, hrest⟩ pre l hpre
    cases pre with
    | nil =>
      obtain rfl : l = l₀ := (List.cons_prefix_cons.mp hpre).1
      exact hfirst
    | cons l₁ pre =>
      obtain ⟨rfl, htail⟩ := List.cons_prefix_cons.mp hpre
      exact hrest pre l htail

theorem forall_prefix_nil :
    (∀ pre, pre <+: [] → I (run next s pre)) ↔ I s := by
  simp

/-- Every state of a run has the property: the first does, and every later one. -/
theorem forall_prefix_cons {l₀ : Label} :
    (∀ pre, pre <+: l₀ :: ls → I (run next s pre)) ↔
      I s ∧ ∀ pre, pre <+: ls → I (run next (next s l₀) pre) := by
  constructor
  · intro h
    exact ⟨h [] List.nil_prefix, fun pre hpre =>
      h (l₀ :: pre) (List.cons_prefix_cons.mpr ⟨rfl, hpre⟩)⟩
  · rintro ⟨hfirst, hrest⟩ pre hpre
    cases pre with
    | nil => exact hfirst
    | cons l₁ pre =>
      obtain ⟨rfl, htail⟩ := List.cons_prefix_cons.mp hpre
      exact hrest pre htail

end LTS
