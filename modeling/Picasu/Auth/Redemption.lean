import Picasu.Auth.Invites

/-! # Failed Redemptions

A redemption that is told why it failed (no such invite, used, expired, bound to somebody else, id
taken) has left no trace: the invites and the accounts are those of the run in which the call was
never made.

The errors of these kinds come from before the invites transaction commits. There is a later one,
when another call has taken the id between the commit and the insertion of the account. It is a
conflict in the user store, but the caller gets it as an I/O error, and the invite stays consumed.
-/

open LTS

namespace Invites

/-- The redemption that a step belongs to. -/
def Label.call : Label → Option Nat
  | .start call .. | .mark call _ | .finish call _ => some call
  | .create .. | .revoke _ | .store _ => none

/-- The steps of all but one redemption. -/
def without (i : Nat) (labels : List Label) : List Label := labels.filter fun l => l.call ≠ some i

/-- The kinds of error that say why an invite was not redeemed. -/
def Refusal (e : AppError) : Prop := e.kind ∈ [.notFound, .conflict, .permissionDenied]

/-- The call is past its invites transaction, or it has ended with something else than a refusal. -/
def Phase.Consumed : Phase → Prop
  | .marked _ _ | .done (.ok _) => True
  | .done (.error e) => ¬ Refusal e
  | .idle | .checked _ _ => False

theorem not_refusal_insert_error (e : AppError) : ¬ Refusal (redeem_insert_error e) := by
  simp [Refusal, redeem_insert_error, AppError.new]

/-- The same stores, and the same calls but for one. -/
structure SameBut (i : Nat) (s t : State) : Prop where
  rows : s.rows = t.rows
  users : s.users = t.users
  calls : ∀ j, j ≠ i → s.calls j = t.calls j

section Steps

variable {policy : Policy} {hash_token : String → String} {s t : State} {i : Nat} {l : Label}

theorem calls_setCall_self (s : State) (i : Nat) (phase : Phase) :
    (s.setCall i phase).calls i = phase :=
  Function.update_self _ _ _

theorem SameBut.setCall_left (h : SameBut i s t) (phase : Phase) :
    SameBut i (s.setCall i phase) t :=
  ⟨h.rows, h.users, fun j hj => (Function.update_of_ne hj _ _).trans (h.calls j hj)⟩

theorem SameBut.setCall_both (h : SameBut i s t) (j : Nat) (phase : Phase) :
    SameBut i (s.setCall j phase) (t.setCall j phase) := by
  refine ⟨h.rows, h.users, fun k hk => ?_⟩
  by_cases hkj : k = j
  · simp only [State.setCall, hkj, Function.update_self]
  · simp only [State.setCall, Function.update_of_ne hkj, h.calls k hk]

/-- A step of another call, or of none, goes on as it would without the call. -/
theorem SameBut.step_both (h : SameBut i s t) (hl : l.call ≠ some i) :
    SameBut i (step policy hash_token s l) (step policy hash_token t l) := by
  cases l with
  | start j user_id token =>
    have hj : j ≠ i := fun hj => hl (congrArg some hj)
    simp only [step, ← h.calls j hj, ← h.users]
    split
    · split
      · exact h.setCall_both _ _
      · exact h.setCall_both _ _
    · exact h
  | mark j now =>
    have hj : j ≠ i := fun hj => hl (congrArg some hj)
    simp only [step, ← h.calls j hj, ← h.users, ← h.rows]
    split
    · split
      · exact h.setCall_both _ _
      · exact ⟨rfl, h.users, (h.setCall_both _ _).calls⟩
    · exact h
  | finish j hash =>
    have hj : j ≠ i := fun hj => hl (congrArg some hj)
    simp only [step, ← h.calls j hj, ← h.users]
    split
    · split
      · exact h.setCall_both _ _
      · exact ⟨h.rows, rfl, (h.setCall_both _ _).calls⟩
    · exact h
  | create created_by expires_at username token =>
    simp only [step, ← h.rows]
    split
    · exact h
    · exact ⟨rfl, h.users, h.calls⟩
  | revoke invite_id =>
    exact ⟨congrArg (fun rows => (revoke_invite invite_id rows).2) h.rows, h.users, h.calls⟩
  | store op => exact ⟨h.rows, congrArg (UserStore.exec policy · op) h.users, h.calls⟩

/-- A step of the call itself leaves the stores alone, or consumes. -/
theorem step_self (h : SameBut i s t) (hl : l.call = some i) (hphase : ¬ (s.calls i).Consumed) :
    ((step policy hash_token s l).calls i).Consumed ∨ SameBut i (step policy hash_token s l) t := by
  cases l with
  | start j user_id token =>
    obtain rfl : j = i := Option.some.inj hl
    simp only [step]
    split
    · split
      · exact Or.inr (h.setCall_left _)
      · exact Or.inr (h.setCall_left _)
    · exact Or.inr h
  | mark j now =>
    obtain rfl : j = i := Option.some.inj hl
    simp only [step]
    split
    · split
      · exact Or.inr (h.setCall_left _)
      refine Or.inl ?_
      show ((s.setCall j _).calls j).Consumed
      rw [calls_setCall_self]
      trivial
    · exact Or.inr h
  | finish j hash =>
    obtain rfl : j = i := Option.some.inj hl
    simp only [step]
    split
    · rename_i id token hcall
      rw [hcall] at hphase
      exact absurd trivial hphase
    · exact Or.inr h
  | create | revoke | store => cases hl

theorem consumed_setCall {j : Nat} {phase : Phase} (h : (s.calls i).Consumed)
    (hphase : j = i → phase.Consumed) : ((s.setCall j phase).calls i).Consumed := by
  by_cases hij : i = j
  · subst hij
    rw [calls_setCall_self]
    exact hphase rfl
  · simpa only [State.setCall, Function.update_of_ne hij] using h

/-- What is consumed stays so. A call that fails from here on does it with an I/O error. -/
theorem consumed_step (h : (s.calls i).Consumed) :
    ((step policy hash_token s l).calls i).Consumed := by
  cases l with
  | start j user_id token =>
    simp only [step]
    split
    · rename_i hcall
      have hij : j ≠ i := by
        rintro rfl
        rw [hcall] at h
        exact h
      split
      · exact consumed_setCall h fun hj => absurd hj hij
      · exact consumed_setCall h fun hj => absurd hj hij
    · exact h
  | mark j now =>
    simp only [step]
    split
    · rename_i id token hcall
      split
      · refine consumed_setCall h ?_
        rintro rfl
        rw [hcall] at h
        exact h.elim
      · exact consumed_setCall h fun _ => trivial
    · exact h
  | finish j hash =>
    simp only [step]
    split
    · split
      · exact consumed_setCall h fun _ => not_refusal_insert_error _
      · exact consumed_setCall h fun _ => trivial
    · exact h
  | create created_by expires_at username token =>
    simp only [step]
    split
    · exact h
    · exact h
  | revoke | store => exact h

end Steps

/-- In every interleaving of redemptions with each other, with new invites, revocations and calls of
the user store: if a redemption has ended with an error of kind not found, conflict or
permission denied, then the invites and the accounts are those that the other steps alone lead
to. -/
theorem failed_redeem_consumes_nothing (policy : Policy) (hash_token : String → String)
    (rows : Rows) (users : Users) (labels : List Label) (i : Nat) (e : AppError)
    (hdone : (run (step policy hash_token) (init rows users) labels).calls i = .done (.error e))
    (he : Refusal e) :
    (run (step policy hash_token) (init rows users) labels).rows =
        (run (step policy hash_token) (init rows users) (without i labels)).rows ∧
      (run (step policy hash_token) (init rows users) labels).users =
        (run (step policy hash_token) (init rows users) (without i labels)).users := by
  have hrun : ((run (step policy hash_token) (init rows users) labels).calls i).Consumed ∨
      SameBut i (run (step policy hash_token) (init rows users) labels)
        (run (step policy hash_token) (init rows users) (without i labels)) := by
    refine run_induction (Q := fun pre s => (s.calls i).Consumed ∨
      SameBut i s (run (step policy hash_token) (init rows users) (without i pre)))
      (Or.inr ⟨rfl, rfl, fun _ _ => rfl⟩) ?_
    intro pre l _ hor
    by_cases hphase : ((run (step policy hash_token) (init rows users) pre).calls i).Consumed
    · exact Or.inl (consumed_step hphase)
    have hsame := hor.resolve_left hphase
    by_cases hl : l.call = some i
    · rw [show without i (pre ++ [l]) = without i pre by simp [without, hl]]
      exact step_self hsame hl hphase
    · rw [show without i (pre ++ [l]) = without i pre ++ [l] by simp [without, hl], run_append]
      exact Or.inr (hsame.step_both hl)
  rcases hrun with hconsumed | hsame
  · rw [hdone] at hconsumed
    exact absurd he hconsumed
  · exact ⟨hsame.rows, hsame.users⟩

/-- `bob` comes second and is refused; the stores are those of `ann`'s redemption alone. -/
theorem failed_redeem_consumes_nothing_second :
    let labels : List Label :=
      [.create "root" none none "tok", .start 0 "ann" "tok", .start 1 "bob" "tok", .mark 0 10,
        .mark 1 11, .finish 0 "phc"]
    let next := step .plain (fun token => "h:" ++ token)
    (run next (init ∅ ∅) labels).users.lookup "ann" ≠ none ∧
      (run next (init ∅ ∅) labels).rows = (run next (init ∅ ∅) (without 1 labels)).rows ∧
      (run next (init ∅ ∅) labels).users = (run next (init ∅ ∅) (without 1 labels)).users := by
  refine ⟨by decide +kernel,
    failed_redeem_consumes_nothing _ _ _ _ _ 1 UserStore.registrationConflict ?_ ?_⟩
  · rfl
  · exact List.mem_cons_of_mem _ List.mem_cons_self

end Invites
