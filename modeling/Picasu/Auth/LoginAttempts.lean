import Picasu.Auth.LoginThrottle
import Picasu.Framework.Run

/-! # Login Attempts at the Throttle

`authenticate` as the throttle sees it. An attempt reserves a slot; if it is let in, its password
is verified while other attempts come and go, and then it ends in one of three ways, each under
the throttle's lock: released and recorded as a failure, released alone, or recorded as a success.
Sweeps run at any time.

An attempt uses the clock reading it began with for all of its calls.
-/

open Ledger LTS

/-- A login attempt: address, claimed name, and the time it began. -/
structure Attempt where
  ip : String
  user : String
  now : Nat
  deriving DecidableEq

/-- The throttle, and the attempts that were let in and have not ended. -/
structure Desk where
  throttle : LoginThrottle
  pending : List Attempt

namespace Desk

/-- One critical section of the throttle's lock. -/
inductive Label where
  | reserve (a : Attempt)
  | fail (a : Attempt) (ip_order user_order : List String)
  | abort (a : Attempt)
  | succeed (a : Attempt)
  | sweep (now : Nat) (ip_order user_order : List String)

/-- The ban that an attempt would be answered with; 0 lets it in. -/
def ban (s : Desk) (a : Attempt) : Nat := (s.throttle.reserve a.ip a.user a.now).1

/-- Only attempts that were let in end. -/
def step (s : Desk) : Label → Desk
  | .reserve a =>
    { throttle := (s.throttle.reserve a.ip a.user a.now).2
      pending := if s.ban a = 0 then a :: s.pending else s.pending }
  | .fail a ip_order user_order =>
    if a ∈ s.pending then
      { throttle := ((s.throttle.release a.ip a.user).record_failure a.ip a.user a.now
          ip_order user_order).2
        pending := s.pending.erase a }
    else s
  | .abort a =>
    if a ∈ s.pending then
      { throttle := s.throttle.release a.ip a.user, pending := s.pending.erase a }
    else s
  | .succeed a =>
    if a ∈ s.pending then
      { throttle := s.throttle.record_success a.ip a.user a.now, pending := s.pending.erase a }
    else s
  | .sweep now ip_order user_order =>
    { s with throttle := s.throttle.sweep now ip_order user_order }

/-! ## The ledger of slots -/

/-- Every address and every name counts for at least the attempts it has in flight. -/
structure Balanced (s : Desk) : Prop where
  ip : Covers s.throttle.ip_in_flight (s.pending.map Attempt.ip)
  user : Covers s.throttle.user_in_flight (s.pending.map Attempt.user)

/-- What a step must not do: let an attempt in past the width of a counter, drop the entry of a name
that other attempts hold, or sweep away an entry that attempts hold. -/
def KeepsSlots (s : Desk) : Label → Prop
  | .reserve a => s.ban a = 0 →
      (s.pending.map Attempt.ip).count a.ip < u32Max ∧
      (s.pending.map Attempt.user).count a.user < u32Max
  | .succeed a => a ∈ s.pending → ∀ b ∈ s.pending.erase a, b.user ≠ a.user
  | .sweep now _ _ => ∀ a ∈ s.pending,
      ((s.throttle.ip.lookup a.ip).all fun e =>
        s.throttle.retains now e.last_seen e.banned_until) = true ∧
      ((s.throttle.user.lookup a.user).all fun e =>
        s.throttle.retains now e.last_seen e.banned_until) = true
  | _ => True

section Steps

variable {s : Desk} {a : Attempt}

theorem pending_perm (ha : a ∈ s.pending) (key : Attempt → String) :
    (s.pending.map key).Perm (key a :: (s.pending.erase a).map key) :=
  (List.perm_cons_erase ha).map key

variable (h : s.Balanced)

include h

/-- Letting an attempt in keeps the balance exactly when both counters have room for it. -/
theorem balanced_reserve_iff : (s.step (.reserve a)).Balanced ↔ s.KeepsSlots (.reserve a) := by
  by_cases hban : s.ban a = 0
  · have hzero : (s.throttle.reserve a.ip a.user a.now).1 = 0 := hban
    have hpending : (s.step (.reserve a)).pending = a :: s.pending := if_pos hban
    -- the new holder is covered too, if there is room for it
    have hip := h.ip.acquire_capped_iff (k := a.ip) (c := u32Max) fun j =>
      (s.throttle.ip_in_flight_reserve a.ip a.user a.now j).trans (by simp only [hzero, true_and])
    have huser := h.user.acquire_capped_iff (k := a.user) (c := u32Max) fun j =>
      (s.throttle.user_in_flight_reserve a.ip a.user a.now j).trans (by simp only [hzero, true_and])
    constructor
    · rintro ⟨hbalip, hbaluser⟩ _
      rw [hpending] at hbalip hbaluser
      exact ⟨hip.mp hbalip, huser.mp hbaluser⟩
    · intro hroom
      constructor
      · rw [hpending]
        exact hip.mpr (hroom hban).1
      · rw [hpending]
        exact huser.mpr (hroom hban).2
  · have hne : (s.throttle.reserve a.ip a.user a.now).1 ≠ 0 := hban
    have hpending : (s.step (.reserve a)).pending = s.pending := if_neg hban
    refine ⟨fun _ hzero => absurd hzero hban, fun _ => ?_⟩
    constructor
    · rw [hpending]
      refine h.ip.mono fun j => ?_
      show _ ≤ (s.throttle.reserve a.ip a.user a.now).2.ip_in_flight j
      rw [s.throttle.ip_in_flight_reserve, if_neg fun hc => hne hc.1]
    · rw [hpending]
      refine h.user.mono fun j => ?_
      show _ ≤ (s.throttle.reserve a.ip a.user a.now).2.user_in_flight j
      rw [s.throttle.user_in_flight_reserve, if_neg fun hc => hne hc.1]

/-- An attempt that ends, giving back its own slot and no other. -/
theorem balanced_end (ha : a ∈ s.pending) {t : LoginThrottle}
    (hip : ∀ k, t.ip_in_flight k = (s.throttle.release a.ip a.user).ip_in_flight k)
    (huser : ∀ k, t.user_in_flight k = (s.throttle.release a.ip a.user).user_in_flight k) :
    Balanced ⟨t, s.pending.erase a⟩ := by
  constructor
  · exact (h.ip.perm (pending_perm ha Attempt.ip)).release_one fun j =>
      (hip j).trans (s.throttle.ip_in_flight_release a.ip a.user j)
  · exact (h.user.perm (pending_perm ha Attempt.user)).release_one fun j =>
      (huser j).trans (s.throttle.user_in_flight_release a.ip a.user j)

/-- A success keeps the balance exactly when no other attempt claims the same name. -/
theorem balanced_succeed_iff (ha : a ∈ s.pending) :
    (s.step (.succeed a)).Balanced ↔ ∀ b ∈ s.pending.erase a, b.user ≠ a.user := by
  have hstep : s.step (.succeed a) =
      ⟨s.throttle.record_success a.ip a.user a.now, s.pending.erase a⟩ := if_pos ha
  have hip : Covers (s.throttle.record_success a.ip a.user a.now).ip_in_flight
      ((s.pending.erase a).map Attempt.ip) :=
    (h.ip.perm (pending_perm ha Attempt.ip)).release_one
      (s.throttle.ip_in_flight_record_success a.ip a.user a.now)
  -- the others are still covered before the name's entry goes
  have hothers : Covers s.throttle.user_in_flight ((s.pending.erase a).map Attempt.user) :=
    (h.user.perm (pending_perm ha Attempt.user)).release (Nat.le_succ _) fun j _ => Nat.le_refl _
  have hdrop := hothers.drop_iff (fun j => j = a.user)
    fun j _ => s.throttle.user_in_flight_record_success a.ip a.user a.now j
  rw [hstep]
  constructor
  · intro hbal b hb
    exact hdrop.mp hbal.user b.user (List.mem_map_of_mem hb)
  · intro hne
    refine ⟨hip, hdrop.mpr ?_⟩
    intro j hj
    obtain ⟨b, hb, rfl⟩ := List.mem_map.mp hj
    exact hne b hb

/-- A sweep keeps the balance exactly when its test spares every entry that attempts hold. -/
theorem balanced_sweep_iff (now : Nat) (ip_order user_order : List String) :
    (s.step (.sweep now ip_order user_order)).Balanced ↔
      s.KeepsSlots (.sweep now ip_order user_order) := by
  have hip := h.ip.drop_iff _ fun j _ => s.throttle.ip_in_flight_sweep now ip_order user_order j
  have huser := h.user.drop_iff _ fun j _ => s.throttle.user_in_flight_sweep now ip_order user_order j
  -- an entry that is not dropped passes the test
  have hspared : ∀ {V : Type} (o : Option V) (p : V → Bool),
      (¬ o.any (fun e => !p e) = true) ↔ o.all p = true := by
    intro V o p
    cases o with
    | none => simp
    | some e => simp
  constructor
  · intro hbal a ha
    exact ⟨(hspared _ _).mp (hip.mp hbal.ip a.ip (List.mem_map_of_mem ha)),
      (hspared _ _).mp (huser.mp hbal.user a.user (List.mem_map_of_mem ha))⟩
  · intro hkeeps
    constructor
    · refine hip.mpr fun j hj => ?_
      obtain ⟨a, ha, rfl⟩ := List.mem_map.mp hj
      exact (hspared _ _).mpr (hkeeps a ha).1
    · refine huser.mpr fun j hj => ?_
      obtain ⟨a, ha, rfl⟩ := List.mem_map.mp hj
      exact (hspared _ _).mpr (hkeeps a ha).2

/-- One step keeps the balance exactly when it keeps the slots of others. -/
theorem balanced_step_iff (l : Label) : (s.step l).Balanced ↔ s.KeepsSlots l := by
  cases l with
  | reserve a => exact balanced_reserve_iff h
  | fail a ip_order user_order =>
    refine ⟨fun _ => trivial, fun _ => ?_⟩
    by_cases ha : a ∈ s.pending
    · simp only [step, if_pos ha]
      exact balanced_end h ha
        (fun k => LoginThrottle.ip_in_flight_record_failure _ a.ip a.user a.now _ _ k)
        (fun k => LoginThrottle.user_in_flight_record_failure _ a.ip a.user a.now _ _ k)
    · simpa only [step, if_neg ha] using h
  | abort a =>
    refine ⟨fun _ => trivial, fun _ => ?_⟩
    by_cases ha : a ∈ s.pending
    · simp only [step, if_pos ha]
      exact balanced_end h ha (fun _ => rfl) (fun _ => rfl)
    · simpa only [step, if_neg ha] using h
  | succeed a =>
    by_cases ha : a ∈ s.pending
    · rw [balanced_succeed_iff h ha]
      exact ⟨fun hne _ => hne, fun hkeeps => hkeeps ha⟩
    · have hsame : s.step (.succeed a) = s := if_neg ha
      rw [hsame]
      exact ⟨fun _ hmem => absurd hmem ha, fun _ => h⟩
  | sweep now ip_order user_order => exact balanced_sweep_iff h now ip_order user_order

end Steps

/-! ## Whole runs -/

/-- No count ever falls below the attempts in flight exactly when no step of the run takes a slot
away from an attempt that holds it: no success drops the entry of a name that other attempts
hold, no sweep an entry that attempts hold, and no attempt is let in past the width of a
counter. -/
theorem slots_never_under_counted_iff (s : Desk) (labels : List Label) (h0 : s.Balanced) :
    (∀ done, done <+: labels → (run step s done).Balanced) ↔
      ∀ done l, done ++ [l] <+: labels → (run step s done).KeepsSlots l :=
  run_invariant_iff h0 fun _ l _ hbal => balanced_step_iff hbal l

/-! ### Two attempts on one name -/

def shipped : LoginThrottle where
  ip := ∅
  user := ∅
  ip_short := ⟨600, 3, 10, 28800, by decide, by decide, by decide, by decide⟩
  ip_long := ⟨86400, 16, 1800, 28800, by decide, by decide, by decide, by decide⟩
  user_long := ⟨86400, 18, 1800, 7200, by decide, by decide, by decide, by decide⟩
  longest_window := 86400

theorem new_shipped : LoginThrottle.new (600, 3, 10, 28800) (86400, 16, 1800, 28800)
    (86400, 18, 1800, 7200) = .ok shipped := rfl

theorem balanced_empty (t : LoginThrottle) : Balanced ⟨t, []⟩ :=
  ⟨fun _ => Nat.zero_le _, fun _ => Nat.zero_le _⟩

/-- Attempts on two names: one fails, a sweep passes, one succeeds. -/
theorem slots_counted_two_names :
    let ann : Attempt := ⟨"10.0.0.1", "ann", 1000⟩
    let bob : Attempt := ⟨"10.0.0.1", "bob", 1000⟩
    let labels := [.reserve ann, .reserve bob, .sweep 1060 [] [], .succeed ann, .fail bob [] []]
    Balanced ⟨shipped, []⟩ ∧
      ∀ done, done <+: labels → (run step ⟨shipped, []⟩ done).Balanced := by
  refine ⟨balanced_empty shipped, ?_⟩
  refine (slots_never_under_counted_iff _ _ (balanced_empty shipped)).mpr ?_
  simp only [forall_step_cons (C := KeepsSlots), forall_step_nil (C := KeepsSlots)]
  simp only [KeepsSlots]
  decide +kernel

/-- Two attempts on the name `ann` are in flight; when one succeeds, the other no longer counts. -/
theorem slot_lost_by_success :
    let ann : Attempt := ⟨"10.0.0.1", "ann", 1000⟩
    let s := run step ⟨shipped, []⟩ [.reserve ann, .reserve ann, .succeed ann]
    LoginThrottle.new (600, 3, 10, 28800) (86400, 16, 1800, 28800) (86400, 18, 1800, 7200) =
        .ok shipped ∧
      s.pending = [ann] ∧ s.throttle.user_in_flight "ann" = 0 ∧ ¬ s.Balanced := by
  refine ⟨rfl, by decide +kernel, by decide +kernel, fun hbal => ?_⟩
  exact absurd (hbal.user "ann") (by decide +kernel)

end Desk
