import Picasu.Auth.LoginAttempts

/-! # Bursts of Parallel Attempts

Many attempts from one address at one moment. What the throttle allows is a number of guesses per
address; running them in parallel must not multiply it. So the bound is on how many attempts are
*let in*, over every order in which attempts arrive and earlier ones end in failure.

The argument is one equation. As long as the address's short bucket does not ban, every attempt
let in so far is either still in flight or one of the failures the bucket remembers. The bucket
lets the sum grow to two past its threshold: one that finds the threshold exactly exceeded by the
others would open the free rung of the schedule. The failure that crosses the threshold opens a
ban, and from then on nobody is let in.
-/

open LTS

namespace Desk

/-- How many attempts a step lets in. -/
def letsIn (s : Desk) : Label → Nat
  | .reserve a => if s.ban a = 0 then 1 else 0
  | _ => 0

/-- How many attempts a run lets in. -/
def admitted : Desk → List Label → Nat
  | _, [] => 0
  | s, l :: labels => s.letsIn l + admitted (s.step l) labels

theorem admitted_append (s : Desk) (labels : List Label) (l : Label) :
    s.admitted (labels ++ [l]) = s.admitted labels + (run step s labels).letsIn l := by
  induction labels generalizing s with
  | nil => simp [admitted]
  | cons l₀ labels ih =>
    show s.letsIn l₀ + (s.step l₀).admitted (labels ++ [l]) = _
    rw [ih]
    simp only [admitted, run_cons]
    omega

/-- The steps of a burst from the address `p` at the time `now`: attempts arrive, and attempts end
in failure. -/
def InBurst (p : String) (now : Nat) : Label → Prop
  | .reserve a => a.ip = p ∧ a.now = now
  | .fail a _ _ => a.ip = p ∧ a.now = now
  | _ => False

/-- What holds during a burst that has let `n` attempts in: never more than two past the threshold,
and unless the short bucket bans, each of them is in flight or remembered. -/
structure Burst (p : String) (now threshold n : Nat) (s : Desk) : Prop where
  room : s.throttle.ip.RoomFor maxEntries p
  threshold_eq : (s.throttle.ip_entry p).short.max_failures = threshold
  bounded : n ≤ threshold + 2
  accounted : (s.throttle.ip_entry p).short.ban_until ≤ now →
    ∃ f, (s.throttle.ip_entry p).short.failures = List.replicate f now ∧ f ≤ threshold ∧
      (s.throttle.ip_entry p).in_flight = s.pending.length ∧ n = f + s.pending.length

section Steps

variable {p : String} {now threshold n : Nat} {s : Desk} {a : Attempt}

theorem crowded_two_past {b : Bucket} {f others : Nat} (hf : b.failures = List.replicate f now)
    (hle : f ≤ b.max_failures) (hsum : f + others = b.max_failures + 2)
    (hwidth : b.max_failures + 2 ≤ u32Max) : 0 < LoginThrottle.crowded now b others := by
  have hcount := Bucket.failure_count_replicate hf
  -- far from the end of the 64-bit range
  have hothers : saturating_add f others = f + others := saturating_add_of_le_u32Max (by omega)
  have hall : saturating_add f (others + 1) = f + (others + 1) :=
    saturating_add_of_le_u32Max (by omega)
  unfold LoginThrottle.crowded
  rw [hcount, hothers, if_neg (by omega), if_pos (by omega)]
  unfold Bucket.peek_ban
  split
  · assumption
  · rw [hcount, hall, Bucket.ban_for_count_pos_iff]
    omega

variable (h : Burst p now threshold n s)

include h

theorem burst_reserve (hwidth : threshold + 2 ≤ u32Max) (hip : a.ip = p) (hnow : a.now = now) :
    Burst p now threshold (n + s.letsIn (.reserve a)) (s.step (.reserve a)) := by
  subst hip hnow
  have hentry := s.throttle.ip_entry_reserve a.ip a.user a.now
  have hshort : ((s.step (.reserve a)).throttle.ip_entry a.ip).short =
      (s.throttle.ip_entry a.ip).short := by
    show ((s.throttle.reserve a.ip a.user a.now).2.ip_entry a.ip).short = _
    rw [hentry]
  have hroom : (s.step (.reserve a)).throttle.ip.RoomFor maxEntries a.ip :=
    LoginThrottle.roomFor_reserve h.room a.user a.now
  by_cases hban : s.ban a = 0
  · have hzero : (s.throttle.reserve a.ip a.user a.now).1 = 0 := hban
    have hin : s.letsIn (.reserve a) = 1 := if_pos hban
    have hpending : (s.step (.reserve a)).pending = a :: s.pending := if_pos hban
    have hflight : ((s.step (.reserve a)).throttle.ip_entry a.ip).in_flight =
        min ((s.throttle.ip_entry a.ip).in_flight + 1) u32Max := by
      show ((s.throttle.reserve a.ip a.user a.now).2.ip_entry a.ip).in_flight = _
      rw [hentry]
      exact if_pos hzero
    -- whoever is let in met no ban, so everybody before them is accounted for
    have hopen : (s.throttle.ip_entry a.ip).short.ban_until ≤ a.now := by
      by_contra hlive
      refine LoginThrottle.reserve_ne_zero a.user (.inl ?_) hzero
      unfold Bucket.ban_remaining
      omega
    obtain ⟨f, hf, hfle, hk, hn⟩ := h.accounted hopen
    have hnot : n ≠ threshold + 2 := by
      intro htwo
      refine LoginThrottle.reserve_ne_zero a.user (.inr ?_) hzero
      rw [← h.threshold_eq] at htwo hfle hwidth
      exact crowded_two_past hf hfle (by omega) hwidth
    have hbounded := h.bounded
    refine ⟨hroom, by rw [hshort]; exact h.threshold_eq, by omega, fun _ => ?_⟩
    refine ⟨f, by rw [hshort]; exact hf, hfle, ?_, ?_⟩
    · rw [hflight, hpending, List.length_cons]
      omega
    · rw [hpending, List.length_cons]
      omega
  · have hne : (s.throttle.reserve a.ip a.user a.now).1 ≠ 0 := hban
    have hin : s.letsIn (.reserve a) = 0 := if_neg hban
    have hpending : (s.step (.reserve a)).pending = s.pending := if_neg hban
    have hflight : ((s.step (.reserve a)).throttle.ip_entry a.ip).in_flight =
        (s.throttle.ip_entry a.ip).in_flight := by
      show ((s.throttle.reserve a.ip a.user a.now).2.ip_entry a.ip).in_flight = _
      rw [hentry]
      exact if_neg hne
    rw [hin]
    refine ⟨hroom, by rw [hshort]; exact h.threshold_eq, h.bounded, ?_⟩
    rw [hshort, hflight, hpending]
    exact h.accounted

theorem burst_fail (hclock : now < u64Max) (ip_order user_order : List String) (hip : a.ip = p)
    (hnow : a.now = now) : Burst p now threshold n (s.step (.fail a ip_order user_order)) := by
  subst hip hnow
  by_cases ha : a ∈ s.pending
  swap
  · have hsame : s.step (.fail a ip_order user_order) = s := if_neg ha
    rw [hsame]
    exact h
  have hstep : s.step (.fail a ip_order user_order) =
      ⟨((s.throttle.release a.ip a.user).record_failure a.ip a.user a.now ip_order user_order).2,
        s.pending.erase a⟩ := if_pos ha
  have hreleased : (s.throttle.release a.ip a.user).ip.RoomFor maxEntries a.ip := h.room.rewriteAt _
  have hentry : ((s.step (.fail a ip_order user_order)).throttle.ip_entry a.ip) =
      IpEntry.fail { s.throttle.ip_entry a.ip with
        in_flight := (s.throttle.ip_entry a.ip).in_flight - 1 } a.now := by
    rw [hstep, LoginThrottle.ip_entry_record_failure hreleased, LoginThrottle.ip_entry_release]
  have hshort : ((s.step (.fail a ip_order user_order)).throttle.ip_entry a.ip).short =
      ((s.throttle.ip_entry a.ip).short.record_failure a.now).2 := by
    rw [hentry]
    rfl
  have hflight : ((s.step (.fail a ip_order user_order)).throttle.ip_entry a.ip).in_flight =
      (s.throttle.ip_entry a.ip).in_flight - 1 := by
    rw [hentry]
    rfl
  have hpending : (s.step (.fail a ip_order user_order)).pending.length + 1 = s.pending.length := by
    have hpos : 0 < s.pending.length := List.length_pos_of_mem ha
    rw [hstep, List.length_erase_of_mem ha]
    omega
  constructor
  · rw [hstep]
    exact LoginThrottle.roomFor_record_failure hreleased a.user a.now ip_order user_order
  · rw [hshort, Bucket.max_failures_record_failure]
    exact h.threshold_eq
  · exact h.bounded
  · rw [hshort, hflight]
    intro hopen
    by_cases hlive : a.now < (s.throttle.ip_entry a.ip).short.ban_until
    · rw [Bucket.record_failure_banned hlive] at hopen
      omega
    · obtain ⟨f, hf, hfle, hk, hn⟩ := h.accounted (Nat.le_of_not_lt hlive)
      -- the failure that crosses the threshold would have opened a ban
      have hbelow : f < (s.throttle.ip_entry a.ip).short.max_failures := by
        rw [h.threshold_eq]
        by_contra hcross
        have hlater := Bucket.record_failure_crossing hf (Nat.le_of_not_lt hlive)
          (by rw [h.threshold_eq]; omega) hclock
        omega
      rw [Bucket.record_failure_below hf (Nat.le_of_not_lt hlive) hbelow]
      rw [h.threshold_eq] at hbelow
      exact ⟨f + 1, rfl, hbelow, by omega, by omega⟩

theorem burst_step {l : Label} (hclock : now < u64Max) (hwidth : threshold + 2 ≤ u32Max)
    (hl : InBurst p now l) : Burst p now threshold (n + s.letsIn l) (s.step l) := by
  cases l with
  | reserve a => exact burst_reserve h hwidth hl.1 hl.2
  | fail a ip_order user_order => exact burst_fail h hclock ip_order user_order hl.1 hl.2
  | abort a | succeed a | sweep now ip_order user_order => exact hl.elim

end Steps

/-- From a throttle that does not know the address `p` and has room for it, a burst from `p` at one
moment lets in at most two attempts more than the threshold of the short schedule, in whatever
order attempts arrive and fail, and whatever names they claim. The clock must not be at its end,
and the threshold must leave the 32-bit counter room for two more. -/
theorem admitted_burst_le (t : LoginThrottle) (p : String) (now : Nat) (labels : List Label)
    (hunknown : t.ip.lookup p = none) (hkeys : t.ip.entries.length < maxEntries)
    (hclock : now < u64Max) (hwidth : t.ip_short.max_failures + 2 ≤ u32Max)
    (hburst : ∀ l ∈ labels, InBurst p now l) :
    admitted ⟨t, []⟩ labels ≤ t.ip_short.max_failures + 2 := by
  have hentry : (t.ip_entry p).short = t.ip_short.build := by
    unfold LoginThrottle.ip_entry
    rw [hunknown]
    rfl
  have hfirst : Burst p now t.ip_short.max_failures 0 ⟨t, []⟩ := by
    refine ⟨Table.roomFor_of_lt p hkeys, by rw [hentry]; rfl, Nat.zero_le _, fun _ => ?_⟩
    refine ⟨0, by rw [hentry]; rfl, Nat.zero_le _, ?_, rfl⟩
    unfold LoginThrottle.ip_entry
    rw [hunknown]
    rfl
  have hlast : Burst p now t.ip_short.max_failures (admitted ⟨t, []⟩ labels)
      (run step ⟨t, []⟩ labels) := by
    refine run_induction
      (Q := fun done s => Burst p now t.ip_short.max_failures (admitted ⟨t, []⟩ done) s) hfirst ?_
    intro done l hdone h
    rw [admitted_append]
    exact burst_step h hclock hwidth (hburst l (hdone.subset (by simp)))
  exact hlast.bounded

/-- The shipped schedule allows 3 failures. Of seven attempts on seven names, with three failing in
between, exactly five are let in. -/
theorem admitted_burst_le_shipped :
    let guess (name : String) : Attempt := ⟨"10.0.0.1", name, 1000⟩
    let labels := [.reserve (guess "a"), .reserve (guess "b"), .fail (guess "a") [] [],
      .reserve (guess "c"), .reserve (guess "d"), .fail (guess "c") [] [], .reserve (guess "e"),
      .reserve (guess "f"), .fail (guess "b") [] [], .reserve (guess "g")]
    admitted ⟨shipped, []⟩ labels = 5 ∧
      admitted ⟨shipped, []⟩ labels ≤ shipped.ip_short.max_failures + 2 := by
  refine ⟨by decide +kernel, ?_⟩
  refine admitted_burst_le shipped "10.0.0.1" 1000 _ rfl (by decide) (by decide) (by decide) ?_
  simp [InBurst]

/-- At the very end of the clock a ban ends as it begins: one guess after the other is let in, four
of them past a threshold of 1. -/
theorem admitted_at_end_of_clock :
    let t : LoginThrottle :=
      { ip := ∅
        user := ∅
        ip_short := ⟨60, 1, 5, 50, by decide, by decide, by decide, by decide⟩
        ip_long := ⟨1000, 100, 7, 40, by decide, by decide, by decide, by decide⟩
        user_long := ⟨1000, 100, 3, 30, by decide, by decide, by decide, by decide⟩
        longest_window := 1000 }
    let guess : Attempt := ⟨"10.0.0.1", "ann", u64Max⟩
    let labels := [.reserve guess, .fail guess [] [], .reserve guess, .fail guess [] [],
      .reserve guess, .fail guess [] [], .reserve guess, .fail guess [] []]
    LoginThrottle.new (60, 1, 5, 50) (1000, 100, 7, 40) (1000, 100, 3, 30) = .ok t ∧
      t.ip.lookup "10.0.0.1" = none ∧ (∀ l ∈ labels, InBurst "10.0.0.1" u64Max l) ∧
      ¬ admitted ⟨t, []⟩ labels ≤ t.ip_short.max_failures + 2 := by
  refine ⟨rfl, rfl, by simp [InBurst], by decide +kernel⟩

end Desk
