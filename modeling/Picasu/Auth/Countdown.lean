import Picasu.Auth.ThrottleRuns

/-! # The Countdown

`remaining` tells a client how many more failures it has. It looks at the failures in the three
windows, not at the bans, and is meant to report 0 during one. As long as no ban is live it counts
down as it should: so many failures are answered with 0, and the next one with a ban.

A ban can outlive the failures that opened it. The allowance of a bucket is used up until its last
failures but so many leave the window (`Bucket.free_at`). A ban that ends later than that, in all
three buckets, is reported together with a positive countdown (`countdown_during_ban`).
-/

open SlidingWindow LTS

/-! ## One bucket -/

namespace Bucket

/-- The time until which the failures in the window use up the allowance. -/
def free_at (b : Bucket) : Nat :=
  (b.failures.reverse[b.max_failures - 1]?).elim 0 fun old => old + b.window_secs

/-- No ban, and no more failures in the window than the schedule allows. -/
structure Open (cfg : BucketCfg) (now : Nat) (b : Bucket) : Prop where
  cfg_eq : b.toBucketCfg = cfg
  timely : b.Timely now
  free : b.ban_until ≤ now
  few : b.failure_count now ≤ cfg.max_failures

variable {cfg : BucketCfg} {b : Bucket} {now clock : Nat}

theorem lt_free_at_iff (h : b.Timely clock) (now : Nat) :
    now < b.free_at ↔ b.max_failures ≤ b.failure_count now := by
  have hwindow := b.window_pos
  rw [failure_count_eq, in_window, le_length_recent_iff h.sorted b.max_failures_pos, free_at]
  cases b.failures.reverse[b.max_failures - 1]? with
  | none => simp
  | some old =>
    simp only [Option.elim_some, Option.some.injEq, exists_eq_left']
    omega

section

variable (h : b.Open cfg now)

include h

theorem Open.length_kept : (b.kept now).length = b.failure_count now := by
  rw [kept, expire_eq_recent h.timely.sorted, failure_count_eq]
  rfl

theorem Open.record_failure_free
    (hlt : b.failure_count now < cfg.max_failures) : (b.record_failure now).1 = 0 := by
  rw [← h.cfg_eq] at hlt
  rw [record_failure_noted h.free, h.length_kept]
  exact if_pos hlt

theorem Open.record_failure_ban (hfull : b.failure_count now = cfg.max_failures) :
    0 < (b.record_failure now).1 := by
  rw [← h.cfg_eq] at hfull
  rw [record_failure_noted h.free, h.length_kept]
  exact (b.ban_for_count_pos_iff _).mpr (by omega)

theorem Open.failure_count_fail : (b.fail now).failure_count now = b.failure_count now + 1 := by
  -- times are in order, so the deque is the window
  have hkept : b.kept now = recent b.window_secs now b.failures :=
    expire_eq_recent h.timely.sorted now
  rw [fail_noted h.free]
  show (recent b.window_secs now (b.kept now ++ [now])).length = _
  rw [hkept, recent_append, recent_recent (Nat.le_refl now), recent_self b.window_pos,
    List.length_append]
  rfl

theorem Open.fail (hlt : b.failure_count now < cfg.max_failures) : (b.fail now).Open cfg now := by
  refine ⟨(toBucketCfg_fail b now).trans h.cfg_eq, h.timely.fail (Nat.le_refl now), ?_, ?_⟩
  · have hzero := h.record_failure_free hlt
    rw [record_failure_noted h.free] at hzero
    rw [fail_noted h.free]
    show b.ban_end now _ ≤ now
    rw [ban_end, if_pos hzero]
    exact h.free
  · rw [h.failure_count_fail]
    exact hlt

end

/-- A bucket of an entry, without a ban and with failures left. -/
theorem Dated.open {seen banned : Nat} (h : b.Dated cfg seen banned) (hseen : seen ≤ now)
    (hban : b.ban_until ≤ now) (hleft : 0 < cfg.max_failures - b.failure_count now) :
    b.Open cfg now :=
  ⟨h.cfg_eq, h.toTimely.mono hseen, hban, by omega⟩

end Bucket

/-! ## The three buckets of an attempt -/

namespace LoginThrottle

open Bucket

/-- The end of the last ban on the address or the name. -/
def ban_end (t : LoginThrottle) (ip user : String) : Nat :=
  max (max (t.ip_entry ip).short.ban_until (t.ip_entry ip).long.ban_until)
    (t.user_entry user).long.ban_until

/-- The time until which one of the three allowances is used up. -/
def free_at (t : LoginThrottle) (ip user : String) : Nat :=
  max (max (t.ip_entry ip).short.free_at (t.ip_entry ip).long.free_at)
    (t.user_entry user).long.free_at

/-- The three buckets are open, and stay in the maps. -/
structure Open (t : LoginThrottle) (ip user : String) (now : Nat) : Prop where
  short : (t.ip_entry ip).short.Open t.ip_short now
  long : (t.ip_entry ip).long.Open t.ip_long now
  name : (t.user_entry user).long.Open t.user_long now
  ip_room : t.ip.RoomFor maxEntries ip
  user_room : t.user.RoomFor maxEntries user

section Open

variable {t : LoginThrottle} {ip user : String} {now clock : Nat}

theorem check_pos_iff (t : LoginThrottle) (ip user : String) (now : Nat) :
    0 < t.check ip user now ↔ now < t.ban_end ip user := by
  rw [check_eq, ban_end]
  unfold ban_remaining
  omega

theorem Known.remaining_eq_zero_iff (h : Known clock t) (ip user : String) (now : Nat) :
    t.remaining ip user now = 0 ↔ now < t.free_at ip user := by
  have hip := h.ip_entry ip
  have huser := h.user_entry user
  -- the countdown is over while one of the three allowances is used up
  have hshort := lt_free_at_iff hip.short.toTimely now
  have hlong := lt_free_at_iff hip.long.toTimely now
  have hname := lt_free_at_iff huser.long.toTimely now
  rw [hip.short.cfg_eq] at hshort
  rw [hip.long.cfg_eq] at hlong
  rw [huser.long.cfg_eq] at hname
  rw [remaining_eq, free_at]
  omega

/-- Without a ban, and with some failures left, the buckets are open. -/
theorem Known.open (h : Known now t) (hroom : InRoom t) (hcheck : t.check ip user now = 0)
    (hleft : 0 < t.remaining ip user now) : t.Open ip user now := by
  have hip := h.ip_entry ip
  have huser := h.user_entry user
  rw [check_eq] at hcheck
  rw [remaining_eq] at hleft
  unfold ban_remaining at hcheck
  exact ⟨hip.short.open hip.seen (by omega) (by omega), hip.long.open hip.seen (by omega) (by omega),
    huser.long.open huser.seen (by omega) (by omega), Table.roomFor_of_lt ip hroom.1,
    Table.roomFor_of_lt user hroom.2⟩

theorem record_failure_of_roomFor (hip : t.ip.RoomFor maxEntries ip)
    (huser : t.user.RoomFor maxEntries user) (now : Nat) (ip_order user_order : List String) :
    (t.record_failure ip user now ip_order user_order).2 =
      { t with
        ip := t.ip.insert ip ((t.ip_entry ip).fail now)
        user := t.user.insert user ((t.user_entry user).fail now) } :=
  enforce_caps_of_le hip huser

theorem entries_record_failure (hip : t.ip.RoomFor maxEntries ip)
    (huser : t.user.RoomFor maxEntries user) (now : Nat) (ip_order user_order : List String) :
    (t.record_failure ip user now ip_order user_order).2.ip_entry ip = (t.ip_entry ip).fail now ∧
      (t.record_failure ip user now ip_order user_order).2.user_entry user =
        (t.user_entry user).fail now := by
  rw [record_failure_of_roomFor hip huser]
  unfold ip_entry user_entry
  simp only [AList.lookup_insert, Option.getD_some, and_self]

/-- A free failure takes one off the countdown. -/
theorem Open.fail (h : t.Open ip user now) (hleft : 0 < t.remaining ip user now)
    (ip_order user_order : List String) :
    (t.record_failure ip user now ip_order user_order).1 = 0 ∧
      (t.record_failure ip user now ip_order user_order).2.Open ip user now ∧
      (t.record_failure ip user now ip_order user_order).2.remaining ip user now =
        t.remaining ip user now - 1 := by
  obtain ⟨hip, huser⟩ := entries_record_failure h.ip_room h.user_room now ip_order user_order
  have hcfg := record_failure_of_roomFor h.ip_room h.user_room now ip_order user_order
  rw [remaining_eq] at hleft
  -- none of the three allowances is used up
  have hshort : (t.ip_entry ip).short.failure_count now < t.ip_short.max_failures := by omega
  have hlong : (t.ip_entry ip).long.failure_count now < t.ip_long.max_failures := by omega
  have hname : (t.user_entry user).long.failure_count now < t.user_long.max_failures := by omega
  refine ⟨?_, ⟨?_, ?_, ?_, ?_, ?_⟩, ?_⟩
  · show max (max _ _) _ = 0
    rw [h.short.record_failure_free hshort, h.long.record_failure_free hlong,
      h.name.record_failure_free hname]
    rfl
  · rw [hip, hcfg]
    exact h.short.fail hshort
  · rw [hip, hcfg]
    exact h.long.fail hlong
  · rw [huser, hcfg]
    exact h.name.fail hname
  · rw [hcfg]
    exact (Table.roomFor_insert_iff ip _).mpr h.ip_room
  · rw [hcfg]
    exact (Table.roomFor_insert_iff user _).mpr h.user_room
  · have hshort' : ((t.ip_entry ip).fail now).short.failure_count now = _ :=
      h.short.failure_count_fail
    have hlong' : ((t.ip_entry ip).fail now).long.failure_count now = _ := h.long.failure_count_fail
    have hname' : ((t.user_entry user).fail now).long.failure_count now = _ :=
      h.name.failure_count_fail
    rw [remaining_eq, remaining_eq, hip, huser, hshort', hlong', hname', hcfg]
    dsimp only
    omega

/-- When the countdown is over, the next failure bans. -/
theorem Open.ban (h : t.Open ip user now) (hleft : t.remaining ip user now = 0)
    (ip_order user_order : List String) :
    0 < (t.record_failure ip user now ip_order user_order).1 := by
  have hshort := h.short.few
  have hlong := h.long.few
  have hname := h.name.few
  rw [remaining_eq] at hleft
  show 0 < max (max _ _) _
  -- one of the buckets has just as many failures as it allows
  rcases (by omega : (t.ip_entry ip).short.failure_count now = t.ip_short.max_failures ∨
      (t.ip_entry ip).long.failure_count now = t.ip_long.max_failures ∨
      (t.user_entry user).long.failure_count now = t.user_long.max_failures) with hfull | hfull | hfull
  · have := h.short.record_failure_ban hfull
    omega
  · have := h.long.record_failure_ban hfull
    omega
  · have := h.name.record_failure_ban hfull
    omega

/-- The calls that count down to a ban. -/
theorem Open.answers {left : Nat} (h : t.Open ip user now) (hleft : t.remaining ip user now = left)
    (orders : List (List String × List String)) (horders : orders.length = left + 1) :
    ∃ ban, 0 < ban ∧
      t.answers (orders.map fun order => .record_failure ip user now order.1 order.2) =
        List.replicate left 0 ++ [ban] := by
  -- each failure takes one off the countdown, until it is 0
  induction left generalizing t orders with
  | zero =>
    obtain ⟨order, rfl⟩ := List.length_eq_one_iff.mp horders
    exact ⟨_, h.ban hleft order.1 order.2, rfl⟩
  | succ left ih =>
    obtain ⟨order, orders, rfl⟩ := List.exists_cons_of_length_eq_add_one horders
    obtain ⟨hzero, hopen, hnext⟩ := h.fail (by omega) order.1 order.2
    obtain ⟨ban, hban, hanswers⟩ := ih hopen (by omega) orders (by simpa using horders)
    refine ⟨ban, hban, ?_⟩
    rw [List.map_cons, LoginThrottle.answers, LoginThrottle.next, hanswers, List.replicate_succ]
    simp only [answer, hzero]
    rfl

end Open

/-- In every state that a run with times in order and fewer keys in use than the caps allow can
reach, and at every later time: a ban comes with the countdown 0 exactly if the time is not
between the moment when the last of the three allowances is free again and the end of the last
ban. Without a ban, a positive countdown is truthful: so many failures are answered with 0, and
the next one with a ban. -/
theorem countdown_truthful_iff {ip_short ip_long user_long : Nat × Nat × Nat × Nat}
    {start : LoginThrottle} (hnew : LoginThrottle.new ip_short ip_long user_long = .ok start)
    {labels : List Label} (hclock : Clocked labels)
    (hroom : ∀ done, done <+: labels → InRoom (run next start done)) (ip user : String) (now : Nat)
    (hnow : ∀ time ∈ labels.filterMap Label.now, time ≤ now) :
    let t := run next start labels
    ((0 < t.check ip user now → t.remaining ip user now = 0) ↔
      t.ban_end ip user ≤ now ∨ now < t.free_at ip user) ∧
    (∀ left, t.check ip user now = 0 → t.remaining ip user now = left → 0 < left →
      ∀ orders : List (List String × List String), orders.length = left + 1 →
        ∃ ban, 0 < ban ∧
          t.answers (orders.map fun order => .record_failure ip user now order.1 order.2) =
            List.replicate left 0 ++ [ban]) := by
  intro t
  have hknown : Known now t := (known_new hnew).run hclock.from_zero hroom (Nat.zero_le now) hnow
  refine ⟨?_, fun left hcheck hleft hpos orders horders => ?_⟩
  · rw [check_pos_iff, hknown.remaining_eq_zero_iff, or_iff_not_imp_left, Nat.not_le]
  · have hopen : t.Open ip user now :=
      hknown.open (hroom labels (List.prefix_refl labels)) hcheck (by omega)
    exact hopen.answers hleft orders horders

def failed_attempt (ip user : String) (now : Nat) : List Label :=
  [.reserve ip user now, .release ip user, .record_failure ip user now [] []]

/-- Two failed attempts; the third is the last free one. -/
theorem countdown_two_failures :
    let labels := failed_attempt "10.0.0.1" "ann" 1000 ++ failed_attempt "10.0.0.1" "ann" 1005
    let t := run next Desk.shipped labels
    t.remaining "10.0.0.1" "ann" 1010 = 1 ∧
      t.answers [.record_failure "10.0.0.1" "ann" 1010 [] [],
        .record_failure "10.0.0.1" "ann" 1010 [] []] = [0, 10] ∧
      (0 < t.check "10.0.0.1" "ann" 1010 → t.remaining "10.0.0.1" "ann" 1010 = 0) := by
  intro labels t
  have hclock : Clocked labels := by
    unfold Clocked
    decide +kernel
  have hroom : ∀ done, done <+: labels → InRoom (run next Desk.shipped done) := by
    simp only [labels, failed_attempt, List.cons_append, List.nil_append, forall_prefix_cons,
      forall_prefix_nil]
    unfold InRoom
    decide +kernel
  have hiff := (countdown_truthful_iff Desk.new_shipped hclock hroom "10.0.0.1" "ann" 1010
    (by decide +kernel)).1
  exact ⟨by decide +kernel, by decide +kernel, hiff.mpr (Or.inl (by decide +kernel))⟩

/-- Three failed attempts, and a fourth when they are about to leave the window. It opens a ban of
ten seconds. Six seconds into the ban the countdown promises two free failures. -/
theorem countdown_during_ban :
    let labels := failed_attempt "10.0.0.1" "ann" 1000 ++ failed_attempt "10.0.0.1" "ann" 1000 ++
      failed_attempt "10.0.0.1" "ann" 1000 ++ failed_attempt "10.0.0.1" "ann" 1599
    let t := run next Desk.shipped labels
    LoginThrottle.new (600, 3, 10, 28800) (86400, 16, 1800, 28800) (86400, 18, 1800, 7200) =
        .ok Desk.shipped ∧
      Clocked labels ∧
      t.check "10.0.0.1" "ann" 1605 = 4 ∧ t.remaining "10.0.0.1" "ann" 1605 = 2 ∧
      t.free_at "10.0.0.1" "ann" = 1600 ∧ t.ban_end "10.0.0.1" "ann" = 1609 := by
  refine ⟨rfl, ?_, by decide +kernel⟩
  unfold Clocked
  decide +kernel

end LoginThrottle
