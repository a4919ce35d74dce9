import Picasu.Auth.BanLadder
import Picasu.Framework.Result
import Picasu.Framework.Shadow

/-! # Runs of the Login Throttle

Sequences of calls to the throttle, with times in order and with fewer keys in use than the caps
of its maps. What a client learns from them are bans and countdowns.

Nothing in an entry says when its buckets are done. There is the time it was last seen, which no
failure in it is later than, and a snapshot of the end of its bans, which no bucket's own is later
than. Every call keeps this (`Dated`, `Known`), also a success, which takes the snapshot anew.
-/

open SlidingWindow LTS

/-! ## Buckets and entries -/

namespace Bucket

/-- A bucket with this schedule whose failures are not later than `seen` and whose ban does not end
after `banned`. -/
structure Dated (cfg : BucketCfg) (seen banned : Nat) (b : Bucket) : Prop extends
    b.Timely seen where
  cfg_eq : b.toBucketCfg = cfg
  ban_le : b.ban_until ≤ banned
  ban_le_top : b.ban_until ≤ u64Max

section Dated

variable {cfg : BucketCfg} {b : Bucket} {seen seen' banned banned' now : Nat}

theorem dated_build (cfg : BucketCfg) (seen banned : Nat) : cfg.build.Dated cfg seen banned :=
  ⟨timely_nil seen rfl, rfl, Nat.zero_le _, Nat.zero_le _⟩

variable (h : b.Dated cfg seen banned)
include h

theorem Dated.mono (hseen : seen ≤ seen') (hbanned : banned ≤ banned') :
    b.Dated cfg seen' banned' :=
  ⟨h.toTimely.mono hseen, h.cfg_eq, Nat.le_trans h.ban_le hbanned, h.ban_le_top⟩

/-- The snapshot is advanced by the ban that a failure returns, and so stays ahead of the bucket's
own end. -/
theorem Dated.fail (hnow : seen ≤ now) (hbanned : banned ≤ banned')
    (hban : saturating_add now (b.record_failure now).1 ≤ banned') :
    (b.fail now).Dated cfg now banned' := by
  refine ⟨h.toTimely.fail hnow, (toBucketCfg_fail b now).trans h.cfg_eq, ?_, ?_⟩
  · have hle := Nat.le_trans h.ban_le hbanned
    by_cases hlive : now < b.ban_until
    · rwa [fail_live hlive]
    rw [record_failure_noted (Nat.le_of_not_lt hlive)] at hban
    rw [fail_noted (Nat.le_of_not_lt hlive)]
    show b.ban_end now _ ≤ banned'
    unfold ban_end
    split
    · exact hle
    · exact hban
  · by_cases hlive : now < b.ban_until
    · rw [fail_live hlive]
      exact h.ban_le_top
    · rw [fail_noted (Nat.le_of_not_lt hlive)]
      show b.ban_end now _ ≤ u64Max
      unfold ban_end
      split
      · exact h.ban_le_top
      · exact Nat.min_le_right _ _

theorem Dated.record_success (seen' banned' : Nat) :
    b.record_success.Dated cfg seen' banned' :=
  ⟨timely_nil seen' rfl, h.cfg_eq, Nat.zero_le _, Nat.zero_le _⟩

theorem Dated.snapshot (hnow : seen ≤ now) :
    b.Dated cfg now (saturating_add now (b.ban_remaining now)) := by
  refine ⟨h.toTimely.mono hnow, h.cfg_eq, ?_, h.ban_le_top⟩
  have htop := h.ban_le_top
  unfold saturating_add ban_remaining
  omega

end Dated

end Bucket

open Bucket

namespace IpEntry

/-- The entry that is created for a new address. -/
def fresh (short long : BucketCfg) : IpEntry :=
  { short := short.build, long := long.build, in_flight := 0, last_seen := 0, banned_until := 0 }

/-- The buckets of an address's entry, with the entry's own times. -/
structure Dated (short long : BucketCfg) (clock : Nat) (e : IpEntry) : Prop where
  short : e.short.Dated short e.last_seen e.banned_until
  long : e.long.Dated long e.last_seen e.banned_until
  seen : e.last_seen ≤ clock

variable {short long : BucketCfg} {clock now : Nat} {e : IpEntry}

theorem dated_fresh (short long : BucketCfg) (clock : Nat) :
    (fresh short long).Dated short long clock :=
  ⟨dated_build short 0 0, dated_build long 0 0, Nat.zero_le clock⟩

variable (h : e.Dated short long clock) (hnow : clock ≤ now)
include h hnow

theorem Dated.mono : e.Dated short long now :=
  ⟨h.short, h.long, Nat.le_trans h.seen hnow⟩

theorem Dated.touch (in_flight : Nat) :
    Dated short long now { e with last_seen := now, in_flight } := by
  have hseen := Nat.le_trans h.seen hnow
  exact ⟨h.short.mono hseen (Nat.le_refl _), h.long.mono hseen (Nat.le_refl _), Nat.le_refl _⟩

theorem Dated.fail : (e.fail now).Dated short long now := by
  have hseen := Nat.le_trans h.seen hnow
  refine ⟨h.short.fail hseen ?_ ?_, h.long.fail hseen ?_ ?_, Nat.le_refl _⟩
  · exact Nat.le_trans (Nat.le_max_left _ _) (Nat.le_max_left _ _)
  · exact Nat.le_trans (Nat.le_max_right _ _) (Nat.le_max_left _ _)
  · exact Nat.le_trans (Nat.le_max_left _ _) (Nat.le_max_left _ _)
  · exact Nat.le_max_right _ _

/-- A success takes the snapshot anew. The short bucket has no ban any more, so it is enough to ask
the long one. -/
theorem Dated.succeed (in_flight : Nat) :
    Dated short long now
      { e with
        short := e.short.record_success
        in_flight
        last_seen := now
        banned_until := saturating_add now (e.long.ban_remaining now) } := by
  have hseen := Nat.le_trans h.seen hnow
  exact ⟨h.short.record_success _ _, h.long.snapshot hseen, Nat.le_refl _⟩

end IpEntry

namespace ThrottleEntry

/-- The entry that is created for a new name. -/
def fresh (long : BucketCfg) : ThrottleEntry :=
  { long := long.build, in_flight := 0, last_seen := 0, banned_until := 0 }

/-- The bucket of a name's entry, with the entry's own times. -/
structure Dated (long : BucketCfg) (clock : Nat) (e : ThrottleEntry) : Prop where
  long : e.long.Dated long e.last_seen e.banned_until
  seen : e.last_seen ≤ clock

variable {long : BucketCfg} {clock now : Nat} {e : ThrottleEntry}

theorem dated_fresh (long : BucketCfg) (clock : Nat) : (fresh long).Dated long clock :=
  ⟨dated_build long 0 0, Nat.zero_le clock⟩

variable (h : e.Dated long clock) (hnow : clock ≤ now)
include h hnow

theorem Dated.mono : e.Dated long now :=
  ⟨h.long, Nat.le_trans h.seen hnow⟩

theorem Dated.touch (in_flight : Nat) :
    Dated long now { e with last_seen := now, in_flight } :=
  ⟨h.long.mono (Nat.le_trans h.seen hnow) (Nat.le_refl _), Nat.le_refl _⟩

theorem Dated.fail : (e.fail now).Dated long now :=
  ⟨h.long.fail (Nat.le_trans h.seen hnow) (Nat.le_max_left _ _) (Nat.le_max_right _ _),
    Nat.le_refl _⟩

end ThrottleEntry

/-! ## Calls -/

theorem BucketCfg.window_secs_new {window_secs max_failures base_ban_secs max_ban_secs : Nat}
    {cfg : BucketCfg}
    (h : BucketCfg.new window_secs max_failures base_ban_secs max_ban_secs = .ok cfg) :
    cfg.window_secs = window_secs := by
  unfold BucketCfg.new at h
  repeat' split at h
  all_goals cases h
  rfl

namespace LoginThrottle

/-- A call, with everything the environment chooses for it. -/
inductive Label where
  | check (ip user : String) (now : Nat)
  | remaining (ip user : String) (now : Nat)
  | reserve (ip user : String) (now : Nat)
  | release (ip user : String)
  | record_failure (ip user : String) (now : Nat) (ip_order user_order : List String)
  | record_success (ip user : String) (now : Nat)
  | sweep (now : Nat) (ip_order user_order : List String)

def next (t : LoginThrottle) : Label → LoginThrottle
  | .check _ _ _ => t
  | .remaining _ _ _ => t
  | .reserve ip user now => (t.reserve ip user now).2
  | .release ip user => t.release ip user
  | .record_failure ip user now ip_order user_order =>
    (t.record_failure ip user now ip_order user_order).2
  | .record_success ip user now => t.record_success ip user now
  | .sweep now ip_order user_order => t.sweep now ip_order user_order

/-- What a client learns from a call: the ban or the countdown. -/
def answer (t : LoginThrottle) : Label → Option Nat
  | .check ip user now => some (t.check ip user now)
  | .remaining ip user now => some (t.remaining ip user now)
  | .record_failure ip user now ip_order user_order =>
    some (t.record_failure ip user now ip_order user_order).1
  | _ => none

/-- The answers to a sequence of calls, in order. -/
def answers (t : LoginThrottle) : List Label → List Nat
  | [] => []
  | l :: labels => (t.answer l).toList ++ answers (t.next l) labels

/-- The time of a call. A release has none. -/
def Label.now : Label → Option Nat
  | .check _ _ now => some now
  | .remaining _ _ now => some now
  | .reserve _ _ now => some now
  | .release _ _ => none
  | .record_failure _ _ now _ _ => some now
  | .record_success _ _ now => some now
  | .sweep now _ _ => some now

/-- The times of the calls do not decrease. -/
def Clocked (labels : List Label) : Prop := (labels.filterMap Label.now).Pairwise (· ≤ ·)

/-- Fewer keys in use than the caps allow. -/
def InRoom (t : LoginThrottle) : Prop :=
  t.ip.entries.length < maxEntries ∧ t.user.entries.length < maxEntries

section Steps

variable {t : LoginThrottle}

theorem check_eq (t : LoginThrottle) (ip user : String) (now : Nat) :
    t.check ip user now =
      max (max ((t.ip_entry ip).short.ban_remaining now) ((t.ip_entry ip).long.ban_remaining now))
        ((t.user_entry user).long.ban_remaining now) := by
  unfold check ip_entry user_entry
  -- a key without an entry has no ban, and a fresh entry has none either
  cases t.ip.lookup ip with
  | none =>
    cases t.user.lookup user with
    | none | some u => simp [BucketCfg.build, Bucket.ban_remaining]
  | some e =>
    cases t.user.lookup user with
    | none => simp [BucketCfg.build, Bucket.ban_remaining]
    | some u => rfl

theorem remaining_eq (t : LoginThrottle) (ip user : String) (now : Nat) :
    t.remaining ip user now =
      min (min (t.ip_short.max_failures - (t.ip_entry ip).short.failure_count now)
          (t.ip_long.max_failures - (t.ip_entry ip).long.failure_count now))
        (t.user_long.max_failures - (t.user_entry user).long.failure_count now) := by
  unfold remaining ip_entry user_entry
  -- a key without an entry has its full allowance
  cases t.ip.lookup ip with
  | none | some e =>
    cases t.user.lookup user with
    | none => rfl
    | some u => rfl

/-- A reservation changes nothing but the slots and the times seen. -/
theorem reserve_eq (t : LoginThrottle) (ip user : String) (now : Nat) :
    ∃ slots slots' : Nat, (t.reserve ip user now).2 =
      { t with
        ip := t.ip.insert ip { t.ip_entry ip with last_seen := now, in_flight := slots }
        user := t.user.insert user
          { t.user_entry user with last_seen := now, in_flight := slots' } } := by
  simp only [reserve]
  -- refused or not, only the slots differ
  split
  · exact ⟨_, _, rfl⟩
  · exact ⟨_, _, rfl⟩

theorem enforce_caps_of_le {now : Nat} {ip_order user_order : List String}
    (hip : t.ip.entries.length ≤ maxEntries) (huser : t.user.entries.length ≤ maxEntries) :
    t.enforce_caps now ip_order user_order = t := by
  unfold enforce_caps
  rw [Table.evict_of_le hip, Table.evict_of_le huser]

theorem record_failure_of_room (h : InRoom t) (ip user : String) (now : Nat)
    (ip_order user_order : List String) :
    (t.record_failure ip user now ip_order user_order).2 =
      { t with
        ip := t.ip.insert ip ((t.ip_entry ip).fail now)
        user := t.user.insert user ((t.user_entry user).fail now) } :=
  enforce_caps_of_le (Table.roomFor_of_lt ip h.1) (Table.roomFor_of_lt user h.2)

theorem sweep_of_room (h : InRoom t) (now : Nat) (ip_order user_order : List String) :
    t.sweep now ip_order user_order =
      { t with
        ip := t.ip.retain fun _ e => t.retains now e.last_seen e.banned_until
        user := t.user.retain fun _ e => t.retains now e.last_seen e.banned_until } :=
  enforce_caps_of_le (Nat.le_trans (List.length_filter_le _ _) (Nat.le_of_lt h.1))
    (Nat.le_trans (List.length_filter_le _ _) (Nat.le_of_lt h.2))

end Steps

/-! ## What the times of an entry say -/

def Label.tick (l : Label) (clock : Nat) : Nat := l.now.getD clock

/-- The times of the calls do not decrease from `clock` on. -/
def ClockedFrom (clock : Nat) (labels : List Label) : Prop :=
  (clock :: labels.filterMap Label.now).Pairwise (· ≤ ·)

/-- The entries know how late their buckets can be, and no window is longer than the one a sweep
waits for. -/
structure Known (clock : Nat) (t : LoginThrottle) : Prop where
  ip_short : t.ip_short.window_secs ≤ t.longest_window
  ip_long : t.ip_long.window_secs ≤ t.longest_window
  user_long : t.user_long.window_secs ≤ t.longest_window
  ip : t.ip.Every (IpEntry.Dated t.ip_short t.ip_long clock)
  user : t.user.Every (ThrottleEntry.Dated t.user_long clock)

section Known

variable {t start : LoginThrottle} {clock now : Nat} {l : Label} {labels : List Label}

theorem Clocked.from_zero (h : Clocked labels) : ClockedFrom 0 labels :=
  List.pairwise_cons.mpr ⟨fun now _ => Nat.zero_le now, h⟩

theorem ClockedFrom.head (h : ClockedFrom clock (l :: labels)) : clock ≤ l.tick clock := by
  unfold Label.tick
  cases hl : l.now with
  | none => exact Nat.le_refl clock
  | some now =>
    rw [ClockedFrom, List.filterMap_cons_some hl] at h
    exact (List.pairwise_cons.mp h).1 now List.mem_cons_self

theorem ClockedFrom.tail (h : ClockedFrom clock (l :: labels)) :
    ClockedFrom (l.tick clock) labels := by
  unfold ClockedFrom Label.tick at *
  cases hl : l.now with
  | none => rwa [List.filterMap_cons_none hl] at h
  | some now =>
    rw [List.filterMap_cons_some hl] at h
    exact (List.pairwise_cons.mp h).2

theorem known_new {ip_short ip_long user_long : Nat × Nat × Nat × Nat}
    (h : LoginThrottle.new ip_short ip_long user_long = .ok start) : Known 0 start := by
  obtain ⟨short, hshort, h⟩ := Result.bind_eq_ok.mp h
  obtain ⟨long, hlong, h⟩ := Result.bind_eq_ok.mp h
  obtain ⟨user, huser, h⟩ := Result.bind_eq_ok.mp h
  cases h
  refine ⟨?_, ?_, ?_, Table.every_empty _, Table.every_empty _⟩
  · rw [BucketCfg.window_secs_new hshort]
    exact Nat.le_trans (Nat.le_max_left _ _) (Nat.le_max_left _ _)
  · rw [BucketCfg.window_secs_new hlong]
    exact Nat.le_trans (Nat.le_max_right _ _) (Nat.le_max_left _ _)
  · rw [BucketCfg.window_secs_new huser]
    exact Nat.le_max_right _ _

variable (h : Known clock t)

include h

theorem Known.mono (hnow : clock ≤ now) : Known now t :=
  { h with
    ip := h.ip.imp fun _ he => he.mono hnow
    user := h.user.imp fun _ he => he.mono hnow }

theorem Known.ip_entry (ip : String) : (t.ip_entry ip).Dated t.ip_short t.ip_long clock :=
  h.ip.getD (IpEntry.dated_fresh _ _ _) ip

theorem Known.user_entry (user : String) : (t.user_entry user).Dated t.user_long clock :=
  h.user.getD (ThrottleEntry.dated_fresh _ _) user

theorem Known.next (hroom : InRoom t) (hnow : clock ≤ l.tick clock) :
    Known (l.tick clock) (t.next l) := by
  have hlater := h.mono hnow
  cases l with
  | check ip user now | remaining ip user now => exact hlater
  | reserve ip user now =>
    obtain ⟨slots, slots', heq⟩ := t.reserve_eq ip user now
    simp only [LoginThrottle.next, heq]
    exact { hlater with
      ip := hlater.ip.insert ((h.ip_entry ip).touch hnow slots) ip
      user := hlater.user.insert ((h.user_entry user).touch hnow slots') user }
  | release ip user =>
    exact { hlater with
      ip := hlater.ip.rewriteAt (f := fun e => { e with in_flight := e.in_flight - 1 })
        (fun _ he => ⟨he.short, he.long, he.seen⟩) ip
      user := hlater.user.rewriteAt (f := fun e => { e with in_flight := e.in_flight - 1 })
        (fun _ he => ⟨he.long, he.seen⟩) user }
  | record_failure ip user now ip_order user_order =>
    simp only [LoginThrottle.next, record_failure_of_room hroom]
    exact { hlater with
      ip := hlater.ip.insert ((h.ip_entry ip).fail hnow) ip
      user := hlater.user.insert ((h.user_entry user).fail hnow) user }
  | record_success ip user now =>
    exact { hlater with
      ip := hlater.ip.rewriteAt (fun _ he => he.succeed (Nat.le_refl now) _) ip
      user := hlater.user.erase user }
  | sweep now ip_order user_order =>
    simp only [LoginThrottle.next, sweep_of_room hroom]
    exact { hlater with
      ip := hlater.ip.retain _
      user := hlater.user.retain _ }

theorem Known.run (hclock : ClockedFrom clock labels)
    (hroom : ∀ done, done <+: labels → InRoom (LTS.run LoginThrottle.next t done))
    (hbefore : clock ≤ now) (hnow : ∀ time ∈ labels.filterMap Label.now, time ≤ now) :
    Known now (LTS.run LoginThrottle.next t labels) := by
  induction labels generalizing t clock with
  | nil => exact h.mono hbefore
  | cons l labels ih =>
    obtain ⟨hhere, hlater⟩ := forall_prefix_cons.mp hroom
    refine ih (h.next hhere hclock.head) hclock.tail hlater ?_ fun time htime => hnow time ?_
    · unfold Label.tick
      cases hl : l.now with
      | none => exact hbefore
      | some time =>
        apply hnow
        rw [List.filterMap_cons_some hl]
        exact List.mem_cons_self
    · cases hl : l.now with
      | none => rwa [List.filterMap_cons_none hl]
      | some first =>
        rw [List.filterMap_cons_some hl]
        exact List.mem_cons_of_mem _ htime

end Known

end LoginThrottle
