import Picasu.Auth.RateLimit
import Picasu.Framework.Ledger

/-! # The Login Throttle

Three buckets stand in front of every login attempt: two for the address it comes from, one for
the name it claims. An attempt *reserves* a slot in both entries before its password is verified,
so that attempts running in parallel see each other, and gives the slot back when it ends: a
failure is released and recorded, an internal error is released, a success consumes the slot.

Entries come and go: they are created on demand, a success drops the entry of its name, `sweep`
reaps idle ones, and the maps are kept within a size. The numbers of slots in flight live in these
entries. The order in which a hash map is iterated is an argument of the operations that evict.
-/

open Ledger

/-- `MAX_IP_ENTRIES` and `MAX_USER_ENTRIES`. -/
def maxEntries : Nat := 10000

structure IpEntry where
  short : Bucket
  long : Bucket
  in_flight : Nat
  last_seen : Nat
  banned_until : Nat

structure ThrottleEntry where
  long : Bucket
  in_flight : Nat
  last_seen : Nat
  banned_until : Nat

structure LoginThrottle where
  ip : Table String IpEntry
  user : Table String ThrottleEntry
  ip_short : BucketCfg
  ip_long : BucketCfg
  user_long : BucketCfg
  longest_window : Nat

/-- The address's entry after a failure. -/
def IpEntry.fail (e : IpEntry) (now : Nat) : IpEntry :=
  let (short_ban, short) := e.short.record_failure now
  let (long_ban, long) := e.long.record_failure now
  { e with
    short, long
    last_seen := now
    banned_until := max (max e.banned_until (saturating_add now short_ban))
      (saturating_add now long_ban) }

/-- The name's entry after a failure. -/
def ThrottleEntry.fail (e : ThrottleEntry) (now : Nat) : ThrottleEntry :=
  let (user_ban, long) := e.long.record_failure now
  { e with
    long
    last_seen := now
    banned_until := max e.banned_until (saturating_add now user_ban) }

namespace LoginThrottle

/-- `LoginThrottle::new`, from three `(window, max, base, cap)` tuples. -/
def new (ip_short ip_long user_long : Nat × Nat × Nat × Nat) : Except String LoginThrottle := do
  let short ← BucketCfg.new ip_short.1 ip_short.2.1 ip_short.2.2.1 ip_short.2.2.2
  let long ← BucketCfg.new ip_long.1 ip_long.2.1 ip_long.2.2.1 ip_long.2.2.2
  let user ← BucketCfg.new user_long.1 user_long.2.1 user_long.2.2.1 user_long.2.2.2
  let longest_window := max (max ip_short.1 ip_long.1) user_long.1
  return { ip := ∅, user := ∅, ip_short := short, ip_long := long, user_long := user, longest_window }

variable (t : LoginThrottle)

/-- The entry of an address, created if it is missing. -/
def ip_entry (ip : String) : IpEntry :=
  (t.ip.lookup ip).getD
    { short := t.ip_short.build
      long := t.ip_long.build
      in_flight := 0
      last_seen := 0
      banned_until := 0 }

/-- The entry of a name, created if it is missing. -/
def user_entry (user : String) : ThrottleEntry :=
  (t.user.lookup user).getD
    { long := t.user_long.build
      in_flight := 0
      last_seen := 0
      banned_until := 0 }

/-- `check`: what is left of the longest ban on the address or the name. -/
def check (ip user : String) (now : Nat) : Nat :=
  let ip_ban := (t.ip.lookup ip).elim 0 fun entry =>
    max (entry.short.ban_remaining now) (entry.long.ban_remaining now)
  let user_ban := (t.user.lookup user).elim 0 fun entry => entry.long.ban_remaining now
  max ip_ban user_ban

/-- `remaining`: the failures left before one of the three thresholds. -/
def remaining (ip user : String) (now : Nat) : Nat :=
  let short := t.ip_short.max_failures -
    (t.ip.lookup ip).elim 0 fun entry => entry.short.failure_count now
  let long := t.ip_long.max_failures -
    (t.ip.lookup ip).elim 0 fun entry => entry.long.failure_count now
  let user := t.user_long.max_failures -
    (t.user.lookup user).elim 0 fun entry => entry.long.failure_count now
  min (min short long) user

/-! ## Reserving and releasing -/

/-- What `reserve` asks of one bucket with `others` attempts in flight: the ban they will open
together with this one, if they already exceed it. A lone attempt is never crowded. -/
def crowded (now : Nat) (bucket : Bucket) (others : Nat) : Nat :=
  if others = 0 then 0
  else if bucket.max_failures < saturating_add (bucket.failure_count now) others then
    bucket.peek_ban now (others + 1)
  else 0

/-- The ban that blocks an attempt with these entries: a live one, or else the one a crowded flight
will open. -/
def blocking_ban (now : Nat) (ip_entry : IpEntry) (user_entry : ThrottleEntry) : Nat :=
  let live := max (max (ip_entry.short.ban_remaining now) (ip_entry.long.ban_remaining now))
    (user_entry.long.ban_remaining now)
  if 0 < live then live
  else max (max (crowded now ip_entry.short ip_entry.in_flight)
    (crowded now ip_entry.long ip_entry.in_flight)) (crowded now user_entry.long user_entry.in_flight)

/-- `reserve`: the ban that blocks the attempt, or 0 and a slot in both entries. Both entries exist
afterwards in any case. -/
def reserve (ip user : String) (now : Nat) : Nat × LoginThrottle :=
  let ip_entry := { t.ip_entry ip with last_seen := now }
  let user_entry := { t.user_entry user with last_seen := now }
  let ban := blocking_ban now ip_entry user_entry
  if 0 < ban then
    (ban, { t with ip := t.ip.insert ip ip_entry, user := t.user.insert user user_entry })
  else
    (0, { t with
      ip := t.ip.insert ip { ip_entry with in_flight := min (ip_entry.in_flight + 1) u32Max }
      user := t.user.insert user
        { user_entry with in_flight := min (user_entry.in_flight + 1) u32Max } })

def release (ip user : String) : LoginThrottle :=
  { t with
    ip := t.ip.rewriteAt (fun e => some { e with in_flight := e.in_flight - 1 }) ip
    user := t.user.rewriteAt (fun e => some { e with in_flight := e.in_flight - 1 }) user }

/-! ## Keeping the maps small -/

/-- `enforce_caps`: the entries seen longest ago go, except those with a live ban or a slot in
flight. -/
def enforce_caps (now : Nat) (ip_order user_order : List String) : LoginThrottle :=
  { t with
    ip := t.ip.evict (fun e => e.last_seen)
      (fun e => decide (e.banned_until ≤ now) && e.in_flight == 0) maxEntries ip_order
    user := t.user.evict (fun e => e.last_seen)
      (fun e => decide (e.banned_until ≤ now) && e.in_flight == 0) maxEntries user_order }

/-- The test of `sweep` on an entry that was last seen and banned at these times. -/
def retains (now last_seen banned_until : Nat) : Bool :=
  decide (now < banned_until) || decide (now - last_seen < t.longest_window)

def sweep (now : Nat) (ip_order user_order : List String) : LoginThrottle :=
  enforce_caps
    { t with
      ip := t.ip.retain fun _ e => t.retains now e.last_seen e.banned_until
      user := t.user.retain fun _ e => t.retains now e.last_seen e.banned_until }
    now ip_order user_order

/-! ## Outcomes -/

/-- `record_failure`: into all three buckets. The ban it reports is the largest one applied. -/
def record_failure (ip user : String) (now : Nat) (ip_order user_order : List String) :
    Nat × LoginThrottle :=
  let ip_entry := t.ip_entry ip
  let user_entry := t.user_entry user
  let max_ban := max (max (ip_entry.short.record_failure now).1 (ip_entry.long.record_failure now).1)
    (user_entry.long.record_failure now).1
  (max_ban, enforce_caps
    { t with
      ip := t.ip.insert ip (ip_entry.fail now)
      user := t.user.insert user (user_entry.fail now) }
    now ip_order user_order)

/-- `record_success`: the name's entry is dropped, the address keeps its long history. -/
def record_success (ip user : String) (now : Nat) : LoginThrottle :=
  { t with
    user := t.user.erase user
    ip := t.ip.rewriteAt (fun e => some
      { e with
        short := e.short.record_success
        in_flight := e.in_flight - 1
        last_seen := now
        banned_until := saturating_add now (e.long.ban_remaining now) }) ip }

/-! ## Slots in flight

What each operation does to the two counts, as functions of the key. -/

/-- The slots counted for an address; a missing entry counts for none. -/
def ip_in_flight : String → Nat := tally (fun e => e.in_flight) t.ip

/-- The slots counted for a name. -/
def user_in_flight : String → Nat := tally (fun e => e.in_flight) t.user

theorem in_flight_ip_entry (ip : String) : (t.ip_entry ip).in_flight = t.ip_in_flight ip :=
  number_getD _ (by rfl) t.ip ip

theorem in_flight_user_entry (user : String) :
    (t.user_entry user).in_flight = t.user_in_flight user :=
  number_getD _ (by rfl) t.user user

variable (ip user : String) (now : Nat)

theorem ip_in_flight_reserve (k : String) :
    (t.reserve ip user now).2.ip_in_flight k =
      if (t.reserve ip user now).1 = 0 ∧ k = ip then min (t.ip_in_flight ip + 1) u32Max
      else t.ip_in_flight k := by
  have hentry := t.in_flight_ip_entry ip
  simp only [reserve]
  split
  · rw [if_neg (by omega)]
    refine tally_insert_same _ ?_ k
    exact hentry
  · simp only [true_and, ← hentry]
    exact tally_insert _ t.ip ip _ k

theorem user_in_flight_reserve (k : String) :
    (t.reserve ip user now).2.user_in_flight k =
      if (t.reserve ip user now).1 = 0 ∧ k = user then min (t.user_in_flight user + 1) u32Max
      else t.user_in_flight k := by
  have hentry := t.in_flight_user_entry user
  simp only [reserve]
  split
  · rw [if_neg (by omega)]
    refine tally_insert_same _ ?_ k
    exact hentry
  · simp only [true_and, ← hentry]
    exact tally_insert _ t.user user _ k

theorem ip_in_flight_release (ip user k : String) :
    (t.release ip user).ip_in_flight k =
      if k = ip then t.ip_in_flight ip - 1 else t.ip_in_flight k :=
  tally_rewriteAt _ (g := fun n => n - 1) (fun _ => rfl) rfl t.ip ip k

theorem user_in_flight_release (ip user k : String) :
    (t.release ip user).user_in_flight k =
      if k = user then t.user_in_flight user - 1 else t.user_in_flight k :=
  tally_rewriteAt _ (g := fun n => n - 1) (fun _ => rfl) rfl t.user user k

variable (ip_order user_order : List String)

/-- The caps never touch an entry with a slot in flight. -/
theorem ip_in_flight_enforce_caps (k : String) :
    (t.enforce_caps now ip_order user_order).ip_in_flight k = t.ip_in_flight k :=
  tally_evict _ (by simp) t.ip k

theorem user_in_flight_enforce_caps (k : String) :
    (t.enforce_caps now ip_order user_order).user_in_flight k = t.user_in_flight k :=
  tally_evict _ (by simp) t.user k

/-- Recording a failure is no matter of slots. -/
theorem ip_in_flight_record_failure (k : String) :
    (t.record_failure ip user now ip_order user_order).2.ip_in_flight k = t.ip_in_flight k := by
  show (enforce_caps _ now ip_order user_order).ip_in_flight k = _
  rw [ip_in_flight_enforce_caps]
  refine tally_insert_same _ ?_ k
  exact t.in_flight_ip_entry ip

theorem user_in_flight_record_failure (k : String) :
    (t.record_failure ip user now ip_order user_order).2.user_in_flight k =
      t.user_in_flight k := by
  show (enforce_caps _ now ip_order user_order).user_in_flight k = _
  rw [user_in_flight_enforce_caps]
  refine tally_insert_same _ ?_ k
  exact t.in_flight_user_entry user

theorem ip_in_flight_record_success (k : String) :
    (t.record_success ip user now).ip_in_flight k =
      if k = ip then t.ip_in_flight ip - 1 else t.ip_in_flight k :=
  tally_rewriteAt _ (g := fun n => n - 1) (fun _ => rfl) rfl t.ip ip k

/-- A success forgets every slot of its name, not only its own. -/
theorem user_in_flight_record_success (k : String) :
    (t.record_success ip user now).user_in_flight k =
      if k = user then 0 else t.user_in_flight k :=
  tally_erase _ t.user user k

/-- A sweep forgets the slots of the entries that fail its test. -/
theorem ip_in_flight_sweep (k : String) :
    (t.sweep now ip_order user_order).ip_in_flight k =
      if (t.ip.lookup k).any (fun e => !t.retains now e.last_seen e.banned_until) then 0
      else t.ip_in_flight k := by
  show (enforce_caps _ now ip_order user_order).ip_in_flight k = _
  rw [ip_in_flight_enforce_caps]
  exact tally_retain _ _ t.ip k

theorem user_in_flight_sweep (k : String) :
    (t.sweep now ip_order user_order).user_in_flight k =
      if (t.user.lookup k).any (fun e => !t.retains now e.last_seen e.banned_until) then 0
      else t.user_in_flight k := by
  show (enforce_caps _ now ip_order user_order).user_in_flight k = _
  rw [user_in_flight_enforce_caps]
  exact tally_retain _ _ t.user k

/-! ## The entry of one address

What each operation on the address `p` does to its entry. -/

section Entry

variable {t} {p : String}

theorem ip_entry_insert (t : LoginThrottle) (p : String) (e : IpEntry)
    (user : Table String ThrottleEntry) :
    ({ t with ip := t.ip.insert p e, user := user } : LoginThrottle).ip_entry p = e := by
  unfold ip_entry
  rw [AList.lookup_insert]
  rfl

/-- An attempt that is refused leaves its trace in the entry, but no slot. -/
theorem ip_entry_reserve (t : LoginThrottle) (p user : String) (now : Nat) :
    (t.reserve p user now).2.ip_entry p =
      { t.ip_entry p with
        last_seen := now
        in_flight :=
          if (t.reserve p user now).1 = 0 then min ((t.ip_entry p).in_flight + 1) u32Max
          else (t.ip_entry p).in_flight } := by
  simp only [reserve]
  split
  · rename_i hban
    rw [ip_entry_insert, if_neg (by omega)]
  · rw [ip_entry_insert, if_pos rfl]

theorem ip_entry_release (t : LoginThrottle) (p user : String) :
    (t.release p user).ip_entry p =
      { t.ip_entry p with in_flight := (t.ip_entry p).in_flight - 1 } := by
  unfold ip_entry release
  dsimp only
  rw [Table.lookup_rewriteAt_self]
  cases t.ip.lookup p with
  | none => rfl
  | some e => rfl

theorem ip_entry_record_failure (hroom : t.ip.RoomFor maxEntries p) (user : String) (now : Nat)
    (ip_order user_order : List String) :
    (t.record_failure p user now ip_order user_order).2.ip_entry p = (t.ip_entry p).fail now := by
  unfold record_failure enforce_caps
  dsimp only
  rw [hroom.evict_insert]
  exact ip_entry_insert t p _ _

theorem roomFor_reserve (hroom : t.ip.RoomFor maxEntries p) (user : String) (now : Nat) :
    (t.reserve p user now).2.ip.RoomFor maxEntries p := by
  simp only [reserve]
  split
  · exact (Table.roomFor_insert_iff p _).mpr hroom
  · exact (Table.roomFor_insert_iff p _).mpr hroom

theorem roomFor_record_failure (hroom : t.ip.RoomFor maxEntries p) (user : String) (now : Nat)
    (ip_order user_order : List String) :
    (t.record_failure p user now ip_order user_order).2.ip.RoomFor maxEntries p := by
  unfold record_failure enforce_caps
  dsimp only
  rw [hroom.evict_insert]
  exact (Table.roomFor_insert_iff p _).mpr hroom

/-- An attempt is refused while the address's short bucket bans, and while the attempts in flight
crowd it. -/
theorem reserve_ne_zero (user : String) {now : Nat}
    (h : 0 < (t.ip_entry p).short.ban_remaining now ∨
      0 < crowded now (t.ip_entry p).short (t.ip_entry p).in_flight) :
    (t.reserve p user now).1 ≠ 0 := by
  have hblock : 0 < blocking_ban now { t.ip_entry p with last_seen := now }
      { t.user_entry user with last_seen := now } := by
    unfold blocking_ban
    dsimp only
    split
    · assumption
    · obtain hlive | hcrowd := h
      · omega
      · omega
  simp only [reserve]
  rw [if_pos hblock]
  exact Nat.ne_of_gt hblock

end Entry

end LoginThrottle
