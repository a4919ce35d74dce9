import Mathlib.Algebra.Group.Nat.Defs
import Mathlib.Data.List.Basic

/-! # Throttle Buckets

One sliding-window bucket of the login throttle. It remembers the times of recent failures and,
past a threshold, answers every second one with a ban, each longer than the last. It never reads a
clock: callers pass the time, in seconds.

Times are 64-bit and counts 32-bit, and the code saturates where it adds them; the model keeps the
saturation, since bounds depend on it.
-/

/-- `u32::MAX`. -/
def u32Max : Nat := 2 ^ 32 - 1

/-- `u64::MAX`. -/
def u64Max : Nat := 2 ^ 64 - 1

def saturating_add (a b : Nat) : Nat := min (a + b) u64Max

theorem saturating_add_of_le_u32Max {a b : Nat} (h : a + b ≤ u32Max + 1) :
    saturating_add a b = a + b := by
  have hwide : u32Max + 1 ≤ u64Max := by decide
  exact Nat.min_eq_left (Nat.le_trans h hwide)

/-- The parameters of a schedule that `Bucket::new` accepts. -/
structure BucketCfg where
  window_secs : Nat
  max_failures : Nat
  base_ban_secs : Nat
  max_ban_secs : Nat
  window_pos : 0 < window_secs
  max_failures_pos : 0 < max_failures
  base_pos : 0 < base_ban_secs
  base_le_max : base_ban_secs ≤ max_ban_secs

/-- `Bucket`: its schedule, the failures it remembers, oldest first, and the end of the last ban. -/
structure Bucket extends BucketCfg where
  failures : List Nat
  ban_until : Nat

/-! ## Schedules -/

/-- The validation of `Bucket::new`. -/
def BucketCfg.new (window_secs max_failures base_ban_secs max_ban_secs : Nat) :
    Except String BucketCfg :=
  if hwindow : window_secs = 0 then .error "throttle window must be at least 1 second"
  else if hmax : max_failures = 0 then
    .error "throttle must allow at least 1 failure before banning"
  else if hbase : base_ban_secs = 0 then .error "throttle base ban must be at least 1 second"
  else if hcap : max_ban_secs < base_ban_secs then
    .error "throttle max ban must be at least the base ban"
  else .ok
    { window_secs, max_failures, base_ban_secs, max_ban_secs
      window_pos := Nat.pos_of_ne_zero hwindow
      max_failures_pos := Nat.pos_of_ne_zero hmax
      base_pos := Nat.pos_of_ne_zero hbase
      base_le_max := Nat.le_of_not_lt hcap }

def BucketCfg.build (cfg : BucketCfg) : Bucket := { cfg with failures := [], ban_until := 0 }

/-- The loop of `ban_delay`: double, and stop at the cap. -/
def ban_delay_loop (cap_secs : Nat) : Nat → Nat → Nat
  | 0, delay => min delay cap_secs
  | generation + 1, delay =>
    let doubled := min (delay * 2) u64Max
    if cap_secs ≤ doubled then cap_secs else ban_delay_loop cap_secs generation doubled

def ban_delay (base_secs cap_secs generation : Nat) : Nat :=
  ban_delay_loop cap_secs generation base_secs

theorem ban_delay_loop_pos {cap_secs : Nat} (hcap : 0 < cap_secs) (generation : Nat) {delay : Nat}
    (hdelay : 0 < delay) : 0 < ban_delay_loop cap_secs generation delay := by
  induction generation generalizing delay with
  | zero =>
    unfold ban_delay_loop
    omega
  | succ generation ih =>
    unfold ban_delay_loop
    dsimp only
    split
    · exact hcap
    · apply ih
      unfold u64Max
      omega

namespace Bucket

variable (b : Bucket)

def ban_remaining (now : Nat) : Nat := b.ban_until - now

/-- `Bucket::failure_count`: the remembered failures in the window. -/
def failure_count (now : Nat) : Nat :=
  (b.failures.filter fun old => now - old < b.window_secs).length

/-- `Bucket::ban_for_count`: past the threshold, every second count bans. -/
def ban_for_count (count : Nat) : Nat :=
  if count ≤ b.max_failures then 0
  else
    let excess := count - b.max_failures
    if excess % 2 = 0 then 0
    else ban_delay b.base_ban_secs b.max_ban_secs (min ((excess - 1) / 2) u32Max)

def peek_ban (now extra_failures : Nat) : Nat :=
  if 0 < b.ban_remaining now then b.ban_remaining now
  else b.ban_for_count (saturating_add (b.failure_count now) extra_failures)

/-- `Bucket::record_failure`: the ban it applies, and the bucket after it. During a ban nothing is
recorded. -/
def record_failure (now : Nat) : Nat × Bucket :=
  if now < b.ban_until then (b.ban_until - now, b)
  else
    let kept := b.failures.dropWhile fun old => b.window_secs ≤ now - old
    let failures := kept ++ [now]
    let delay := b.ban_for_count failures.length
    if delay = 0 then (0, { b with failures })
    else (delay, { b with failures, ban_until := saturating_add now delay })

/-- `Bucket::record_success`: forget everything. -/
def record_success : Bucket := { b with failures := [], ban_until := 0 }

/-- The bans of a schedule: the counts past the threshold by an odd number. -/
theorem ban_for_count_pos_iff (count : Nat) :
    0 < b.ban_for_count count ↔ b.max_failures < count ∧ (count - b.max_failures) % 2 = 1 := by
  unfold ban_for_count
  split
  · omega
  dsimp only
  split
  · omega
  have hcap : 0 < b.max_ban_secs := Nat.lt_of_lt_of_le b.base_pos b.base_le_max
  have hdelay : 0 < ban_delay b.base_ban_secs b.max_ban_secs
      (min ((count - b.max_failures - 1) / 2) u32Max) :=
    ban_delay_loop_pos hcap _ b.base_pos
  omega

/-! ## Failures at one moment

A bucket that has seen `f` failures, all of them at the time `now`. -/

section OneMoment

variable {b : Bucket} {now f : Nat}

theorem failure_count_replicate (h : b.failures = List.replicate f now) :
    b.failure_count now = f := by
  have hall : (List.replicate f now).filter (fun old => now - old < b.window_secs) =
      List.replicate f now :=
    List.filter_replicate_of_pos (by simpa using b.window_pos)
  unfold failure_count
  rw [h, hall, List.length_replicate]

theorem dropWhile_replicate (h : b.failures = List.replicate f now) :
    b.failures.dropWhile (fun old => b.window_secs ≤ now - old) = List.replicate f now := by
  have hpos := b.window_pos
  rw [h]
  cases f with
  | zero => rfl
  | succ f =>
    rw [List.replicate_succ, List.dropWhile_cons_of_neg]
    simp only [Nat.sub_self, decide_eq_true_eq]
    omega

theorem record_failure_banned (hban : now < b.ban_until) : (b.record_failure now).2 = b := by
  unfold record_failure
  rw [if_pos hban]

theorem record_failure_below (h : b.failures = List.replicate f now) (hban : b.ban_until ≤ now)
    (hf : f < b.max_failures) :
    (b.record_failure now).2 = { b with failures := List.replicate (f + 1) now } := by
  have hdelay : b.ban_for_count (List.replicate f now ++ [now]).length = 0 := by
    rw [← List.replicate_succ', List.length_replicate]
    unfold ban_for_count
    rw [if_pos (by omega)]
  unfold record_failure
  rw [if_neg (by omega)]
  dsimp only
  rw [dropWhile_replicate h, if_pos hdelay, ← List.replicate_succ']

/-- The failure that crosses the threshold opens a ban, unless the clock is at its end. -/
theorem record_failure_crossing (h : b.failures = List.replicate f now) (hban : b.ban_until ≤ now)
    (hf : f = b.max_failures) (hnow : now < u64Max) :
    now < (b.record_failure now).2.ban_until := by
  have hdelay : 0 < b.ban_for_count (List.replicate f now ++ [now]).length := by
    rw [← List.replicate_succ', List.length_replicate, ban_for_count_pos_iff]
    omega
  unfold record_failure
  rw [if_neg (by omega)]
  dsimp only
  rw [dropWhile_replicate h, if_neg (by omega)]
  show now < saturating_add now _
  unfold saturating_add
  omega

theorem max_failures_record_failure (b : Bucket) (now : Nat) :
    (b.record_failure now).2.max_failures = b.max_failures := by
  unfold record_failure
  split
  · rfl
  dsimp only
  split
  · rfl
  · rfl

end OneMoment

end Bucket
