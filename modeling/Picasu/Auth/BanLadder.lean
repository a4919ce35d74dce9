import Picasu.Auth.LoginAttempts
import Picasu.Framework.SlidingWindow

/-! # The Ban Ladder

What a throttle bucket answers over a run of failures. A failure during a ban is not noted; one
outside of a ban is noted, and the ban that it opens depends on how many noted failures are in the
window.

`peek_ban` tests every failure in the deque, `record_failure` drops the expired ones from the
front and takes the length. With times in order this is the same, and the answers are those of the
ladder (`Bucket.ladder_closed_form`): nothing up to the threshold, then a ban on every second
failure, twice as long each time, up to a cap.

Login attempts take their time before the password is verified and note it afterwards, so times
come out of order. Then an expired failure behind a younger one still counts when the next failure
is noted, and the two disagree (`Bucket.prediction_off`).
-/

open SlidingWindow

namespace Bucket

def fail (b : Bucket) (now : Nat) : Bucket := (b.record_failure now).2

def in_window (b : Bucket) (now : Nat) : List Nat := recent b.window_secs now b.failures

/-- The failures that `record_failure` counts, besides its own. -/
def kept (b : Bucket) (now : Nat) : List Nat := expire b.window_secs now b.failures

section Failures

variable {b : Bucket} {now : Nat}

theorem failure_count_eq (b : Bucket) (now : Nat) :
    b.failure_count now = (b.in_window now).length :=
  rfl

theorem record_failure_live (h : now < b.ban_until) :
    b.record_failure now = (b.ban_remaining now, b) :=
  if_pos h

/-- The end of the ban that a failure leaves behind, if it answers `delay`. -/
def ban_end (b : Bucket) (now delay : Nat) : Nat :=
  if delay = 0 then b.ban_until else saturating_add now delay

theorem record_failure_noted (h : b.ban_until ≤ now) :
    b.record_failure now =
      (b.ban_for_count ((b.kept now).length + 1),
        { b with
          failures := b.kept now ++ [now]
          ban_until := b.ban_end now (b.ban_for_count ((b.kept now).length + 1)) }) := by
  have hlength : (b.kept now ++ [now]).length = (b.kept now).length + 1 := List.length_append
  rw [← hlength, ban_end]
  simp only [record_failure, if_neg (Nat.not_lt.mpr h)]
  -- the source sets a new end only for a delay that is not 0
  by_cases hdelay : b.ban_for_count (b.kept now ++ [now]).length = 0
  · rw [if_pos hdelay, hdelay]
    exact if_pos hdelay
  · rw [if_neg hdelay]
    exact if_neg hdelay

theorem fail_live (h : now < b.ban_until) : b.fail now = b :=
  congrArg Prod.snd (record_failure_live h)

theorem fail_noted (h : b.ban_until ≤ now) :
    b.fail now =
      { b with
        failures := b.kept now ++ [now]
        ban_until := b.ban_end now (b.ban_for_count ((b.kept now).length + 1)) } :=
  congrArg Prod.snd (record_failure_noted h)

/-- The schedule of a bucket never changes. -/
theorem toBucketCfg_fail (b : Bucket) (now : Nat) : (b.fail now).toBucketCfg = b.toBucketCfg := by
  by_cases h : now < b.ban_until
  · rw [fail_live h]
  · rw [fail_noted (Nat.le_of_not_lt h)]

end Failures

/-! ## Prediction -/

/-- The bans are decided by exactly the failures in the window. The deque has fewer elements than
its length can count. -/
structure Exact (b : Bucket) : Prop where
  decides : ∀ now, b.kept now = b.in_window now
  few : b.failures.length < u64Max

/-- The failure is no older than those that it is counted with. -/
def InOrder (b : Bucket) (now : Nat) : Prop :=
  b.ban_until ≤ now → (∀ old ∈ b.kept now, old ≤ now) ∧ (b.kept now).length + 1 < u64Max

instance (b : Bucket) (now : Nat) : Decidable (b.InOrder now) :=
  inferInstanceAs (Decidable (b.ban_until ≤ now → _ ∧ _))

section Prediction

variable {b : Bucket} {now : Nat}

theorem exact_iff : b.Exact ↔ b.failures.Pairwise (· ≤ ·) ∧ b.failures.length < u64Max := by
  constructor
  · intro h
    exact ⟨(expire_eq_recent_iff b.window_pos).mp h.decides, h.few⟩
  · rintro ⟨hsorted, hfew⟩
    exact ⟨(expire_eq_recent_iff b.window_pos).mpr hsorted, hfew⟩

theorem exact_fail_iff (h : b.Exact) : (b.fail now).Exact ↔ b.InOrder now := by
  rw [exact_iff] at h ⊢
  by_cases hlive : now < b.ban_until
  · -- a failure during a ban is not noted
    rw [fail_live hlive]
    exact iff_of_true h fun hle => absurd hlive (Nat.not_lt.mpr hle)
  · have hle := Nat.le_of_not_lt hlive
    -- what is kept is sorted already, so only the new failure can be out of order
    have hkept : (b.kept now).Pairwise (· ≤ ·) := h.1.sublist (expire_sublist _ _ _)
    rw [fail_noted hle]
    simp only [InOrder, hle, forall_const, List.pairwise_append, hkept, true_and,
      List.pairwise_singleton, List.mem_singleton, forall_eq, List.length_append,
      List.length_singleton]

/-- A bucket whose deque is exact predicts what it records. -/
theorem Exact.peek_ban_eq (h : b.Exact) (now : Nat) :
    b.peek_ban now 1 = (b.record_failure now).1 := by
  unfold peek_ban
  by_cases hlive : now < b.ban_until
  · have hpos : 0 < b.ban_remaining now := Nat.sub_pos_of_lt hlive
    rw [if_pos hpos, record_failure_live hlive]
  · have hle := Nat.le_of_not_lt hlive
    have hzero : ¬ 0 < b.ban_remaining now := by
      unfold ban_remaining
      omega
    -- the prediction counts the window, the record counts the deque
    have hcount : saturating_add (b.failure_count now) 1 = (b.kept now).length + 1 := by
      have hshort : (b.in_window now).length ≤ b.failures.length := List.length_filter_le _ _
      have hfew := h.few
      rw [failure_count_eq, h.decides now]
      unfold saturating_add
      omega
    rw [if_neg hzero, record_failure_noted hle, hcount]

theorem exact_build (cfg : BucketCfg) : cfg.build.Exact :=
  exact_iff.mpr ⟨.nil, (by decide : 0 < u64Max)⟩

end Prediction

/-- In every run of failures, the bans are decided by exactly the failures in the window, at every
point, exactly if every failure that is noted is no older than those it is counted with. Then,
at every point and for every time, the bucket predicts what it would record. -/
theorem prediction_iff (cfg : BucketCfg) (times : List Nat) :
    ((∀ done, done <+: times → (LTS.run fail cfg.build done).Exact) ↔
      ∀ done now, done ++ [now] <+: times → (LTS.run fail cfg.build done).InOrder now) ∧
    ((∀ done now, done ++ [now] <+: times → (LTS.run fail cfg.build done).InOrder now) →
      ∀ done, done <+: times → ∀ now,
        (LTS.run fail cfg.build done).peek_ban now 1 =
          ((LTS.run fail cfg.build done).record_failure now).1) := by
  have hiff : (∀ done, done <+: times → (LTS.run fail cfg.build done).Exact) ↔
      ∀ done now, done ++ [now] <+: times → (LTS.run fail cfg.build done).InOrder now :=
    LTS.run_invariant_iff (I := Exact) (C := InOrder) (exact_build cfg)
      fun _ _ _ h => exact_fail_iff h
  exact ⟨hiff, fun hok done hdone now => (hiff.mpr hok done hdone).peek_ban_eq now⟩

/-- The shipped schedule of the short bucket. -/
def short_cfg : BucketCfg := Desk.shipped.ip_short

/-- Three failures in order; a fourth would open a ban while the first is in the window. -/
theorem prediction_in_order :
    let b := LTS.run fail short_cfg.build [999, 1000, 1100]
    b.peek_ban 1598 1 = 10 ∧ b.peek_ban 1599 1 = 0 ∧
      ∀ now, b.peek_ban now 1 = (b.record_failure now).1 := by
  have hok : ∀ done now, done ++ [now] <+: [999, 1000, 1100] →
      (LTS.run fail short_cfg.build done).InOrder now := by
    simp only [LTS.forall_step_cons, LTS.forall_step_nil, and_true]
    decide +kernel
  exact ⟨by decide +kernel, by decide +kernel,
    (prediction_iff short_cfg _).2 hok _ (List.prefix_refl _)⟩

/-- Two of the failures come in the wrong order. When the older one has left the window, two
failures and the next one stay within the allowance, but the next one is banned. -/
theorem prediction_off :
    let b := LTS.run fail short_cfg.build [1000, 999, 1100]
    b.in_window 1599 = [1000, 1100] ∧ b.kept 1599 = [1000, 999, 1100] ∧
      b.peek_ban 1599 1 = 0 ∧ (b.record_failure 1599).1 = 10 := by
  decide +kernel

/-! ## The ladder in closed form -/

/-- A call of `record_failure`: its time, the value it returned, and whether it fell inside a live
ban. -/
structure Call where
  now : Nat
  ban : Nat
  live : Bool
  deriving DecidableEq

/-- The calls at the given times, one after the other. -/
def calls (b : Bucket) : List Nat → List Call
  | [] => []
  | now :: times =>
    ⟨now, (b.record_failure now).1, decide (now < b.ban_until)⟩ :: calls (b.fail now) times

/-- The calls that did not fall inside a live ban. -/
def noted (calls : List Call) : List Call := calls.filter fun call => !call.live

/-- The ban on the failure that brings the number in the window to `count`, in exact arithmetic. -/
def ladder (cfg : BucketCfg) (count : Nat) : Nat :=
  if count ≤ cfg.max_failures ∨ (count - cfg.max_failures) % 2 = 0 then 0
  else min (cfg.base_ban_secs * 2 ^ ((count - cfg.max_failures - 1) / 2)) cfg.max_ban_secs

/-- Doubling step by step, with saturation, comes to the same. -/
theorem ban_delay_loop_eq {cap : Nat} (hcap : cap ≤ u64Max) (generation delay : Nat) :
    ban_delay_loop cap generation delay = min (delay * 2 ^ generation) cap := by
  induction generation generalizing delay with
  | zero => simp [ban_delay_loop]
  | succ generation ih =>
    have hpow : 1 ≤ 2 ^ generation := Nat.one_le_two_pow
    have hdouble : delay * 2 ^ (generation + 1) = delay * 2 * 2 ^ generation := by
      rw [Nat.pow_succ', Nat.mul_assoc]
    rw [ban_delay_loop]
    split
    · -- the cap is reached, and what remains only doubles further
      have hgrow : delay * 2 ≤ delay * 2 * 2 ^ generation := Nat.le_mul_of_pos_right _ hpow
      rw [hdouble]
      omega
    · have hexact : min (delay * 2) u64Max = delay * 2 := by omega
      rw [hexact, ih, hdouble]

variable {b : Bucket}

/-- The generation is cut at the width of its type, far past the cap. -/
theorem ban_for_count_eq_ladder (hcap : b.max_ban_secs ≤ u64Max) (count : Nat) :
    b.ban_for_count count = ladder b.toBucketCfg count := by
  unfold ban_for_count ladder
  by_cases hfew : count ≤ b.max_failures
  · simp [hfew]
  by_cases heven : (count - b.max_failures) % 2 = 0
  · simp [heven]
  simp only [hfew, heven, or_self, if_false]
  rw [ban_delay, ban_delay_loop_eq hcap]
  by_cases hwide : (count - b.max_failures - 1) / 2 ≤ u32Max
  · rw [Nat.min_eq_left hwide]
  have hpow : ∀ g, u32Max ≤ g → b.max_ban_secs ≤ b.base_ban_secs * 2 ^ g := by
    intro g hg
    have hstep : (2 : Nat) ^ 64 ≤ 2 ^ g :=
      Nat.pow_le_pow_right Nat.two_pos (Nat.le_trans (by decide) hg)
    have hbase : 2 ^ g ≤ b.base_ban_secs * 2 ^ g := Nat.le_mul_of_pos_left _ b.base_pos
    have hmax : u64Max ≤ 2 ^ 64 := by decide
    exact Nat.le_trans hcap (Nat.le_trans hmax (Nat.le_trans hstep hbase))
  have hover : u32Max ≤ (count - b.max_failures - 1) / 2 := by omega
  rw [Nat.min_eq_right hover, Nat.min_eq_right (hpow _ (Nat.le_refl _)),
    Nat.min_eq_right (hpow _ hover)]

/-- Leaving out the calls inside a ban changes nothing for the others. -/
theorem calls_noted (b : Bucket) (times : List Nat) :
    b.calls ((noted (b.calls times)).map Call.now) = noted (b.calls times) := by
  induction times generalizing b with
  | nil => rfl
  | cons now times ih =>
    by_cases hlive : now < b.ban_until
    · have hskip : noted (b.calls (now :: times)) = noted (b.calls times) := by
        simp [calls, noted, hlive, fail_live hlive]
      rw [hskip]
      exact ih b
    · have hkeep : noted (b.calls (now :: times)) =
          ⟨now, (b.record_failure now).1, false⟩ :: noted ((b.fail now).calls times) := by
        simp [calls, noted, hlive]
      rw [hkeep, List.map_cons, calls, ih]
      simp [hlive]

/-- The remembered failures are in order, and none is later than the clock. -/
structure Timely (b : Bucket) (clock : Nat) : Prop where
  sorted : b.failures.Pairwise (· ≤ ·)
  bounded : ∀ old ∈ b.failures, old ≤ clock

theorem timely_nil (clock : Nat) (h : b.failures = []) : b.Timely clock := by
  refine ⟨?_, ?_⟩
  · rw [h]
    exact .nil
  · rw [h]
    exact fun _ hold => absurd hold List.not_mem_nil

theorem Timely.mono {clock now : Nat} (h : b.Timely clock) (hnow : clock ≤ now) :
    b.Timely now :=
  ⟨h.sorted, fun old hold => Nat.le_trans (h.bounded old hold) hnow⟩

/-- What is kept for a failure is no later than the failure. -/
theorem Timely.fail {clock now : Nat} (h : b.Timely clock) (hnow : clock ≤ now) :
    (b.fail now).Timely now := by
  by_cases hlive : now < b.ban_until
  · rw [fail_live hlive]
    exact h.mono hnow
  · have hkept : ∀ old ∈ b.kept now, old ≤ now := fun old hold =>
      (h.mono hnow).bounded old ((expire_sublist _ _ _).subset hold)
    rw [fail_noted (Nat.le_of_not_lt hlive)]
    refine ⟨List.pairwise_append.mpr ⟨h.sorted.sublist (expire_sublist _ _ _), ?_, ?_⟩, ?_⟩
    · exact List.pairwise_singleton _ _
    · intro old hold t ht
      rw [List.mem_singleton.mp ht]
      exact hkept old hold
    · intro old hold
      rcases List.mem_append.mp hold with hold | hold
      · exact hkept old hold
      · exact Nat.le_of_eq (List.mem_singleton.mp hold)

/-- The deque stands for the failures noted so far: at every time from now on the same are in the
window. -/
structure Remembers (b : Bucket) (past : List Nat) (clock : Nat) : Prop extends b.Timely clock where
  same : ∀ now, clock ≤ now → b.in_window now = recent b.window_secs now past

section Remembers

variable {b : Bucket} {past : List Nat} {clock now : Nat}

theorem remembers_build (cfg : BucketCfg) : cfg.build.Remembers [] 0 :=
  ⟨timely_nil 0 rfl, fun _ _ => rfl⟩

theorem Remembers.kept_eq (h : b.Remembers past clock) (hnow : clock ≤ now) :
    b.kept now = recent b.window_secs now past :=
  (expire_eq_recent h.sorted now).trans (h.same now hnow)

/-- A failure outside of a ban is remembered. -/
theorem Remembers.fail (h : b.Remembers past clock) (hnow : clock ≤ now)
    (hban : b.ban_until ≤ now) : (b.fail now).Remembers (past ++ [now]) now := by
  refine ⟨h.toTimely.fail hnow, fun later hlater => ?_⟩
  have hkept : b.kept now = b.in_window now := expire_eq_recent h.sorted now
  rw [fail_noted hban]
  show recent b.window_secs later (b.kept now ++ [now]) = recent b.window_secs later (past ++ [now])
  rw [recent_append, recent_append, hkept, in_window, recent_recent hlater]
  exact congrArg (· ++ _) (h.same later (Nat.le_trans hnow hlater))

/-- What a call outside of a ban answers: the rung for the noted failures in its window. -/
theorem Remembers.record_failure_eq (h : b.Remembers past clock) (hnow : clock ≤ now)
    (hban : b.ban_until ≤ now) (hcap : b.max_ban_secs ≤ u64Max) :
    (b.record_failure now).1 =
      ladder b.toBucketCfg (recent b.window_secs now (past ++ [now])).length := by
  rw [record_failure_noted hban, ban_for_count_eq_ladder hcap, h.kept_eq hnow, recent_append,
    recent_self b.window_pos, List.length_append, List.length_singleton]

/-- The calls of a run, from a bucket that remembers earlier ones. -/
theorem Remembers.calls (hcap : b.max_ban_secs ≤ u64Max) (h : b.Remembers past clock)
    {times : List Nat} (htimes : times.Pairwise (· ≤ ·)) (hclock : ∀ t ∈ times, clock ≤ t)
    {before : List Call} {call : Call} (hpre : before ++ [call] <+: noted (b.calls times)) :
    call.ban = ladder b.toBucketCfg
      (recent b.window_secs call.now (past ++ (before ++ [call]).map Call.now)).length := by
  induction times generalizing b past clock before with
  | nil => simp [Bucket.calls, noted] at hpre
  | cons now times ih =>
    obtain ⟨hfirst, hrest⟩ := List.pairwise_cons.mp htimes
    have hnow : clock ≤ now := hclock now List.mem_cons_self
    by_cases hlive : now < b.ban_until
    · -- an ignored call leaves the bucket as it is
      have hskip : noted (b.calls (now :: times)) = noted (b.calls times) := by
        simp [Bucket.calls, noted, hlive, fail_live hlive]
      rw [hskip] at hpre
      exact ih hcap h hrest (fun t ht => hclock t (List.mem_cons_of_mem now ht)) hpre
    · have hban := Nat.le_of_not_lt hlive
      have hkeep : noted (b.calls (now :: times)) =
          ⟨now, (b.record_failure now).1, false⟩ :: noted ((b.fail now).calls times) := by
        simp [Bucket.calls, noted, hlive]
      rw [hkeep] at hpre
      cases before with
      | nil =>
        obtain rfl : call = ⟨now, (b.record_failure now).1, false⟩ := by simpa using hpre
        exact h.record_failure_eq hnow hban hcap
      | cons first before =>
        obtain ⟨rfl, htail⟩ := List.cons_prefix_cons.mp hpre
        have hcfg := toBucketCfg_fail b now
        have hnext := ih (by rw [hcfg]; exact hcap) (h.fail hnow hban) hrest hfirst htail
        rw [hcfg, List.append_assoc] at hnext
        exact hnext

end Remembers

/-- For failures in the order of their times: leaving out the calls that fell inside a live ban
changes no value that the others return, and each of these returns the rung of the ladder for
the number of them, up to and including itself, in its window. The cap is a 64-bit number. -/
theorem ladder_closed_form (cfg : BucketCfg) (hcap : cfg.max_ban_secs ≤ u64Max)
    (times : List Nat) (htimes : times.Pairwise (· ≤ ·)) :
    let remaining := noted (cfg.build.calls times)
    cfg.build.calls (remaining.map Call.now) = remaining ∧
      ∀ before call, before ++ [call] <+: remaining →
        call.ban = ladder cfg ((before ++ [call]).filter fun old =>
          call.now - old.now < cfg.window_secs).length := by
  intro remaining
  refine ⟨calls_noted _ _, fun before call hpre => ?_⟩
  have hcall := (remembers_build cfg).calls hcap htimes (fun _ _ => Nat.zero_le _) hpre
  rw [hcall, List.nil_append, recent, List.filter_map, List.length_map]
  rfl

/-- The first failures of a patient client: the fourth opens a ban, the one after it is free, and
the next ban is twice as long. One call is made during a ban. -/
theorem ladder_first_rungs :
    let remaining := noted (short_cfg.build.calls [0, 0, 0, 5, 9, 15, 15, 40])
    remaining.map Call.ban = [0, 0, 0, 10, 0, 20, 0] ∧
      short_cfg.build.calls (remaining.map Call.now) = remaining :=
  ⟨by decide +kernel, (ladder_closed_form short_cfg (by decide) _ (by decide)).1⟩

end Bucket
