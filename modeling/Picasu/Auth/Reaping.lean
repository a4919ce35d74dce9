import Picasu.Auth.ThrottleRuns

/-! # Reaping Idle Entries

A sweep of the login throttle drops the entries that have not been seen for the longest window and
have no live ban. Nobody can tell: no check, no countdown and no recorded failure answers
differently if some of the sweeps are left out of a run.

By the times that an entry keeps, the buckets of a dropped entry are like fresh ones from then on
(`Alike`): no failure in the window, no ban. Two runs with and without the sweep differ in such
buckets only.
-/

open SlidingWindow LTS

/-! ## Buckets that answer alike -/

namespace Bucket

/-- From `now` on the two buckets answer alike. -/
structure Alike (now : Nat) (b b' : Bucket) : Prop where
  cfg : b.toBucketCfg = b'.toBucketCfg
  recent : b.in_window now = b'.in_window now
  ban : b.ban_remaining now = b'.ban_remaining now

/-- No ban, and no failure in the window. -/
def Idle (b : Bucket) (now : Nat) : Prop := b.ban_remaining now = 0 ∧ b.failure_count now = 0

section Alike

variable {b b' b'' : Bucket} {now later : Nat}

theorem Alike.refl (now : Nat) (b : Bucket) : Alike now b b := ⟨rfl, rfl, rfl⟩

theorem Alike.symm (h : Alike now b b') : Alike now b' b := ⟨h.cfg.symm, h.recent.symm, h.ban.symm⟩

theorem Alike.trans (h : Alike now b b') (h' : Alike now b' b'') : Alike now b b'' :=
  ⟨h.cfg.trans h'.cfg, h.recent.trans h'.recent, h.ban.trans h'.ban⟩

theorem Alike.mono (h : Alike now b b') (hle : now ≤ later) : Alike later b b' := by
  refine ⟨h.cfg, ?_, ?_⟩
  · have hrecent := congrArg (SlidingWindow.recent b.window_secs later) h.recent
    have hwindow : b'.window_secs = b.window_secs := by rw [h.cfg]
    rw [in_window, in_window, hwindow, recent_recent hle, recent_recent hle] at hrecent
    rw [in_window, in_window, hwindow, hrecent]
  · have hban := h.ban
    unfold ban_remaining at hban ⊢
    omega

theorem Alike.failure_count_eq (h : Alike now b b') : b.failure_count now = b'.failure_count now :=
  congrArg List.length h.recent

theorem Alike.idle {cfg : BucketCfg} (h : Alike now b cfg.build) : b.Idle now :=
  ⟨h.ban.trans (Nat.zero_sub now), h.failure_count_eq⟩

theorem ban_for_count_congr (h : b.toBucketCfg = b'.toBucketCfg) (count : Nat) :
    b.ban_for_count count = b'.ban_for_count count := by
  unfold ban_for_count
  rw [h]

theorem live_iff (b : Bucket) (now : Nat) : now < b.ban_until ↔ 0 < b.ban_remaining now := by
  unfold ban_remaining
  omega

/-- With times in order, alike buckets answer a failure alike, and stay so. -/
theorem Alike.fail (h : Alike now b b') (hsorted : b.failures.Pairwise (· ≤ ·))
    (hsorted' : b'.failures.Pairwise (· ≤ ·)) :
    (b.record_failure now).1 = (b'.record_failure now).1 ∧
      Alike now (b.fail now) (b'.fail now) := by
  by_cases hlive : now < b.ban_until
  · have hlive' : now < b'.ban_until := by rwa [live_iff, ← h.ban, ← live_iff]
    rw [record_failure_live hlive, record_failure_live hlive', fail_live hlive, fail_live hlive']
    exact ⟨h.ban, h⟩
  · have hlive' : ¬ now < b'.ban_until := by rwa [live_iff, ← h.ban, ← live_iff]
    have hban := Nat.le_of_not_lt hlive
    have hban' := Nat.le_of_not_lt hlive'
    -- in order, the deque keeps just the window, on which the two agree
    have hkept : b.kept now = b'.kept now :=
      (expire_eq_recent hsorted now).trans (h.recent.trans (expire_eq_recent hsorted' now).symm)
    have hcount := ban_for_count_congr h.cfg ((b'.kept now).length + 1)
    have hwindow : b'.window_secs = b.window_secs := by rw [h.cfg]
    rw [record_failure_noted hban, record_failure_noted hban', fail_noted hban, fail_noted hban',
      hkept, hcount]
    refine ⟨rfl, h.cfg, ?_, ?_⟩
    · show SlidingWindow.recent b.window_secs now _ = SlidingWindow.recent b'.window_secs now _
      rw [hwindow]
    · show b.ban_end now _ - now = b'.ban_end now _ - now
      unfold ban_end
      split
      · exact h.ban
      · rfl

theorem Alike.record_success (h : Alike now b b') :
    Alike now b.record_success b'.record_success :=
  ⟨h.cfg, rfl, rfl⟩

end Alike

/-- A bucket that was last seen before the window and whose ban is over is like a fresh one. -/
theorem Dated.alike_build {cfg : BucketCfg} {b : Bucket} {seen banned now : Nat}
    (h : b.Dated cfg seen banned) (hban : banned ≤ now)
    (hseen : cfg.window_secs ≤ now - seen) : Alike now b cfg.build := by
  refine ⟨h.cfg_eq, ?_, ?_⟩
  · -- every failure is older than the window
    have hwindow : b.window_secs ≤ now - seen := by
      rw [h.cfg_eq]
      exact hseen
    exact recent_eq_nil h.bounded hwindow
  · have hle := h.ban_le
    show b.ban_until - now = 0 - now
    omega

end Bucket

/-! ## Entries -/

open Bucket

namespace IpEntry

/-- Two entries of an address answer alike. -/
structure Alike (now : Nat) (e e' : IpEntry) : Prop where
  short : e.short.Alike now e'.short
  long : e.long.Alike now e'.long

/-- The times that a sweep tests, of two entries. -/
structure Below (e e' : IpEntry) : Prop where
  seen : e.last_seen ≤ e'.last_seen
  banned : e.banned_until ≤ e'.banned_until

variable {short long : BucketCfg} {clock now : Nat} {e e' e'' : IpEntry}

theorem Alike.refl (now : Nat) (e : IpEntry) : Alike now e e := ⟨.refl now _, .refl now _⟩

theorem Alike.trans (h : Alike now e e') (h' : Alike now e' e'') : Alike now e e'' :=
  ⟨h.short.trans h'.short, h.long.trans h'.long⟩

theorem Alike.symm (h : Alike now e e') : Alike now e' e := ⟨h.short.symm, h.long.symm⟩

theorem Alike.mono (h : Alike clock e e') (hnow : clock ≤ now) : Alike now e e' :=
  ⟨h.short.mono hnow, h.long.mono hnow⟩

theorem Alike.fail (h : Alike now e e') (hdated : e.Dated short long clock)
    (hdated' : e'.Dated short long clock) : Alike now (e.fail now) (e'.fail now) :=
  ⟨(h.short.fail hdated.short.sorted hdated'.short.sorted).2,
    (h.long.fail hdated.long.sorted hdated'.long.sorted).2⟩

theorem Below.fail (hbelow : Below e e') (h : Alike now e e') (hdated : e.Dated short long clock)
    (hdated' : e'.Dated short long clock) : Below (e.fail now) (e'.fail now) := by
  have hshort := (h.short.fail hdated.short.sorted hdated'.short.sorted).1
  have hlong := (h.long.fail hdated.long.sorted hdated'.long.sorted).1
  -- both entries get the same ban on top of what they had
  have hbanned := hbelow.banned
  refine ⟨Nat.le_refl _, ?_⟩
  simp only [IpEntry.fail, hshort, hlong]
  omega

theorem Dated.alike_fresh (h : e.Dated short long clock) (hban : e.banned_until ≤ now)
    (hshort : short.window_secs ≤ now - e.last_seen)
    (hlong : long.window_secs ≤ now - e.last_seen) : Alike now e (fresh short long) :=
  ⟨h.short.alike_build hban hshort, h.long.alike_build hban hlong⟩

end IpEntry

namespace ThrottleEntry

/-- Two entries of a name answer alike. -/
def Alike (now : Nat) (e e' : ThrottleEntry) : Prop := e.long.Alike now e'.long

/-- The times that a sweep tests, of two entries. -/
structure Below (e e' : ThrottleEntry) : Prop where
  seen : e.last_seen ≤ e'.last_seen
  banned : e.banned_until ≤ e'.banned_until

variable {long : BucketCfg} {clock now : Nat} {e e' : ThrottleEntry}

theorem Alike.fail (h : Alike now e e') (hdated : e.Dated long clock)
    (hdated' : e'.Dated long clock) : Alike now (e.fail now) (e'.fail now) :=
  (Bucket.Alike.fail h hdated.long.sorted hdated'.long.sorted).2

theorem Below.fail (hbelow : Below e e') (h : Alike now e e') (hdated : e.Dated long clock)
    (hdated' : e'.Dated long clock) : Below (e.fail now) (e'.fail now) := by
  have hlong := (Bucket.Alike.fail h hdated.long.sorted hdated'.long.sorted).1
  have hbanned := hbelow.banned
  refine ⟨Nat.le_refl _, ?_⟩
  simp only [ThrottleEntry.fail, hlong]
  omega

end ThrottleEntry

/-! ## Sweeps -/

namespace LoginThrottle

/-- The same calls, but for some of the sweeps. -/
inductive SweepsDeleted : List Label → List Label → Prop
  | nil : SweepsDeleted [] []
  | keep (l : Label) {labels fewer : List Label} (h : SweepsDeleted labels fewer) :
    SweepsDeleted (l :: labels) (l :: fewer)
  | delete (now : Nat) (ip_order user_order : List String) {labels fewer : List Label}
    (h : SweepsDeleted labels fewer) :
    SweepsDeleted (.sweep now ip_order user_order :: labels) fewer

section Sweeps

variable {t : LoginThrottle} {clock now : Nat}

theorem retains_eq_false {last_seen banned_until : Nat}
    (h : t.retains now last_seen banned_until = false) :
    banned_until ≤ now ∧ t.longest_window ≤ now - last_seen := by
  simpa [retains] using h

theorem retains_mono {seen seen' banned banned' : Nat} (hseen : seen ≤ seen')
    (hbanned : banned ≤ banned') (h : t.retains now seen banned = true) :
    t.retains now seen' banned' = true := by
  simp only [retains, Bool.or_eq_true, decide_eq_true_eq] at h ⊢
  omega

/-- What a sweep drops is like a fresh entry from then on. -/
theorem Known.ip_dropped (h : Known clock t) {ip : String} {e : IpEntry}
    (he : t.ip.lookup ip = some e) (hdrop : t.retains now e.last_seen e.banned_until = false) :
    e.Alike now (IpEntry.fresh t.ip_short t.ip_long) := by
  obtain ⟨hban, hseen⟩ := retains_eq_false hdrop
  exact (h.ip ip e he).alike_fresh hban (Nat.le_trans h.ip_short hseen)
    (Nat.le_trans h.ip_long hseen)

theorem Known.user_dropped (h : Known clock t) {user : String} {e : ThrottleEntry}
    (he : t.user.lookup user = some e)
    (hdrop : t.retains now e.last_seen e.banned_until = false) :
    e.Alike now (ThrottleEntry.fresh t.user_long) := by
  obtain ⟨hban, hseen⟩ := retains_eq_false hdrop
  exact (h.user user e he).long.alike_build hban (Nat.le_trans h.user_long hseen)

end Sweeps

/-- A sweep drops only entries whose buckets have nothing to say any more. -/
def SweepsIdle (t : LoginThrottle) : Label → Prop
  | .sweep now ip_order user_order =>
    (∀ ip e, t.ip.lookup ip = some e → (t.sweep now ip_order user_order).ip.lookup ip = none →
      ∀ later, now ≤ later → e.short.Idle later ∧ e.long.Idle later) ∧
    (∀ user e, t.user.lookup user = some e →
      (t.sweep now ip_order user_order).user.lookup user = none →
      ∀ later, now ≤ later → e.long.Idle later)
  | _ => True

theorem Known.sweepsIdle {t : LoginThrottle} {clock : Nat} (h : Known clock t) (hroom : InRoom t)
    (l : Label) : t.SweepsIdle l := by
  cases l with
  | sweep now ip_order user_order =>
    simp only [SweepsIdle, sweep_of_room hroom]
    refine ⟨fun ip e he hnone later hlater => ?_, fun user e he hnone later hlater => ?_⟩
    · have hdrop := Table.dropped_of_retain_eq_none hnone he
      have hlike := (h.ip_dropped he hdrop).mono hlater
      exact ⟨hlike.short.idle, hlike.long.idle⟩
    · have hdrop := Table.dropped_of_retain_eq_none hnone he
      have hlike := Bucket.Alike.mono (h.user_dropped he hdrop) hlater
      exact hlike.idle
  | _ => trivial

/-! ## A throttle and one that was swept less -/

/-- The first throttle has the entries of the second but for some that are like fresh ones. -/
structure Similar (clock : Nat) (t t' : LoginThrottle) : Prop where
  ip_short : t.ip_short = t'.ip_short
  ip_long : t.ip_long = t'.ip_long
  user_long : t.user_long = t'.user_long
  longest_window : t.longest_window = t'.longest_window
  ip : t.ip.Shadows (IpEntry.fresh t.ip_short t.ip_long) (IpEntry.Alike clock) IpEntry.Below t'.ip
  user : t.user.Shadows (ThrottleEntry.fresh t.user_long) (ThrottleEntry.Alike clock)
    ThrottleEntry.Below t'.user

section Similar

variable {t t' : LoginThrottle} {clock now : Nat} {l : Label}

theorem Similar.refl (clock : Nat) (t : LoginThrottle) : Similar clock t t :=
  ⟨rfl, rfl, rfl, rfl,
    .refl (IpEntry.Alike.refl clock) (fun _ => ⟨Nat.le_refl _, Nat.le_refl _⟩) t.ip,
    .refl (fun e => Bucket.Alike.refl clock e.long) (fun _ => ⟨Nat.le_refl _, Nat.le_refl _⟩) t.user⟩

section

variable (h : Similar clock t t')

include h

theorem Similar.mono (hnow : clock ≤ now) : Similar now t t' :=
  { h with
    ip := h.ip.imp fun _ _ he => he.mono hnow
    user := h.user.imp fun _ _ he => Bucket.Alike.mono he hnow }

theorem Similar.ip_entry (ip : String) :
    (t.ip_entry ip).Alike clock (t'.ip_entry ip) ∧ (t.ip_entry ip).Below (t'.ip_entry ip) := by
  have hfresh : t'.ip_entry ip = (t'.ip.lookup ip).getD (IpEntry.fresh t.ip_short t.ip_long) := by
    rw [h.ip_short, h.ip_long]
    rfl
  rw [hfresh]
  exact ⟨h.ip.alike ip, h.ip.below_getD (fun e => ⟨Nat.zero_le _, Nat.zero_le _⟩) ip⟩

theorem Similar.user_entry (user : String) :
    (t.user_entry user).Alike clock (t'.user_entry user) ∧
      (t.user_entry user).Below (t'.user_entry user) := by
  have hfresh : t'.user_entry user =
      (t'.user.lookup user).getD (ThrottleEntry.fresh t.user_long) := by
    rw [h.user_long]
    rfl
  rw [hfresh]
  exact ⟨h.user.alike user, h.user.below_getD (fun e => ⟨Nat.zero_le _, Nat.zero_le _⟩) user⟩

theorem Similar.inRoom (hroom : InRoom t') : InRoom t :=
  ⟨Nat.lt_of_le_of_lt h.ip.length_le hroom.1, Nat.lt_of_le_of_lt h.user.length_le hroom.2⟩

theorem Similar.answer_eq (hknown : Known clock t) (hknown' : Known clock t')
    (hnow : clock ≤ l.tick clock) : t.answer l = t'.answer l := by
  have hlater := h.mono hnow
  -- only the three calls that answer something need the entries
  cases l with
  | check ip user now =>
    obtain ⟨hip, -⟩ := hlater.ip_entry ip
    obtain ⟨huser, -⟩ := hlater.user_entry user
    have hshort : (t.ip_entry ip).short.ban_remaining now = _ := hip.short.ban
    have hlong : (t.ip_entry ip).long.ban_remaining now = _ := hip.long.ban
    have hname : (t.user_entry user).long.ban_remaining now = _ := huser.ban
    simp only [answer, check_eq]
    rw [hshort, hlong, hname]
    rfl
  | remaining ip user now =>
    obtain ⟨hip, -⟩ := hlater.ip_entry ip
    obtain ⟨huser, -⟩ := hlater.user_entry user
    have hshort : (t.ip_entry ip).short.failure_count now = _ := hip.short.failure_count_eq
    have hlong : (t.ip_entry ip).long.failure_count now = _ := hip.long.failure_count_eq
    have hname : (t.user_entry user).long.failure_count now = _ := huser.failure_count_eq
    simp only [answer, remaining_eq]
    rw [hshort, hlong, hname, h.ip_short, h.ip_long, h.user_long]
    rfl
  | reserve ip user now => rfl
  | release ip user => rfl
  | record_failure ip user now ip_order user_order =>
    obtain ⟨hip, -⟩ := hlater.ip_entry ip
    obtain ⟨huser, -⟩ := hlater.user_entry user
    have hdated := hknown.ip_entry ip
    have hdated' := hknown'.ip_entry ip
    have hshort : ((t.ip_entry ip).short.record_failure now).1 = _ :=
      (hip.short.fail hdated.short.sorted hdated'.short.sorted).1
    have hlong : ((t.ip_entry ip).long.record_failure now).1 = _ :=
      (hip.long.fail hdated.long.sorted hdated'.long.sorted).1
    have hname : ((t.user_entry user).long.record_failure now).1 = _ :=
      (Bucket.Alike.fail huser (hknown.user_entry user).long.sorted
        (hknown'.user_entry user).long.sorted).1
    simp only [answer, record_failure]
    rw [hshort, hlong, hname]
    rfl
  | record_success ip user now => rfl
  | sweep now ip_order user_order => rfl

end

theorem Similar.sweep_left (h : Similar now t t') (hknown : Known clock t) (hroom : InRoom t)
    (ip_order user_order : List String) : Similar now (t.sweep now ip_order user_order) t' := by
  rw [sweep_of_room hroom]
  exact { h with
    ip := h.ip.retain_left fun _ _ _ he hdrop hlike => (hknown.ip_dropped he hdrop).symm.trans hlike
    user := h.user.retain_left fun _ _ _ he hdrop hlike =>
      (hknown.user_dropped he hdrop).symm.trans hlike }

theorem Similar.next (h : Similar clock t t') (hknown : Known clock t) (hknown' : Known clock t')
    (hroom : InRoom t') (hnow : clock ≤ l.tick clock) :
    Similar (l.tick clock) (t.next l) (t'.next l) := by
  have hlater := h.mono hnow
  cases l with
  | check ip user now | remaining ip user now => exact hlater
  | reserve ip user now =>
    obtain ⟨slots, slots', heq⟩ := t.reserve_eq ip user now
    obtain ⟨others, others', heq'⟩ := t'.reserve_eq ip user now
    obtain ⟨hip, hbelow⟩ := hlater.ip_entry ip
    obtain ⟨huser, hbelow'⟩ := hlater.user_entry user
    simp only [LoginThrottle.next, heq, heq']
    refine { hlater with
      ip := hlater.ip.insert ?_ ?_ ip
      user := hlater.user.insert ?_ ?_ user }
    · exact ⟨hip.short, hip.long⟩
    · exact ⟨Nat.le_refl now, hbelow.banned⟩
    · exact huser
    · exact ⟨Nat.le_refl now, hbelow'.banned⟩
  | release ip user =>
    exact { hlater with
      ip := hlater.ip.rewriteAt (f := fun e => { e with in_flight := e.in_flight - 1 })
        (fun _ _ he => ⟨he.short, he.long⟩) (fun _ he => ⟨he.short, he.long⟩)
        (fun _ _ _ hle => ⟨hle.seen, hle.banned⟩) ip
      user := hlater.user.rewriteAt (f := fun e => { e with in_flight := e.in_flight - 1 })
        (fun _ _ he => he) (fun _ he => he) (fun _ _ _ hle => ⟨hle.seen, hle.banned⟩) user }
  | record_failure ip user now ip_order user_order =>
    obtain ⟨hip, hbelow⟩ := hlater.ip_entry ip
    obtain ⟨huser, hbelow'⟩ := hlater.user_entry user
    have hdated := hknown.ip_entry ip
    have hdated' : (t'.ip_entry ip).Dated t.ip_short t.ip_long clock := by
      rw [h.ip_short, h.ip_long]
      exact hknown'.ip_entry ip
    have hname := hknown.user_entry user
    have hname' : (t'.user_entry user).Dated t.user_long clock := by
      rw [h.user_long]
      exact hknown'.user_entry user
    simp only [LoginThrottle.next, record_failure_of_room hroom,
      record_failure_of_room (h.inRoom hroom)]
    exact { hlater with
      ip := hlater.ip.insert (hip.fail hdated hdated') (hbelow.fail hip hdated hdated') ip
      user := hlater.user.insert (huser.fail hname hname') (hbelow'.fail huser hname hname') user }
  | record_success ip user now =>
    exact { hlater with
      ip := hlater.ip.rewriteAt
        (f := fun e =>
          { e with
            short := e.short.record_success
            in_flight := e.in_flight - 1
            last_seen := now
            banned_until := saturating_add now (e.long.ban_remaining now) })
        (fun _ _ he => ⟨he.short.record_success, he.long⟩)
        (fun _ he => ⟨he.short.record_success, he.long⟩)
        (fun _ _ he _ => ⟨Nat.le_refl now, Nat.le_of_eq (congrArg (saturating_add now) he.long.ban)⟩)
        ip
      user := hlater.user.erase (Bucket.Alike.refl _ _) user }
  | sweep now ip_order user_order =>
    have hretains : t'.retains = t.retains := by
      unfold retains
      rw [h.longest_window]
    simp only [LoginThrottle.next, sweep_of_room hroom, sweep_of_room (h.inRoom hroom), hretains]
    exact { hlater with
      ip := hlater.ip.retain
        (fun _ _ _ he hdrop hlike => (hknown.ip_dropped he hdrop).symm.trans hlike)
        (fun _ _ _ he hdrop hlike => by
          rw [h.ip_short, h.ip_long]
          exact hlike.trans (hknown'.ip_dropped he (hretains ▸ hdrop)))
        (fun _ _ _ hle hkeep => retains_mono hle.seen hle.banned hkeep)
      user := hlater.user.retain
        (fun _ _ _ he hdrop hlike => (hknown.user_dropped he hdrop).symm.trans hlike)
        (fun _ _ _ he hdrop hlike => by
          rw [h.user_long]
          exact hlike.trans (hknown'.user_dropped he (hretains ▸ hdrop)))
        (fun _ _ _ hle hkeep => retains_mono hle.seen hle.banned hkeep) }

/-- The run that leaves out some of the sweeps answers alike. -/
theorem Similar.answers_eq {labels fewer : List Label} (hdel : SweepsDeleted labels fewer)
    (h : Similar clock t t') (hknown : Known clock t) (hknown' : Known clock t')
    (hclock : ClockedFrom clock labels)
    (hroom : ∀ done, done <+: fewer → InRoom (run LoginThrottle.next t' done)) :
    t'.answers fewer = t.answers labels ∧
      ∀ done l, done ++ [l] <+: labels → SweepsIdle (run LoginThrottle.next t done) l := by
  have hhere : InRoom t' := hroom [] List.nil_prefix
  have hhere' : InRoom t := h.inRoom hhere
  induction hdel generalizing t t' clock with
  | nil =>
    refine ⟨rfl, fun done l hpre => ?_⟩
    simp at hpre
  | keep l hdel ih =>
    have hnow := hclock.head
    have hsim := h.next hknown hknown' hhere hnow
    have hlater := (forall_prefix_cons.mp hroom).2
    obtain ⟨hrest, hidle⟩ := ih hsim (hknown.next hhere' hnow) (hknown'.next hhere hnow)
      hclock.tail hlater (hlater [] List.nil_prefix) (hsim.inRoom (hlater [] List.nil_prefix))
    refine ⟨?_, forall_step_cons.mpr ⟨hknown.sweepsIdle hhere' l, hidle⟩⟩
    rw [answers, answers, h.answer_eq hknown hknown' hnow, hrest]
  | delete now ip_order user_order hdel ih =>
    have hnow := hclock.head
    have hsim := (h.mono hnow).sweep_left hknown hhere' ip_order user_order
    obtain ⟨hrest, hidle⟩ := ih hsim (hknown.next hhere' hnow) (hknown'.mono hnow)
      hclock.tail hroom hhere (hsim.inRoom hhere)
    exact ⟨hrest, forall_step_cons.mpr ⟨hknown.sweepsIdle hhere' _, hidle⟩⟩

end Similar

/-- In every run with times in order and fewer keys in use than the caps allow, deleting sweeps
changes no answer of a check, a countdown or a recorded failure. No sweep drops a live ban or a
failure that is in a window, then or later. -/
theorem reaping_unobservable {ip_short ip_long user_long : Nat × Nat × Nat × Nat}
    {start : LoginThrottle} (hnew : LoginThrottle.new ip_short ip_long user_long = .ok start)
    {labels fewer : List Label} (hdel : SweepsDeleted labels fewer) (hclock : Clocked labels)
    (hroom : ∀ done, done <+: fewer → InRoom (run next start done)) :
    start.answers fewer = start.answers labels ∧
      ∀ done l, done ++ [l] <+: labels → SweepsIdle (run next start done) l :=
  (Similar.refl 0 start).answers_eq hdel (known_new hnew) (known_new hnew) hclock.from_zero hroom

/-- Four failures, and a sweep a day and a ban later, which drops both entries. The next failure
counts as a first one in any case. -/
theorem reaping_unobservable_four_failures :
    let failure (now : Nat) : Label := .record_failure "10.0.0.1" "ann" now [] []
    let before := [failure 1000, failure 1000, failure 1000, failure 1001, .sweep 1060 [] []]
    let after := [.remaining "10.0.0.1" "ann" 90000, failure 90000]
    let labels := before ++ .sweep 90000 [] [] :: after
    (run next Desk.shipped before).ip.entries.length = 1 ∧
      (run next (run next Desk.shipped before) [.sweep 90000 [] []]).ip.entries.length = 0 ∧
      Desk.shipped.answers labels = [0, 0, 0, 10, 3, 0] ∧
      Desk.shipped.answers (before ++ after) = Desk.shipped.answers labels := by
  intro failure before after labels
  have hdel : SweepsDeleted labels (before ++ after) := by
    refine .keep _ (.keep _ (.keep _ (.keep _ (.keep _ ?_))))
    exact .delete 90000 [] [] (.keep _ (.keep _ .nil))
  have hclock : Clocked labels := by
    unfold Clocked
    decide +kernel
  have hroom : ∀ done, done <+: before ++ after → InRoom (run next Desk.shipped done) := by
    simp only [before, after, List.cons_append, List.nil_append, forall_prefix_cons,
      forall_prefix_nil]
    unfold InRoom
    decide +kernel
  exact ⟨by decide +kernel, by decide +kernel, by decide +kernel,
    (reaping_unobservable Desk.new_shipped hdel hclock hroom).1⟩

end LoginThrottle
