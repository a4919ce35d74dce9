import Picasu.Auth.Countdown

/-! # The Caps of the Throttle's Maps

The maps of the login throttle are kept within a size when a failure is recorded: entries without
a live ban and without a slot in flight go, those seen longest ago first. Entries are created by
every attempt, also by one that is refused, one that ends in an internal error and one that
succeeds, and these do not look at the size. Between two sweeps the maps are bounded by the
failures alone (`caps_overrun`).
-/

open LTS

/-- An iteration over a hash map, which visits every key in some order. -/
structure Iteration (V : Type) where
  order : Table String V → List String
  visits : ∀ t k, k ∈ t → k ∈ order t

/-- How an attempt that is let in ends. A failure makes the throttle iterate its maps. -/
inductive Outcome where
  | failed (ip_iteration : Iteration IpEntry) (user_iteration : Iteration ThrottleEntry)
  | aborted
  | succeeded

structure CompleteAttempt extends Attempt where
  outcome : Outcome

/-- The attempt will be recorded as a failure, if it is let in. -/
def Outcome.recorded : Outcome → Bool
  | .failed _ _ => true
  | .aborted => false
  | .succeeded => false

/-- The attempt will be recorded as a success, if it is let in. -/
def Outcome.welcome : Outcome → Bool
  | .failed _ _ => false
  | .aborted => false
  | .succeeded => true

namespace LoginThrottle

/-- A complete attempt: reserve, and if there is no ban, one of the three endings. -/
def attempt (t : LoginThrottle) (a : CompleteAttempt) : LoginThrottle :=
  let (ban, t) := t.reserve a.ip a.user a.now
  if 0 < ban then t
  else
    match a.outcome with
    | .failed ip_iteration user_iteration =>
      let t := t.release a.ip a.user
      (t.record_failure a.ip a.user a.now
        (ip_iteration.order (t.ip.insert a.ip ((t.ip_entry a.ip).fail a.now)))
        (user_iteration.order (t.user.insert a.user ((t.user_entry a.user).fail a.now)))).2
    | .aborted => t.release a.ip a.user
    | .succeeded => t.record_success a.ip a.user a.now

/-- Neither a live ban nor a slot in flight. -/
def ip_unprotected (now : Nat) (e : IpEntry) : Bool :=
  decide (e.banned_until ≤ now) && e.in_flight == 0

/-- Neither a live ban nor a slot in flight. -/
def user_unprotected (now : Nat) (e : ThrottleEntry) : Bool :=
  decide (e.banned_until ≤ now) && e.in_flight == 0

/-- No more unprotected entries than the caps allow. -/
def Capped (now : Nat) (t : LoginThrottle) : Prop :=
  t.ip.census (ip_unprotected now) ≤ maxEntries ∧ t.user.census (user_unprotected now) ≤ maxEntries

/-- The attempt is let in and recorded as a failure, or the unprotected entries of other addresses
and names leave room for those it leaves behind. A success leaves an unprotected entry for its
address and none for its name; any other ending, and a refusal, leave two entries that are
unprotected if they were. -/
def KeepsCaps (t : LoginThrottle) (a : CompleteAttempt) : Prop :=
  (a.outcome.recorded = true ∧ t.ban_end a.ip a.user ≤ a.now) ∨
    (Table.census (ip_unprotected a.now) (t.ip.erase a.ip) +
        (if a.outcome.welcome = true ∧ t.ban_end a.ip a.user ≤ a.now ∨
          (t.ip_entry a.ip).banned_until ≤ a.now then 1 else 0) ≤ maxEntries ∧
      Table.census (user_unprotected a.now) (t.user.erase a.user) +
        (if ¬ (a.outcome.welcome = true ∧ t.ban_end a.ip a.user ≤ a.now) ∧
          (t.user_entry a.user).banned_until ≤ a.now then 1 else 0) ≤ maxEntries)

instance (t : LoginThrottle) (a : CompleteAttempt) : Decidable (t.KeepsCaps a) :=
  inferInstanceAs (Decidable ((_ ∧ _) ∨ (_ ∧ _)))

/-! ## Between attempts -/

end LoginThrottle

/-- An address's entry, seen at `now`, with so many slots in flight. -/
def IpEntry.visit (e : IpEntry) (now slots : Nat) : IpEntry :=
  { e with last_seen := now, in_flight := slots }

/-- A name's entry, seen at `now`, with so many slots in flight. -/
def ThrottleEntry.visit (e : ThrottleEntry) (now slots : Nat) : ThrottleEntry :=
  { e with last_seen := now, in_flight := slots }

namespace LoginThrottle

/-- No slot is in flight. -/
structure Quiet (t : LoginThrottle) : Prop where
  ip : t.ip.Every fun e => e.in_flight = 0
  user : t.user.Every fun e => e.in_flight = 0

/-- The throttle after an attempt has been seen, and holds so many slots. -/
def visit (t : LoginThrottle) (ip user : String) (now slots : Nat) : LoginThrottle :=
  { t with
    ip := t.ip.insert ip ((t.ip_entry ip).visit now slots)
    user := t.user.insert user ((t.user_entry user).visit now slots) }

section Quiet

variable {t : LoginThrottle} {ip user : String} {now : Nat} {a : CompleteAttempt}

theorem quiet_new {ip_short ip_long user_long : Nat × Nat × Nat × Nat} {start : LoginThrottle}
    (h : LoginThrottle.new ip_short ip_long user_long = .ok start) : Quiet start := by
  obtain ⟨short, -, h⟩ := Result.bind_eq_ok.mp h
  obtain ⟨long, -, h⟩ := Result.bind_eq_ok.mp h
  obtain ⟨user, -, h⟩ := Result.bind_eq_ok.mp h
  cases h
  exact ⟨Table.every_empty _, Table.every_empty _⟩

section

variable (h : Quiet t)

include h

theorem Quiet.ip_entry (ip : String) : (t.ip_entry ip).in_flight = 0 :=
  h.ip.getD rfl ip

theorem Quiet.user_entry (user : String) : (t.user_entry user).in_flight = 0 :=
  h.user.getD rfl user

theorem Quiet.visit (ip user : String) (now : Nat) : Quiet (t.visit ip user now 0) :=
  ⟨h.ip.insert (v := (t.ip_entry ip).visit now 0) rfl ip,
    h.user.insert (v := (t.user_entry user).visit now 0) rfl user⟩

/-- A lone attempt is refused by a live ban only. -/
theorem Quiet.reserve_eq (ip user : String) (now : Nat) :
    t.reserve ip user now =
      if 0 < t.check ip user now then (t.check ip user now, t.visit ip user now 0)
      else (0, t.visit ip user now 1) := by
  have hip := h.ip_entry ip
  have huser := h.user_entry user
  -- with no slot in flight nothing is crowded, so only the bans block
  have hban : blocking_ban now ((t.ip_entry ip).visit now 0) ((t.user_entry user).visit now 0) =
      t.check ip user now := by
    simp only [blocking_ban, crowded, IpEntry.visit, ThrottleEntry.visit, if_true, check_eq]
    split
    · rfl
    · omega
  simp only [IpEntry.visit, ThrottleEntry.visit] at hban
  simp only [reserve, hip, huser, hban]
  rfl

theorem Quiet.attempt_refused (hban : a.now < t.ban_end a.ip a.user) :
    t.attempt a = t.visit a.ip a.user a.now 0 := by
  have hpos := (t.check_pos_iff a.ip a.user a.now).mpr hban
  simp only [attempt, h.reserve_eq, if_pos hpos]

/-- An attempt that was let in holds a slot, and gives it back. -/
theorem Quiet.release_reserve (hban : t.ban_end ip user ≤ now) :
    (t.reserve ip user now).1 = 0 ∧ (t.reserve ip user now).2 = t.visit ip user now 1 ∧
      (t.visit ip user now 1).release ip user = t.visit ip user now 0 := by
  have hzero : ¬ 0 < t.check ip user now := by
    rw [check_pos_iff]
    omega
  refine ⟨?_, ?_, ?_⟩
  · rw [h.reserve_eq, if_neg hzero]
  · rw [h.reserve_eq, if_neg hzero]
  · simp [release, Table.rewriteAt, LoginThrottle.visit, IpEntry.visit, ThrottleEntry.visit]

theorem Quiet.attempt_aborted (hban : t.ban_end a.ip a.user ≤ a.now)
    (hend : a.outcome = .aborted) : t.attempt a = t.visit a.ip a.user a.now 0 := by
  obtain ⟨hfree, hslot, hrelease⟩ := h.release_reserve hban
  simp only [attempt, hend, hfree, hslot, hrelease, Nat.lt_irrefl, if_false]

/-- After a failure the maps are within their sizes, but for protected entries. -/
theorem Quiet.attempt_failed (hban : t.ban_end a.ip a.user ≤ a.now)
    {ip_iteration : Iteration IpEntry} {user_iteration : Iteration ThrottleEntry}
    (hend : a.outcome = .failed ip_iteration user_iteration) :
    Quiet (t.attempt a) ∧ Capped a.now (t.attempt a) := by
  obtain ⟨hfree, hslot, hrelease⟩ := h.release_reserve hban
  simp only [attempt, hend, hfree, hslot, hrelease, Nat.lt_irrefl, if_false]
  have hquiet := h.visit a.ip a.user a.now
  refine ⟨⟨?_, ?_⟩, ?_, ?_⟩
  · exact (hquiet.ip.insert (v := IpEntry.fail _ a.now) (hquiet.ip_entry a.ip) a.ip).evict _ _ _ _
  · exact (hquiet.user.insert (v := ThrottleEntry.fail _ a.now) (hquiet.user_entry a.user)
      a.user).evict _ _ _ _
  · -- `enforce_caps` runs here, and only here
    exact Table.census_evict_le (ip_iteration.visits _)
  · exact Table.census_evict_le (user_iteration.visits _)

/-- After a success the address has an entry without a ban, the name none. -/
theorem Quiet.attempt_succeeded (hban : t.ban_end a.ip a.user ≤ a.now)
    (hend : a.outcome = .succeeded) :
    ∃ e : IpEntry, e.in_flight = 0 ∧ e.banned_until ≤ a.now ∧
      t.attempt a = { t with ip := t.ip.insert a.ip e, user := t.user.erase a.user } := by
  obtain ⟨hfree, hslot, -⟩ := h.release_reserve hban
  -- the attempt was let in, so the long bucket has no ban left
  have hover : (t.ip_entry a.ip).long.ban_remaining a.now = 0 := by
    unfold ban_end at hban
    unfold Bucket.ban_remaining
    omega
  refine ⟨{ t.ip_entry a.ip with
    short := (t.ip_entry a.ip).short.record_success
    in_flight := 0
    last_seen := a.now
    banned_until := saturating_add a.now 0 }, rfl, Nat.min_le_left _ _, ?_⟩
  simp [attempt, hend, hfree, hslot, record_success, Table.rewriteAt, LoginThrottle.visit,
    IpEntry.visit, Table.erase_insert, hover]

theorem Quiet.attempt (a : CompleteAttempt) : Quiet (t.attempt a) := by
  -- a refusal, or one of the three outcomes
  by_cases hban : a.now < t.ban_end a.ip a.user
  · rw [h.attempt_refused hban]
    exact h.visit _ _ _
  · have hfree := Nat.le_of_not_lt hban
    cases hend : a.outcome with
    | failed ip_iteration user_iteration => exact (h.attempt_failed hfree hend).1
    | aborted =>
      rw [h.attempt_aborted hfree hend]
      exact h.visit _ _ _
    | succeeded =>
      obtain ⟨e, hslots, -, heq⟩ := h.attempt_succeeded hfree hend
      rw [heq]
      exact ⟨h.ip.insert hslots _, h.user.erase _⟩

end

/-! ## The condition is exact -/

theorem capped_visit_iff (t : LoginThrottle) (ip user : String) (now : Nat) :
    Capped now (t.visit ip user now 0) ↔
      Table.census (ip_unprotected now) (t.ip.erase ip) +
          (if (t.ip_entry ip).banned_until ≤ now then 1 else 0) ≤ maxEntries ∧
        Table.census (user_unprotected now) (t.user.erase user) +
          (if (t.user_entry user).banned_until ≤ now then 1 else 0) ≤ maxEntries := by
  have hip : ip_unprotected now ((t.ip_entry ip).visit now 0) =
      decide ((t.ip_entry ip).banned_until ≤ now) := Bool.and_true _
  have huser : user_unprotected now ((t.user_entry user).visit now 0) =
      decide ((t.user_entry user).banned_until ≤ now) := Bool.and_true _
  unfold Capped LoginThrottle.visit
  rw [Table.census_insert, Table.census_insert, hip, huser]
  simp only [decide_eq_true_eq]

theorem Quiet.capped_attempt_iff (h : Quiet t) (a : CompleteAttempt) :
    Capped a.now (t.attempt a) ↔ t.KeepsCaps a := by
  unfold KeepsCaps
  by_cases hban : a.now < t.ban_end a.ip a.user
  · have hlive := Nat.not_le.mpr hban
    rw [h.attempt_refused hban, capped_visit_iff]
    simp only [hlive, and_false, false_or, not_false_eq_true, true_and]
  · have hfree := Nat.le_of_not_lt hban
    cases hend : a.outcome with
    | failed ip_iteration user_iteration =>
      exact iff_of_true (h.attempt_failed hfree hend).2 (Or.inl ⟨rfl, hfree⟩)
    | aborted =>
      rw [h.attempt_aborted hfree hend, capped_visit_iff]
      simp only [Outcome.recorded, Outcome.welcome, Bool.false_eq_true, false_and, false_or,
        not_false_eq_true, true_and]
    | succeeded =>
      obtain ⟨e, hslots, hover, heq⟩ := h.attempt_succeeded hfree hend
      have hcounts : ip_unprotected a.now e = true := by simp [ip_unprotected, hslots, hover]
      rw [heq]
      unfold Capped
      rw [Table.census_insert, if_pos hcounts]
      simp only [Outcome.recorded, Outcome.welcome, hfree, Bool.false_eq_true, false_and, and_self,
        true_or, if_true, false_or, not_true_eq_false, if_false, Nat.add_zero]

end Quiet

/-- In every sequence of complete attempts, with arbitrary addresses, names and times and without a
sweep: after every attempt the unprotected entries are within the caps exactly if every attempt
was recorded as a failure, or found room for the entries it leaves behind. -/
theorem caps_kept_iff {ip_short ip_long user_long : Nat × Nat × Nat × Nat} {start : LoginThrottle}
    (hnew : LoginThrottle.new ip_short ip_long user_long = .ok start)
    (attempts : List CompleteAttempt) :
    (∀ done a, done ++ [a] <+: attempts → Capped a.now (run attempt start (done ++ [a]))) ↔
      ∀ done a, done ++ [a] <+: attempts → (run attempt start done).KeepsCaps a := by
  have hquiet : ∀ done, Quiet (run attempt start done) := fun done =>
    run_invariant (I := Quiet) (quiet_new hnew) fun _ a _ h => h.attempt a
  have hstep : ∀ done a, Capped a.now (run attempt start (done ++ [a])) ↔
      (run attempt start done).KeepsCaps a := by
    intro done a
    rw [run_append]
    exact (hquiet done).capped_attempt_iff a
  simp only [hstep]

/-- One attempt of each kind. -/
theorem caps_kept_three_attempts :
    let every_key (V : Type) : Iteration V := ⟨AList.keys, fun _ _ hk => hk⟩
    let attempts : List CompleteAttempt :=
      [⟨⟨"10.0.0.1", "ann", 1000⟩, .failed (every_key _) (every_key _)⟩,
        ⟨⟨"10.0.0.2", "bob", 1001⟩, .aborted⟩, ⟨⟨"10.0.0.1", "ann", 1002⟩, .succeeded⟩]
    ∀ done a, done ++ [a] <+: attempts → Capped a.now (run attempt Desk.shipped (done ++ [a])) := by
  intro every_key attempts
  refine (caps_kept_iff Desk.new_shipped attempts).mpr ?_
  simp only [attempts, forall_step_cons, forall_step_nil, and_true]
  decide +kernel

/-! ## A banned address with many names -/

section Overrun

variable {t : LoginThrottle} {ip : String} {now : Nat}

/-- An attempt from an address with a ban, on some name. -/
def refused (ip : String) (now : Nat) (name : String) : CompleteAttempt :=
  ⟨⟨ip, name, now⟩, .aborted⟩

/-- Every name that a banned address tries leaves an entry. -/
theorem census_refused (hquiet : Quiet t) (hban : now < (t.ip_entry ip).short.ban_until)
    {names : List String} (hnames : names.Nodup) (hnew : ∀ name ∈ names, name ∉ t.user) :
    (run attempt t (names.map (refused ip now))).user.census (user_unprotected now) =
      t.user.census (user_unprotected now) + names.length := by
  induction names generalizing t with
  | nil => rfl
  | cons name names ih =>
    obtain ⟨hother, hnames⟩ := List.nodup_cons.mp hnames
    have hfirst : name ∉ t.user := hnew name List.mem_cons_self
    have hlive : now < t.ban_end ip name := by
      unfold ban_end
      omega
    have hvisit : t.attempt (refused ip now name) = t.visit ip name now 0 :=
      hquiet.attempt_refused hlive
    have hentry : (t.visit ip name now 0).ip_entry ip = (t.ip_entry ip).visit now 0 :=
      t.ip_entry_insert ip _ _
    have hfresh : t.user_entry name = ThrottleEntry.fresh t.user_long := by
      unfold LoginThrottle.user_entry
      rw [AList.lookup_eq_none.mpr hfirst]
      rfl
    have hcount : (t.visit ip name now 0).user.census (user_unprotected now) =
        t.user.census (user_unprotected now) + 1 := by
      show Table.census _ (t.user.insert name _) = _
      rw [Table.census_insert, hfresh, Table.erase_of_not_mem hfirst]
      simp [user_unprotected, ThrottleEntry.visit, ThrottleEntry.fresh]
    rw [List.map_cons, run_cons, hvisit, ih (hquiet.visit ip name now) ?_ hnames ?_, hcount,
      List.length_cons]
    · omega
    · rw [hentry]
      exact hban
    · intro other hmem hin
      rcases (AList.mem_insert t.user).mp hin with rfl | hin
      · exact hother hmem
      · exact hnew other (List.mem_cons_of_mem name hmem) hin

end Overrun

def letters (n : Nat) : List String :=
  (List.range n).map fun i => String.singleton (Char.ofNat (0x4E00 + i))

theorem toNat_letter {n i : Nat} (hn : n ≤ 20000) (hi : i ∈ List.range n) :
    (Char.ofNat (0x4E00 + i)).toNat = 0x4E00 + i := by
  have hvalid : (0x4E00 + i).isValidChar := by
    have hlt := List.mem_range.mp hi
    exact Or.inl (by omega)
  unfold Char.ofNat
  rw [dif_pos hvalid]
  rfl

theorem nodup_letters {n : Nat} (hn : n ≤ 20000) : (letters n).Nodup := by
  refine List.Nodup.map_on (fun i hi j hj hij => ?_) List.nodup_range
  have hchar := congrArg Char.toNat (String.singleton_inj.mp hij)
  rw [toNat_letter hn hi, toNat_letter hn hj] at hchar
  omega

/-- Four failures on one name open a ban of ten seconds on the address. During the ban it tries
10,001 other names, one letter each. It is refused every time, and leaves as many entries of
names behind that nothing protects. -/
theorem caps_overrun :
    let every_key (V : Type) : Iteration V := ⟨AList.keys, fun _ _ hk => hk⟩
    let failure : CompleteAttempt :=
      ⟨⟨"10.0.0.1", "ann", 1000⟩, .failed (every_key _) (every_key _)⟩
    let attempts := List.replicate 4 failure ++ (letters 10001).map (refused "10.0.0.1" 1001)
    LoginThrottle.new (600, 3, 10, 28800) (86400, 16, 1800, 28800) (86400, 18, 1800, 7200) =
        .ok Desk.shipped ∧
      (run attempt Desk.shipped attempts).user.census (user_unprotected 1001) = 10002 ∧
      ¬ Capped 1001 (run attempt Desk.shipped attempts) := by
  intro every_key failure attempts
  have hquiet : Quiet (run attempt Desk.shipped (List.replicate 4 failure)) :=
    run_invariant (I := Quiet) (quiet_new Desk.new_shipped) fun _ a _ h => h.attempt a
  have hkeys : (run attempt Desk.shipped (List.replicate 4 failure)).user.keys = ["ann"] := by
    decide +kernel
  have hother : ∀ name ∈ letters 10001,
      name ∉ (run attempt Desk.shipped (List.replicate 4 failure)).user := by
    intro name hname
    obtain ⟨i, -, rfl⟩ := List.mem_map.mp hname
    rw [AList.mem_keys, hkeys, List.mem_singleton]
    intro heq
    have hlength := congrArg String.length heq
    rw [String.length_singleton] at hlength
    exact absurd hlength (by decide)
  have hcensus : (run attempt Desk.shipped attempts).user.census (user_unprotected 1001) = 10002 := by
    rw [run_append, census_refused hquiet (by decide +kernel) (nodup_letters (by decide)) hother,
      letters, List.length_map, List.length_range]
    decide +kernel
  refine ⟨Desk.new_shipped, hcensus, fun hcap => ?_⟩
  have hle := hcap.2
  rw [hcensus] at hle
  exact absurd hle (by decide)

end LoginThrottle
