import Picasu.Framework.Run
import Picasu.Storage.QuerySnapshot

/-! # Expiry of Superseded Query Caches

The tables of a version that is no longer current are of no more use. They are to be deleted an
hour later, with the snapshots that they list.

When `update_expire_task` replaces the version, it schedules the expiry of the version it
replaces. `refresh_tree_cache` replaces the version, too, and schedules nothing; as every cascade
begins with a refresh, it is the version under which the queries of the time between two cascades
were answered that is never scheduled. And a check that finds a version expired removes the rows
of all earlier ones, whose tables it may not have looked at yet, since it goes through the tables
in any order.

* `Base`: versions are clock readings and follow one another; what is scheduled is an hour after
  the version ceased to be current;
* `Settled`: every table of an earlier version is scheduled, and no snapshot of a deleted table is
  left. `settled_next_iff` says exactly which steps keep this;
* `superseded_caches_expire_iff`: the same for every run, and that then a check deletes what is
  older than an hour. It never deletes more.
-/

/-- What expiry depends on. -/
structure Expiry where
  /-- The last reading of `Utc::now`, in milliseconds. -/
  clock : Int
  /-- `VERSION_COUNT_TIMESTAMP`. -/
  version : Int
  /-- `EXPIRE_TABLE_DEFINITION`. -/
  expire : Table Int (Option Int)
  query_snapshot : QuerySnapshot Prefetch
  tree_snapshot : Tiered Int (List ReducedData)
  last_snapshot_id : Int
  /-- Not stored: when each earlier version ceased to be current. -/
  ceased : Table Int Int
  /-- Not stored: the snapshots that the deleted tables listed. -/
  dropped : List Int

namespace Expiry

/-- `Duration::from_secs(3600)`, in milliseconds. -/
def hour : Int := 3600000

inductive Label where
  /-- Time passes. -/
  | tick (millis : Nat)
  | refresh_tree_cache
  | update_expire_task
  /-- A prefetch stores its rows and caches its answer. -/
  | cache (query_hash : UInt64) (rows : List ReducedData) (locate_to : Option Nat)
  /-- A turn of `flush_query_snapshot_task`, or of `flush_tree_snapshot_task`. -/
  | flush_query_snapshot (query_hash : UInt64)
  | flush_tree_snapshot (timestamp : Int)
  /-- A table of `expire_check_task`, and the time that passes before. -/
  | check_table (c : Int × Nat)

variable (s : Expiry)

/-- The clock is read; no two readings are the same. -/
def now : Int := s.clock + 1

def replace_version : Expiry :=
  { s with clock := s.now, version := s.now, ceased := s.ceased.insert s.version s.now }

def update_expire_task : Expiry :=
  if 0 < s.version then
    { s.replace_version with
      expire := (s.expire.insert s.version (some (s.now + hour))).insert s.now none }
  else s.replace_version

/-- A prefetch that finds nothing cached. -/
def cache (query_hash : UInt64) (rows : List ReducedData) (locate_to : Option Nat) : Expiry :=
  let timestamp := Caches.next_snapshot_id s.now s.last_snapshot_id
  { s with
    clock := s.now
    last_snapshot_id := timestamp
    tree_snapshot := s.tree_snapshot.put timestamp rows
    query_snapshot :=
      { s.query_snapshot with
        in_memory :=
          s.query_snapshot.in_memory.insert query_hash ⟨timestamp, locate_to, rows.length⟩ } }

/-- `expired_check`, at clock reading `now`: the answer, and the table that it leaves. -/
def expired_check (now timestamp : Int) (expire : Table Int (Option Int)) :
    Bool × Table Int (Option Int) :=
  match expire.lookup timestamp with
  | some (some expire_time) =>
    if expire_time < now then (true, expire.retain fun key _ => decide (timestamp < key))
    else (false, expire)
  | _ => (false, expire)

def listed (rows : Table UInt64 Prefetch) : List Int :=
  rows.values.map fun prefetch => prefetch.timestamp

def remove_task (tree : Tiered Int (List ReducedData)) (timestamp : Int) :
    Tiered Int (List ReducedData) :=
  { tree with disk := tree.disk.erase timestamp }

/-- The table is deleted, with the snapshots it lists. -/
def delete_table (timestamp : Int) (rows : Table UInt64 Prefetch) : Expiry :=
  { s with
    query_snapshot := { s.query_snapshot with in_disk := s.query_snapshot.in_disk.erase timestamp }
    tree_snapshot := (listed rows).foldl remove_task s.tree_snapshot
    dropped := s.dropped ++ listed rows }

/-- One table of `expire_check_task`. -/
def check_table (c : Int × Nat) : Expiry :=
  match s.query_snapshot.in_disk.lookup c.1 with
  | some rows =>
    if c.1 < s.version then
      let now := s.clock + 1 + c.2
      let checked := expired_check now c.1 s.expire
      if checked.1 then { s.delete_table c.1 rows with clock := now, expire := checked.2 }
      else { s with clock := now }
    else s
  | none => s

/-- `expire_check_task` gets to every table once, in any order. -/
def Covers (checks : List (Int × Nat)) : Prop :=
  (checks.map Prod.fst).Perm s.query_snapshot.in_disk.keys

instance (checks : List (Int × Nat)) : Decidable (s.Covers checks) :=
  inferInstanceAs (Decidable (List.Perm _ _))

/-- The steps of `expire_check_task`. -/
def expire_check_task (checks : List (Int × Nat)) : List Label := checks.map .check_table

/-- One step. -/
def next : Label → Expiry
  | .tick millis => { s with clock := s.clock + millis }
  | .refresh_tree_cache => s.replace_version
  | .update_expire_task => s.update_expire_task
  | .cache query_hash rows locate_to => s.cache query_hash rows locate_to
  | .flush_query_snapshot query_hash =>
    { s with
      query_snapshot :=
        (s.query_snapshot.flush_query_snapshot s.version query_hash).remove_flushed query_hash }
  | .flush_tree_snapshot timestamp =>
    { s with tree_snapshot := s.tree_snapshot.flush timestamp }
  | .check_table c => s.check_table c

def start (clock : Nat) : Expiry where
  clock
  version := 0
  expire := ∅
  query_snapshot := ⟨∅, ∅⟩
  tree_snapshot := ⟨∅, ∅⟩
  last_snapshot_id := 0
  ceased := ∅
  dropped := []

/-! ## What should hold -/

/-- The tables of QUERY_SNAPSHOT, by version. -/
def table (v : Int) : Option (Table UInt64 Prefetch) := s.query_snapshot.in_disk.lookup v

/-- The tables of earlier versions will expire, and no snapshot of a deleted table is left. -/
structure Settled : Prop where
  scheduled : ∀ v, s.table v ≠ none → v ≠ s.version →
    ∃ expire_time, s.expire.lookup v = some (some expire_time)
  gone : ∀ id ∈ s.dropped, s.tree_snapshot.get id = none

/-- The check finds the version expired, and deletes its table. -/
def Deletes (c : Int × Nat) (rows : Table UInt64 Prefetch) : Prop :=
  s.table c.1 = some rows ∧ c.1 < s.version ∧
    (expired_check (s.clock + 1 + c.2) c.1 s.expire).1 = true

/-- A table is deleted only when there is none of an earlier version, and its snapshots have been
flushed. -/
def CheckOk (c : Int × Nat) : Prop :=
  ∀ rows, s.Deletes c rows →
    (∀ v, v < c.1 → s.table v = none) ∧ ∀ id ∈ listed rows, s.tree_snapshot.memory.lookup id = none

/-- A version is replaced by a refresh, or before any version was set, only if it has no table. A
new snapshot does not get the id of a deleted one. -/
def StepOk : Label → Prop
  | .refresh_tree_cache => s.table s.version = none
  | .update_expire_task => s.version ≤ 0 → s.table s.version = none
  | .cache _ _ _ => Caches.next_snapshot_id s.now s.last_snapshot_id ∉ s.dropped
  | .check_table c => s.CheckOk c
  | _ => True

/-- What ceased to be current an hour ago is deleted, with its snapshots. -/
structure Expired (s s' : Expiry) : Prop where
  tables : ∀ v c, s.ceased.lookup v = some c → c + hour ≤ s.clock → s'.table v = none
  snapshots : ∀ v c rows, s.ceased.lookup v = some c → c + hour ≤ s.clock →
    s.table v = some rows → ∀ id ∈ listed rows, s'.tree_snapshot.get id = none
  gone : ∀ id ∈ s'.dropped, s'.tree_snapshot.get id = none

/-- Only what ceased to be current more than an hour ago is deleted. -/
def KeepsRecent (s s' : Expiry) : Prop :=
  ∀ v, s.table v ≠ none → s'.table v = none →
    v ≠ s.version ∧ ∃ c, s.ceased.lookup v = some c ∧ c + hour < s'.clock

end Expiry

namespace Expiry

variable {s : Expiry}

/-! ## Versions follow one another -/

/-- What holds of versions, rows and tables in any case. -/
structure Base (s : Expiry) : Prop where
  read : s.version ≤ s.clock
  past : ∀ v c, s.ceased.lookup v = some c → v < c ∧ c ≤ s.version
  rows : ∀ v expire_time, s.expire.lookup v = some (some expire_time) →
    ∃ c, s.ceased.lookup v = some c ∧ expire_time = c + hour
  tables : ∀ v, s.table v ≠ none → v = s.version ∨ ∃ c, s.ceased.lookup v = some c

variable {v : Int} {expire : Table Int (Option Int)}

theorem Base.lt_version (h : s.Base) {c : Int} (hc : s.ceased.lookup v = some c) :
    v < s.version := by
  obtain ⟨hlt, hle⟩ := h.past v c hc
  omega

theorem Base.not_scheduled (h : s.Base) (expire_time : Int) :
    s.expire.lookup s.version ≠ some (some expire_time) := by
  intro hrow
  obtain ⟨c, hc, -⟩ := h.rows _ _ hrow
  have hlt := h.lt_version hc
  omega

/-- An earlier version is still an earlier one after the version is replaced; the one that is
replaced ceases now. -/
theorem lookup_ceased_replace (v c : Int) : s.replace_version.ceased.lookup v = some c ↔
    v = s.version ∧ c = s.now ∨ v ≠ s.version ∧ s.ceased.lookup v = some c :=
  Table.lookup_insert_eq_some

theorem Base.ceased_kept (h : s.Base) {c : Int} (hc : s.ceased.lookup v = some c) :
    s.replace_version.ceased.lookup v = some c := by
  refine (lookup_ceased_replace v c).mpr (Or.inr ⟨?_, hc⟩)
  have hlt := h.lt_version hc
  omega

theorem Base.replace_version (h : s.Base) : s.replace_version.Base := by
  have hnow : s.now = s.clock + 1 := rfl
  have hread := h.read
  constructor
  · exact Int.le_refl s.now
  · intro v c hc
    show v < c ∧ c ≤ s.now
    rcases (lookup_ceased_replace v c).mp hc with ⟨rfl, rfl⟩ | ⟨-, hold⟩
    · omega
    · obtain ⟨hlt, hle⟩ := h.past v c hold
      omega
  · intro v expire_time hrow
    obtain ⟨c, hc, htime⟩ := h.rows v expire_time hrow
    exact ⟨c, h.ceased_kept hc, htime⟩
  · intro v hv
    rcases h.tables v hv with rfl | ⟨c, hc⟩
    · exact Or.inr ⟨s.now, (lookup_ceased_replace _ _).mpr (Or.inl ⟨rfl, rfl⟩)⟩
    · exact Or.inr ⟨c, h.ceased_kept hc⟩

/-- What `update_expire_task` schedules. -/
theorem lookup_expire_update (hpos : 0 < s.version) (v : Int) (row : Option Int) :
    s.update_expire_task.expire.lookup v = some row ↔
      v = s.now ∧ row = none ∨ v ≠ s.now ∧
        (v = s.version ∧ row = some (s.now + hour) ∨
          v ≠ s.version ∧ s.expire.lookup v = some row) := by
  simp only [update_expire_task, if_pos hpos]
  rw [Table.lookup_insert_eq_some, Table.lookup_insert_eq_some]

theorem Base.update_expire_task (h : s.Base) : s.update_expire_task.Base := by
  by_cases hpos : 0 < s.version
  · have hbase := h.replace_version
    have hnext : s.update_expire_task = { s.replace_version with
        expire := (s.expire.insert s.version (some (s.now + hour))).insert s.now none } := by
      simp only [Expiry.update_expire_task, if_pos hpos]
    have hrows := lookup_expire_update hpos
    rw [hnext] at hrows ⊢
    refine ⟨hbase.read, hbase.past, fun v expire_time hrow => ?_, hbase.tables⟩
    rcases (hrows v _).mp hrow with ⟨-, hnone⟩ | ⟨-, ⟨rfl, htime⟩ | ⟨-, hold⟩⟩
    · cases hnone
    · refine ⟨s.now, (lookup_ceased_replace _ _).mpr (Or.inl ⟨rfl, rfl⟩), ?_⟩
      exact Option.some.inj htime
    · obtain ⟨c, hc, htime⟩ := h.rows v expire_time hold
      exact ⟨c, h.ceased_kept hc, htime⟩
  · have hnext : s.update_expire_task = s.replace_version := by
      simp only [Expiry.update_expire_task, if_neg hpos]
    rw [hnext]
    exact h.replace_version

/-! ## One table -/

theorem expired_check_eq_true_iff {now timestamp : Int} :
    (expired_check now timestamp expire).1 = true ↔
      ∃ expire_time, expire.lookup timestamp = some (some expire_time) ∧ expire_time < now := by
  unfold expired_check
  split
  · rename_i expire_time hrow
    split
    · rename_i hlt
      exact iff_of_true rfl ⟨expire_time, hrow, hlt⟩
    · rename_i hlt
      refine iff_of_false (fun h => by cases h) ?_
      rintro ⟨expire_time', hrow', hlt'⟩
      rw [hrow] at hrow'
      cases hrow'
      exact hlt hlt'
  · rename_i hrow
    refine iff_of_false (fun h => by cases h) ?_
    rintro ⟨expire_time, hrow', -⟩
    exact hrow expire_time hrow'

/-- A check that finds the version expired removes the rows up to it. -/
theorem lookup_expired_check {now timestamp : Int}
    (h : (expired_check now timestamp expire).1 = true) (v : Int) (row : Option Int) :
    (expired_check now timestamp expire).2.lookup v = some row ↔
      expire.lookup v = some row ∧ timestamp < v := by
  obtain ⟨expire_time, hrow, hlt⟩ := expired_check_eq_true_iff.mp h
  have hchecked : expired_check now timestamp expire =
      (true, expire.retain fun key _ => decide (timestamp < key)) := by
    simp only [expired_check, hrow, if_pos hlt]
  rw [hchecked, Table.lookup_retain_eq_some, decide_eq_true_iff]

/-- A check deletes the table, or only reads the clock. -/
theorem check_table_cases (s : Expiry) (c : Int × Nat) :
    (∃ rows, s.Deletes c rows ∧ s.check_table c =
      { s.delete_table c.1 rows with
        clock := s.clock + 1 + c.2
        expire := (expired_check (s.clock + 1 + c.2) c.1 s.expire).2 }) ∨
    (∀ rows, ¬ s.Deletes c rows) ∧ ∃ clock, s.clock ≤ clock ∧ s.check_table c = { s with clock } := by
  unfold check_table
  split
  · rename_i rows hrows
    split
    · rename_i hlt
      by_cases hexpired : (expired_check (s.clock + 1 + c.2) c.1 s.expire).1 = true
      · rw [if_pos hexpired]
        exact Or.inl ⟨rows, ⟨hrows, hlt, hexpired⟩, rfl⟩
      · rw [if_neg hexpired]
        exact Or.inr ⟨fun _ hdeletes => hexpired hdeletes.2.2, _, by omega, rfl⟩
    · rename_i hlt
      exact Or.inr ⟨fun _ hdeletes => hlt hdeletes.2.1, s.clock, Int.le_refl _, rfl⟩
  · rename_i hnone
    refine Or.inr ⟨fun rows hdeletes => ?_, s.clock, Int.le_refl _, rfl⟩
    cases hnone.symm.trans hdeletes.1

theorem table_delete_table (v : Int) (timestamp : Int) (rows rows' : Table UInt64 Prefetch) :
    (s.delete_table timestamp rows).table v = some rows' ↔ v ≠ timestamp ∧ s.table v = some rows' :=
  Table.lookup_erase_eq_some

/-- Removing the listed snapshots from disk leaves those in memory. -/
theorem get_remove_tasks (ids : List Int) (tree : Tiered Int (List ReducedData)) (id : Int) :
    (ids.foldl remove_task tree).get id =
      if id ∈ ids then tree.memory.lookup id else tree.get id := by
  induction ids generalizing tree with
  | nil => rfl
  | cons first ids ih =>
    rw [List.foldl_cons, ih]
    by_cases hids : id ∈ ids
    · rw [if_pos hids, if_pos (List.mem_cons_of_mem _ hids)]
      rfl
    · rw [if_neg hids]
      by_cases hfirst : id = first
      · subst hfirst
        rw [if_pos List.mem_cons_self]
        simp [Tiered.get, remove_task, AList.lookup_erase]
      · rw [if_neg (fun h => hids ((List.mem_cons.mp h).resolve_left hfirst))]
        simp [Tiered.get, remove_task, AList.lookup_erase_ne hfirst]

/-- What one check leaves as it is, and what it deletes. -/
structure Checked (s s' : Expiry) : Prop where
  version : s'.version = s.version
  ceased : s'.ceased = s.ceased
  clock : s.clock ≤ s'.clock
  tables : ∀ v rows, s'.table v = some rows → s.table v = some rows
  deleted : ∀ v rows, s.table v = some rows → s'.table v = some rows ∨
    s'.table v = none ∧ (∃ c, s.ceased.lookup v = some c ∧ c + hour < s'.clock) ∧
      ∀ id ∈ listed rows, id ∈ s'.dropped
  dropped : ∀ id ∈ s.dropped, id ∈ s'.dropped

theorem Checked.refl (s : Expiry) : Checked s s :=
  ⟨rfl, rfl, Int.le_refl _, fun _ _ h => h, fun _ _ h => Or.inl h, fun _ h => h⟩

theorem Checked.trans {s₁ s₂ s₃ : Expiry} (h : Checked s₁ s₂) (h' : Checked s₂ s₃) :
    Checked s₁ s₃ := by
  refine ⟨h'.version.trans h.version, h'.ceased.trans h.ceased, Int.le_trans h.clock h'.clock,
    fun v rows hrows => h.tables v rows (h'.tables v rows hrows), fun v rows hrows => ?_,
    fun id hid => h'.dropped id (h.dropped id hid)⟩
  rcases h.deleted v rows hrows with hkept | ⟨hgone, ⟨c, hc, hlt⟩, hlisted⟩
  · rcases h'.deleted v rows hkept with hkept' | ⟨hgone, ⟨c, hc, hlt⟩, hlisted⟩
    · exact Or.inl hkept'
    · exact Or.inr ⟨hgone, ⟨c, h.ceased ▸ hc, hlt⟩, hlisted⟩
  · -- what is deleted does not come back
    refine Or.inr ⟨?_, ⟨c, hc, Int.lt_of_lt_of_le hlt h'.clock⟩, fun id hid =>
      h'.dropped id (hlisted id hid)⟩
    by_contra hthere
    obtain ⟨rows', hrows'⟩ := Option.ne_none_iff_exists'.mp hthere
    rw [h'.tables v rows' hrows'] at hgone
    cases hgone

theorem Base.checked (h : s.Base) (c : Int × Nat) :
    Checked s (s.check_table c) ∧ (s.check_table c).Base := by
  rcases check_table_cases s c with ⟨rows, hdeletes, hnext⟩ | ⟨-, clock, hclock, hnext⟩
  · obtain ⟨hrows, hlt, hexpired⟩ := hdeletes
    obtain ⟨expire_time, hrow, htime⟩ := expired_check_eq_true_iff.mp hexpired
    obtain ⟨ceased, hceased, rfl⟩ := h.rows _ _ hrow
    rw [hnext]
    constructor
    · refine ⟨rfl, rfl, ?_, fun v rows' hv => ((table_delete_table v c.1 rows _).mp hv).2, ?_,
        fun id hid => List.mem_append_left _ hid⟩
      · show s.clock ≤ s.clock + 1 + c.2
        omega
      · intro v rows' hv
        by_cases hvc : v = c.1
        · subst hvc
          obtain rfl : rows = rows' := Option.mem_unique hrows hv
          exact Or.inr ⟨AList.lookup_erase _ _, ⟨ceased, hceased, htime⟩,
            fun id hid => List.mem_append_right _ hid⟩
        · exact Or.inl ((table_delete_table v c.1 rows _).mpr ⟨hvc, hv⟩)
    · have hread := h.read
      refine ⟨?_, h.past, fun v expire_time' hrow' => ?_, fun v hv => ?_⟩
      · show s.version ≤ s.clock + 1 + c.2
        omega
      · exact h.rows v expire_time' ((lookup_expired_check hexpired v _).mp hrow').1
      · obtain ⟨rows', hrows'⟩ := Option.ne_none_iff_exists'.mp hv
        refine h.tables v ?_
        rw [((table_delete_table v c.1 rows _).mp hrows').2]
        exact Option.some_ne_none _
  · rw [hnext]
    exact ⟨⟨rfl, rfl, hclock, fun _ _ h => h, fun _ _ h => Or.inl h, fun _ h => h⟩,
      ⟨Int.le_trans h.read hclock, h.past, h.rows, h.tables⟩⟩

/-- A check keeps what is scheduled, and what is gone, exactly when it meets the condition. -/
theorem settled_check_table_iff (hsettled : s.Settled) (c : Int × Nat) :
    (s.check_table c).Settled ↔ s.CheckOk c := by
  rcases check_table_cases s c with ⟨rows, hdeletes, hnext⟩ | ⟨hkeeps, clock, -, hnext⟩
  · have hmine : ∀ rows', s.Deletes c rows' → rows' = rows := fun rows' hdeletes' =>
      Option.some.inj (hdeletes'.1.symm.trans hdeletes.1)
    rw [hnext]
    constructor
    · intro hafter rows' hdeletes'
      obtain rfl := hmine rows' hdeletes'
      constructor
      · intro v hv
        -- its row is removed with that of the expired version
        by_contra hthere
        obtain ⟨rows'', hrows''⟩ := Option.ne_none_iff_exists'.mp hthere
        have hkept := (table_delete_table v c.1 rows' rows'').mpr ⟨Int.ne_of_lt hv, hrows''⟩
        have hne : v ≠ s.version := by
          have hlt := hdeletes.2.1
          omega
        obtain ⟨expire_time, hrow⟩ := hafter.scheduled v
          (by intro hnone; cases hnone.symm.trans hkept) hne
        have hlt := ((lookup_expired_check hdeletes.2.2 v _).mp hrow).2
        omega
      · intro id hid
        have hgone := hafter.gone id (List.mem_append_right _ hid)
        change ((listed rows').foldl remove_task s.tree_snapshot).get id = none at hgone
        rw [get_remove_tasks, if_pos hid] at hgone
        exact hgone
    · intro hok
      obtain ⟨hfirst, hflushed⟩ := hok rows hdeletes
      constructor
      · intro v hv hne
        obtain ⟨rows', hrows'⟩ := Option.ne_none_iff_exists'.mp hv
        obtain ⟨hvc, hthere⟩ := (table_delete_table v c.1 rows _).mp hrows'
        have hlater : c.1 < v := by
          rcases Int.lt_or_lt_of_ne hvc with hlt | hlt
          · cases (hfirst v hlt).symm.trans hthere
          · exact hlt
        obtain ⟨expire_time, hrow⟩ := hsettled.scheduled v
          (by intro hnone; cases hnone.symm.trans hthere) hne
        exact ⟨expire_time, (lookup_expired_check hdeletes.2.2 v _).mpr ⟨hrow, hlater⟩⟩
      · intro id hid
        change ((listed rows).foldl remove_task s.tree_snapshot).get id = none
        rw [get_remove_tasks]
        split
        · rename_i hlisted
          exact hflushed id hlisted
        · rename_i hlisted
          exact hsettled.gone id ((List.mem_append.mp hid).resolve_right hlisted)
  · rw [hnext]
    exact iff_of_true ⟨hsettled.scheduled, hsettled.gone⟩ fun rows hdeletes =>
      absurd hdeletes (hkeeps rows)

/-! ## All tables -/

theorem Base.checked_run (h : s.Base) (checks : List (Int × Nat)) :
    Checked s (LTS.run check_table s checks) ∧ (LTS.run check_table s checks).Base := by
  refine LTS.run_invariant (I := fun t => Checked s t ∧ t.Base) ⟨.refl s, h⟩ fun t c _ ht => ?_
  obtain ⟨hchecked, hbase⟩ := ht.2.checked c
  exact ⟨ht.1.trans hchecked, hbase⟩

/-- What ceased an hour before the task is gone once its table is checked, if all tables are
scheduled. -/
theorem checked_expired {t : Expiry} (ht : Checked s t) (hbase : t.Base)
    (hsettled : t.Settled) {c : Int} {wait : Nat} (hc : s.ceased.lookup v = some c)
    (hhour : c + hour ≤ s.clock) : (t.check_table (v, wait)).table v = none := by
  by_contra hthere
  obtain ⟨rows, hrows⟩ := Option.ne_none_iff_exists'.mp hthere
  have hbefore := (hbase.checked (v, wait)).1.tables v rows hrows
  have hceased : t.ceased.lookup v = some c := ht.ceased ▸ hc
  have hlt := hbase.lt_version hceased
  obtain ⟨expire_time, hrow⟩ := hsettled.scheduled v
    (by intro hnone; cases hnone.symm.trans hbefore) (Int.ne_of_lt hlt)
  obtain ⟨c', hc', htime⟩ := hbase.rows v expire_time hrow
  obtain rfl : c = c' := Option.mem_unique hceased hc'
  have hclock := ht.clock
  have hexpired : (expired_check (t.clock + 1 + wait) v t.expire).1 = true :=
    expired_check_eq_true_iff.mpr ⟨expire_time, hrow, by omega⟩
  rcases check_table_cases t (v, wait) with ⟨rows', hdeletes, hnext⟩ | ⟨hkeeps, -⟩
  · rw [hnext] at hthere
    exact hthere (AList.lookup_erase _ _)
  · exact hkeeps rows ⟨hbefore, hlt, hexpired⟩

theorem expired_of_settled (h : s.Base) {checks : List (Int × Nat)} (hcovers : s.Covers checks)
    (hsettled : ∀ done, done <+: checks → (LTS.run check_table s done).Settled) :
    Expired s (LTS.run check_table s checks) := by
  -- each table that was checked, and ceased in time, is gone
  have hgone : ∀ v c, s.ceased.lookup v = some c → c + hour ≤ s.clock → ∀ wait,
      (v, wait) ∈ checks → (LTS.run check_table s checks).table v = none := by
    intro v c hc hhour
    refine LTS.run_induction (Q := fun (done : List (Int × Nat)) (t : Expiry) =>
      ∀ wait, (v, wait) ∈ done → t.table v = none) (fun _ hmem => by cases hmem)
      fun done check hdone ih wait hmem => ?_
    have hbefore := (List.prefix_append done [check]).trans hdone
    obtain ⟨hchecked, hbase⟩ := h.checked_run done
    rcases List.mem_append.mp hmem with hold | hnew
    · by_contra hthere
      obtain ⟨rows, hrows⟩ := Option.ne_none_iff_exists'.mp hthere
      cases (ih wait hold).symm.trans ((hbase.checked check).1.tables v rows hrows)
    · rw [← List.mem_singleton.mp hnew]
      exact checked_expired hchecked hbase (hsettled done hbefore) hc hhour
  have htables : ∀ v c, s.ceased.lookup v = some c → c + hour ≤ s.clock →
      (LTS.run check_table s checks).table v = none := by
    intro v c hc hhour
    by_contra hthere
    obtain ⟨rows, hrows⟩ := Option.ne_none_iff_exists'.mp hthere
    have hkey : v ∈ s.query_snapshot.in_disk.keys := by
      refine AList.mem_keys.mp (AList.lookup_isSome.mp ?_)
      have hstart := (h.checked_run checks).1.tables v rows hrows
      exact Option.isSome_iff_exists.mpr ⟨rows, hstart⟩
    obtain ⟨⟨v', wait⟩, hmem, rfl⟩ := List.mem_map.mp (hcovers.mem_iff.mpr hkey)
    exact hthere (hgone _ c hc hhour wait hmem)
  have hend := (hsettled checks (List.prefix_refl _)).gone
  refine ⟨htables, fun v c rows hc hhour hrows id hid => hend id ?_, hend⟩
  rcases (h.checked_run checks).1.deleted v rows hrows with hkept | ⟨-, -, hlisted⟩
  · cases (htables v c hc hhour).symm.trans hkept
  · exact hlisted id hid

/-! ## One step -/

/-- A flush writes into the table of the current version. -/
theorem table_flush {query_hash : UInt64} (hv : v ≠ s.version) :
    (s.next (.flush_query_snapshot query_hash)).table v = s.table v := by
  show ((s.query_snapshot.flush_query_snapshot s.version query_hash).remove_flushed
    query_hash).in_disk.lookup v = _
  unfold QuerySnapshot.flush_query_snapshot
  split
  · exact AList.lookup_insert_ne hv
  · rfl

theorem table_of_flush {query_hash : UInt64}
    (h : (s.next (.flush_query_snapshot query_hash)).table v = none) : s.table v = none := by
  by_cases hversion : v = s.version
  · subst hversion
    change ((s.query_snapshot.flush_query_snapshot s.version query_hash).remove_flushed
      query_hash).in_disk.lookup s.version = none at h
    unfold QuerySnapshot.flush_query_snapshot at h
    split at h
    · cases (AList.lookup_insert _).symm.trans h
    · exact h
  · rwa [table_flush hversion] at h

theorem Base.next (h : s.Base) (l : Label) : (s.next l).Base := by
  have hread := h.read
  cases l with
  | tick millis =>
    refine ⟨?_, h.past, h.rows, h.tables⟩
    show s.version ≤ s.clock + millis
    omega
  | refresh_tree_cache => exact h.replace_version
  | update_expire_task => exact h.update_expire_task
  | cache query_hash rows locate_to =>
    refine ⟨?_, h.past, h.rows, h.tables⟩
    show s.version ≤ s.clock + 1
    omega
  | flush_query_snapshot query_hash =>
    refine ⟨h.read, h.past, h.rows, fun v hv => ?_⟩
    by_cases hversion : v = s.version
    · exact Or.inl hversion
    · rw [table_flush hversion] at hv
      exact h.tables v hv
  | flush_tree_snapshot timestamp => exact ⟨h.read, h.past, h.rows, h.tables⟩
  | check_table c => exact (h.checked c).2

/-- A version that is replaced without a row must have no table. -/
theorem settled_replace_version_iff (h : s.Base) (hsettled : s.Settled) :
    s.replace_version.Settled ↔ s.table s.version = none := by
  have hnow : s.version ≠ s.now := by
    have hread := h.read
    unfold now
    omega
  constructor
  · intro hafter
    by_contra hthere
    obtain ⟨expire_time, hrow⟩ := hafter.scheduled s.version hthere hnow
    exact h.not_scheduled expire_time hrow
  · intro hnone
    refine ⟨fun v hv _ => hsettled.scheduled v hv ?_, hsettled.gone⟩
    rintro rfl
    exact hv hnone

theorem settled_update_expire_iff (h : s.Base) (hsettled : s.Settled) :
    s.update_expire_task.Settled ↔ (s.version ≤ 0 → s.table s.version = none) := by
  by_cases hpos : 0 < s.version
  · refine iff_of_true ⟨fun v hv hne => ?_, ?_⟩ fun hle => absurd hpos (Int.not_lt.mpr hle)
    · have hrows := lookup_expire_update hpos
      simp only [update_expire_task, if_pos hpos] at hv hne hrows ⊢
      have hnow : v ≠ s.now := hne
      by_cases hversion : v = s.version
      · exact ⟨_, (hrows v _).mpr (Or.inr ⟨hnow, Or.inl ⟨hversion, rfl⟩⟩)⟩
      · obtain ⟨expire_time, hrow⟩ := hsettled.scheduled v hv hversion
        exact ⟨expire_time, (hrows v _).mpr (Or.inr ⟨hnow, Or.inr ⟨hversion, hrow⟩⟩)⟩
    · simp only [update_expire_task, if_pos hpos]
      exact hsettled.gone
  · have hnext : s.update_expire_task = s.replace_version := by
      simp only [update_expire_task, if_neg hpos]
    rw [hnext, settled_replace_version_iff h hsettled]
    exact ⟨fun hnone _ => hnone, fun himp => himp (Int.not_lt.mp hpos)⟩

theorem settled_cache_iff (hsettled : s.Settled) (query_hash : UInt64) (rows : List ReducedData)
    (locate_to : Option Nat) : (s.cache query_hash rows locate_to).Settled ↔
      Caches.next_snapshot_id s.now s.last_snapshot_id ∉ s.dropped := by
  constructor
  · intro hafter hmem
    have hgone := hafter.gone _ hmem
    change (s.tree_snapshot.put _ rows).get _ = none at hgone
    rw [Tiered.get_put_self] at hgone
    cases hgone
  · intro hfresh
    refine ⟨hsettled.scheduled, fun id hid => ?_⟩
    change (s.tree_snapshot.put _ rows).get id = none
    have hne : id ≠ Caches.next_snapshot_id s.now s.last_snapshot_id := by
      rintro rfl
      exact hfresh hid
    rw [Tiered.get_put_ne _ _ hne]
    exact hsettled.gone id hid

/-- A step keeps what is scheduled, and what is gone, exactly when it meets the condition. -/
theorem settled_next_iff (h : s.Base) (hsettled : s.Settled) (l : Label) :
    (s.next l).Settled ↔ s.StepOk l := by
  cases l with
  | tick millis => exact iff_of_true ⟨hsettled.scheduled, hsettled.gone⟩ trivial
  | refresh_tree_cache => exact settled_replace_version_iff h hsettled
  | update_expire_task => exact settled_update_expire_iff h hsettled
  | cache query_hash rows locate_to => exact settled_cache_iff hsettled query_hash rows locate_to
  | flush_query_snapshot query_hash =>
    refine iff_of_true ⟨fun v hv hne => ?_, hsettled.gone⟩ trivial
    have hversion : v ≠ s.version := hne
    rw [table_flush hversion] at hv
    exact hsettled.scheduled v hv hversion
  | flush_tree_snapshot timestamp =>
    refine iff_of_true ⟨hsettled.scheduled, fun id hid => ?_⟩ trivial
    show (s.tree_snapshot.flush timestamp).get id = none
    rw [Tiered.get_flush]
    exact hsettled.gone id hid
  | check_table c => exact settled_check_table_iff hsettled c

/-- Only a check deletes tables. -/
theorem keepsRecent_next (h : s.Base) (l : Label) : KeepsRecent s (s.next l) := by
  intro v hv hgone
  obtain ⟨rows, hrows⟩ := Option.ne_none_iff_exists'.mp hv
  cases l with
  | tick | refresh_tree_cache | cache | flush_tree_snapshot => exact absurd hgone hv
  | update_expire_task =>
    have htable : s.update_expire_task.table v = s.table v := by
      unfold update_expire_task
      split
      · rfl
      · rfl
    exact absurd (htable.symm.trans hgone) hv
  | flush_query_snapshot query_hash => exact absurd (table_of_flush hgone) hv
  | check_table c =>
    rcases (h.checked c).1.deleted v rows hrows with hkept | ⟨-, ⟨ceased, hceased, hlt⟩, -⟩
    · cases hgone.symm.trans hkept
    · exact ⟨Int.ne_of_lt (h.lt_version hceased), ceased, hceased, hlt⟩

/-! ## Runs -/

theorem base_start (clock : Nat) : (start clock).Base :=
  ⟨Int.natCast_nonneg clock, (fun _ _ h => by cases h), (fun _ _ h => by cases h),
    fun _ h => absurd rfl h⟩

theorem base_run (clock : Nat) (labels : List Label) : (LTS.run next (start clock) labels).Base :=
  LTS.run_invariant (base_start clock) fun _ l _ h => h.next l

theorem settled_start (clock : Nat) : (start clock).Settled :=
  ⟨fun _ h => absurd rfl h, fun _ h => by cases h⟩

theorem run_expire_check_task (s : Expiry) (checks : List (Int × Nat)) :
    LTS.run next s (expire_check_task checks) = LTS.run check_table s checks :=
  List.foldl_map

/-- In every run, the tables of earlier versions are scheduled to expire, and no snapshot of a
deleted table is left, exactly when versions that have tables are replaced by
`update_expire_task` only, tables are deleted in the order of their versions and after their
snapshots are flushed, and snapshot ids are new. Then `expire_check_task` leaves nothing of the
versions that ceased to be current an hour before. In any case, nothing is deleted of the
current version, or of one that ceased within the hour. -/
theorem superseded_caches_expire_iff (clock : Nat) (labels : List Label) :
    ((∀ done, done <+: labels → (LTS.run next (start clock) done).Settled) ↔
      ∀ done l, done ++ [l] <+: labels → (LTS.run next (start clock) done).StepOk l) ∧
    ((∀ done l, done ++ [l] <+: labels → (LTS.run next (start clock) done).StepOk l) →
      ∀ done checks, done ++ expire_check_task checks <+: labels →
        (LTS.run next (start clock) done).Covers checks →
          Expired (LTS.run next (start clock) done)
            (LTS.run next (start clock) (done ++ expire_check_task checks))) ∧
    ∀ done l, done ++ [l] <+: labels →
      KeepsRecent (LTS.run next (start clock) done) (LTS.run next (start clock) (done ++ [l])) := by
  have hiff : (∀ done, done <+: labels → (LTS.run next (start clock) done).Settled) ↔
      ∀ done l, done ++ [l] <+: labels → (LTS.run next (start clock) done).StepOk l :=
    LTS.run_invariant_iff (settled_start clock) fun done l _ h =>
      settled_next_iff (base_run clock done) h l
  refine ⟨hiff, fun hok done checks hdone hcovers => ?_, fun done l _ => ?_⟩
  · rw [LTS.run_append, run_expire_check_task]
    refine expired_of_settled (base_run clock done) hcovers fun begun hbegun => ?_
    -- each table is a step of the run
    have hpre : done ++ expire_check_task begun <+: labels := by
      obtain ⟨rest, rfl⟩ := hbegun
      refine List.IsPrefix.trans ⟨expire_check_task rest, ?_⟩ hdone
      simp [expire_check_task]
    have hsettled := hiff.mpr hok _ hpre
    rwa [LTS.run_append, run_expire_check_task] at hsettled
  · rw [LTS.run_append]
    exact keepsRecent_next (base_run clock done) l

/-- A query is answered, and the answer is flushed. -/
def answered (query_hash : UInt64) (timestamp : Int) : List Label :=
  [.cache query_hash [] none, .flush_query_snapshot query_hash, .flush_tree_snapshot timestamp]

/-- After a cascade a query is answered. Then `update_expire_task` replaces the version, and two
hours pass. -/
def scheduled_in_time : List Label :=
  [.refresh_tree_cache, .update_expire_task] ++ answered 7 3 ++ [.update_expire_task, .tick 7200000]

theorem superseded_cache_expires :
    let before := LTS.run next (start 0) scheduled_in_time
    let after := LTS.run next (start 0) (scheduled_in_time ++ expire_check_task [(2, 0)])
    before.ceased.lookup 2 = some 4 ∧ (before.table 2).map listed = some [3] ∧
      (before.tree_snapshot.get 3).isSome = true ∧ after.table 2 = none ∧
      after.tree_snapshot.get 3 = none := by
  intro before after
  have hlisted : (before.table 2).map listed = some [3] := by decide +kernel
  obtain ⟨rows, hrows, hids⟩ := Option.map_eq_some_iff.mp hlisted
  have hcheck : before.CheckOk (2, 0) := by
    intro rows' hdeletes
    obtain rfl : rows = rows' := Option.some.inj (hrows.symm.trans hdeletes.1)
    constructor
    · intro v hv
      have hkeys : before.query_snapshot.in_disk.keys = [2] := by decide +kernel
      refine AList.lookup_eq_none.mpr fun hmem => ?_
      rw [AList.mem_keys, hkeys, List.mem_singleton] at hmem
      exact absurd hmem (Int.ne_of_lt hv)
    · rw [hids]
      decide +kernel
  have hok : ∀ done l, done ++ [l] <+: scheduled_in_time ++ expire_check_task [(2, 0)] →
      (LTS.run next (start 0) done).StepOk l := by
    simp only [scheduled_in_time, answered, expire_check_task, List.map_cons, List.map_nil,
      List.cons_append, List.nil_append, LTS.forall_step_cons (C := StepOk),
      LTS.forall_step_nil (C := StepOk)]
    refine ⟨rfl, fun _ => rfl, List.not_mem_nil, trivial, trivial, fun hle => ?_, trivial, hcheck,
      trivial⟩
    exact absurd hle (by decide +kernel)
  have hceased : before.ceased.lookup 2 = some 4 := by decide +kernel
  have hhour : 4 + hour ≤ before.clock := by decide +kernel
  have hexpired := (superseded_caches_expire_iff 0 _).2.1 hok scheduled_in_time [(2, 0)]
    (List.prefix_refl _) (by decide +kernel)
  refine ⟨hceased, hlisted, by decide +kernel, hexpired.tables 2 4 hceased hhour, ?_⟩
  exact hexpired.snapshots 2 4 rows hceased hhour hrows 3 (by rw [hids]; exact List.mem_cons_self)

def next_cascade : List Label :=
  [.refresh_tree_cache, .update_expire_task] ++ answered 7 3 ++
    [.refresh_tree_cache, .update_expire_task, .tick 7200000]

/-- Queries are answered within two cascades. -/
def within_cascades : List Label :=
  [.refresh_tree_cache] ++ answered 7 2 ++ [.update_expire_task, .refresh_tree_cache] ++
    answered 8 5 ++ [.update_expire_task, .tick 7200000]

/-- Two hours later the table of the version before is still there, with its snapshot, because the
refresh schedules nothing. A table that is scheduled stays as well, if a later one is checked
first. -/
theorem superseded_cache_stays :
    let never_scheduled := LTS.run next (start 0) (next_cascade ++ expire_check_task [(2, 0)])
    let out_of_order := LTS.run next (start 0) (within_cascades ++ expire_check_task [(4, 0), (1, 0)])
    (LTS.run next (start 0) next_cascade).Covers [(2, 0)] ∧
      never_scheduled.ceased.lookup 2 = some 4 ∧ 4 + hour < never_scheduled.clock ∧
      (never_scheduled.table 2).isSome = true ∧
      (never_scheduled.tree_snapshot.get 3).isSome = true ∧
      (LTS.run next (start 0) within_cascades).Covers [(4, 0), (1, 0)] ∧
      out_of_order.ceased.lookup 1 = some 3 ∧ 3 + hour < out_of_order.clock ∧
      out_of_order.table 4 = none ∧ (out_of_order.table 1).isSome = true ∧
      (out_of_order.tree_snapshot.get 2).isSome = true := by
  decide +kernel

end Expiry
