import Picasu.Tasks.Expiry

/-! # The Rows That List the Snapshots

A prefetch that finds no answer in the query cache stores its rows as a snapshot, and then the
answer, which lists the snapshot, as a row of the query cache. Snapshots are deleted only when a
table of the query cache expires, by its rows; a snapshot that no row lists stays for good.

The steps of any number of prefetches and flush turns interleave with the expiry check. The
version, what a prefetch selects and which tables are expired are up to the environment here.

* `row_next`: which rows there are after a step; `Drops` has those that it overwrites or removes,
  `Writes` the one that it writes;
* `held_of_next`: which ids prefetches hold after a step.
-/

open QuerySnapshot

/-- Where an `execute_prefetch_logic` is, once it has built its key. -/
inductive PrefetchPoint where
  | looking
  /-- Nothing is found in memory. -/
  | missed
  /-- The read transaction has begun, on these tables. -/
  | reading (in_disk : Table Int (Table UInt64 Prefetch))
  /-- Nothing is found. -/
  | computing
  | filtered (rows : List ReducedData) (locate_to : Option Nat)
  /-- It has the id of the snapshot. -/
  | drawn (rows : List ReducedData) (locate_to : Option Nat) (timestamp : Int)
  /-- The snapshot is stored. -/
  | inserted (prefetch : Prefetch)
  | answered (prefetch : Prefetch)

/-- The id that a prefetch has drawn, and not yet listed. -/
def PrefetchPoint.id : PrefetchPoint → Option Int
  | .drawn _ _ timestamp => some timestamp
  | .inserted prefetch => some prefetch.timestamp
  | .looking | .missed | .reading _ | .computing | .filtered _ _ | .answered _ => none

/-- The id of a snapshot that is stored, and not yet listed. -/
def PrefetchPoint.unlisted : PrefetchPoint → Option Int
  | .inserted prefetch => some prefetch.timestamp
  | .looking | .missed | .reading _ | .computing => none
  | .filtered _ _ | .drawn _ _ _ | .answered _ => none

structure PrefetchCall where
  query_hash : UInt64
  point : PrefetchPoint

/-- The write transaction on the query cache; there is one at a time. -/
inductive QueryTxn where
  | idle
  /-- A turn of `flush_query_snapshot_task` has an entry at hand, and has read the version. -/
  | flush (query_hash : UInt64) (version : Int)
  /-- `expire_check_task` has deleted these tables, and is to remove the snapshots they list. -/
  | check (tables : List Int) (queue : List Int)
  deriving DecidableEq, Repr

/-- How the transaction of a flush turn ends. -/
inductive FlushOutcome where
  /-- It does not commit. -/
  | failed
  /-- The insertion fails, and what is left is committed. -/
  | unwritten
  | written
  deriving DecidableEq, Repr

structure SnapshotRows where
  /-- `VERSION_COUNT_TIMESTAMP`. -/
  version : Int
  query_snapshot : QuerySnapshot Prefetch
  tree_snapshot : Tiered Int (List ReducedData)
  last_snapshot_id : Int
  calls : List PrefetchCall
  txn : QueryTxn
  /-- The turns of the flush tasks that have committed, and have not yet removed the entry from
  memory. -/
  flushed : List UInt64
  flushed_trees : List Int

namespace SnapshotRows

inductive Label where
  /-- The version is replaced. -/
  | set_version (version : Int)
  /-- A prefetch builds its key. -/
  | prefetch (query_hash : UInt64)
  /-- The `k`-th prefetch goes on. It may select these rows, and read this from the clock. -/
  | go (k : Nat) (rows : List ReducedData) (locate_to : Option Nat) (now : Int)
  /-- A turn of `flush_query_snapshot_task`: it begins, ends its transaction, and removes the entry
  from memory. -/
  | flush_begin (query_hash : UInt64)
  | flush_end (outcome : FlushOutcome)
  | flush_remove (n : Nat)
  /-- A turn of `flush_tree_snapshot_task`: it commits, and removes the entry from memory. -/
  | flush_tree (timestamp : Int)
  | remove_tree (n : Nat)
  /-- `expire_check_task` begins, finds a table expired, removes a snapshot, and commits. -/
  | check_begin
  | check_table (version : Int)
  | remove_task (n : Nat)
  | check_commit

variable (s : SnapshotRows)

def put_call (k : Nat) (c : PrefetchCall) (point : PrefetchPoint) : SnapshotRows :=
  { s with calls := s.calls.set k { c with point } }

/-- The next step of `execute_prefetch_logic`. -/
def call_step (k : Nat) (c : PrefetchCall) (rows : List ReducedData) (locate_to : Option Nat)
    (now : Int) : SnapshotRows :=
  match c.point with
  | .looking =>
    match s.query_snapshot.in_memory.lookup c.query_hash with
    | some prefetch => s.put_call k c (.answered prefetch)
    | none => s.put_call k c .missed
  -- the table is opened later, but on the state of this moment
  | .missed => s.put_call k c (.reading s.query_snapshot.in_disk)
  | .reading in_disk =>
    match (table in_disk s.version).lookup c.query_hash with
    | some prefetch => s.put_call k c (.answered prefetch)
    | none => s.put_call k c .computing
  | .computing => s.put_call k c (.filtered rows locate_to)
  | .filtered rows locate_to =>
    let timestamp := Caches.next_snapshot_id now s.last_snapshot_id
    { s with last_snapshot_id := timestamp }.put_call k c (.drawn rows locate_to timestamp)
  | .drawn rows locate_to timestamp =>
    { s with tree_snapshot := s.tree_snapshot.put timestamp rows }.put_call k c
      (.inserted ⟨timestamp, locate_to, rows.length⟩)
  -- a row of the same query is replaced
  | .inserted prefetch =>
    { s with query_snapshot := s.query_snapshot.insert c.query_hash prefetch }.put_call k c
      (.answered prefetch)
  | .answered _ => s

/-- The end of a flush turn's transaction. -/
def flush_end (query_hash : UInt64) (version : Int) : FlushOutcome → SnapshotRows
  | .failed => { s with txn := .idle }
  | .unwritten =>
    { s with
      txn := .idle
      query_snapshot := s.query_snapshot.open_table version
      flushed := s.flushed ++ [query_hash] }
  | .written =>
    { s with
      txn := .idle
      query_snapshot := s.query_snapshot.flush_query_snapshot version query_hash
      flushed := s.flushed ++ [query_hash] }

/-- A turn of `flush_tree_snapshot_task`, up to its commit. -/
def flush_tree (timestamp : Int) : SnapshotRows :=
  match s.tree_snapshot.memory.lookup timestamp with
  | some rows =>
    { s with
      tree_snapshot :=
        { s.tree_snapshot with disk := s.tree_snapshot.disk.insert timestamp rows }
      flushed_trees := s.flushed_trees ++ [timestamp] }
  | none => s

/-- A table that `expire_check_task` finds expired. -/
def check_table (version : Int) : SnapshotRows :=
  match s.txn, s.query_snapshot.in_disk.lookup version with
  | .check tables queue, some rows =>
    if version < s.version ∧ version ∉ tables then
      { s with txn := .check (version :: tables) (queue ++ Expiry.listed rows) }
    else s
  | _, _ => s

/-- `remove_task`, for a snapshot that a deleted table lists. -/
def remove_task (n : Nat) : SnapshotRows :=
  match s.txn with
  | .check tables queue =>
    match queue[n]? with
    -- a snapshot that is only in memory is not found
    | some timestamp =>
      { s with
        tree_snapshot := Expiry.remove_task s.tree_snapshot timestamp
        txn := .check tables (queue.eraseIdx n) }
    | none => s
  | _ => s

def next : Label → SnapshotRows
  | .set_version version => { s with version }
  | .prefetch query_hash => { s with calls := s.calls ++ [⟨query_hash, .looking⟩] }
  | .go k rows locate_to now =>
    match s.calls[k]? with
    | some c => s.call_step k c rows locate_to now
    | none => s
  | .flush_begin query_hash =>
    match s.txn, s.query_snapshot.in_memory.lookup query_hash with
    | .idle, some _ => { s with txn := .flush query_hash s.version }
    | _, _ => s
  | .flush_end outcome =>
    match s.txn with
    | .flush query_hash version => s.flush_end query_hash version outcome
    | _ => s
  -- whatever row is there by now
  | .flush_remove n =>
    match s.flushed[n]? with
    | some query_hash =>
      { s with
        query_snapshot := s.query_snapshot.remove_flushed query_hash
        flushed := s.flushed.eraseIdx n }
    | none => s
  | .flush_tree timestamp => s.flush_tree timestamp
  | .remove_tree n =>
    match s.flushed_trees[n]? with
    | some timestamp =>
      { s with
        tree_snapshot := { s.tree_snapshot with memory := s.tree_snapshot.memory.erase timestamp }
        flushed_trees := s.flushed_trees.eraseIdx n }
    | none => s
  | .check_begin =>
    match s.txn with
    | .idle => { s with txn := .check [] [] }
    | _ => s
  | .check_table version => s.check_table version
  | .remove_task n => s.remove_task n
  | .check_commit =>
    match s.txn with
    | .check tables [] =>
      { s with txn := .idle, query_snapshot := s.query_snapshot.delete_tables tables }
    | _ => s

def start : SnapshotRows where
  version := 0
  query_snapshot := ⟨∅, ∅⟩
  tree_snapshot := ⟨∅, ∅⟩
  last_snapshot_id := 0
  calls := []
  txn := .idle
  flushed := []
  flushed_trees := []

/-! ## What should hold -/

def row (query_hash : UInt64) (place : Place) : Option Prefetch :=
  s.query_snapshot.row query_hash place

def Stored (id : Int) : Prop := id ∈ s.tree_snapshot.memory ∨ id ∈ s.tree_snapshot.disk

def Listed (id : Int) : Prop :=
  ∃ query_hash place prefetch, s.row query_hash place = some prefetch ∧ prefetch.timestamp = id

/-- A prefetch has stored the snapshot, and not yet its row. -/
def Between (id : Int) : Prop := ∃ c ∈ s.calls, c.point.unlisted = some id

/-- Every snapshot is listed, or its prefetch is between its two inserts. -/
def NoOrphans : Prop := ∀ id, s.Stored id → s.Listed id ∨ s.Between id

/-- The step overwrites or removes the row at the place. -/
def Drops (query_hash : UInt64) (place : Place) : Label → Prop
  | .go k _ _ _ => place = .memory ∧ ∃ prefetch, s.calls[k]? = some ⟨query_hash, .inserted prefetch⟩
  | .flush_end .written => s.query_snapshot.in_memory.lookup query_hash ≠ none ∧
    ∃ version, place = .table version ∧ s.txn = .flush query_hash version
  | .flush_remove n => place = .memory ∧ s.flushed[n]? = some query_hash
  | .check_commit => ∃ tables, s.txn = .check tables [] ∧ ∃ v ∈ tables, place = .table v
  | _ => False

/-- A row that is overwritten or removed has a copy somewhere else, or its snapshot is gone. -/
def StepOk (l : Label) : Prop :=
  ∀ query_hash place prefetch, s.Drops query_hash place l →
    s.row query_hash place = some prefetch → s.Stored prefetch.timestamp →
      ∃ place', s.row query_hash place' = some prefetch ∧ ¬ s.Drops query_hash place' l

end SnapshotRows

theorem PrefetchPoint.unlisted_eq_some {point : PrefetchPoint} {id : Int} :
    point.unlisted = some id ↔
      ∃ prefetch, point = .inserted prefetch ∧ prefetch.timestamp = id := by
  cases point <;> simp [unlisted]

namespace SnapshotRows

variable (s : SnapshotRows)

/-! ## What a step does to the rows -/

def Writes (query_hash : UInt64) (place : Place) (prefetch : Prefetch) : Label → Prop
  | .go k _ _ _ => place = .memory ∧ s.calls[k]? = some ⟨query_hash, .inserted prefetch⟩
  | .flush_end .written => s.query_snapshot.in_memory.lookup query_hash = some prefetch ∧
    ∃ version, place = .table version ∧ s.txn = .flush query_hash version
  | _ => False

section Rows

variable {s} {k n : Nat} {h query_hash : UInt64} {place : Place} {p : Prefetch} {c : PrefetchCall}
  {rows : List ReducedData} {locate_to : Option Nat} {now : Int} {l : Label}

/-- Only the last step of a prefetch writes to the query cache. -/
theorem query_snapshot_call_step (hpoint : ∀ p, c.point ≠ .inserted p) :
    (s.call_step k c rows locate_to now).query_snapshot = s.query_snapshot := by
  obtain ⟨query_hash, point⟩ := c
  cases point with
  | looking | reading =>
    simp only [call_step]
    split <;> rfl
  | missed | computing | filtered | drawn | answered => rfl
  | inserted prefetch => exact absurd rfl (hpoint prefetch)

/-- The step writes one value over the rows that it drops. -/
theorem row_next_of_ite (hit : Prop) [Decidable hit] (v : Option Prefetch)
    (hrow : (s.next l).row h place = if hit then v else s.row h place)
    (hdrops : s.Drops h place l ↔ hit) (hwrites : s.Writes h place p l ↔ hit ∧ v = some p) :
    (s.next l).row h place = some p ↔
      s.row h place = some p ∧ ¬ s.Drops h place l ∨ s.Writes h place p l := by
  rw [hrow, hdrops, hwrites]
  by_cases hhit : hit
  · rw [if_pos hhit]
    exact ⟨fun hv => Or.inr ⟨hhit, hv⟩, fun h => h.elim (fun h => absurd hhit h.2) And.right⟩
  · rw [if_neg hhit]
    exact ⟨fun hr => Or.inl ⟨hr, hhit⟩, fun h => h.elim And.left fun h => absurd h.1 hhit⟩

theorem row_next_of_same (hsame : (s.next l).row h place = s.row h place)
    (hdrops : ¬ s.Drops h place l) (hwrites : ¬ s.Writes h place p l) :
    (s.next l).row h place = some p ↔
      s.row h place = some p ∧ ¬ s.Drops h place l ∨ s.Writes h place p l := by
  refine row_next_of_ite False none ?_ (iff_of_false hdrops id)
    (iff_of_false hwrites fun h => h.1)
  rw [if_neg not_false, hsame]

theorem row_go : (s.next (.go k rows locate_to now)).row h place = some p ↔
    s.row h place = some p ∧ ¬ s.Drops h place (.go k rows locate_to now) ∨
      s.Writes h place p (.go k rows locate_to now) := by
  cases hc : s.calls[k]? with
  | none =>
    refine row_next_of_same ?_ (by simp [Drops, hc]) (by simp [Writes, hc])
    simp only [next, hc]
  | some c =>
    obtain ⟨query_hash, point⟩ := c
    -- only a prefetch that is about to list its snapshot writes a row
    by_cases hpoint : ∃ q, point = .inserted q
    · obtain ⟨q, rfl⟩ := hpoint
      refine row_next_of_ite (h = query_hash ∧ place = .memory) (some q) ?_ ?_ ?_
      · simp only [next, hc]
        exact row_insert
      · simp [Drops, hc, eq_comm, and_comm]
      · simp [Writes, hc, eq_comm, and_comm, and_assoc]
    · have hpoint' : ∀ q, point ≠ .inserted q := fun q hq => hpoint ⟨q, hq⟩
      refine row_next_of_same ?_ (by simp [Drops, hc, hpoint']) (by simp [Writes, hc, hpoint'])
      simp only [next, hc]
      exact congrArg (fun q => QuerySnapshot.row q h place) (query_snapshot_call_step hpoint')

theorem row_flush_end (outcome : FlushOutcome) :
    (s.next (.flush_end outcome)).row h place = some p ↔
      s.row h place = some p ∧ ¬ s.Drops h place (.flush_end outcome) ∨
        s.Writes h place p (.flush_end outcome) := by
  cases htxn : s.txn with
  | idle | check =>
    refine row_next_of_same ?_ ?_ ?_
    · simp only [next, htxn]
    · cases outcome <;> simp [Drops, htxn]
    · cases outcome <;> simp [Writes, htxn]
  | flush query_hash version =>
    cases outcome with
    | failed =>
      refine row_next_of_same ?_ id id
      simp only [next, htxn]
      rfl
    | unwritten =>
      refine row_next_of_same ?_ id id
      simp only [next, htxn]
      exact row_open_table
    | written =>
      -- the entry may be gone, when another turn has removed it
      cases hmem : s.query_snapshot.in_memory.lookup query_hash with
      | none =>
        refine row_next_of_same ?_ ?_ ?_
        · simp only [next, htxn]
          exact row_flush_none hmem
        · simp only [Drops, htxn]
          rintro ⟨hsome, _, -, ⟨⟩⟩
          exact hsome hmem
        · simp only [Writes, htxn]
          rintro ⟨hsome, _, -, ⟨⟩⟩
          cases hmem.symm.trans hsome
      | some data =>
        refine row_next_of_ite (h = query_hash ∧ place = .table version) (some data) ?_ ?_ ?_
        · simp only [next, htxn]
          exact row_flush hmem
        · simp only [Drops, htxn]
          constructor
          · rintro ⟨-, _, hplace, ⟨⟩⟩
            exact ⟨rfl, hplace⟩
          · rintro ⟨rfl, hplace⟩
            exact ⟨by simp [hmem], version, hplace, rfl⟩
        · simp only [Writes, htxn]
          constructor
          · rintro ⟨hsome, _, hplace, ⟨⟩⟩
            exact ⟨⟨rfl, hplace⟩, hmem.symm.trans hsome⟩
          · rintro ⟨⟨rfl, hplace⟩, hdata⟩
            exact ⟨hmem.trans hdata, version, hplace, rfl⟩

theorem row_next : (s.next l).row h place = some p ↔
    s.row h place = some p ∧ ¬ s.Drops h place l ∨ s.Writes h place p l := by
  cases l with
  | go k rows locate_to now => exact row_go
  | flush_end outcome => exact row_flush_end outcome
  | flush_remove n =>
    cases hn : s.flushed[n]? with
    | none =>
      refine row_next_of_same ?_ (by simp [Drops, hn]) id
      simp only [next, hn]
    | some query_hash =>
      refine row_next_of_ite (h = query_hash ∧ place = .memory) none ?_ ?_ ?_
      · simp only [next, hn]
        exact row_remove_flushed
      · simp [Drops, hn, eq_comm, and_comm]
      · simp [Writes]
  | check_commit =>
    by_cases htxn : ∃ tables, s.txn = .check tables []
    · obtain ⟨tables, htxn⟩ := htxn
      refine row_next_of_ite (∃ v ∈ tables, place = .table v) none ?_ ?_ ?_
      · simp only [next, htxn]
        exact row_delete_tables
      · simp [Drops, htxn]
      · simp [Writes]
    · refine row_next_of_same ?_ ?_ id
      · simp only [next]
        split
        · next tables hcheck => exact absurd ⟨tables, hcheck⟩ htxn
        · rfl
      · rintro ⟨tables, hcheck, -⟩
        exact htxn ⟨tables, hcheck⟩
  | set_version | prefetch => exact row_next_of_same rfl id id
  | flush_begin | remove_tree | check_begin =>
    refine row_next_of_same ?_ id id
    simp only [next]
    split <;> rfl
  | flush_tree timestamp =>
    refine row_next_of_same ?_ id id
    simp only [next, flush_tree]
    split <;> rfl
  | check_table version =>
    refine row_next_of_same ?_ id id
    simp only [next, check_table]
    split
    · split_ifs <;> rfl
    · rfl
  | remove_task n =>
    refine row_next_of_same ?_ id id
    simp only [next, remove_task]
    split
    · split <;> rfl
    · rfl

/-- A row was there before, or its prefetch had it at hand. -/
theorem row_of_next (hrow : (s.next l).row h place = some p) :
    (∃ place', s.row h place' = some p) ∨
      ∃ k rows locate_to now, l = .go k rows locate_to now ∧
        s.calls[k]? = some ⟨h, .inserted p⟩ := by
  rcases row_next.mp hrow with ⟨hold, -⟩ | hwrites
  · exact Or.inl ⟨place, hold⟩
  cases l with
  | go k rows locate_to now => exact Or.inr ⟨k, rows, locate_to, now, rfl, hwrites.2⟩
  | flush_end outcome =>
    cases outcome with
    | failed | unwritten => exact hwrites.elim
    | written => exact Or.inl ⟨.memory, hwrites.1⟩
  | _ => exact hwrites.elim

end Rows

/-! ## What a step does to the prefetches -/

/-- The id that the `k`-th prefetch has drawn, and not yet listed. -/
def held (calls : List PrefetchCall) (k : Nat) : Option Int :=
  (calls[k]?).bind fun c => c.point.id

section Calls

variable {s} {k k' : Nat} {c : PrefetchCall} {point : PrefetchPoint} {id now : Int}
  {rows : List ReducedData} {locate_to : Option Nat} {l : Label}

theorem held_set {calls : List PrefetchCall} (hc : calls[k]? = some c) :
    held (calls.set k { c with point }) k' = if k' = k then point.id else held calls k' := by
  unfold held
  by_cases hk : k' = k
  · subst hk
    rw [List.getElem?_set_self (List.getElem?_eq_some_iff.mp hc).1, if_pos rfl]
    rfl
  · rw [List.getElem?_set_ne (Ne.symm hk), if_neg hk]

theorem held_of_set {calls : List PrefetchCall} (hc : calls[k]? = some c)
    (hheld : held (calls.set k { c with point }) k' = some id)
    (hpoint : point.id = some id → c.point.id = some id) : held calls k' = some id := by
  rw [held_set hc] at hheld
  split_ifs at hheld with hk
  · subst hk
    rw [held, hc]
    exact hpoint hheld
  · exact hheld

/-- Ids do not go back, and one that is new is above all earlier ones. -/
theorem held_call_step (hc : s.calls[k]? = some c) (hroom : s.last_snapshot_id < i64Max)
    (hheld : held (s.call_step k c rows locate_to now).calls k' = some id) :
    held s.calls k' = some id ∨ k' = k ∧ s.last_snapshot_id < id ∧
      id = (s.call_step k c rows locate_to now).last_snapshot_id := by
  obtain ⟨query_hash, point⟩ := c
  cases point with
  | looking | reading =>
    simp only [call_step] at hheld
    split at hheld <;> exact Or.inl (held_of_set hc hheld fun h => by cases h)
  | missed | computing | inserted => exact Or.inl (held_of_set hc hheld fun h => by cases h)
  | filtered rows locate_to =>
    have hset := hheld
    simp only [call_step, put_call] at hset
    rw [held_set hc] at hset
    split_ifs at hset with hk
    · obtain rfl := Option.some.inj hset
      exact Or.inr ⟨hk, Caches.last_lt_next_snapshot_id now hroom, rfl⟩
    · exact Or.inl hset
  | drawn rows locate_to timestamp => exact Or.inl (held_of_set hc hheld fun h => h)
  | answered prefetch => exact Or.inl hheld

/-- A step of a prefetch moves no other one. -/
theorem calls_call_step (hc : s.calls[k]? = some c) (rows : List ReducedData)
    (locate_to : Option Nat) (now : Int) :
    ∃ point, (s.call_step k c rows locate_to now).calls = s.calls.set k { c with point } := by
  obtain ⟨query_hash, point⟩ := c
  cases point with
  | looking | reading =>
    simp only [call_step]
    split <;> exact ⟨_, rfl⟩
  | missed | computing | filtered | drawn | inserted => exact ⟨_, rfl⟩
  -- nothing happens, which is to set the call to itself
  | answered prefetch =>
    refine ⟨.answered prefetch, List.ext_getElem? fun m => ?_⟩
    by_cases hm : k = m
    · subst hm
      rw [List.getElem?_set_self (List.getElem?_eq_some_iff.mp hc).1]
      exact hc
    · rw [List.getElem?_set_ne hm]
      rfl

/-- The other steps move none, and draw no id. -/
theorem calls_next (s : SnapshotRows) (l : Label) :
    (∃ k rows locate_to now, l = .go k rows locate_to now) ∨
      (∃ query_hash, l = .prefetch query_hash) ∨
      (s.next l).calls = s.calls ∧ (s.next l).last_snapshot_id = s.last_snapshot_id := by
  cases l with
  | go k rows locate_to now => exact Or.inl ⟨k, rows, locate_to, now, rfl⟩
  | prefetch query_hash => exact Or.inr (Or.inl ⟨query_hash, rfl⟩)
  | set_version => exact Or.inr (Or.inr ⟨rfl, rfl⟩)
  | flush_begin | flush_remove | remove_tree | check_begin | check_commit =>
    refine Or.inr (Or.inr ?_)
    simp only [next]
    split <;> exact ⟨rfl, rfl⟩
  | flush_end outcome =>
    refine Or.inr (Or.inr ?_)
    simp only [next]
    split
    · cases outcome <;> exact ⟨rfl, rfl⟩
    · exact ⟨rfl, rfl⟩
  | flush_tree timestamp =>
    refine Or.inr (Or.inr ?_)
    simp only [next, flush_tree]
    split <;> exact ⟨rfl, rfl⟩
  | check_table version =>
    refine Or.inr (Or.inr ?_)
    simp only [next, check_table]
    split
    · split_ifs <;> exact ⟨rfl, rfl⟩
    · exact ⟨rfl, rfl⟩
  | remove_task n =>
    refine Or.inr (Or.inr ?_)
    simp only [next, remove_task]
    split
    · split <;> exact ⟨rfl, rfl⟩
    · exact ⟨rfl, rfl⟩

theorem held_append_looking (calls : List PrefetchCall) (query_hash : UInt64) :
    held (calls ++ [⟨query_hash, .looking⟩]) k = held calls k := by
  unfold held
  rw [List.getElem?_append]
  split_ifs with hlt
  · rfl
  · rw [List.getElem?_eq_none (Nat.le_of_not_lt hlt), List.getElem?_singleton]
    split_ifs <;> rfl

/-- An id that is held was held before, or is drawn in this step and above all earlier ones. -/
theorem held_of_next (hroom : s.last_snapshot_id < i64Max)
    (hheld : held (s.next l).calls k = some id) :
    held s.calls k = some id ∨ (∃ rows locate_to now, l = .go k rows locate_to now) ∧
      s.last_snapshot_id < id ∧ id = (s.next l).last_snapshot_id := by
  rcases calls_next s l with ⟨k', rows, locate_to, now, rfl⟩ | ⟨query_hash, rfl⟩ | ⟨hcalls, -⟩
  · simp only [next] at hheld ⊢
    cases hc : s.calls[k']? with
    | none =>
      rw [hc] at hheld
      exact Or.inl hheld
    | some c =>
      rw [hc] at hheld
      rcases held_call_step hc hroom hheld with hold | ⟨rfl, hlt, hlast⟩
      · exact Or.inl hold
      · exact Or.inr ⟨⟨rows, locate_to, now, rfl⟩, hlt, hlast⟩
  · exact Or.inl ((held_append_looking s.calls query_hash).symm.trans hheld)
  · rw [hcalls] at hheld
    exact Or.inl hheld

/-- The last id stays, or the next one is drawn. -/
theorem last_next (s : SnapshotRows) (l : Label) :
    (s.next l).last_snapshot_id = s.last_snapshot_id ∨
      ∃ now, (s.next l).last_snapshot_id = Caches.next_snapshot_id now s.last_snapshot_id := by
  rcases calls_next s l with ⟨k, rows, locate_to, now, rfl⟩ | ⟨query_hash, rfl⟩ | ⟨-, hlast⟩
  · simp only [next]
    split
    · next c hc =>
      obtain ⟨query_hash, point⟩ := c
      cases point with
      | looking | reading =>
        simp only [call_step]
        split <;> exact Or.inl rfl
      | missed | computing | drawn | inserted | answered => exact Or.inl rfl
      | filtered => exact Or.inr ⟨now, rfl⟩
    · exact Or.inl rfl
  · exact Or.inl rfl
  · exact Or.inl hlast

theorem last_le_next (hroom : s.last_snapshot_id < i64Max) (l : Label) :
    s.last_snapshot_id ≤ (s.next l).last_snapshot_id := by
  rcases last_next s l with hlast | ⟨now, hlast⟩
  · rw [hlast]
  · rw [hlast]
    exact Int.le_of_lt (Caches.last_lt_next_snapshot_id now hroom)

end Calls

end SnapshotRows
