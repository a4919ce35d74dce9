import Picasu.Router.QueryCache
import Picasu.Storage.QuerySnapshot

/-! # The Version in the Query Key

A cached answer is found again by the same query under the same version. The version is to change
whenever the tree does, so that no answer of an earlier tree is found.

A refresh installs its tree first, and writes the version in a later step; a request between the
two asks under the version of the tree before. What is written is the wall clock in milliseconds,
so two trees of one millisecond share a version; and since `assign_album` adds one to it, the next
write may even set it back.

Requests are taken apart into the steps between which the rest of the server may go on: the key is
built, memory is looked at, then the disk, the tree is filtered, the snapshot is stored, and the
answer is cached. Each tree has a number, and each answer that of the tree it is from.

* `holds_next`: whatever is in the cache after a step, or on its way there, was so before or is
  from the tree of the moment;
* `Settled`: if no refresh is between its two steps, nothing is found under the current version
  that is from an earlier tree, and no request that still looks for its answer can find one from a
  tree replaced before it began. `settled_next_iff` says exactly which steps keep this;
* `never_stale_iff`: the same for every run, and that no answer is stale.
-/

namespace Versions

/-- An answer. `tree` is not stored: it is the number of the tree that the answer is from. -/
structure Entry where
  prefetch : Prefetch
  tree : Nat
  deriving DecidableEq, Repr

/-- The tables of the query cache on disk. -/
abbrev Tables : Type := Table Int (Table UInt64 Entry)

/-- Where a `refresh_tree_cache` is, once it has installed its tree. -/
inductive RefreshPoint where
  | installed
  /-- It has read the clock. -/
  | stamped (now : Nat)
  /-- It has stored the version. -/
  | done
  deriving DecidableEq, Repr

/-- Where a turn of `flush_query_snapshot_task` is. -/
inductive FlushPoint where
  /-- It has an entry at hand, and has read the version. -/
  | loaded (query_hash : UInt64) (version : Int)
  /-- The entry is written to disk. -/
  | committed (query_hash : UInt64)
  | done
  deriving DecidableEq, Repr

/-- Where an `execute_prefetch_logic` is, once it has built its key. -/
inductive CallPoint where
  | looking
  /-- Nothing is found in memory. -/
  | missed
  /-- The read transaction has begun, on these tables. -/
  | reading (in_disk : Tables)
  /-- Nothing is found. -/
  | computing
  | filtered (rows : List ReducedData) (tree : Nat)
  /-- The snapshot is stored. -/
  | inserted (entry : Entry)
  | answered (prefetch : Prefetch)

/-- The answer may still come from the cache. -/
def CallPoint.waits : CallPoint → Bool
  | looking | missed | reading _ => true
  | _ => false

/-- A request. `began` is the number of the tree when its key was built. -/
structure Call where
  req : PrefetchRequest
  query_hash : UInt64
  began : Nat
  point : CallPoint

end Versions

open Versions in
/-- The server, as far as the query cache depends on it. -/
structure Versions where
  /-- `Utc::now`, in milliseconds. -/
  clock : Nat
  /-- `VERSION_COUNT_TIMESTAMP`. -/
  version : Int
  /-- The trees that have been installed, in order; before the first the tree is empty. -/
  trees : List MemoryTree
  refreshes : List RefreshPoint
  /-- The turns of `update_expire_task` that have read the clock, with what they have read until
  they have swapped the version. -/
  expires : List (Option Nat)
  flushes : List FlushPoint
  query_snapshot : QuerySnapshot Entry
  tree_snapshot : Tiered Int (List ReducedData)
  last_snapshot_id : Int
  calls : List Call

namespace Versions

inductive Label where
  | tick (millis : Nat)
  /-- `refresh_tree_cache` replaces the tree. -/
  | install (tree : MemoryTree)
  /-- The `k`-th refresh reads the clock, and then stores what it has read. -/
  | stamp (k : Nat)
  | store (k : Nat)
  /-- `update_expire_task` reads the clock, and then swaps the version. -/
  | expireStamp
  | expireSwap (k : Nat)
  /-- `assign_album` adds one to the version. -/
  | assign
  /-- A request builds its key. -/
  | prefetch (req : PrefetchRequest)
  /-- The `k`-th request looks into memory, begins a read transaction, and looks into the table of
  the version. -/
  | look (k : Nat)
  | beginRead (k : Nat)
  | readTable (k : Nat)
  /-- It filters the tree, stores the snapshot, and caches the answer. -/
  | filter (k : Nat) (layout : Layout)
  | insertSnapshot (k : Nat)
  | answer (k : Nat)
  /-- A turn of `flush_query_snapshot_task`: it reads the version, commits, and removes the entry
  from memory. -/
  | flushLoad (query_hash : UInt64)
  | flushCommit (k : Nat)
  | flushRemove (k : Nat)
  /-- A turn of `flush_tree_snapshot_task`. -/
  | flushTree (timestamp : Int)

variable (hasher : QueryKey → UInt64) (s : Versions)

def tree : MemoryTree := s.trees.getLastD []

/-- The key of a request, hashed. -/
def key (version : Int) (req : PrefetchRequest) : UInt64 := hasher (req.cache_key version)

def begin (req : PrefetchRequest) : Call where
  req
  query_hash := key hasher s.version req
  began := s.trees.length
  point := .looking

/-- Move the `k`-th request on. -/
def set_point (k : Nat) (c : Call) (point : CallPoint) : List Call :=
  s.calls.set k { c with point }

/-- One step of the `k`-th request. -/
def call_step (k : Nat) (c : Call) (l : Label) : Versions :=
  match l, c.point with
  | .look _, .looking =>
    match s.query_snapshot.in_memory.lookup c.query_hash with
    | some entry => { s with calls := s.set_point k c (.answered entry.prefetch) }
    | none => { s with calls := s.set_point k c .missed }
  | .beginRead _, .missed =>
    { s with calls := s.set_point k c (.reading s.query_snapshot.in_disk) }
  | .readTable _, .reading in_disk =>
    match (QuerySnapshot.table in_disk s.version).lookup c.query_hash with
    | some entry => { s with calls := s.set_point k c (.answered entry.prefetch) }
    | none => { s with calls := s.set_point k c .computing }
  | .filter _ layout, .computing =>
    { s with
      calls := s.set_point k c (.filtered (c.req.select layout s.tree) s.trees.length) }
  | .insertSnapshot _, .filtered rows tree =>
    let timestamp := Caches.next_snapshot_id s.clock s.last_snapshot_id
    { s with
      tree_snapshot := s.tree_snapshot.put timestamp rows
      last_snapshot_id := timestamp
      calls := s.set_point k c
        (.inserted ⟨⟨timestamp, compute_locate rows c.req.locate, rows.length⟩, tree⟩) }
  | .answer _, .inserted entry =>
    { s with
      query_snapshot :=
        { s.query_snapshot with
          in_memory := s.query_snapshot.in_memory.insert c.query_hash entry }
      calls := s.set_point k c (.answered entry.prefetch) }
  | _, _ => s

def step_call (k : Nat) (l : Label) : Versions :=
  match s.calls[k]? with
  | some c => s.call_step k c l
  | none => s

/-- The version that a step writes. -/
def written : Label → Option Int
  | .store k =>
    match s.refreshes[k]? with
    | some (.stamped now) => some now
    | _ => none
  | .expireSwap k =>
    match s.expires[k]? with
    | some (some now) => some now
    | _ => none
  | .assign => some (s.version + 1)
  | _ => none

def refreshes_after : Label → List RefreshPoint
  | .install _ => s.refreshes ++ [.installed]
  | .stamp k =>
    match s.refreshes[k]? with
    | some .installed => s.refreshes.set k (.stamped s.clock)
    | _ => s.refreshes
  | .store k =>
    match s.refreshes[k]? with
    | some (.stamped _) => s.refreshes.set k .done
    | _ => s.refreshes
  | _ => s.refreshes

/-- The turns of `update_expire_task` after a step. -/
def expires_after : Label → List (Option Nat)
  | .expireStamp => s.expires ++ [some s.clock]
  | .expireSwap k => s.expires.set k none
  | _ => s.expires

/-- The `k`-th turn of `flush_query_snapshot_task` commits. -/
def flush_commit (k : Nat) : Versions :=
  match s.flushes[k]? with
  | some (.loaded query_hash version) =>
    { s with
      flushes := s.flushes.set k (.committed query_hash)
      query_snapshot := s.query_snapshot.flush_query_snapshot version query_hash }
  | _ => s

def flush_remove (k : Nat) : Versions :=
  match s.flushes[k]? with
  | some (.committed query_hash) =>
    { s with
      flushes := s.flushes.set k .done
      query_snapshot := s.query_snapshot.remove_flushed query_hash }
  | _ => s

/-- A step that writes no version and installs no tree. -/
def step_caches (l : Label) : Versions :=
  match l with
  | .tick millis => { s with clock := s.clock + millis }
  | .prefetch req => { s with calls := s.calls ++ [s.begin hasher req] }
  | .look k | .beginRead k | .readTable k | .filter k _ | .insertSnapshot k | .answer k =>
    s.step_call k l
  | .flushLoad query_hash => { s with flushes := s.flushes ++ [.loaded query_hash s.version] }
  | .flushCommit k => s.flush_commit k
  | .flushRemove k => s.flush_remove k
  | .flushTree timestamp => { s with tree_snapshot := s.tree_snapshot.flush timestamp }
  | _ => s

def next (l : Label) : Versions :=
  { s.step_caches hasher l with
    version := (s.written l).getD s.version
    trees := match l with
      | .install tree => s.trees ++ [tree]
      | _ => s.trees
    refreshes := s.refreshes_after l
    expires := s.expires_after l }

/-- The server has started: no tree, nothing cached. -/
def start (clock : Nat) : Versions where
  clock
  version := 0
  trees := []
  refreshes := []
  expires := []
  flushes := []
  query_snapshot := ⟨∅, ∅⟩
  tree_snapshot := ⟨∅, ∅⟩
  last_snapshot_id := 0
  calls := []

/-- The request that a step answers from the cache, and the answer. -/
def served : Label → Option (Call × Entry)
  | .look k =>
    match s.calls[k]? with
    | some c =>
      match c.point with
      | .looking => (s.query_snapshot.in_memory.lookup c.query_hash).map fun entry => (c, entry)
      | _ => none
    | none => none
  | .readTable k =>
    match s.calls[k]? with
    | some c =>
      match c.point with
      | .reading in_disk =>
        ((QuerySnapshot.table in_disk s.version).lookup c.query_hash).map fun entry => (c, entry)
      | _ => none
    | none => none
  | _ => none

/-! ## What the cache holds -/

/-- The request will put an answer from the `n`-th tree into the cache, or can still find one on
disk. -/
def Call.Holds (c : Call) (h : UInt64) (n : Nat) : Prop :=
  match c.point with
  | .reading in_disk => ∃ entry, QuerySnapshot.OnDisk in_disk h entry ∧ entry.tree = n
  | .filtered _ tree => c.query_hash = h ∧ tree = n
  | .inserted entry => c.query_hash = h ∧ entry.tree = n
  | _ => False

/-- An answer from the `n`-th tree is in the cache under the key, or on its way there. -/
inductive Held (query : QuerySnapshot Entry) (calls : List Call) (h : UInt64) (n : Nat) : Prop where
  | memory {entry : Entry} (hmem : query.in_memory.lookup h = some entry) (hn : entry.tree = n) :
    Held query calls h n
  | disk {entry : Entry} (hdisk : QuerySnapshot.OnDisk query.in_disk h entry)
    (hn : entry.tree = n) : Held query calls h n
  | call {c : Call} (hc : c ∈ calls) (hholds : c.Holds h n) : Held query calls h n

def Holds (h : UInt64) (n : Nat) : Prop := Held s.query_snapshot s.calls h n

/-- Under the key, everything is from the `n`-th tree or a later one. -/
def HoldsFrom (h : UInt64) (n : Nat) : Prop := ∀ m, s.Holds h m → n ≤ m

/-- A refresh has installed its tree and not written its version. -/
def Behind : Prop := ∃ p ∈ s.refreshes, p ≠ .done

/-- Once the step is taken, every refresh that has installed its tree has written its version. -/
def CatchesUp (l : Label) : Prop := ∀ p ∈ s.refreshes_after l, p = .done

/-- No answer from an earlier tree is found under the current version, unless a refresh has yet to
write its version; and no request that still looks finds one from before it began. `asked` are
the requests of the run. -/
structure Settled (asked : List PrefetchRequest) : Prop where
  current : ¬ s.Behind → ∀ req ∈ asked, s.HoldsFrom (key hasher s.version req) s.trees.length
  waiting : ∀ c ∈ s.calls, c.point.waits = true → s.HoldsFrom c.query_hash c.began

/-- A request begins while a refresh has yet to write its version only if nothing from an earlier
tree is found under its key. A version is written, when no other refresh has yet to write one,
only if nothing from an earlier tree is found under it. -/
def StepOk (asked : List PrefetchRequest) (l : Label) : Prop :=
  (∀ req, l = .prefetch req → s.Behind →
      s.HoldsFrom (key hasher s.version req) s.trees.length) ∧
    ∀ version, s.written l = some version → s.CatchesUp l →
      ∀ req ∈ asked, s.HoldsFrom (key hasher version req) s.trees.length

end Versions

namespace Versions

variable {hasher : QueryKey → UInt64} {s : Versions} {l : Label}

/-! ## What a step can do -/

/-- What a step does to the query cache and to the requests. -/
inductive Move (hasher : QueryKey → UInt64) (s : Versions) :
    Label → QuerySnapshot Entry → List Call → Prop where
  | stay (l : Label) : Move hasher s l s.query_snapshot s.calls
  | begin (req : PrefetchRequest) :
    Move hasher s (.prefetch req) s.query_snapshot (s.calls ++ [s.begin hasher req])
  /-- A request moves on. What it brings was there before, or is from the tree of the moment. -/
  | point {l : Label} {k : Nat} {c : Call} {point : CallPoint} (hc : c ∈ s.calls)
    (hwaits : point.waits = true → c.point.waits = true)
    (hholds : ∀ h n, Call.Holds { c with point } h n → s.Holds h n ∨ n = s.trees.length) :
    Move hasher s l s.query_snapshot (s.set_point k c point)
  | answer {l : Label} {k : Nat} {c : Call} {entry : Entry} (hc : c ∈ s.calls)
    (hpoint : c.point = .inserted entry) :
    Move hasher s l
      { s.query_snapshot with in_memory := s.query_snapshot.in_memory.insert c.query_hash entry }
      (s.set_point k c (.answered entry.prefetch))
  | commit {l : Label} (version : Int) (query_hash : UInt64) :
    Move hasher s l (s.query_snapshot.flush_query_snapshot version query_hash) s.calls
  | remove {l : Label} (query_hash : UInt64) :
    Move hasher s l (s.query_snapshot.remove_flushed query_hash) s.calls

variable {c : Call} {h : UInt64} {n : Nat}

/-- What a request at this point has at hand is held. -/
theorem holds_of_point (hc : c ∈ s.calls) {point : CallPoint} (hpoint : c.point = point)
    (hholds : Call.Holds { c with point } h n) : s.Holds h n := by
  subst hpoint
  exact Held.call hc hholds

theorem move_call_step {k : Nat} (hc : c ∈ s.calls) (l : Label) :
    Move hasher s l (s.call_step k c l).query_snapshot (s.call_step k c l).calls := by
  unfold call_step
  split
  · split
    · exact .point hc (fun h => by cases h) fun _ _ h => h.elim
    · rename_i hpoint _ _
      exact .point hc (fun _ => by rw [hpoint]; rfl) fun _ _ h => h.elim
  · rename_i hpoint
    refine .point hc (fun _ => by rw [hpoint]; rfl) fun h n hholds => ?_
    obtain ⟨entry, hdisk, hn⟩ := hholds
    exact Or.inl (Held.disk hdisk hn)
  · split
    · exact .point hc (fun h => by cases h) fun _ _ h => h.elim
    · exact .point hc (fun h => by cases h) fun _ _ h => h.elim
  · refine .point hc (fun h => by cases h) fun h n hholds => ?_
    exact Or.inr hholds.2.symm
  · rename_i hpoint
    exact .point hc (fun h => by cases h) fun h n hholds => Or.inl (holds_of_point hc hpoint hholds)
  · rename_i hpoint
    exact .answer hc hpoint
  · exact .stay _

theorem move_step_call (k : Nat) (l : Label) :
    Move hasher s l (s.step_call k l).query_snapshot (s.step_call k l).calls := by
  unfold step_call
  split
  · rename_i c hc
    exact move_call_step (List.mem_of_getElem? hc) l
  · exact .stay _

theorem move_next (l : Label) :
    Move hasher s l (s.next hasher l).query_snapshot (s.next hasher l).calls := by
  show Move hasher s l (s.step_caches hasher l).query_snapshot (s.step_caches hasher l).calls
  cases l with
  | prefetch req => exact .begin req
  | look k | beginRead k | readTable k | insertSnapshot k | answer k | filter k layout =>
    exact move_step_call k _
  | flushCommit k =>
    show Move hasher s _ (s.flush_commit k).query_snapshot (s.flush_commit k).calls
    unfold flush_commit
    split
    · exact .commit _ _
    · exact .stay _
  | flushRemove k =>
    show Move hasher s _ (s.flush_remove k).query_snapshot (s.flush_remove k).calls
    unfold flush_remove
    split
    · exact .remove _
    · exact .stay _
  | tick | install | stamp | store | expireStamp | expireSwap | assign | flushLoad | flushTree =>
    exact .stay _

theorem mem_set_point {k : Nat} {c' : Call} {point : CallPoint}
    (h : c' ∈ s.set_point k c point) : c' ∈ s.calls ∨ c' = { c with point } :=
  List.mem_or_eq_of_mem_set h

theorem Move.held {query : QuerySnapshot Entry} {calls : List Call}
    (hmove : Move hasher s l query calls) (hheld : Held query calls h n) :
    s.Holds h n ∨ n = s.trees.length := by
  cases hmove with
  | stay => exact Or.inl hheld
  | begin req =>
    cases hheld with
    | memory hmem hn => exact Or.inl (.memory hmem hn)
    | disk hdisk hn => exact Or.inl (.disk hdisk hn)
    | call hc hholds =>
      rcases List.mem_append.mp hc with hold | hnew
      · exact Or.inl (.call hold hholds)
      · rw [List.mem_singleton.mp hnew] at hholds
        exact hholds.elim
  | point _ _ hbrings =>
    cases hheld with
    | memory hmem hn => exact Or.inl (.memory hmem hn)
    | disk hdisk hn => exact Or.inl (.disk hdisk hn)
    | call hc hholds =>
      rcases mem_set_point hc with hold | rfl
      · exact Or.inl (.call hold hholds)
      · exact hbrings h n hholds
  | answer hc hpoint =>
    cases hheld with
    | memory hmem hn =>
      rcases Table.lookup_insert_eq_some.mp hmem with ⟨rfl, rfl⟩ | ⟨-, hold⟩
      · exact Or.inl (holds_of_point hc hpoint ⟨rfl, hn⟩)
      · exact Or.inl (.memory hold hn)
    | disk hdisk hn => exact Or.inl (.disk hdisk hn)
    | call hc' hholds =>
      rcases mem_set_point hc' with hold | rfl
      · exact Or.inl (.call hold hholds)
      · exact hholds.elim
  | commit version query_hash =>
    cases hheld with
    | memory hmem hn =>
      rw [QuerySnapshot.in_memory_flush] at hmem
      exact Or.inl (.memory hmem hn)
    | disk hdisk hn =>
      rcases QuerySnapshot.onDisk_flush hdisk with hmem | hold
      · exact Or.inl (.memory hmem hn)
      · exact Or.inl (.disk hold hn)
    | call hc hholds => exact Or.inl (.call hc hholds)
  | remove query_hash =>
    cases hheld with
    | memory hmem hn => exact Or.inl (.memory (Table.lookup_erase_eq_some.mp hmem).2 hn)
    | disk hdisk hn => exact Or.inl (.disk hdisk hn)
    | call hc hholds => exact Or.inl (.call hc hholds)

/-- A request that looks for its answer did so before, under the same key, or has just begun. -/
theorem Move.waiting {query : QuerySnapshot Entry} {calls : List Call}
    (hmove : Move hasher s l query calls) (hc : c ∈ calls) (hwaits : c.point.waits = true) :
    (∃ c₀ ∈ s.calls, c₀.point.waits = true ∧ c₀.query_hash = c.query_hash ∧ c₀.began = c.began) ∨
      ∃ req, l = .prefetch req ∧ c = s.begin hasher req := by
  cases hmove with
  | stay | commit | remove => exact Or.inl ⟨c, hc, hwaits, rfl, rfl⟩
  | begin req =>
    rcases List.mem_append.mp hc with hold | hnew
    · exact Or.inl ⟨c, hold, hwaits, rfl, rfl⟩
    · exact Or.inr ⟨req, rfl, List.mem_singleton.mp hnew⟩
  | point hc₀ hback =>
    rcases mem_set_point hc with hold | rfl
    · exact Or.inl ⟨c, hold, hwaits, rfl, rfl⟩
    · exact Or.inl ⟨_, hc₀, hback hwaits, rfl, rfl⟩
  | answer =>
    rcases mem_set_point hc with hold | rfl
    · exact Or.inl ⟨c, hold, hwaits, rfl, rfl⟩
    · cases hwaits

/-- Whatever is in the cache after a step, or on its way there, was so before, or is from the tree
of the moment. -/
theorem holds_next (hholds : (s.next hasher l).Holds h n) :
    s.Holds h n ∨ n = s.trees.length :=
  (move_next l).held hholds

theorem HoldsFrom.next (hfrom : s.HoldsFrom h n)
    (hn : n ≤ s.trees.length) (l : Label) : (s.next hasher l).HoldsFrom h n := by
  intro m hm
  rcases holds_next hm with hold | rfl
  · exact hfrom m hold
  · exact hn

/-! ## One step -/

theorem version_next (l : Label) : (s.next hasher l).version = (s.written l).getD s.version := rfl

theorem trees_next (l : Label) : s.trees.length ≤ (s.next hasher l).trees.length := by
  unfold next
  split
  · simp
  · exact Nat.le_refl _

theorem behind_next_iff : (s.next hasher l).Behind ↔ ¬ s.CatchesUp l := by
  show (∃ p ∈ s.refreshes_after l, p ≠ .done) ↔ ¬ ∀ p ∈ s.refreshes_after l, p = .done
  push Not
  exact Iff.rfl

/-- A step that writes a version changes nothing else that matters here. -/
theorem next_of_written {version : Int} (h : s.written l = some version) :
    (s.next hasher l).query_snapshot = s.query_snapshot ∧
      (s.next hasher l).calls = s.calls ∧ (s.next hasher l).trees = s.trees := by
  cases l with
  | store | expireSwap | assign => exact ⟨rfl, rfl, rfl⟩
  | tick | install | stamp | expireStamp | prefetch | look | beginRead | readTable | filter
  | insertSnapshot | answer | flushLoad | flushCommit | flushRemove | flushTree => cases h

/-- A step that writes no version leaves no refresh behind only if none was, and then it installs no
tree. -/
theorem not_behind_of_next (h : s.written l = none) (hcatches : s.CatchesUp l) :
    ¬ s.Behind ∧ (s.next hasher l).trees = s.trees := by
  cases l with
  | install tree => cases hcatches .installed (by simp [refreshes_after])
  | stamp k =>
    refine ⟨?_, rfl⟩
    rintro ⟨p, hp, hpending⟩
    simp only [CatchesUp, refreshes_after] at hcatches
    split at hcatches
    · rename_i hk
      have hlt : k < s.refreshes.length := (List.getElem?_eq_some_iff.mp hk).1
      cases hcatches (.stamped s.clock) (List.mem_set hlt _)
    · exact hpending (hcatches p hp)
  | store k =>
    refine ⟨?_, rfl⟩
    rintro ⟨p, hp, hpending⟩
    simp only [CatchesUp, refreshes_after] at hcatches
    simp only [written] at h
    split at hcatches
    · rename_i hk
      rw [hk] at h
      cases h
    · exact hpending (hcatches p hp)
  | tick | expireStamp | expireSwap | assign | prefetch | look | beginRead | readTable | filter
  | insertSnapshot | answer | flushLoad | flushCommit | flushRemove | flushTree =>
    refine ⟨?_, rfl⟩
    rintro ⟨p, hp, hpending⟩
    exact hpending (hcatches p hp)

/-- No request began after the tree of the moment. -/
def Begun (s : Versions) : Prop :=
  ∀ c ∈ s.calls, c.point.waits = true → c.began ≤ s.trees.length

theorem begun_next (h : s.Begun) (l : Label) : (s.next hasher l).Begun := by
  intro c hc hwaits
  rcases (move_next l).waiting hc hwaits with ⟨c₀, hc₀, hwaits₀, -, hbegan⟩ | ⟨req, -, rfl⟩
  · rw [← hbegan]
    exact Nat.le_trans (h c₀ hc₀ hwaits₀) (trees_next l)
  · exact trees_next l

variable {asked : List PrefetchRequest}

theorem Settled.next (h : s.Settled hasher asked) (hbegun : s.Begun)
    (hasked : ∀ req, l = .prefetch req → req ∈ asked) (hok : s.StepOk hasher asked l) :
    (s.next hasher l).Settled hasher asked := by
  constructor
  · intro hbehind req hreq
    rw [behind_next_iff, not_not] at hbehind
    rw [version_next]
    cases hwritten : s.written l with
    | none =>
      have hnot : ¬ s.Behind ∧ (s.next hasher l).trees = s.trees :=
        not_behind_of_next hwritten hbehind
      obtain ⟨hbefore, htrees⟩ := hnot
      rw [htrees]
      exact (h.current hbefore req hreq).next (Nat.le_refl _) l
    | some version =>
      rw [(next_of_written hwritten).2.2]
      exact (hok.2 version hwritten hbehind req hreq).next (Nat.le_refl _) l
  · intro c hc hwaits
    rcases (move_next l).waiting hc hwaits with ⟨c₀, hc₀, hwaits₀, hhash, hbegan⟩ | ⟨req, rfl, rfl⟩
    · rw [← hhash, ← hbegan]
      exact (h.waiting c₀ hc₀ hwaits₀).next (hbegun c₀ hc₀ hwaits₀) l
    · -- the request begins under the current version
      have hfrom : s.HoldsFrom (key hasher s.version req) s.trees.length := by
        by_cases hbehind : s.Behind
        · exact hok.1 req rfl hbehind
        · exact h.current hbehind req (hasked req rfl)
      exact hfrom.next (Nat.le_refl _) _

theorem stepOk_of_settled_next (h : (s.next hasher l).Settled hasher asked) :
    s.StepOk hasher asked l := by
  constructor
  · rintro req rfl - n hn
    have hmem : s.begin hasher req ∈ (s.next hasher (.prefetch req)).calls :=
      List.mem_append_right _ (List.mem_singleton_self _)
    refine h.waiting _ hmem rfl n ?_
    cases hn with
    | memory hmem hn => exact .memory hmem hn
    | disk hdisk hn => exact .disk hdisk hn
    | call hc hholds => exact .call (List.mem_append_left _ hc) hholds
  · intro version hwritten hcatches req hreq n hn
    have hkept : (s.next hasher l).query_snapshot = s.query_snapshot ∧
        (s.next hasher l).calls = s.calls ∧ (s.next hasher l).trees = s.trees :=
      next_of_written hwritten
    obtain ⟨hquery, hcalls, htrees⟩ := hkept
    have hfrom := h.current (fun hbehind => behind_next_iff.mp hbehind hcatches) req hreq
    rw [version_next, hwritten, htrees] at hfrom
    refine hfrom n ?_
    unfold Holds
    rw [hquery, hcalls]
    exact hn

/-- A step keeps answers of earlier trees out of reach exactly when it meets the condition. -/
theorem settled_next_iff (h : s.Settled hasher asked) (hbegun : s.Begun)
    (hasked : ∀ req, l = .prefetch req → req ∈ asked) :
    (s.next hasher l).Settled hasher asked ↔ s.StepOk hasher asked l :=
  ⟨stepOk_of_settled_next, fun hok => h.next hbegun hasked hok⟩

/-- An answer from the cache goes to a request that looks for it, and was held under its key. -/
theorem holds_of_served {entry : Entry} (h : s.served l = some (c, entry)) :
    c ∈ s.calls ∧ c.point.waits = true ∧ s.Holds c.query_hash entry.tree := by
  cases l with
  | look k =>
    simp only [served] at h
    split at h
    · rename_i c' hc
      split at h
      · rename_i hpoint
        obtain ⟨entry', hmem, heq⟩ := Option.map_eq_some_iff.mp h
        obtain ⟨rfl, rfl⟩ := Prod.mk.inj heq
        exact ⟨List.mem_of_getElem? hc, by rw [hpoint]; rfl, .memory hmem rfl⟩
      · cases h
    · cases h
  | readTable k =>
    simp only [served] at h
    split at h
    · rename_i c' hc
      split at h
      · rename_i in_disk hpoint
        obtain ⟨entry', hrow, heq⟩ := Option.map_eq_some_iff.mp h
        obtain ⟨rfl, rfl⟩ := Prod.mk.inj heq
        have hmem := List.mem_of_getElem? hc
        refine ⟨hmem, by rw [hpoint]; rfl, holds_of_point hmem hpoint ?_⟩
        exact ⟨entry', ⟨s.version, hrow⟩, rfl⟩
      · cases h
    · cases h
  | tick | install | stamp | store | expireStamp | expireSwap | assign | prefetch | beginRead
  | filter | insertSnapshot | answer | flushLoad | flushCommit | flushRemove | flushTree => cases h

/-! ## Runs -/

def Label.request : Label → Option PrefetchRequest
  | .prefetch req => some req
  | _ => none

def requests (labels : List Label) : List PrefetchRequest := labels.filterMap Label.request

theorem mem_requests {done labels : List Label} (hdone : done ++ [l] <+: labels)
    (req : PrefetchRequest) (hl : l = .prefetch req) : req ∈ requests labels := by
  refine List.mem_filterMap.mpr ⟨l, hdone.subset (by simp), ?_⟩
  rw [hl]
  rfl

theorem settled_start (clock : Nat) : (start clock).Settled hasher asked := by
  have hnone : ∀ h n, ¬ (start clock).Holds h n := by
    intro h n hholds
    cases hholds with
    | memory hmem hn => cases hmem
    | disk hdisk hn =>
      obtain ⟨version, hrow⟩ := hdisk
      cases hrow
    | call hc hholds => cases hc
  exact ⟨fun _ _ _ n hn => absurd hn (hnone _ n), fun c hc => by cases hc⟩

theorem begun_run (clock : Nat) (labels : List Label) :
    (LTS.run (next hasher) (start clock) labels).Begun :=
  LTS.run_invariant (fun c hc => by cases hc) fun _ l _ h => begun_next h l

/-- In every run, answers of earlier trees stay out of reach exactly when no request begins between
the two steps of a refresh, and no version is written again, as long as something from an
earlier tree is found under it. Then no request is answered with rows of a tree that was
replaced before the request began. -/
theorem never_stale_iff (hasher : QueryKey → UInt64) (clock : Nat) (labels : List Label) :
    ((∀ done, done <+: labels →
        (LTS.run (next hasher) (start clock) done).Settled hasher (requests labels)) ↔
      ∀ done l, done ++ [l] <+: labels →
        (LTS.run (next hasher) (start clock) done).StepOk hasher (requests labels) l) ∧
    ((∀ done l, done ++ [l] <+: labels →
        (LTS.run (next hasher) (start clock) done).StepOk hasher (requests labels) l) →
      ∀ done l, done ++ [l] <+: labels → ∀ c entry,
        (LTS.run (next hasher) (start clock) done).served l = some (c, entry) →
          c.began ≤ entry.tree) := by
  have hiff : (∀ done, done <+: labels →
        (LTS.run (next hasher) (start clock) done).Settled hasher (requests labels)) ↔
      ∀ done l, done ++ [l] <+: labels →
        (LTS.run (next hasher) (start clock) done).StepOk hasher (requests labels) l :=
    LTS.run_invariant_iff (I := fun t => Settled hasher t (requests labels))
      (C := fun t l => StepOk hasher t (requests labels) l) (settled_start clock)
      fun done _ hdone h => settled_next_iff h (begun_run clock done) (mem_requests hdone)
  refine ⟨hiff, fun hok done l hdone c entry hserved => ?_⟩
  have hsettled := hiff.mpr hok done ((List.prefix_append done [l]).trans hdone)
  obtain ⟨hc, hwaits, hholds⟩ := holds_of_served hserved
  exact hsettled.waiting c hc hwaits _ hholds

/-! ## Two trees of one millisecond -/

def ask_all : PrefetchRequest := ⟨.user "alice", none, none, false⟩

def version_hash (k : QueryKey) : UInt64 := UInt64.ofNat k.version.toNat

/-- A refresh at the clock reading of the moment. -/
def refresh (k : Nat) (tree : MemoryTree) : List Label := [.install tree, .stamp k, .store k]

/-- A request that finds nothing, and whose answer is cached. -/
def compute (k : Nat) : List Label :=
  [.prefetch ask_all, .look k, .beginRead k, .readTable k, .filter k QueryCache.tripLayout,
    .insertSnapshot k, .answer k]

def CallPoint.is_answered : CallPoint → Bool
  | answered _ => true
  | _ => false

/-- Nothing is under way, and nothing is cached under the key. -/
def idle (h : UInt64) (s : Versions) : Bool :=
  (s.query_snapshot.in_memory.lookup h).isNone && s.query_snapshot.in_disk.keys.isEmpty &&
    s.calls.all fun c => c.point.is_answered

theorem holdsFrom_of_idle (hidle : s.idle h = true) (n : Nat) : s.HoldsFrom h n := by
  simp only [idle, Bool.and_eq_true, Option.isNone_iff_eq_none, List.isEmpty_iff,
    List.all_eq_true] at hidle
  obtain ⟨⟨hmem, hdisk⟩, hcalls⟩ := hidle
  intro m hholds
  cases hholds with
  | memory hthere =>
    rw [hmem] at hthere
    cases hthere
  | disk hthere =>
    obtain ⟨version, hrow⟩ := hthere
    have hnone : s.query_snapshot.in_disk.lookup version = none := by
      rw [AList.lookup_eq_none, AList.mem_keys, hdisk]
      exact List.not_mem_nil
    rw [QuerySnapshot.table, hnone] at hrow
    cases hrow
  | call hc hthere =>
    have hanswered := hcalls _ hc
    unfold Call.Holds at hthere
    split at hthere
    · rename_i hpoint
      rw [hpoint] at hanswered
      cases hanswered
    · rename_i hpoint
      rw [hpoint] at hanswered
      cases hanswered
    · rename_i hpoint
      rw [hpoint] at hanswered
      cases hanswered
    · exact hthere.elim

/-- A version is written while the server is idle, and requests begin while nothing is refreshed. -/
def quiet (s : Versions) (l : Label) : Bool :=
  (l.request.isNone || s.refreshes.all fun p => p = .done) &&
    (s.written l).all fun version => s.idle (key version_hash version ask_all)

theorem stepOk_of_quiet {asked : List PrefetchRequest} (hasked : ∀ req ∈ asked, req = ask_all)
    (h : s.quiet l = true) : s.StepOk version_hash asked l := by
  simp only [quiet, Bool.and_eq_true, Bool.or_eq_true, List.all_eq_true, decide_eq_true_eq] at h
  obtain ⟨hrequest, hwrites⟩ := h
  constructor
  · rintro req rfl ⟨p, hp, hpending⟩
    rcases hrequest with hnone | hdone
    · cases hnone
    · exact absurd (hdone p hp) hpending
  · intro version hwritten _ req hreq
    rw [hwritten] at hwrites
    rw [hasked req hreq]
    exact holdsFrom_of_idle hwrites _

def quiet_run : Versions → List Label → Bool
  | _, [] => true
  | s, l :: labels => s.quiet l && quiet_run (s.next version_hash l) labels

theorem stepOk_of_quiet_run {asked : List PrefetchRequest} (hasked : ∀ req ∈ asked, req = ask_all)
    (labels : List Label) : ∀ s : Versions, s.quiet_run labels = true →
      ∀ done l, done ++ [l] <+: labels →
        (LTS.run (next version_hash) s done).StepOk version_hash asked l := by
  induction labels with
  | nil =>
    intro s _
    exact (LTS.forall_step_nil (C := fun t l => StepOk version_hash t asked l)).mpr trivial
  | cons l labels ih =>
    intro s h
    obtain ⟨hl, hrest⟩ := Bool.and_eq_true_iff.mp h
    exact (LTS.forall_step_cons (C := fun t l => StepOk version_hash t asked l)).mpr
      ⟨stepOk_of_quiet hasked hl, ih _ hrest⟩

/-- The tree is replaced in a later millisecond, and the next request computes its answer anew; the
one after that is answered from the cache. -/
def spaced : List Label :=
  refresh 0 [QueryCache.secretRow] ++ compute 0 ++ [.tick 1] ++ refresh 1 [] ++ compute 1 ++
    [.prefetch ask_all, .look 2]

theorem never_stale_spaced :
    let s := LTS.run (next version_hash) (start 5) (spaced.take 22)
    (s.served (.look 2)).map (fun p => (p.1.began, p.2.tree)) = some (2, 2) ∧
      ∀ done l, done ++ [l] <+: spaced → ∀ c entry,
        (LTS.run (next version_hash) (start 5) done).served l = some (c, entry) →
          c.began ≤ entry.tree := by
  intro s
  have hasked : ∀ req ∈ requests spaced, req = ask_all := by
    intro req hreq
    have hthree : requests spaced = [ask_all, ask_all, ask_all] := rfl
    rw [hthree] at hreq
    simpa using hreq
  refine ⟨by decide +kernel, (never_stale_iff version_hash 5 spaced).2 ?_⟩
  exact stepOk_of_quiet_run hasked spaced _ (by decide +kernel)

/-- The tree loses its one row within the millisecond in which it got it, or a request comes before
the new version is written. In both cases the request is answered with the row. -/
theorem replaced_tree_served :
    let cached := refresh 0 [QueryCache.secretRow] ++ compute 0
    let same_millisecond := LTS.run (next version_hash) (start 5)
      (cached ++ refresh 1 [] ++ [.prefetch ask_all])
    let in_between := LTS.run (next version_hash) (start 5)
      (cached ++ [.tick 1000, .install [], .prefetch ask_all])
    (same_millisecond.tree.length = 0 ∧ same_millisecond.refreshes = [.done, .done] ∧
      (same_millisecond.served (.look 1)).map
        (fun p => (p.1.began, p.2.tree, p.2.prefetch.data_length)) = some (2, 1, 1)) ∧
    in_between.tree.length = 0 ∧
      (in_between.served (.look 1)).map
        (fun p => (p.1.began, p.2.tree, p.2.prefetch.data_length)) = some (2, 1, 1) := by
  decide +kernel

end Versions
