import Mathlib.Algebra.Group.Int.Defs
import Picasu.Framework.Tiered
import Picasu.Process.Transitor

/-! # Snapshots and the Query Cache

A prefetch stores the rows it selected as a *tree snapshot* under a fresh id, and the answer to
the query, which names the snapshot, in the query cache. Both are two-level stores. On disk the
query cache is one table per tree version.
-/

/-- `Prefetch`: the answer to a query. -/
structure Prefetch where
  timestamp : Int
  locate_to : Option Nat
  data_length : Nat
  deriving DecidableEq, Repr

def i64Max : Int := 2 ^ 63 - 1

structure Caches where
  /-- `TREE_SNAPSHOT`: the rows of each snapshot, by id. -/
  tree_snapshot : Tiered Int (List ReducedData)
  /-- `QUERY_SNAPSHOT`, by query hash, for the current tree version: its memory level and the disk
  table of that version. -/
  query_snapshot : Tiered UInt64 Prefetch
  /-- `LAST_SNAPSHOT_ID`. -/
  last_snapshot_id : Int

namespace Caches

def read_tree_snapshot (caches : Caches) (timestamp : Int) : Option (List ReducedData) :=
  caches.tree_snapshot.get timestamp

def read_query_snapshot (caches : Caches) (query_hash : UInt64) : Option Prefetch :=
  caches.query_snapshot.get query_hash

/-- `next_snapshot_id`, at clock reading `now`. -/
def next_snapshot_id (now last : Int) : Int := max now (min (last + 1) i64Max)

def insert_tree_snapshot (now : Int) (rows : List ReducedData) (caches : Caches) :
    Int × Caches :=
  let timestamp := next_snapshot_id now caches.last_snapshot_id
  (timestamp, { caches with
    tree_snapshot := caches.tree_snapshot.put timestamp rows
    last_snapshot_id := timestamp })

/-- One turn of `flush_tree_snapshot_task`. -/
def flush_tree_snapshot (timestamp : Int) (caches : Caches) : Caches :=
  { caches with tree_snapshot := caches.tree_snapshot.flush timestamp }

/-- One turn of `flush_query_snapshot_task`. -/
def flush_query_snapshot (query_hash : UInt64) (caches : Caches) : Caches :=
  { caches with query_snapshot := caches.query_snapshot.flush query_hash }

/-- A new id is above every earlier one, as long as ids fit in an `i64`. -/
theorem last_lt_next_snapshot_id (now : Int) {last : Int} (h : last < i64Max) :
    last < next_snapshot_id now last := by
  unfold next_snapshot_id
  omega

end Caches
