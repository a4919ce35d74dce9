import Picasu.Storage.Cache

/-! # The Query Cache with Its Tables

The answers to queries, by the hash of the query and of the tree version that it was asked under.
An answer is put into memory, and a task copies it to disk, into the table that is named by the
version then current. A reader looks into memory and then into the table of the current version.

The store does not look into the answers; `V` is what it keeps.
-/

/-- `QUERY_SNAPSHOT`. The tables on disk are given by the versions that name them. -/
structure QuerySnapshot (V : Type) where
  in_memory : Table UInt64 V
  in_disk : Table Int (Table UInt64 V)

namespace QuerySnapshot

variable {V : Type}

/-- The table of a version; empty if there is none. -/
def table (in_disk : Table Int (Table UInt64 V)) (version : Int) : Table UInt64 V :=
  (in_disk.lookup version).getD ∅

/-- One turn of `flush_query_snapshot_task`, up to its commit: the entry is copied to the table of
the version. -/
def flush_query_snapshot (version : Int) (query_hash : UInt64) (s : QuerySnapshot V) :
    QuerySnapshot V :=
  match s.in_memory.lookup query_hash with
  | some data =>
    { s with in_disk := s.in_disk.insert version ((table s.in_disk version).insert query_hash data) }
  | none => s

/-- The end of the turn: the entry is removed from memory. -/
def remove_flushed (query_hash : UInt64) (s : QuerySnapshot V) : QuerySnapshot V :=
  { s with in_memory := s.in_memory.erase query_hash }

def OnDisk (in_disk : Table Int (Table UInt64 V)) (query_hash : UInt64) (data : V) : Prop :=
  ∃ version, (table in_disk version).lookup query_hash = some data

theorem table_insert (in_disk : Table Int (Table UInt64 V)) (version version' : Int)
    (rows : Table UInt64 V) : table (in_disk.insert version rows) version' =
      if version' = version then rows else table in_disk version' := by
  rw [table, Table.lookup_insert]
  split <;> rfl

/-- A turn copies to disk only what is in memory. -/
theorem onDisk_flush {s : QuerySnapshot V} {version : Int} {query_hash h : UInt64} {data : V}
    (hdisk : OnDisk (s.flush_query_snapshot version query_hash).in_disk h data) :
    s.in_memory.lookup h = some data ∨ OnDisk s.in_disk h data := by
  unfold flush_query_snapshot at hdisk
  split at hdisk
  · rename_i copied hmem
    obtain ⟨version', hrow⟩ := hdisk
    rw [table_insert] at hrow
    split at hrow
    · rename_i heq
      rcases Table.lookup_insert_eq_some.mp hrow with ⟨rfl, rfl⟩ | ⟨-, hold⟩
      · exact Or.inl hmem
      · exact Or.inr ⟨version, hold⟩
    · exact Or.inr ⟨version', hrow⟩
  · exact Or.inr hdisk

@[simp] theorem in_memory_flush (s : QuerySnapshot V) (version : Int) (query_hash : UInt64) :
    (s.flush_query_snapshot version query_hash).in_memory = s.in_memory := by
  unfold flush_query_snapshot
  split
  · rfl
  · rfl

/-! ## Rows by their place -/

/-- Where a row stands: in memory, or in the table of a version. -/
inductive Place where
  | memory
  | table (version : Int)
  deriving DecidableEq, Repr

def row (s : QuerySnapshot V) (query_hash : UInt64) : Place → Option V
  | .memory => s.in_memory.lookup query_hash
  | .table version => (table s.in_disk version).lookup query_hash

/-- The insertion of `create_json_response`. -/
def insert (query_hash : UInt64) (data : V) (s : QuerySnapshot V) : QuerySnapshot V :=
  { s with in_memory := s.in_memory.insert query_hash data }

/-- A turn of `flush_query_snapshot_task` whose insertion fails; the table is there then. -/
def open_table (version : Int) (s : QuerySnapshot V) : QuerySnapshot V :=
  { s with in_disk := s.in_disk.insert version (table s.in_disk version) }

def delete_tables (versions : List Int) (s : QuerySnapshot V) : QuerySnapshot V :=
  { s with in_disk := s.in_disk.retain fun version _ => decide (version ∉ versions) }

section Row

variable {s : QuerySnapshot V} {version : Int} {query_hash h : UInt64} {data : V} {place : Place}

theorem row_insert : (s.insert query_hash data).row h place =
    if h = query_hash ∧ place = .memory then some data else s.row h place := by
  cases place with
  | memory => simp [row, insert, Table.lookup_insert]
  | table v => simp [row, insert]

theorem row_flush (hmem : s.in_memory.lookup query_hash = some data) :
    (s.flush_query_snapshot version query_hash).row h place =
      if h = query_hash ∧ place = .table version then some data else s.row h place := by
  have hflush : s.flush_query_snapshot version query_hash = { s with
      in_disk := s.in_disk.insert version
        ((table s.in_disk version).insert query_hash data) } := by
    simp only [flush_query_snapshot, hmem]
  rw [hflush]
  cases place with
  | memory =>
    rw [if_neg (fun hand => Place.noConfusion hand.2)]
    rfl
  | table v =>
    simp only [row, table_insert, Place.table.injEq]
    by_cases hv : v = version
    · simp [hv, Table.lookup_insert]
    · simp [hv]

theorem row_flush_none (hmem : s.in_memory.lookup query_hash = none) :
    (s.flush_query_snapshot version query_hash).row h place = s.row h place := by
  simp only [flush_query_snapshot, hmem]

theorem row_remove_flushed : (s.remove_flushed query_hash).row h place =
    if h = query_hash ∧ place = .memory then none else s.row h place := by
  cases place with
  | memory => simp [row, remove_flushed, Table.lookup_erase]
  | table v => simp [row, remove_flushed]

@[simp] theorem row_open_table : (s.open_table version).row h place = s.row h place := by
  cases place with
  | memory => rfl
  | table v =>
    simp only [row, open_table, table_insert]
    split_ifs with hv
    · rw [hv]
    · rfl

theorem row_delete_tables {versions : List Int} : (s.delete_tables versions).row h place =
    if ∃ v ∈ versions, place = .table v then none else s.row h place := by
  cases place with
  | memory =>
    rw [if_neg (by simp)]
    rfl
  | table v =>
    simp only [row, table, delete_tables, Table.lookup_retain_eq, Place.table.injEq, exists_eq_right']
    cases s.in_disk.lookup v with
    | none => simp
    | some rows => by_cases hv : v ∈ versions <;> simp [Option.filter, hv]

end Row

end QuerySnapshot
