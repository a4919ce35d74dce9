import Picasu.Framework.Path
import Picasu.Framework.Table

/-! # The Intake

Scans and the file watcher submit work for paths; workers take it from the queue. Every submit
draws the next generation of its path, and a worker drops an item whose generation is not the
current one of its path: a newer submit has superseded it. When an item is done its generation is
released, so the next submit for the path starts at one again.

The five lanes and the order in which the workers serve them are left out. A step may take any
item of the queue, so every order is covered. Items without a path (expiry sweeps, album
refreshes) have no generation and are left out.
-/

open PathBuf

/-- `IntakeKind`, for items with a path. -/
inductive IntakeKind where
  | scan (job_id : Nat)
  | watcherIndex
  | watcherRemove
  deriving DecidableEq, Repr

/-- What `metadata` says of a file, if it can be read. -/
structure FileIdentity where
  mtime : Option Nat := none
  len : Option Nat := none
  deriving DecidableEq, Repr

/-- `IntakeItem`. Its path is kept as the text it came with. -/
structure IntakeItem where
  file : String
  kind : IntakeKind
  generation : Nat
  identity : FileIdentity
  deriving DecidableEq, Repr

/-- Paths are compared by their components. -/
def IntakeItem.path (item : IntakeItem) : PathBuf := ofString item.file

/-- `GENERATIONS` and the lanes. -/
structure Intake where
  generations : Table PathBuf Nat
  queued : List IntakeItem

namespace Intake

def current_generation (s : Intake) (path : PathBuf) : Option Nat := s.generations.lookup path

def next_generation (s : Intake) (path : PathBuf) : Nat := (s.current_generation path).getD 0 + 1

/-- `next_generation`, then `enqueue`: the body of every submit. -/
def submit (file : String) (kind : IntakeKind) (identity : FileIdentity) (s : Intake) : Intake where
  generations := s.generations.insert (ofString file) (s.next_generation (ofString file))
  queued := s.queued ++ [⟨file, kind, s.next_generation (ofString file), identity⟩]

def submit_scan (file : String) (job_id : Nat) (identity : FileIdentity) : Intake → Intake :=
  submit file (.scan job_id) identity

def submit_watcher_index (file : String) (identity : FileIdentity) : Intake → Intake :=
  submit file .watcherIndex identity

/-- `submit_watcher_remove`: the file is gone, so there is no identity. -/
def submit_watcher_remove (file : String) : Intake → Intake := submit file .watcherRemove {}

def dequeue (n : Nat) (s : Intake) : Intake := { s with queued := s.queued.eraseIdx n }

/-- `release_generation`: unless a newer submit replaced it. -/
def release_generation (item : IntakeItem) (s : Intake) : Intake :=
  if s.current_generation item.path = some item.generation then
    -- the path has no generation now, and the next submit starts at one
    { s with generations := s.generations.erase item.path }
  else s

def is_superseded (s : Intake) (item : IntakeItem) : Bool :=
  s.current_generation item.path != some item.generation

end Intake

/-- `is_stale`; `fresh` is the file's identity now, nothing if it does not stat. -/
def is_stale (fresh : Option FileIdentity) (item : IntakeItem) : Bool :=
  match fresh with
  | some fresh => fresh != item.identity
  | none => false
