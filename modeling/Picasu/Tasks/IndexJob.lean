import Picasu.Router.AlbumStats
import Picasu.Tasks.DirAlbums
import Picasu.Tasks.InLine

/-! # The Index Job

A scan makes the albums of the directories it finds and lets workers index the files; it waits for
them, and for the writer. Then it sweeps: what the in-memory tree lists under a root, and is not
on the disk, is handed to the writer to be removed. The album of the users root is removed as
well. Two barriers end the job.

The tree is built anew by the cascade task, after every flush, and by tasks that are started
whenever an album is made. To build a tree is to read the tables and to install what was read, and
others go on in between. Albums are refreshed at any time; that changes payloads, and memberships
of files.

No one else writes. Everything below is about the ids: `TreeMatches` says that the tree lists
exactly the assets that have a record.
-/

open PathBuf

/-! ## Sweeping -/

def normalize_asset_path (image_home : Option PathBuf) (file : String) : PathBuf :=
  let p := ofString file
  if is_absolute p then p
  else
    match image_home with
    | some image_home => join image_home p
    | none => p

/-- The part of `sweep_stale_asset_paths` about files: those of the tree under the root that are
gone, without their paths. -/
def stale_files (image_home : Option PathBuf) (exists_ : PathBuf → Bool) (root : PathBuf)
    (tree : MemoryTree) : List AbstractData :=
  tree.filterMap fun dt =>
    dt.abstract_data.path.bind fun a =>
      let abs := normalize_asset_path image_home a.file
      if starts_with abs root = true ∧ exists_ abs = false then
        some (dt.abstract_data.edit_path fun _ => none)
      else none

/-! ## The system -/

/-- What a job is about: its scan roots, and the configured ones. -/
structure ScanEnv where
  scan_roots : List PathBuf
  image_home : Option PathBuf
  users_home : Option PathBuf

/-- How far the cascade task is with the tree of its entry. -/
inductive ChainPoint where
  | begun
  /-- The tables are read. -/
  | built (tree : MemoryTree)
  /-- The tree is installed. Another one may follow. -/
  | installed
  deriving DecidableEq

inductive JobPoint where
  /-- Albums are made and files are indexed. -/
  | walking
  /-- The intake is drained; the job waits for the barrier of the `n`-th call. -/
  | preSweep (n : Nat)
  /-- These roots are left to sweep. -/
  | sweeping (roots : List PathBuf)
  /-- The files of a root are looked through; its albums are next. -/
  | sweepingAlbums (to_remove : List AbstractData) (root : PathBuf) (roots : List PathBuf)
  /-- The albums are submitted, the files are next. -/
  | removing (to_remove : List AbstractData) (roots : List PathBuf)
  /-- The users root is pruned. -/
  | pruned
  /-- The job waits for the barrier behind the sweep. -/
  | postSweep (n : Nat)
  /-- It waits for the last barrier. -/
  | updateTree (n : Nat)
  | done
  deriving DecidableEq

structure IndexJob where
  writer : SerialWriter
  /-- `TREE.in_memory`. -/
  tree : MemoryTree
  chain : ChainPoint
  /-- The tree tasks that were started with new albums, with what each has read and not yet
  installed. -/
  batches : List (Option MemoryTree)
  job : JobPoint

namespace IndexJob

inductive Label where
  /-- `get_or_create_dir_album`, by the job or a worker. -/
  | create (to_uppercase : Char → String) (now : Int) (info : AlbumInfo)
      (random_hash dir_path : String)
  /-- A worker submits the file that it has indexed. -/
  | index (random_hash : String) (data : AbstractData)
  /-- The job goes on, with this on the disk. -/
  | job (exists_ : PathBuf → Bool)
  /-- A call, the writer or the cascade task goes on. -/
  | step (l : SerialWriter.Label)
  /-- The cascade task reads the tables for a tree. -/
  | build (now : Int) (timestamp : AbstractData → Int)
  /-- It installs the tree. -/
  | install
  /-- `album_task`, for an album that waits for it. -/
  | album (now : Int) (album_id : String)
  /-- The `n`-th tree task reads the tables. -/
  | batchBuild (n : Nat) (now : Int) (timestamp : AbstractData → Int)
  /-- It installs the tree. -/
  | batchInstall (n : Nat)

variable (s : IndexJob)

def tables : Tables := s.writer.lib.store.tables

def with_lib (lib : Library) : IndexJob := { s with writer := { s.writer with lib } }

def call (kind : CallKind) : IndexJob := { s with writer := s.writer.next (.call kind) }

/-- Every submit so far has returned. -/
def all_sent : Bool := s.writer.calls.all fun c => c.point.has_sent

def has_returned (n : Nat) : Bool :=
  (s.writer.calls[n]?).any fun c =>
    match c.point with
    | .returned _ => true
    | _ => false

/-- The tree of an entry is built, or the entry asks for none. -/
def chain_done : Bool :=
  match s.writer.cascade, s.chain with
  | .running ⟨_, .updateTreeChain, _⟩, .installed => true
  | .running ⟨_, .updateTreeChain, _⟩, _ => false
  | _, _ => true

/-- The next step of `index_album_with_root`. -/
def job_step (env : ScanEnv) (exists_ : PathBuf → Bool) : IndexJob :=
  -- the job waits for its own submits, and at first, in `drain_intake`, for the workers
  if s.all_sent = false then s
  else
    match s.job with
    | .walking => { s.call .barrier with job := .preSweep s.writer.calls.length }
    | .preSweep n => if s.has_returned n then { s with job := .sweeping env.scan_roots } else s
    | .sweeping (root :: roots) =>
      { s with job := .sweepingAlbums (stale_files env.image_home exists_ root s.tree) root roots }
    | .sweepingAlbums to_remove root roots =>
      match stale_albums exists_ root s.tree with
      | [] => { s with job := .removing to_remove roots }
      | entries =>
        { s.call (.submit (.sweepDirAlbums entries)) with job := .removing to_remove roots }
    | .removing [] roots => { s with job := .sweeping roots }
    | .removing to_remove roots =>
      { s.call (.submit (.flush [] to_remove)) with job := .sweeping roots }
    | .sweeping [] =>
      match env.users_home with
      | none => { s with job := .pruned }
      | some users_root => { s.call (.submit (.pruneUsersRoot users_root)) with job := .pruned }
    | .pruned => { s.call .barrier with job := .postSweep s.writer.calls.length }
    | .postSweep n =>
      if s.has_returned n then
        { s.call .barrier with job := .updateTree s.writer.calls.length }
      else s
    | .updateTree n => if s.has_returned n then { s with job := .done } else s
    | .done => s

/-- One step. -/
def next (env : ScanEnv) (s : IndexJob) : Label → IndexJob
  | .create to_uppercase now info random_hash dir_path =>
    match s.job with
    | .walking =>
      let made := (s.writer.lib.dirs.get_album_id_for_dir (ofString dir_path)).isNone
      { s.with_lib (get_or_create_dir_album to_uppercase now info random_hash dir_path
          s.writer.lib).2 with
        batches := if made then s.batches ++ [none] else s.batches }
    | _ => s
  | .index random_hash data =>
    match s.job with
    | .walking => s.call (.submit (.flush [(random_hash, data)] []))
    | _ => s
  | .job exists_ => s.job_step env exists_
  | .step (.call _) => s
  | .step .cascade =>
    if s.chain_done then { s with writer := s.writer.next .cascade, chain := .begun } else s
  | .step l => { s with writer := s.writer.next l }
  | .build now timestamp =>
    match s.writer.cascade, s.chain with
    | .running ⟨_, .updateTreeChain, _⟩, .begun | .running ⟨_, .updateTreeChain, _⟩, .installed =>
      { s with chain := .built (refresh_tree_cache now timestamp s.tables) }
    | _, _ => s
  | .install =>
    match s.chain with
    | .built tree => { s with tree, chain := .installed }
    | _ => s
  | .album now album_id =>
    s.with_lib { s.writer.lib with
      store := { s.writer.lib.store with tables := album_task now s.tree album_id s.tables } }
  | .batchBuild n now timestamp =>
    match s.batches[n]? with
    | some none =>
      { s with batches := s.batches.set n (some (refresh_tree_cache now timestamp s.tables)) }
    | _ => s
  | .batchInstall n =>
    match s.batches[n]? with
    | some (some tree) => { s with tree, batches := s.batches.set n none }
    | _ => s

/-- A job begins: the writer has been used before, the tables, the cache and the tree are as they
are. -/
def start (earlier : List SerialWriter.Label) (lib : Library) (tree : MemoryTree) : IndexJob where
  writer := { LTS.run SerialWriter.next (SerialWriter.start lib) earlier with lib }
  tree
  chain := .begun
  batches := []
  job := .walking

end IndexJob
