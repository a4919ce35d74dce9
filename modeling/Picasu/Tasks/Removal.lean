import Picasu.Framework.Run
import Picasu.Process.Media
import Picasu.Router.Delete
import Picasu.Tasks.Intake

/-! # Background Removal

When a media file vanishes, the watcher submits a removal for its path. A worker takes it from the
queue, checks that no newer submit for the path has superseded it, and then runs
`handle_removed_file`: it looks up the record of the path in the in-memory tree and prunes it.
Pruning deletes the file and its sidecar; the code takes them to be gone already.

Nothing makes sure of that. A file that is put back before the worker gets to the removal is
deleted: the event for the new file waits for a second in the debounce pool, and only a submit
supersedes.

The system below has the disk, the tables, the tree, the debounce pool, the intake, the jobs that
workers are in the middle of, and the writes that wait for the serial writer. Its labels are the
atomic steps; files may be written and removed by anybody at any time, and events may come late,
twice or not at all.

* `files_next`: which steps touch files at all;
* `handle_removed_file_keeps_iff`: when one removal keeps what is there;
* `background_removal_keeps_iff`: the same for all steps of a run, and then media files vanish
  only if somebody deletes them.
-/

open PathBuf

/-! ## The handler -/

/-- `RemovalAction`, and what else is submitted to the serial writer. -/
inductive FlushOp where
  | insert (data : AbstractData)
  | remove (data : AbstractData)

/-- The row of the tree that owns a path. -/
def owner (file : String) (tree : MemoryTree) : Option DatabaseTimestamp :=
  tree.find? fun dt => dt.abstract_data.path.any fun a => a.file == file

variable (refuses : PathBuf → Bool)

def handle_removed_file (store : AssetStore) (tree : MemoryTree) (removed : String)
    (disk : MediaDisk) : Option FlushOp × MediaDisk :=
  match owner removed tree with
  | none => (none, disk)
  | some dt =>
    match prune_asset_path refuses store dt.abstract_data removed disk with
    | (true, data, disk) => (some (.insert data), disk)
    | (false, data, disk) => (some (.remove data), disk)

theorem handle_removed_file_files (store : AssetStore) (tree : MemoryTree) (removed : String)
    (disk : MediaDisk) :
    (handle_removed_file refuses store tree removed disk).2.files =
      if (owner removed tree).isSome then remove_asset_file refuses (ofString removed) disk.files
      else disk.files := by
  unfold handle_removed_file
  split
  · rename_i hnone
    rw [hnone]
    rfl
  · rename_i dt hsome
    rw [hsome, ← prune_asset_path_files refuses store dt.abstract_data]
    split
    · rename_i hprune
      rw [hprune]
      rfl
    · rename_i hprune
      rw [hprune]
      rfl

/-- A removal keeps a file that is at its path, and the sidecar, exactly when no row of the tree
owns the path, or the file system refuses to remove them. -/
theorem handle_removed_file_keeps_iff (store : AssetStore) (tree : MemoryTree) (removed : String)
    (disk : MediaDisk) :
    let path := ofString removed
    let after := (handle_removed_file refuses store tree removed disk).2.files
    (disk.files path ≠ none →
        after path = disk.files path ∧ after (sidecar_of path) = disk.files (sidecar_of path)) ↔
      ((owner removed tree).isSome → disk.files path = none ∨
        (refuses path = true ∧
          (disk.files (sidecar_of path) = none ∨ refuses (sidecar_of path) = true))) := by
  intro path after
  have hafter : after = _ := handle_removed_file_files refuses store tree removed disk
  by_cases howner : (owner removed tree).isSome
  · rw [if_pos howner] at hafter
    rw [hafter]
    constructor
    · intro hkept _
      by_cases hthere : disk.files path = none
      · exact Or.inl hthere
      · exact Or.inr ((remove_asset_file_keeps_iff refuses hthere).mp (hkept hthere))
    · intro hgone hthere
      rcases hgone howner with habsent | hrefused
      · exact absurd habsent hthere
      · exact (remove_asset_file_keeps_iff refuses hthere).mpr hrefused
  · rw [if_neg howner] at hafter
    rw [hafter]
    exact ⟨fun _ h => absurd h howner, fun _ _ => ⟨rfl, rfl⟩⟩

/-! ## The system -/

/-- What the steps ask their surroundings. -/
structure WatchEnv where
  roots : Roots
  to_lowercase : String → String
  infer : ByteArray → Option String

/-- An item that a worker has begun. It is processed before its generation is released. -/
structure Job where
  item : IntakeItem
  processed : Bool

structure Background where
  disk : MediaDisk
  lib : Library
  tree : MemoryTree
  /-- `DEBOUNCE_POOL`. -/
  pool : Table PathBuf Nat
  /-- The debounce tasks that sleep, with the time they were started at. -/
  timers : List (String × Nat)
  /-- The removals that are spawned and not submitted yet. -/
  removals : List String
  intake : Intake
  jobs : List Job
  /-- What waits for the serial writer. -/
  writes : List FlushOp

/-- `EventKind`. The creation of a directory counts as one of each file in it. -/
inductive EventKind where
  | create
  | modify
  | remove
  deriving DecidableEq, Repr

inductive Background.Label where
  /-- Somebody writes a file, or puts one back. -/
  | externalWrite (path : PathBuf) (bytes : ByteArray)
  /-- Somebody removes a file. -/
  | externalRemove (path : PathBuf)
  /-- A user deletes assets. -/
  | processDeletes (now : Int) (refuses : PathBuf → Bool) (caller : String) (asset_ids : List String)
  /-- The watcher is called with an event. -/
  | watcherEvent (kind : EventKind) (file : String) (now : Nat)
  /-- The `n`-th debounce task wakes up; `enabled` is `fs_notify_watcher`. -/
  | debounceElapsed (n : Nat) (enabled : Bool) (identity : FileIdentity)
  /-- The `n`-th spawned removal is submitted. -/
  | submitWatcherRemove (n : Nat)
  | submitScan (file : String) (job_id : Nat) (identity : FileIdentity)
  /-- A worker takes the `n`-th item and makes its checks. -/
  | dispatchItem (n : Nat) (fresh : Option FileIdentity)
  /-- The `n`-th job indexes its file: the records it submits, and the previews there are then. -/
  | processFile (n : Nat) (flushed : List AbstractData) (compressed : FileMap ByteArray)
  /-- The `n`-th job runs `handle_removed_file`. -/
  | handleRemovedFile (n : Nat) (refuses : PathBuf → Bool)
  /-- The `n`-th job releases its generation. -/
  | releaseGeneration (n : Nat)
  /-- The serial writer performs the write that is first in line. -/
  | flush (now : Int) (random_hash : String)
  | updateTree (now : Int) (timestamp : AbstractData → Int)

namespace Background

variable (env : WatchEnv) (s : Background)

/-- `submit_to_debounce_pool`, up to its sleep. -/
def submit_to_debounce_pool (file : String) (now : Nat) : Background :=
  { s with pool := s.pool.insert (ofString file) now, timers := s.timers ++ [(file, now)] }

/-- The callback of `new_watcher`, on one path. -/
def watcher_event (kind : EventKind) (file : String) (now : Nat) : Background :=
  if is_valid_media_file env.to_lowercase (ofString file) then
    match kind with
    | .remove => { s with removals := s.removals ++ [file] }
    | .create | .modify =>
      if (s.disk.files (ofString file)).isSome then s.submit_to_debounce_pool file now else s
  else s

def under_root (path : PathBuf) : Bool :=
  env.roots.image_home.any (fun root => starts_with path root) ||
    env.roots.users_home.any fun root => starts_with path root

/-- `submit_to_debounce_pool`, after its sleep: only the last of several events goes on. -/
def debounce_elapsed (n : Nat) (enabled : Bool) (identity : FileIdentity) : Background :=
  match s.timers[n]? with
  | none => s
  | some (file, now) =>
    let s := { s with timers := s.timers.eraseIdx n }
    -- a later event for the path has put its own time into the pool
    if s.pool.lookup (ofString file) = some now then
      let s := { s with pool := s.pool.erase (ofString file) }
      if enabled && under_root env (ofString file) &&
          classify_media_file env.to_lowercase env.infer s.disk.files (ofString file) = .index then
        { s with intake := s.intake.submit_watcher_index file identity }
      else s
    else s

def submit_watcher_remove (n : Nat) : Background :=
  match s.removals[n]? with
  | none => s
  | some file =>
    { s with removals := s.removals.eraseIdx n, intake := s.intake.submit_watcher_remove file }

/-- `dispatch_item`, up to the checks: superseded items are dropped, and stale ones unless they are
removals. -/
def dispatch_item (n : Nat) (fresh : Option FileIdentity) : Background :=
  match s.intake.queued[n]? with
  | none => s
  | some item =>
    let s := { s with intake := s.intake.dequeue n }
    -- the file system is not asked whether the removal is still true
    if s.intake.is_superseded item then s
    else if item.kind ≠ .watcherRemove ∧ is_stale fresh item = true then
      { s with intake := s.intake.release_generation item }
    else { s with jobs := s.jobs ++ [⟨item, false⟩] }

/-- `process_file`, as far as others see it. -/
def process_file (n : Nat) (flushed : List AbstractData) (compressed : FileMap ByteArray) :
    Background :=
  match s.jobs[n]? with
  | some ⟨item, false⟩ =>
    if item.kind = .watcherRemove then s
    else
      { s with
        disk := { s.disk with compressed }
        jobs := s.jobs.set n ⟨item, true⟩
        writes := s.writes ++ flushed.map .insert }
  | _ => s

/-- The removal that the `n`-th job is about to run. -/
def removal_of (n : Nat) : Option IntakeItem :=
  match s.jobs[n]? with
  | some ⟨item, false⟩ => if item.kind = .watcherRemove then some item else none
  | _ => none

/-- `process_watcher_remove`, between its check and the release. -/
def process_watcher_remove (n : Nat) (refuses : PathBuf → Bool) : Background :=
  match s.removal_of n with
  | none => s
  | some item =>
    let (action, disk) := handle_removed_file refuses s.lib.store s.tree item.file s.disk
    { s with disk, jobs := s.jobs.set n ⟨item, true⟩, writes := s.writes ++ action.toList }

/-- The end of every job. -/
def release (n : Nat) : Background :=
  match s.jobs[n]? with
  | some ⟨item, true⟩ =>
    { s with jobs := s.jobs.eraseIdx n, intake := s.intake.release_generation item }
  | _ => s

def fs : Fs := { env.roots.fs with exists_ := fun path => (s.disk.files path).isSome }

/-- One write of the serial writer. -/
def flush_next (now : Int) (random_hash : String) : Background :=
  match s.writes with
  | [] => s
  -- the cascade that follows a write is the step `updateTree`
  | .insert data :: writes =>
    { s with writes, lib := { s.lib with store := flush_insert now random_hash data s.lib.store } }
  | .remove data :: writes =>
    { s with writes, lib := { s.lib with store := flush_remove (s.fs env) data s.lib.store } }

/-- A deletion request: the files go at once, the records by the writer. -/
def delete_assets (now : Int) (refuses : PathBuf → Bool) (caller : String)
    (asset_ids : List String) : Background :=
  match process_deletes now env.roots refuses caller asset_ids s.lib s.disk with
  | (.error _, lib, disk) => { s with lib, disk }
  | (.ok (removed, _), lib, disk) =>
    { s with lib, disk, writes := s.writes ++ removed.map .remove }

/-- One step. -/
def next : Label → Background
  | .externalWrite path bytes => { s with disk := { s.disk with files := s.disk.files.write path bytes } }
  | .externalRemove path => { s with disk := { s.disk with files := s.disk.files.remove path } }
  | .processDeletes now refuses caller asset_ids => s.delete_assets env now refuses caller asset_ids
  | .watcherEvent kind file now => s.watcher_event env kind file now
  | .debounceElapsed n enabled identity => s.debounce_elapsed env n enabled identity
  | .submitWatcherRemove n => s.submit_watcher_remove n
  | .submitScan file job_id identity =>
    { s with intake := s.intake.submit_scan file job_id identity }
  | .dispatchItem n fresh => s.dispatch_item n fresh
  | .processFile n flushed compressed => s.process_file n flushed compressed
  | .handleRemovedFile n refuses => s.process_watcher_remove n refuses
  | .releaseGeneration n => s.release n
  | .flush now random_hash => s.flush_next env now random_hash
  | .updateTree now timestamp =>
    { s with tree := build_from_asset_tables now timestamp s.lib.store.tables }

/-! ## Which steps touch files -/

variable {env s}

theorem files_process_watcher_remove (n : Nat) (refuses : PathBuf → Bool) :
    (s.process_watcher_remove n refuses).disk.files =
      match s.removal_of n with
      | none => s.disk.files
      | some item =>
        (handle_removed_file refuses s.lib.store s.tree item.file s.disk).2.files := by
  unfold process_watcher_remove
  split <;> rfl

/-- Files change by the hand of somebody, by a deletion request, or by a removal. -/
theorem files_next (l : Label) :
    (s.next env l).disk.files =
      match l with
      | .externalWrite path bytes => s.disk.files.write path bytes
      | .externalRemove path => s.disk.files.remove path
      | .processDeletes now refuses caller asset_ids =>
        (s.delete_assets env now refuses caller asset_ids).disk.files
      | .handleRemovedFile n refuses => (s.process_watcher_remove n refuses).disk.files
      | _ => s.disk.files := by
  cases l with
  | externalWrite path bytes => rfl
  | externalRemove path => rfl
  | processDeletes now refuses caller asset_ids => rfl
  | handleRemovedFile n refuses => rfl
  | submitScan file job_id identity => rfl
  | updateTree now timestamp => rfl
  | watcherEvent kind file now =>
    show (s.watcher_event env kind file now).disk.files = s.disk.files
    unfold watcher_event
    split
    · cases kind with
      | remove => rfl
      | create | modify => dsimp only; split <;> rfl
    · rfl
  | debounceElapsed n enabled identity =>
    show (s.debounce_elapsed env n enabled identity).disk.files = s.disk.files
    unfold debounce_elapsed
    split
    · rfl
    dsimp only
    split
    · split <;> rfl
    · rfl
  | submitWatcherRemove n =>
    show (s.submit_watcher_remove n).disk.files = s.disk.files
    unfold submit_watcher_remove
    split <;> rfl
  | dispatchItem n fresh =>
    show (s.dispatch_item n fresh).disk.files = s.disk.files
    unfold dispatch_item
    split
    · rfl
    dsimp only
    split
    · rfl
    · split <;> rfl
  | processFile n flushed compressed =>
    show (s.process_file n flushed compressed).disk.files = s.disk.files
    unfold process_file
    split
    · split <;> rfl
    · rfl
  | releaseGeneration n =>
    show (s.release n).disk.files = s.disk.files
    unfold release
    split <;> rfl
  | flush now random_hash =>
    show (s.flush_next env now random_hash).disk.files = s.disk.files
    unfold flush_next
    split <;> rfl

/-! ## Removals do no harm -/

section Harm

variable (env : WatchEnv) (s : Background)

/-- Somebody removes the file, or a user deletes the asset it belongs to. -/
def Deletes (l : Label) (r : PathBuf) : Prop :=
  match l with
  | .externalRemove path => path = r
  | .processDeletes now _ caller asset_ids =>
    ∃ id ∈ asset_ids, ∃ data file_entry,
      resolve_delete now env.roots caller s.lib.store.tables id = .ok data ∧
        data.path = some file_entry ∧ ofString file_entry.file = r
  | _ => False

/-- What a step has to leave on disk: at the path of a removal, the file that is there and its
sidecar; and every media file that the step does not explicitly delete. -/
structure Keeps (l : Label) (after : Background) : Prop where
  removal : ∀ n refuses item, l = .handleRemovedFile n refuses → s.removal_of n = some item →
    s.disk.files item.path ≠ none →
      after.disk.files item.path = s.disk.files item.path ∧
        after.disk.files (sidecar_of item.path) = s.disk.files (sidecar_of item.path)
  media : ∀ r, MediaPath r → s.disk.files r ≠ none → ¬ Deletes env s l r → after.disk.files r ≠ none

/-- A removal that is run for a path of the tree finds no file there, or cannot remove what it
finds. -/
def NothingToLose (l : Label) : Prop :=
  ∀ n refuses item, l = .handleRemovedFile n refuses → s.removal_of n = some item →
    (owner item.file s.tree).isSome →
      s.disk.files item.path = none ∨
        (refuses item.path = true ∧
          (s.disk.files (sidecar_of item.path) = none ∨ refuses (sidecar_of item.path) = true))

end Harm

variable {r : PathBuf}

/-- Removing the files of an asset keeps every media file but its own. -/
theorem remove_asset_file_media (refuses : PathBuf → Bool) {path : PathBuf}
    (files : FileMap ByteArray) (hr : MediaPath r) (hne : r ≠ path) :
    remove_asset_file refuses path files r = files r := by
  refine remove_asset_file_other refuses files hne ?_
  intro heq
  obtain rfl : r = sidecar_of path := heq
  exact hne (eq_of_mediaPath_sidecar_of hr)

theorem disk_delete_assets (now : Int) (refuses : PathBuf → Bool) (caller : String)
    (asset_ids : List String) :
    (s.delete_assets env now refuses caller asset_ids).disk =
      (process_deletes now env.roots refuses caller asset_ids s.lib s.disk).2.2 := by
  unfold delete_assets
  split
  · rename_i hresult
    rw [hresult]
  · rename_i hresult
    rw [hresult]

/-- A deletion request keeps every media file but those of its assets. -/
theorem files_delete_assets {now : Int} {refuses : PathBuf → Bool} {caller : String}
    {asset_ids : List String} (hr : MediaPath r)
    (hkept : ¬ Deletes env s (.processDeletes now refuses caller asset_ids) r) :
    (s.delete_assets env now refuses caller asset_ids).disk.files r = s.disk.files r := by
  rw [disk_delete_assets]
  rcases files_process_deletes refuses asset_ids s.lib s.disk r
    with hsame | ⟨-, id, hid, data, file_entry, hresolve, hentry, hfile⟩
  · exact hsame
  · exfalso
    apply hkept
    refine ⟨id, hid, data, file_entry, hresolve, hentry, ?_⟩
    rcases hfile with hfile | hsidecar
    · exact hfile.symm
    · obtain rfl : r = sidecar_of (ofString file_entry.file) := hsidecar
      exact (eq_of_mediaPath_sidecar_of hr).symm

/-- What is not deleted explicitly stays, removals apart. -/
theorem media_next {l : Label} (hl : ∀ n refuses, l ≠ .handleRemovedFile n refuses)
    (hr : MediaPath r) (hthere : s.disk.files r ≠ none) (hdeletes : ¬ Deletes env s l r) :
    (s.next env l).disk.files r ≠ none := by
  rw [files_next]
  cases l with
  | externalWrite path bytes =>
    show s.disk.files.write path bytes r ≠ none
    rw [FileMap.write_apply]
    split
    · exact Option.some_ne_none _
    · exact hthere
  | externalRemove path =>
    show s.disk.files.remove path r ≠ none
    rw [FileMap.remove_apply, if_neg fun heq => hdeletes heq.symm]
    exact hthere
  | processDeletes now refuses caller asset_ids =>
    show (s.delete_assets env now refuses caller asset_ids).disk.files r ≠ none
    rw [files_delete_assets hr hdeletes]
    exact hthere
  | handleRemovedFile n refuses => exact absurd rfl (hl n refuses)
  | _ => exact hthere

theorem files_handleRemovedFile {n : Nat} {refuses : PathBuf → Bool} {item : IntakeItem}
    (hitem : s.removal_of n = some item) :
    (s.next env (.handleRemovedFile n refuses)).disk.files =
      (handle_removed_file refuses s.lib.store s.tree item.file s.disk).2.files := by
  show (s.process_watcher_remove n refuses).disk.files = _
  rw [files_process_watcher_remove, hitem]

theorem media_handle_removed_file (refuses : PathBuf → Bool) (store : AssetStore)
    (tree : MemoryTree) {removed : String} (disk : MediaDisk) (hr : MediaPath r)
    (hne : r ≠ ofString removed) :
    (handle_removed_file refuses store tree removed disk).2.files r = disk.files r := by
  rw [handle_removed_file_files]
  split
  · exact remove_asset_file_media refuses disk.files hr hne
  · rfl

/-- One step does no harm exactly when it has nothing to lose. -/
theorem keeps_iff (l : Label) : Keeps env s l (s.next env l) ↔ NothingToLose s l := by
  constructor
  · rintro hkeeps n refuses item rfl hitem
    have hkept := hkeeps.removal n refuses item rfl hitem
    rw [files_handleRemovedFile hitem] at hkept
    exact (handle_removed_file_keeps_iff refuses s.lib.store s.tree item.file s.disk).mp hkept
  · intro hlose
    have hkept : ∀ n refuses item, l = .handleRemovedFile n refuses → s.removal_of n = some item →
        s.disk.files item.path ≠ none →
          (s.next env l).disk.files item.path = s.disk.files item.path ∧
            (s.next env l).disk.files (sidecar_of item.path) =
              s.disk.files (sidecar_of item.path) := by
      rintro n refuses item rfl hitem
      rw [files_handleRemovedFile hitem]
      exact (handle_removed_file_keeps_iff refuses s.lib.store s.tree item.file s.disk).mpr
        (hlose n refuses item rfl hitem)
    refine ⟨hkept, fun r hr hthere hdeletes => ?_⟩
    by_cases hl : ∃ n refuses, l = .handleRemovedFile n refuses
    · obtain ⟨n, refuses, rfl⟩ := hl
      cases hitem : s.removal_of n with
      | none =>
        show (s.process_watcher_remove n refuses).disk.files r ≠ none
        rw [files_process_watcher_remove, hitem]
        exact hthere
      | some item =>
        by_cases hpath : r = item.path
        · subst hpath
          rw [(hkept n refuses item rfl hitem hthere).1]
          exact hthere
        · rw [files_handleRemovedFile hitem,
            media_handle_removed_file refuses s.lib.store s.tree s.disk hr hpath]
          exact hthere
    · exact media_next (fun n refuses heq => hl ⟨n, refuses, heq⟩) hr hthere hdeletes

/-! ## Runs -/

open LTS

/-- In a run whose removals have nothing to lose, a media file that vanishes has been deleted by
somebody. -/
theorem vanished_of_deleted {s : Background} {labels : List Label}
    (hlose : ∀ done l, done ++ [l] <+: labels → NothingToLose (run (next env) s done) l)
    {before between : List Label} (hpre : before ++ between <+: labels)
    (hr : MediaPath r) (hthere : (run (next env) s before).disk.files r ≠ none) :
    (run (next env) s (before ++ between)).disk.files r ≠ none ∨
      ∃ mid l, mid ++ [l] <+: between ∧ Deletes env (run (next env) s (before ++ mid)) l r := by
  rw [run_append]
  apply run_induction (Q := fun done (t : Background) => t.disk.files r ≠ none ∨
    ∃ mid l, mid ++ [l] <+: done ∧ Deletes env (run (next env) s (before ++ mid)) l r)
  · exact Or.inl hthere
  · intro done l hdone hsofar
    rw [← run_append] at hsofar ⊢
    rcases hsofar with hkept | ⟨mid, l', hmid, hdeletes⟩
    · by_cases hdeletes : Deletes env (run (next env) s (before ++ done)) l r
      · exact Or.inr ⟨done, l, List.prefix_refl _, hdeletes⟩
      -- the step is one of the run, so it does no harm
      have hstep : (before ++ done) ++ [l] <+: labels := by
        rw [List.append_assoc]
        exact ((List.prefix_append_right_inj before).mpr hdone).trans hpre
      have hkeeps : Keeps env _ l _ := (keeps_iff l).mpr (hlose _ l hstep)
      exact Or.inl (hkeeps.media r hr hkept hdeletes)
    · exact Or.inr ⟨mid, l', hmid.trans (List.prefix_append done [l]), hdeletes⟩

/-- Every step of a run keeps what it has to keep exactly when every removal that is run has nothing
to lose; and then media files vanish only when somebody removes them or a user deletes their
asset. -/
theorem background_removal_keeps_iff (env : WatchEnv) (s : Background) (labels : List Label) :
    ((∀ done l, done ++ [l] <+: labels →
        Keeps env (run (next env) s done) l (next env (run (next env) s done) l)) ↔
      ∀ done l, done ++ [l] <+: labels → NothingToLose (run (next env) s done) l) ∧
    ((∀ done l, done ++ [l] <+: labels → NothingToLose (run (next env) s done) l) →
      ∀ before between r, before ++ between <+: labels → MediaPath r →
        (run (next env) s before).disk.files r ≠ none →
        (run (next env) s (before ++ between)).disk.files r = none →
        ∃ mid l, mid ++ [l] <+: between ∧ Deletes env (run (next env) s (before ++ mid)) l r) := by
  constructor
  · constructor
    · intro hkeeps done l hpre
      exact (keeps_iff l).mp (hkeeps done l hpre)
    · intro hlose done l hpre
      exact (keeps_iff l).mpr (hlose done l hpre)
  · intro hlose before between r hpre hr hthere hgone
    rcases vanished_of_deleted hlose hpre hr hthere with hkept | hdeleted
    · exact absurd hgone hkept
    · exact hdeleted

/-- A library with one photo, in the tree. -/
def watchedSea : Background where
  disk :=
    { files := fun r => if r = ofString "/photos/trip/sea.jpg" then some ⟨#[1]⟩ else none
      compressed := fun _ => none }
  lib := tripLibrary
  tree := build_from_asset_tables 0 (fun _ => 0) tripLibrary.store.tables
  pool := ∅
  timers := []
  removals := []
  intake := ⟨∅, []⟩
  jobs := []
  writes := []

def watchEnv : WatchEnv where
  roots := photosRoots
  to_lowercase := id
  infer _ := some "jpg"

/-- The photo is removed, and the removal comes through the queue. -/
def seaRemoved : List Label :=
  [.externalRemove (ofString "/photos/trip/sea.jpg"),
    .watcherEvent .remove "/photos/trip/sea.jpg" 0, .submitWatcherRemove 0]

/-- Nobody puts the photo back. -/
theorem background_removal_keeps_sea :
    let labels := seaRemoved ++ [.dispatchItem 0 none, .handleRemovedFile 0 fun _ => false]
    (run (next watchEnv) watchedSea labels).disk.files (ofString "/photos/trip/sea.jpg") = none ∧
      ∀ done l, done ++ [l] <+: labels →
        Keeps watchEnv (run (next watchEnv) watchedSea done) l
          (next watchEnv (run (next watchEnv) watchedSea done) l) := by
  intro labels
  refine ⟨by decide +kernel, (background_removal_keeps_iff watchEnv watchedSea labels).1.mpr ?_⟩
  have hother : ∀ (s : Background) l, (∀ n refuses, l ≠ .handleRemovedFile n refuses) →
      NothingToLose s l :=
    fun s l hl n refuses item heq => absurd heq (hl n refuses)
  simp only [labels, seaRemoved, List.cons_append, List.nil_append,
    forall_step_cons (C := NothingToLose), forall_step_nil (C := NothingToLose)]
  refine ⟨hother _ _ (by simp), hother _ _ (by simp), hother _ _ (by simp), hother _ _ (by simp),
    ?_, trivial⟩
  intro n refuses item hl hitem _
  obtain ⟨rfl, rfl⟩ := Label.handleRemovedFile.inj hl
  left
  have hgone :
      ((run (next watchEnv) watchedSea (seaRemoved ++ [.dispatchItem 0 none])).removal_of 0).map
      (fun item => (run (next watchEnv) watchedSea (seaRemoved ++ [.dispatchItem 0 none])).disk.files
        item.path) = some none := by decide +kernel
  rw [show (run (next watchEnv) watchedSea (seaRemoved ++ [.dispatchItem 0 none])).removal_of 0 =
    some item from hitem] at hgone
  exact Option.some.inj hgone

/-- The photo is put back before a worker gets to its removal, and is deleted; the event of the new
file still waits in the debounce pool. So is a photo that a scan has indexed again, because the
generation of its path is released and the next scan draws the one of the old removal. -/
theorem file_put_back_deleted :
    let path := ofString "/photos/trip/sea.jpg"
    let put_back := run (next watchEnv) watchedSea (seaRemoved ++
      [.externalWrite path ⟨#[2]⟩, .watcherEvent .create "/photos/trip/sea.jpg" 1,
        .dispatchItem 0 none])
    let indexed := run (next watchEnv) watchedSea (seaRemoved ++
      [.externalWrite path ⟨#[2]⟩, .submitScan "/photos/trip/sea.jpg" 0 {}, .dispatchItem 1 none,
        .processFile 0 [] fun _ => none, .releaseGeneration 0,
        .submitScan "/photos/trip/sea.jpg" 1 {}, .dispatchItem 0 none])
    put_back.disk.files path = some ⟨#[2]⟩ ∧
      (put_back.next watchEnv (.handleRemovedFile 0 fun _ => false)).disk.files path = none ∧
      indexed.disk.files path = some ⟨#[2]⟩ ∧
      (indexed.next watchEnv (.handleRemovedFile 0 fun _ => false)).disk.files path = none := by
  decide +kernel

end Background
