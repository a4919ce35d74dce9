import Picasu.Framework.Result
import Picasu.Framework.Run
import Picasu.Tasks.Writer

/-! # Starting an Index Job

There is one index job at a time. `index_album_with_root` checks its arguments, takes the status
slot if no job is running, enters itself as the active job, empties the tables if it is asked to,
and leaves the rest to a task of its own. That task resets the slot when it is done; nobody else
does.

An argument that is refused, and a job that finds another one running, leave the slot alone. The
tables are emptied after the slot is taken. If that fails, the call returns an error, the task is
never started, and the slot says "running" from then on: no later job starts (`stuck_run`,
`failed_clear_blocks`).
-/

open PathBuf LTS

inductive AlbumIndexState where
  | idle
  | running
  | completed
  | canceled
  | failed
  deriving DecidableEq, Repr

/-- `AlbumIndexStatus`, with its defaults. -/
structure AlbumIndexStatus where
  state : AlbumIndexState := .idle
  root : Option String := none
  scanned : Nat := 0
  matched : Nat := 0
  processed : Nat := 0
  failed : Nat := 0
  failed_paths : List String := []
  started_at : Option Int := none
  finished_at : Option Int := none
  cancel_requested : Bool := false
  deriving DecidableEq, Repr

structure IndexStatusSlot where
  job_id : Nat
  status : AlbumIndexStatus
  deriving DecidableEq, Repr

/-- What `index_album_with_root` finds in its environment. -/
structure IndexEnv where
  /-- The configured roots. -/
  roots : Roots
  /-- `Path::is_dir`. -/
  is_dir : PathBuf → Bool
  data_path : PathBuf
  current_dir : PathBuf
  now : Int
  /-- How `clear_all_asset_tables_drop` ends, with the text of its error. -/
  drop_tables : Except String Unit

/-- The server, as far as index jobs are concerned. -/
structure Indexer where
  /-- `NEXT_JOB_ID`. -/
  next_job_id : Nat
  /-- `INDEX_STATUS`. -/
  slot : IndexStatusSlot
  /-- `ACTIVE_INDEX`: the job whose cancel flag it holds. -/
  active : Option Nat
  /-- The cancel flags. -/
  cancel : Nat → Bool
  /-- The tasks that were started and have not finished, with their roots. -/
  tasks : List (Nat × List PathBuf)
  lib : Library
  /-- `TREE.in_memory`. -/
  tree : MemoryTree

/-! ## The checks -/

/-- `str::trim_start_matches`, with one character. -/
def trim_start_matches (c : Char) (s : String) : String :=
  String.ofList (s.toList.dropWhile (· == c))

/-- The directory error of `resolve_scan_roots`. -/
def not_a_directory (shown : String) : AppError :=
  .new .invalidInput ("Path does not exist or is not a directory: " ++ shown)

def resolve_scan_roots (env : IndexEnv) (src : String) (image_root : PathBuf)
    (root : Option String) : Except AppError (List PathBuf) :=
  let users_root := env.roots.users_home
  let trimmed := Text.trim src
  let mode := root.getD "auto"
  let global_only := mode == "global"
  let personal_only := mode == "personal"
  if trimmed = "/" ∨ trimmed = "" then
    let roots := (if personal_only then [] else [image_root]) ++
      (if global_only then [] else users_root.toList)
    if roots = [] then
      .error (.new .invalidInput "Personal areas are disabled (users_home unset)")
    else
      match roots.find? fun r => !env.is_dir r with
      | some r => .error (not_a_directory (display r))
      | none => .ok roots
  else
    let trimmed_rel := trim_start_matches '/' trimmed
    let img_candidate := join image_root (ofString trimmed_rel)
    let usr_candidate := (users_root.map fun u => join u (ofString trimmed_rel)).filter env.is_dir
    if personal_only then
      match usr_candidate with
      | some usr_candidate => .ok [usr_candidate]
      | none => .error (not_a_directory trimmed_rel)
    else if env.is_dir img_candidate then .ok [img_candidate]
    else if global_only then .error (not_a_directory (display img_candidate))
    else
      match usr_candidate with
      | some usr_candidate => .ok [usr_candidate]
      | none => .error (not_a_directory (display img_candidate))

def internal_subtree_roots (env : IndexEnv) : List PathBuf :=
  let data_root := (env.roots.fs.canonicalize env.data_path).getD
    (if is_absolute env.data_path then env.data_path else join env.current_dir env.data_path)
  ["object", "db"].map fun name =>
    let path := join data_root (ofString name)
    (env.roots.fs.canonicalize path).getD path

def is_inside_internal_subtree (path : PathBuf) (internal_roots : List PathBuf) : Bool :=
  internal_roots.any fun internal => path == internal || starts_with path internal

/-- The first part of `index_album_with_root`: the roots to scan. -/
def checked_roots (env : IndexEnv) (src : String) (root : Option String) :
    Except AppError (List PathBuf) := do
  match root with
  | some r =>
    if r ∉ ["global", "personal", "auto"] then
      throw (.new .invalidInput ("Unknown scan root selector: " ++ r))
  | none => pure ()
  let some image_root := env.roots.image_home
    | throw (.new .invalidInput "No imagePath configured to scan")
  let scan_roots ← resolve_scan_roots env src image_root root
  if scan_roots.any fun root => is_inside_internal_subtree root (internal_subtree_roots env) then
    throw (.new .invalidInput "Cannot index Picasu internal data directories")
  return scan_roots

namespace Indexer

variable (s : Indexer)

/-! ## The calls -/

/-- `clear_asset_tables_and_caches`. A transaction that is not committed leaves the tables as they
were. -/
def clear_asset_tables_and_caches (env : IndexEnv) : Except AppError Unit × Indexer :=
  match env.drop_tables with
  | .error text => (.error (.new .internal text), s)
  | .ok () => (.ok (), { s with lib := ⟨.empty, ∅⟩, tree := [] })

def begun (env : IndexEnv) (src : String) : AlbumIndexStatus :=
  { state := .running, root := some src, started_at := some env.now }

def index_album_with_root (env : IndexEnv) (src : String) (clear : Bool) (root : Option String) :
    Except AppError Unit × Indexer :=
  match checked_roots env src root with
  | .error e => (.error e, s)
  | .ok scan_roots =>
    -- the id is drawn before the slot is looked at
    let job_id := s.next_job_id
    let s := { s with next_job_id := job_id + 1 }
    if s.slot.status.state = .running then
      (.error (.new .conflict "An index job is already running"), s)
    else
      let s :=
        { s with
          slot := ⟨job_id, begun env src⟩
          active := some job_id
          cancel := Function.update s.cancel job_id false }
      let (cleared, s) := if clear then s.clear_asset_tables_and_caches env else (.ok (), s)
      match cleared with
      -- an error returns with the slot already taken
      | .error e => (.error e, s)
      | .ok () => (.ok (), { s with tasks := (job_id, scan_roots) :: s.tasks })

def update_status (job_id : Nat) (update : AlbumIndexStatus → AlbumIndexStatus) : Indexer :=
  if s.slot.job_id = job_id then
    { s with slot := { s.slot with status := update s.slot.status } }
  else s

def note_file_failed (job_id : Nat) (path : Option String) : Indexer :=
  s.update_status job_id fun status =>
    { status with
      failed := status.failed + 1
      failed_paths :=
        if status.failed_paths.length < 1000 then status.failed_paths ++ path.toList
        else status.failed_paths }

def did_every_matched_file_fail (job_id : Nat) : Bool :=
  s.slot.job_id == job_id && decide (0 < s.slot.status.matched) &&
    s.slot.status.processed == 0 && decide (s.slot.status.matched ≤ s.slot.status.failed)

def finish_job (job_id : Nat) (state : AlbumIndexState) (now : Int) : Indexer :=
  let s := s.update_status job_id fun status => { status with state, finished_at := some now }
  { s with active := s.active.filter fun job => job != job_id }

def request_cancel (status : AlbumIndexStatus) : AlbumIndexStatus :=
  if status.state = .running then { status with cancel_requested := true } else status

def cancel_album_index : Except AppError Unit × Indexer :=
  match s.active with
  | none => (.error (.new .notFound "No active index job"), s)
  | some job_id =>
    let s := { s with cancel := Function.update s.cancel job_id true }
    (.ok (), s.update_status job_id request_cancel)

/-! ## A refused start -/

section Refused

variable {s} {env : IndexEnv} {src : String} {root : Option String}

/-- What a start leaves behind that finds its arguments in order and no job running. It fails if the
tables are to be emptied and cannot be. -/
theorem start_taken {scan_roots : List PathBuf}
    (hroots : checked_roots env src root = .ok scan_roots) (hfree : s.slot.status.state ≠ .running)
    (clear : Bool) :
    (s.index_album_with_root env src clear root).2.slot = ⟨s.next_job_id, begun env src⟩ ∧
      (s.index_album_with_root env src clear root).2.active = some s.next_job_id ∧
      ((∃ e, (s.index_album_with_root env src clear root).1 = .error e) ↔
        ¬ (clear = false ∨ env.drop_tables = .ok ())) := by
  unfold index_album_with_root clear_asset_tables_and_caches
  simp only [hroots, if_neg hfree]
  cases clear with
  | false => exact ⟨rfl, rfl, by simp⟩
  | true =>
    cases env.drop_tables with
    | error text | ok _ => exact ⟨rfl, rfl, by simp⟩

theorem start_refused
    (h : (∃ e, checked_roots env src root = .error e) ∨ s.slot.status.state = .running)
    (clear : Bool) :
    (∃ e, (s.index_album_with_root env src clear root).1 = .error e) ∧
      (s.index_album_with_root env src clear root).2.slot = s.slot ∧
      (s.index_album_with_root env src clear root).2.active = s.active ∧
      (s.index_album_with_root env src clear root).2.tasks = s.tasks := by
  unfold index_album_with_root
  cases hroots : checked_roots env src root with
  | error e => exact ⟨⟨e, rfl⟩, rfl, rfl, rfl⟩
  | ok scan_roots =>
    have hrunning : s.slot.status.state = .running := by
      rcases h with ⟨e, he⟩ | hrunning
      · rw [hroots] at he
        cases he
      · exact hrunning
    dsimp only
    rw [if_pos hrunning]
    exact ⟨⟨_, rfl⟩, rfl, rfl, rfl⟩

/-- Whether a start is refused depends on the slot, not on the rest. -/
theorem start_result_congr {s' : Indexer} (hslot : s'.slot = s.slot) (clear : Bool) :
    (s'.index_album_with_root env src clear root).1 =
      (s.index_album_with_root env src clear root).1 := by
  unfold index_album_with_root clear_asset_tables_and_caches
  cases checked_roots env src root with
  | error e => rfl
  | ok scan_roots =>
    dsimp only
    rw [hslot]
    split
    · rfl
    cases clear with
    | false => rfl
    | true =>
      cases env.drop_tables with
      | error text => rfl
      | ok _ => rfl

end Refused

/-- For every state and every argument: a start that returns an error leaves the slot and the active
job as they were, and any later start to the result it would have had, exactly if its arguments
are refused, a job is running, the tables are not to be emptied, or they can be. -/
theorem refused_start_iff (env : IndexEnv) (src : String) (clear : Bool) (root : Option String) :
    (∀ e, (s.index_album_with_root env src clear root).1 = .error e →
      (s.index_album_with_root env src clear root).2.slot = s.slot ∧
      (s.index_album_with_root env src clear root).2.active = s.active ∧
      ∀ env' src' clear' root',
        ((s.index_album_with_root env src clear root).2.index_album_with_root
            env' src' clear' root').1 =
          (s.index_album_with_root env' src' clear' root').1) ↔
    ((∃ e, checked_roots env src root = .error e) ∨ s.slot.status.state = .running ∨
      clear = false ∨ env.drop_tables = .ok ()) := by
  by_cases hearly : (∃ e, checked_roots env src root = .error e) ∨ s.slot.status.state = .running
  · obtain ⟨-, hslot, hactive, -⟩ := start_refused hearly clear
    refine iff_of_true
      (fun _ _ => ⟨hslot, hactive, fun _ _ clear' _ => start_result_congr hslot clear'⟩) ?_
    rcases hearly with hargs | hrunning
    · exact Or.inl hargs
    · exact Or.inr (Or.inl hrunning)
  · rw [not_or] at hearly
    obtain ⟨hargs, hfree⟩ := hearly
    cases hroots : checked_roots env src root with
    | error e => exact absurd ⟨e, hroots⟩ hargs
    | ok scan_roots =>
      obtain ⟨hslot, -, herror⟩ := start_taken hroots hfree clear
      by_cases hok : clear = false ∨ env.drop_tables = .ok ()
      · exact iff_of_true (fun e he => absurd hok (herror.mp ⟨e, he⟩)) (Or.inr (Or.inr hok))
      obtain ⟨e, he⟩ := herror.mpr hok
      refine iff_of_false (fun h => ?_) ?_
      · have hsame := (h e he).1
        rw [hslot] at hsame
        exact hfree (congrArg (fun slot => slot.status.state) hsame.symm)
      · rintro (⟨e, he⟩ | hrunning | hok')
        · cases he
        · exact hfree hrunning
        · exact hok hok'

/-! ## A slot that nobody resets -/

/-- A step of the server that touches the slot. -/
inductive Label where
  | start (env : IndexEnv) (src : String) (clear : Bool) (root : Option String)
  | cancel
  /-- A job has looked at a file. -/
  | scanned (job_id : Nat)
  | matched (job_id : Nat)
  /-- A worker has indexed a file of a job, or failed to. -/
  | processed (job_id : Nat)
  | failed (job_id : Nat) (path : Option String)
  /-- The task of a job comes to its end. -/
  | finish (job_id : Nat) (now : Int)

/-- The server after a step. Only a task that was started comes to its end. -/
def step : Label → Indexer
  | .start env src clear root => (s.index_album_with_root env src clear root).2
  | .cancel => s.cancel_album_index.2
  | .scanned job_id =>
    s.update_status job_id fun status => { status with scanned := status.scanned + 1 }
  | .matched job_id =>
    s.update_status job_id fun status => { status with matched := status.matched + 1 }
  | .processed job_id =>
    s.update_status job_id fun status => { status with processed := status.processed + 1 }
  | .failed job_id path => s.note_file_failed job_id path
  | .finish job_id now =>
    if job_id ∈ s.tasks.map Prod.fst then
      let state : AlbumIndexState :=
        if s.cancel job_id then .canceled
        else if s.did_every_matched_file_fail job_id then .failed
        else .completed
      { s.finish_job job_id state now with tasks := s.tasks.filter fun task => task.1 != job_id }
    else s

/-- The slot says that a job is running, and no task is at work for it. -/
structure Stuck : Prop where
  running : s.slot.status.state = .running
  no_task : s.slot.job_id ∉ s.tasks.map Prod.fst

section Stuck

variable {s}

theorem Stuck.start_refused (h : Stuck s) (env : IndexEnv) (src : String) (clear : Bool)
    (root : Option String) :
    ∃ e, (s.index_album_with_root env src clear root).1 = .error e :=
  (Indexer.start_refused (Or.inr h.running) clear).1

/-- Counting does not end a job. -/
theorem Stuck.update_status (h : Stuck s) (job_id : Nat)
    (update : AlbumIndexStatus → AlbumIndexStatus)
    (hupdate : ∀ status, (update status).state = status.state) :
    Stuck (s.update_status job_id update) := by
  unfold Indexer.update_status
  split
  · exact ⟨(hupdate _).trans h.running, h.no_task⟩
  · exact h

theorem state_request_cancel (status : AlbumIndexStatus) :
    (request_cancel status).state = status.state := by
  unfold request_cancel
  split
  · rfl
  · rfl

theorem Stuck.cancel_album_index (h : Stuck s) : Stuck s.cancel_album_index.2 := by
  unfold Indexer.cancel_album_index
  split
  · exact h
  rename_i job_id _
  have hflag : Stuck { s with cancel := Function.update s.cancel job_id true } :=
    ⟨h.running, h.no_task⟩
  exact hflag.update_status job_id request_cancel state_request_cancel

/-- The tasks that come to an end are those of other jobs. -/
theorem Stuck.finish (h : Stuck s) (job_id : Nat) (now : Int) :
    Stuck (s.step (.finish job_id now)) := by
  unfold Indexer.step
  dsimp only
  split
  · rename_i htask
    -- the job in the slot has no task, so it is not its own that ends
    have hother : s.slot.job_id ≠ job_id := fun heq => h.no_task (heq ▸ htask)
    unfold finish_job Indexer.update_status
    rw [if_neg hother]
    refine ⟨h.running, fun hmem => h.no_task ?_⟩
    exact ((List.filter_sublist).map Prod.fst).subset hmem
  · exact h

theorem Stuck.step (h : Stuck s) (l : Label) : Stuck (s.step l) := by
  cases l with
  | start env src clear root =>
    -- the slot says running, so every start is refused
    have hkeep : _ ∧ (s.index_album_with_root env src clear root).2.slot = s.slot ∧ _ ∧
        (s.index_album_with_root env src clear root).2.tasks = s.tasks :=
      Indexer.start_refused (Or.inr h.running) clear
    obtain ⟨-, hslot, -, htasks⟩ := hkeep
    unfold Indexer.step
    refine ⟨?_, ?_⟩
    · rw [hslot]
      exact h.running
    · rw [hslot, htasks]
      exact h.no_task
  | cancel => exact h.cancel_album_index
  | scanned job_id | matched job_id | processed job_id =>
    unfold Indexer.step
    exact h.update_status job_id _ fun _ => rfl
  | failed job_id path =>
    unfold Indexer.step note_file_failed
    exact h.update_status job_id _ fun _ => rfl
  | finish job_id now => exact h.finish job_id now

/-- Once stuck, the server starts no job any more. -/
theorem stuck_run (h : Stuck s) (labels : List Label) : Stuck (run step s labels) :=
  run_invariant (I := Stuck) h fun _ l _ h => h.step l

/-- A start that could not empty the tables leaves the server stuck. -/
theorem stuck_of_failed_clear {env : IndexEnv} {src : String} {root : Option String}
    {scan_roots : List PathBuf} (hroots : checked_roots env src root = .ok scan_roots)
    (hfree : s.slot.status.state ≠ .running) (hfresh : s.next_job_id ∉ s.tasks.map Prod.fst)
    {text : String} (hdrop : env.drop_tables = .error text) :
    Stuck (s.index_album_with_root env src true root).2 := by
  unfold index_album_with_root clear_asset_tables_and_caches
  simp only [hroots, if_neg hfree, hdrop, if_true]
  exact ⟨rfl, hfresh⟩

end Stuck

/-- A new server. -/
def empty : Indexer where
  next_job_id := 1
  slot := ⟨0, {}⟩
  active := none
  cancel := fun _ => false
  tasks := []
  lib := ⟨.empty, ∅⟩
  tree := []

/-- A server whose image home is `/img` and whose data is in `/data`. -/
def plain_env (drop_tables : Except String Unit) : IndexEnv where
  roots := ⟨⟨some, fun _ => true⟩, some (ofString "/img"), none⟩
  is_dir := fun _ => true
  data_path := ofString "/data"
  current_dir := ofString "/"
  now := 1700000000000
  drop_tables := drop_tables

/-- A scan with an unknown selector is refused, and the next one starts. -/
theorem refused_start_selector :
    let s := (empty.index_album_with_root (plain_env (.ok ())) "/" true (some "all")).2
    s.slot = empty.slot ∧ s.active = empty.active ∧
      (s.index_album_with_root (plain_env (.ok ())) "/" true none).1 = .ok () := by
  intro s
  have hkeep := (empty.refused_start_iff (plain_env (.ok ())) "/" true (some "all")).mpr
    (Or.inr (Or.inr (Or.inr rfl))) (.new .invalidInput "Unknown scan root selector: all") rfl
  exact ⟨hkeep.1, hkeep.2.1, (hkeep.2.2 _ _ _ _).trans rfl⟩

/-- The tables of an idle server cannot be emptied. The scan that asked for it fails, and every scan
after it is refused, whatever happens in between. -/
theorem failed_clear_blocks :
    let text := "begin write for asset table drop: I/O error"
    let s := (empty.index_album_with_root (plain_env (.error text)) "/" true none).2
    (empty.index_album_with_root (plain_env (.error text)) "/" true none).1 =
        .error (.new .internal text) ∧
      s.slot.status.state = .running ∧ s.active = some 1 ∧
      (s.index_album_with_root (plain_env (.ok ())) "/" false none).1 =
        .error (.new .conflict "An index job is already running") ∧
      ∀ labels env src clear root,
        ∃ e, ((run step s labels).index_album_with_root env src clear root).1 = .error e := by
  intro text s
  have hroots : checked_roots (plain_env (.error text)) "/" none = .ok [ofString "/img"] := rfl
  have hstuck : Stuck s := stuck_of_failed_clear hroots (by decide) (by decide) rfl
  exact ⟨rfl, rfl, rfl, rfl, fun labels env src clear root =>
    (stuck_run hstuck labels).start_refused env src clear root⟩

end Indexer
