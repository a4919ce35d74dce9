import Picasu.Error
import Picasu.Framework.FileMap
import Picasu.Framework.UndoLog
import Picasu.Model.AbstractData

/-! # Committing Metadata Edits

The file with its sidecar is the source of truth and `METADATA_TABLE` is a cache of it, so an edit
request writes the sidecars of all its items before it stores any of them (`commit_with`). A
sidecar that cannot be read or written fails the request, after the sidecars written so far have
been put back.

Both file accesses can fail, and the writer is an argument of the code. `SidecarIo` is what
happens to the accesses of one request, `n` being the position of an item in it. Putting a sidecar
back always succeeds here; where it does not, the code only logs.

* a request that fails in its write phase leaves every file but temporary ones as it was, and
  calls `store` for nothing;
* before the first call of `store`, every sidecar has been written.
-/

open PathBuf

variable {B σ : Type}

/-- `EditedItem`, with the trash flag its store is called with. -/
structure EditedItem where
  asset_id : String
  data : AbstractData
  trash : Option Bool

/-! ## The sidecar of an item -/

/-- `sidecar_path`: nothing for media without a path. -/
def sidecar_path : AbstractData → Option PathBuf
  | .album album => some (join (ofString album.metadata.dir_path) [.normal ".albuminfo.xmp"])
  | data => data.path.map fun file_entry => with_extension (ofString file_entry.file) "xmp"

/-- The temporary file a sidecar is staged in. -/
def temp_path (target : PathBuf) : PathBuf :=
  join ((parent target).getD [.curDir])
    [.normal ("." ++ (file_name target).getD "xmp" ++ ".tmp")]

def write_bytes_atomically (target : PathBuf) (bytes : B) (files : FileMap B) : FileMap B :=
  (files.write (temp_path target) bytes).rename (temp_path target) target

/-! ## Backups -/

/-- `SidecarBackup`: what a sidecar held before it was written, nothing when it did not exist. -/
structure SidecarBackup (B : Type) where
  path : PathBuf
  previous : Option B

/-- `AppError::from_err` of an I/O error, with one line of context. -/
def AppError.io (err context : String) : AppError :=
  { AppError.new .io err with context := [context] }

/-- `SidecarBackup::capture`; `unreadable` is the error of reading the sidecar, if there is one. -/
def SidecarBackup.capture (unreadable : Option String) (item : EditedItem) (files : FileMap B) :
    Except AppError (Option (SidecarBackup B)) :=
  match sidecar_path item.data with
  | none => .ok none
  | some path =>
    match unreadable with
    | none => .ok (some ⟨path, files path⟩)
    | some err =>
      .error (.io err ("the previous " ++ display path ++ " could not be read, so the edit of " ++
        "asset " ++ item.asset_id ++ " cannot be written safely"))

def SidecarBackup.restore (backup : SidecarBackup B) (files : FileMap B) : FileMap B :=
  match backup.previous with
  | some bytes => write_bytes_atomically backup.path bytes files
  | none => files.remove backup.path

/-- `rollback`: the last write is undone first. -/
def rollback (applied : List (SidecarBackup B)) (files : FileMap B) : FileMap B :=
  UndoLog.undo SidecarBackup.restore applied files

/-! ## The commit -/

/-- What happens to the file accesses of a request. -/
structure SidecarIo (B : Type) where
  /-- The error of reading the sidecar of the `n`-th item. An absent sidecar is no error. -/
  unreadable : Nat → Option String
  /-- The outcome of the `write` argument on the `n`-th item. -/
  write : Nat → AbstractData → FileMap B → Except String Unit × FileMap B

/-- The calls that a commit makes, by the position of their item. -/
inductive CommitEvent where
  /-- `write` returned with success. -/
  | wrote (n : Nat)
  /-- `store` was called. -/
  | stored (n : Nat)
  deriving DecidableEq, Repr

/-- The files, whatever `store` writes to, and the calls made so far. -/
structure CommitState (B σ : Type) where
  files : FileMap B
  db : σ
  events : List CommitEvent

/-- The first loop of `commit_with`, from the `n`-th item on. -/
def write_phase (io : SidecarIo B) : Nat → List EditedItem → List (SidecarBackup B) →
    CommitState B σ → Except AppError Unit × CommitState B σ
  | _, [], _, s => (.ok (), s)
  | n, item :: items, applied, s =>
    match SidecarBackup.capture (io.unreadable n) item s.files with
    | .error err => (.error err, { s with files := rollback applied s.files })
    | .ok none => write_phase io (n + 1) items applied s
    | .ok (some backup) =>
      match io.write n item.data s.files with
      | (.error err, files) =>
        (.error (.io err ("the edit of asset " ++ item.asset_id ++ " was not written to " ++
            display backup.path ++ " and has not been stored")),
          { s with files := rollback applied files })
      | (.ok _, files) =>
        write_phase io (n + 1) items (applied ++ [backup])
          { s with files, events := s.events ++ [.wrote n] }

/-- The second loop of `commit_with`, from the `n`-th item on. -/
def store_phase (store : String → AbstractData → σ → Except AppError Unit × σ) :
    Nat → List EditedItem → CommitState B σ → Except AppError Unit × CommitState B σ
  | _, [], s => (.ok (), s)
  | n, item :: items, s =>
    match store item.asset_id item.data s.db with
    | (.error err, db) => (.error err, { s with db, events := s.events ++ [.stored n] })
    | (.ok _, db) => store_phase store (n + 1) items { s with db, events := s.events ++ [.stored n] }

def commit_with (io : SidecarIo B) (store : String → AbstractData → σ → Except AppError Unit × σ)
    (items : List EditedItem) (s : CommitState B σ) : Except AppError Unit × CommitState B σ :=
  match write_phase io 0 items [] s with
  | (.error err, s) => (.error err, s)
  | (.ok _, s) => store_phase store 0 items s

/-! ## Lasting files -/

/-- The files that count: all but the temporary ones. -/
def Lasting (p : PathBuf) : Prop := ∀ target, p ≠ temp_path target

/-- A path that is named like a sidecar, or not named at all, lasts. -/
theorem lasting_of_file_name {p : PathBuf}
    (h : ∀ name, file_name p = some name → ∃ stem, name = stem ++ ".xmp") : Lasting p := by
  rintro target rfl
  obtain ⟨stem, hstem⟩ := h _ (file_name_join_normal _ _)
  have hchars := congrArg String.toList hstem
  simp only [String.toList_append] at hchars
  have hext := List.append_inj_right' hchars (by decide)
  exact absurd hext (by decide)

theorem file_name_sidecar_path {data : AbstractData} {q : PathBuf} {name : String}
    (h : sidecar_path data = some q) (hname : file_name q = some name) :
    ∃ stem, name = stem ++ ".xmp" := by
  have hmedia : ∀ p, q = with_extension p "xmp" → ∃ stem, name = stem ++ ".xmp" := by
    rintro p rfl
    cases hstem : file_stem p with
    | none =>
      rw [file_name_with_extension_none hstem] at hname
      cases hname
    | some stem =>
      rw [file_name_with_extension hstem] at hname
      refine ⟨stem, ?_⟩
      rw [← Option.some.inj hname, String.append_assoc]
      rfl
  cases data with
  | image img | video vid =>
    obtain ⟨e, -, rfl⟩ := Option.map_eq_some_iff.mp h
    exact hmedia _ rfl
  | album alb =>
    obtain rfl := Option.some.inj h
    rw [file_name_join_normal] at hname
    exact ⟨".albuminfo", (Option.some.inj hname).symm⟩

/-- No sidecar is the temporary file of another one. -/
theorem lasting_sidecar_path {data : AbstractData} {q : PathBuf}
    (h : sidecar_path data = some q) : Lasting q :=
  lasting_of_file_name fun _ hname => file_name_sidecar_path h hname

theorem write_bytes_atomically_apply (target : PathBuf) (bytes : B) (files : FileMap B)
    {p : PathBuf} (hp : Lasting p) :
    write_bytes_atomically target bytes files p = if p = target then some bytes else files p := by
  have hstaged : files.write (temp_path target) bytes (temp_path target) = some bytes := by
    rw [FileMap.write_apply, if_pos rfl]
  unfold write_bytes_atomically
  rw [FileMap.rename_apply hstaged, if_neg (hp target), FileMap.write_apply, if_neg (hp target)]

/-- Restoring a backup puts its sidecar back and touches no other file that lasts. -/
theorem restores_backup :
    UndoLog.Restores {p | Lasting p} SidecarBackup.path SidecarBackup.previous
      (SidecarBackup.restore (B := B)) := by
  rintro ⟨path, previous⟩ files p hp
  cases previous with
  | none => exact FileMap.remove_apply path files p
  | some bytes => exact write_bytes_atomically_apply path bytes files hp

/-! ## The write phase -/

/-- What the code assumes of the writer. Temporary files may remain. -/
structure SidecarIo.Safe (io : SidecarIo B) : Prop where
  /-- A failed write leaves the files as they were. -/
  failed : ∀ n data files err after, io.write n data files = (.error err, after) →
    ∀ p, Lasting p → after p = files p
  /-- A successful one changes the item's own sidecar only. -/
  landed : ∀ n data files after q, sidecar_path data = some q →
    io.write n data files = (.ok (), after) → ∀ p, Lasting p → p ≠ q → after p = files p

variable {item : EditedItem} {io : SidecarIo B} {items : List EditedItem} {n : Nat}
  {applied : List (SidecarBackup B)}

theorem capture_eq_ok {unreadable : Option String} {files : FileMap B} {backup : SidecarBackup B}
    (h : SidecarBackup.capture unreadable item files = .ok (some backup)) :
    sidecar_path item.data = some backup.path ∧ backup.previous = files backup.path := by
  unfold SidecarBackup.capture at h
  split at h
  · cases h
  rename_i path hpath
  split at h
  · cases h
    exact ⟨hpath, rfl⟩
  · cases h

theorem capture_eq_ok_none {unreadable : Option String} {files : FileMap B}
    (h : SidecarBackup.capture unreadable item files = .ok none) :
    sidecar_path item.data = none := by
  unfold SidecarBackup.capture at h
  split at h
  · rename_i hpath
    exact hpath
  · split at h <;> cases h

/-- The invariant of the loop: rolling back now gives the files of the start. A failure at any later
item is then a failure without a trace. -/
theorem write_phase_error_files (hio : io.Safe) {files₀ : FileMap B} {s after : CommitState B σ}
    {err : AppError} (hundo : ∀ p, Lasting p → rollback applied s.files p = files₀ p)
    (h : write_phase io n items applied s = (.error err, after)) :
    ∀ p, Lasting p → after.files p = files₀ p := by
  induction items generalizing n applied s with
  | nil => cases h
  | cons item items ih =>
    unfold write_phase at h
    split at h
    · -- the sidecar cannot be read
      cases h
      exact hundo
    · exact ih hundo h
    · rename_i backup hcapture
      obtain ⟨hpath, hprevious⟩ := capture_eq_ok hcapture
      split at h
      · -- the write fails and has changed nothing
        rename_i e files hwrite
        cases h
        intro p hp
        have hsame := hio.failed _ _ _ _ _ hwrite
        show rollback applied files p = files₀ p
        rw [← hundo p hp]
        exact UndoLog.undo_congr restores_backup applied hsame p hp
      · -- the write lands on the sidecar that was just captured
        rename_i files hwrite
        refine ih (fun p hp => ?_) h
        have hother := hio.landed _ _ _ _ _ hpath hwrite
        rw [← hundo p hp]
        exact UndoLog.undo_logged restores_backup applied hprevious hother p hp

theorem write_phase_db (io : SidecarIo B) (items : List EditedItem) (n : Nat)
    (applied : List (SidecarBackup B)) (s : CommitState B σ) :
    (write_phase io n items applied s).2.db = s.db := by
  induction items generalizing n applied s with
  | nil => rfl
  | cons item items ih =>
    unfold write_phase
    split
    · rfl
    · exact ih _ _ _
    · split
      · rfl
      · exact ih _ _ _

theorem write_phase_events (io : SidecarIo B) (items : List EditedItem) (n : Nat)
    (applied : List (SidecarBackup B)) (s : CommitState B σ) :
    ∃ writes, (write_phase io n items applied s).2.events = s.events ++ writes ∧
      ∀ m, .stored m ∉ writes := by
  induction items generalizing n applied s with
  | nil => exact ⟨[], (List.append_nil _).symm, fun m => List.not_mem_nil⟩
  | cons item items ih =>
    unfold write_phase
    split
    · exact ⟨[], (List.append_nil _).symm, fun m => List.not_mem_nil⟩
    · exact ih _ _ _
    · split
      · exact ⟨[], (List.append_nil _).symm, fun m => List.not_mem_nil⟩
      obtain ⟨writes, hevents, hwrites⟩ := ih (n + 1) _ _
      refine ⟨.wrote n :: writes, ?_, fun m => ?_⟩
      · rw [hevents, List.append_assoc, List.singleton_append]
      · simp [hwrites m]

/-- A write phase that succeeds has written the sidecar of every item that has one. -/
theorem write_phase_ok_wrote {s after : CommitState B σ}
    (h : write_phase io n items applied s = (.ok (), after)) {m : Nat}
    (hitem : items[m]? = some item) (hpath : (sidecar_path item.data).isSome) :
    .wrote (n + m) ∈ after.events := by
  induction items generalizing n m applied s with
  | nil => cases hitem
  | cons first items ih =>
    unfold write_phase at h
    split at h
    · cases h
    · -- the first item has no sidecar: it is not the one asked for
      rename_i hcapture
      cases m with
      | zero =>
        obtain rfl := Option.some.inj hitem
        rw [capture_eq_ok_none hcapture] at hpath
        cases hpath
      | succ m =>
        have hlater := ih h hitem
        rwa [Nat.add_right_comm n 1 m] at hlater
    · split at h
      · cases h
      rename_i files hwrite
      cases m with
      | zero =>
        -- later writes only add to the events
        obtain ⟨writes, hevents, -⟩ := write_phase_events io items (n + 1) _ _
        rw [h] at hevents
        rw [hevents]
        simp
      | succ m =>
        have hlater := ih h hitem
        rwa [Nat.add_right_comm n 1 m] at hlater

theorem store_phase_events (store : String → AbstractData → σ → Except AppError Unit × σ)
    (items : List EditedItem) (n : Nat) (s : CommitState B σ) :
    ∃ stores, (store_phase store n items s).2.events = s.events ++ stores := by
  induction items generalizing n s with
  | nil => exact ⟨[], (List.append_nil _).symm⟩
  | cons item items ih =>
    unfold store_phase
    split
    · exact ⟨[.stored n], rfl⟩
    · obtain ⟨stores, hevents⟩ := ih (n + 1) _
      exact ⟨.stored n :: stores, by rw [hevents, List.append_assoc, List.singleton_append]⟩

theorem store_phase_files (store : String → AbstractData → σ → Except AppError Unit × σ)
    (items : List EditedItem) (n : Nat) (s : CommitState B σ) :
    (store_phase store n items s).2.files = s.files := by
  induction items generalizing n s with
  | nil => rfl
  | cons item items ih =>
    unfold store_phase
    split
    · rfl
    · exact ih _ _

/-- The files after a commit are those its write phase left. -/
theorem commit_with_files (io : SidecarIo B)
    (store : String → AbstractData → σ → Except AppError Unit × σ) (items : List EditedItem)
    (s : CommitState B σ) :
    (commit_with io store items s).2.files = (write_phase io 0 items [] s).2.files := by
  unfold commit_with
  split
  · rename_i hphase
    rw [hphase]
  · rename_i hphase
    rw [store_phase_files, hphase]

theorem commit_with_eq_ok {store : String → AbstractData → σ → Except AppError Unit × σ}
    {s after : CommitState B σ} (h : commit_with io store items s = (.ok (), after)) :
    ∃ written, write_phase io 0 items [] s = (.ok (), written) ∧ after.files = written.files := by
  have hfiles := commit_with_files io store items s
  rw [h] at hfiles
  unfold commit_with at h
  split at h
  · cases h
  · rename_i written hphase
    exact ⟨written, hphase, by rw [hfiles, hphase]⟩

/-! ## All or nothing -/

/-- What stands before the first `store` call includes all of the write phase. -/
theorem subset_of_append_eq {writes stores before rest : List CommitEvent}
    (hwrites : ∀ m, .stored m ∉ writes) (h : writes ++ stores = before ++ .stored n :: rest) :
    writes ⊆ before := by
  rcases List.append_eq_append_iff.mp h with ⟨more, rfl, -⟩ | ⟨more, rfl, hmore⟩
  · exact List.subset_append_left writes more
  cases more with
  | nil => simp
  | cons e more =>
    -- then the call would be part of the write phase
    have he := (List.cons.inj hmore).1
    exact absurd (by simp [← he]) (hwrites n)

/-- A commit whose write phase fails fails with that error and leaves every sidecar, and whatever
`store` writes to, as it was, without a call of `store`. One that gets further has written every
sidecar before it calls `store`. -/
theorem commit_with_all_or_nothing (io : SidecarIo B) (hio : io.Safe)
    (store : String → AbstractData → σ → Except AppError Unit × σ) (items : List EditedItem)
    (files : FileMap B) (db : σ) :
    (∀ err, (write_phase io 0 items [] ⟨files, db, []⟩).1 = .error err →
      (commit_with io store items ⟨files, db, []⟩).1 = .error err ∧
      (∀ p, Lasting p → (commit_with io store items ⟨files, db, []⟩).2.files p = files p) ∧
      (∀ data q, sidecar_path data = some q →
        (commit_with io store items ⟨files, db, []⟩).2.files q = files q) ∧
      (commit_with io store items ⟨files, db, []⟩).2.db = db ∧
      ∀ n, .stored n ∉ (commit_with io store items ⟨files, db, []⟩).2.events) ∧
    ((write_phase io 0 items [] ⟨files, db, []⟩).1 = .ok () →
      ∀ before n rest,
        (commit_with io store items ⟨files, db, []⟩).2.events = before ++ .stored n :: rest →
        ∀ m item, items[m]? = some item → (sidecar_path item.data).isSome → .wrote m ∈ before) := by
  have hdb := write_phase_db io items 0 [] ⟨files, db, []⟩
  obtain ⟨writes, hevents, hwrites⟩ := write_phase_events io items 0 [] ⟨files, db, []⟩
  rcases hphase : write_phase io 0 items [] ⟨files, db, []⟩ with ⟨result, after⟩
  rw [hphase] at hdb hevents
  cases result with
  | error err =>
    have hcommit : commit_with io store items ⟨files, db, []⟩ = (.error err, after) := by
      unfold commit_with
      rw [hphase]
    have hfiles := write_phase_error_files hio (fun p _ => rfl) hphase
    rw [hcommit]
    refine ⟨fun err' herr => ⟨herr, hfiles, ?_, hdb, ?_⟩, fun hok => nomatch hok⟩
    · exact fun data q hq => hfiles q (lasting_sidecar_path hq)
    · rw [hevents]
      exact hwrites
  | ok _ =>
    refine ⟨fun err herr => (nomatch herr), fun _ before n rest hsplit m item hitem hpath => ?_⟩
    have hcommit : commit_with io store items ⟨files, db, []⟩ = store_phase store 0 items after := by
      unfold commit_with
      rw [hphase]
    obtain ⟨stores, hstores⟩ := store_phase_events store items 0 after
    rw [hcommit, hstores, hevents, List.append_assoc] at hsplit
    have hwrote := write_phase_ok_wrote hphase hitem hpath
    rw [hevents, Nat.zero_add] at hwrote
    exact subset_of_append_eq hwrites hsplit hwrote

/-- The writer of the code's own tests: it stages a fixed content, or fails where it is told to. -/
def SidecarIo.fixed (fails : Nat → Option String) (bytes : B) : SidecarIo B where
  unreadable _ := none
  write n data files :=
    match fails n, sidecar_path data with
    | some err, _ => (.error err, files)
    | none, some q => (.ok (), write_bytes_atomically q bytes files)
    | none, none => (.ok (), files)

theorem SidecarIo.fixed_safe (fails : Nat → Option String) (bytes : B) :
    (SidecarIo.fixed fails bytes).Safe where
  failed n data files err after h p _ := by
    unfold SidecarIo.fixed at h
    dsimp only at h
    split at h
    · cases h
      rfl
    · cases h
    · cases h
  landed n data files after q hq h p hp hne := by
    unfold SidecarIo.fixed at h
    dsimp only at h
    rw [hq] at h
    cases hfails : fails n with
    | some err =>
      rw [hfails] at h
      cases h
    | none =>
      rw [hfails] at h
      cases h
      rw [write_bytes_atomically_apply q bytes files hp, if_neg hne]

def imageAt (file : String) : AbstractData :=
  .image ⟨.new 0 "" .image, { ImageMetadata.new 0 4 3 "jpg" with path := some ⟨file, 0, 0, false⟩ }⟩

/-- Two images share a sidecar; the third write fails and the shared sidecar has its first bytes
again. -/
theorem commit_with_third_write_fails :
    let io := SidecarIo.fixed (fun n => if n = 2 then some "full" else none) "edited"
    let items := ["/p/a.jpg", "/p/a.png", "/p/b.jpg"].map fun f => EditedItem.mk f (imageAt f) none
    let files := FileMap.write (ofString "/p/a.xmp") "seed" fun _ => none
    let store := fun (_ : String) (_ : AbstractData) (db : Nat) =>
      ((.ok (), db + 1) : Except AppError Unit × Nat)
    let result := write_phase io 0 items [] ⟨files, 0, []⟩
    result.1 = .error (.io "full"
        "the edit of asset /p/b.jpg was not written to /p/b.xmp and has not been stored") ∧
      result.2.events = [.wrote 0, .wrote 1] ∧
      (commit_with io store items ⟨files, 0, []⟩).2.files (ofString "/p/a.xmp") = some "seed" := by
  intro io items files store result
  have herr : result.1 = .error (.io "full"
      "the edit of asset /p/b.jpg was not written to /p/b.xmp and has not been stored") := by
    decide +kernel
  refine ⟨herr, by decide +kernel, ?_⟩
  have hsame := (commit_with_all_or_nothing io (SidecarIo.fixed_safe _ _) store items files 0).1 _ herr
  have hseed : files (ofString "/p/a.xmp") = some "seed" := by decide +kernel
  rw [← hseed]
  exact hsame.2.2.1 (imageAt "/p/a.jpg") _ (by decide +kernel)
