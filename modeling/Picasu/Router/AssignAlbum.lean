import Picasu.Framework.Result
import Picasu.Tasks.Writer

/-! # Moving Assets Between Albums

`assign_album` moves a file into the directory of another album, or a whole album directory below
it. Only the identity records change, and the path index and the directory cache with them;
content hashes, metadata and thumbnails do not depend on paths.

The file system's answers are arguments: which paths exist, which are directories, and whether a
rename succeeds. The sidecar that travels with a file is left out, and the album refreshes that
follow a move are not here (`album_task` may run at any time).

`assign_album_cases` says once what a successful request can have done.
-/

open PathBuf

inductive OnConflict where
  | skip
  | rename
  deriving DecidableEq, Repr

inductive AssignOutcome where
  | moved
  | renamedFrom
  | skipped
  deriving DecidableEq, Repr

structure AssignAlbumData where
  asset_id : String
  album_id : String
  on_conflict : OnConflict
  deriving DecidableEq, Repr

/-- What a move asks its surroundings: the configured roots with their file system, which paths are
directories, and how a rename ends. -/
structure MoveEnv where
  roots : Roots
  is_dir : PathBuf → Bool
  rename : PathBuf → PathBuf → Except String Unit

/-! ## Where a move lands -/

/-- The destination when the wanted one may be taken: nowhere, a free sibling, or the wanted one. -/
def landing (fs : Fs) (on_conflict : OnConflict) (base_dest : PathBuf) :
    Except AppError (Option PathBuf × AssignOutcome) :=
  if fs.exists_ base_dest then
    match on_conflict with
    | .skip => .ok (none, .skipped)
    | .rename => (find_unique_path fs base_dest).map fun unique => (some unique, .renamedFrom)
  else .ok (some base_dest, .moved)

variable {on_conflict : OnConflict} {outcome : AssignOutcome} {env : MoveEnv}

/-- A move lands at the wanted destination if it is free. Otherwise it is skipped, or it lands at the
free sibling that was found. -/
theorem landing_eq_ok {fs : Fs} {base_dest : PathBuf} {dest : Option PathBuf}
    (h : landing fs on_conflict base_dest = .ok (dest, outcome)) :
    (dest = none ∧ outcome = .skipped ∧ on_conflict = .skip ∧ fs.exists_ base_dest = true) ∨
      outcome ≠ .skipped ∧ ¬ (on_conflict = .skip ∧ fs.exists_ base_dest = true) ∧
        ∃ found, dest = some found ∧ ((fs.exists_ base_dest = false ∧ found = base_dest) ∨
          find_unique_path fs base_dest = .ok found) := by
  unfold landing at h
  split at h
  · rename_i hexists
    cases on_conflict with
    | skip =>
      cases h
      exact Or.inl ⟨rfl, rfl, rfl, hexists⟩
    | rename =>
      cases hunique : find_unique_path fs base_dest with
      | error e =>
        rw [hunique] at h
        cases h
      | ok unique =>
        rw [hunique] at h
        cases h
        exact Or.inr ⟨nofun, nofun, unique, rfl, Or.inr rfl⟩
  · rename_i hfree
    cases h
    exact Or.inr ⟨nofun, fun hskip => hfree hskip.2, base_dest, rfl,
      Or.inl ⟨Bool.eq_false_iff.mpr hfree, rfl⟩⟩

theorem landing_cases {fs : Fs} {base_dest dest : PathBuf}
    (h : landing fs on_conflict base_dest = .ok (some dest, outcome)) :
    (fs.exists_ base_dest = false ∧ dest = base_dest) ∨ find_unique_path fs base_dest = .ok dest := by
  rcases landing_eq_ok h with ⟨hnone, -⟩ | ⟨-, -, found, hdest, hfound⟩
  · cases hnone
  · rwa [Option.some.inj hdest]

/-- A move lands next to the wanted destination. -/
theorem landing_sibling {fs : Fs} {dir dest : PathBuf} {name : String}
    (hname : Plain (.normal name))
    (h : landing fs on_conflict (dir ++ [.normal name]) = .ok (some dest, outcome)) :
    ∃ name', dest = dir ++ [.normal name'] ∧ Plain (.normal name') := by
  rcases landing_cases h with ⟨-, rfl⟩ | hunique
  · exact ⟨name, rfl, hname⟩
  · exact find_unique_path_sibling hname hunique

/-! ## Rewriting the store -/

/-- The writes that follow the move of a file. -/
def relocate_asset (asset_id album_id : String) (record : AssetRecord) (new_path : String)
    (s : AssetStore) : AssetStore :=
  let s := s.put_asset_by_id { record with path := new_path, album_id := some album_id }
  let s := s.remove_asset_by_path record.path
  s.put_asset_by_path new_path asset_id

/-- One turn of the loop of `update_asset_tables_after_dir_move`. -/
def relocate_below (source_dir dest_dir : PathBuf) (s : AssetStore) (record : AssetRecord) :
    AssetStore :=
  match strip_text record.path source_dir with
  | some rel =>
    let new_path := join_text dest_dir rel
    let s := s.remove_asset_by_path record.path
    let s := s.put_asset_by_path new_path record.asset_id
    s.put_asset_by_id { record with path := new_path }
  | none => s

def update_asset_tables_after_dir_move (source_dir dest_dir : PathBuf) (s : AssetStore) :
    AssetStore :=
  s.get_all_assets.foldl (relocate_below source_dir dest_dir) s

/-- The writes that follow the move of an album directory. -/
def relocate_dir (source_dir dest_dir : PathBuf) (lib : Library) : Library where
  store := update_asset_tables_after_dir_move source_dir dest_dir lib.store
  dirs := rewrite_dir_album_cache_prefix source_dir dest_dir lib.dirs

/-! ## The handler -/

/-- The album has a share that somebody else created. -/
def has_foreign_share (caller album_id : String) (metadata : Table String MetadataRecord) : Bool :=
  match metadata.lookup album_id with
  | some (.album payload) => payload.share_list.values.any fun share => share.created_by != caller
  | _ => false

def move_album_into_album (env : MoveEnv) (album_id : String) (target_dir : PathBuf)
    (on_conflict : OnConflict) (caller : String) (lib : Library) :
    Except AppError (AssignOutcome × Library) := do
  let record ← Result.ok_or (.new .invalidInput "Album not found")
    (lib.store.get_asset_by_id album_id)
  let source_dir := ofString record.path
  if !env.is_dir source_dir then
    throw (.new .invalidInput ("Album directory no longer exists on disk: " ++ record.path ++
      " — re-index to refresh"))
  if target_dir = source_dir ∨ starts_with target_dir source_dir = true then
    throw (.new .invalidInput "Cannot move an album into itself or one of its own sub-albums")
  if has_foreign_share caller album_id lib.store.tables.metadata then
    throw (.new .permissionDenied "Album has shares owned by other users")
  let _ ← (write_gate env.roots caller (some source_dir) (some target_dir)).mapError
    fun _ => AppError.new .permissionDenied "Source or destination not writable"
  let dir_name ← Result.ok_or (.new .invalidInput "Album directory has no name")
    (file_name source_dir)
  let landed ← landing env.roots.fs on_conflict (join target_dir [.normal dir_name])
  match landed with
  | (none, outcome) => return (outcome, lib)
  | (some dest_dir, outcome) =>
    let _ ← (env.rename source_dir dest_dir).mapError
      fun e => AppError.new .internal ("Failed to move album directory: " ++ e)
    return (outcome, relocate_dir source_dir dest_dir lib)

/-- Where `move_asset_into_album` moves a file: nowhere if it is there already or is skipped. -/
def move_target (env : MoveEnv) (album_dir : PathBuf) (on_conflict : OnConflict) (caller : String)
    (record : AssetRecord) : Except AppError (Option PathBuf × AssignOutcome) := do
  let source_path := ofString record.path
  if !env.roots.fs.exists_ source_path then
    throw (.new .invalidInput ("File not found at: " ++ record.path))
  let _ ← (write_gate env.roots caller (some source_path) (some album_dir)).mapError
    fun _ => AppError.new .permissionDenied "Source or destination not writable"
  let file_name ← Result.ok_or (.new .invalidInput "File has no name") (file_name source_path)
  let base_dest := join album_dir [.normal file_name]
  if env.roots.fs.exists_ base_dest = true ∧ source_path = base_dest then
    -- already there
    return (none, .moved)
  else
    (landing env.roots.fs on_conflict base_dest).mapError
      fun _ => AppError.new .io "Failed to find unique path"

/-- `move_asset_into_album`, for the record of a file. -/
def move_file_into_album (env : MoveEnv) (asset_id album_id : String) (album_dir : PathBuf)
    (on_conflict : OnConflict) (caller : String) (record : AssetRecord) (lib : Library) :
    Except AppError (AssignOutcome × Library) := do
  let landed ← move_target env album_dir on_conflict caller record
  match landed with
  | (none, outcome) => return (outcome, lib)
  | (some final_dest, outcome) =>
    let _ ← (env.rename (ofString record.path) final_dest).mapError
      fun _ => AppError.new .io "Failed to move file"
    return (outcome, { lib with
      store := relocate_asset asset_id album_id record final_dest.display lib.store })

def move_asset_into_album (env : MoveEnv) (asset_id album_id : String) (album_dir : PathBuf)
    (on_conflict : OnConflict) (caller : String) (lib : Library) :
    Except AppError (AssignOutcome × Library) := do
  let record ← Result.ok_or (.new .invalidInput "Asset not found")
    (lib.store.get_asset_by_id asset_id)
  if record.kind = .album then
    move_album_into_album env asset_id album_dir on_conflict caller lib
  else
    move_file_into_album env asset_id album_id album_dir on_conflict caller record lib

/-- `assign_album`, for a caller that passed the guards. -/
def assign_album (env : MoveEnv) (caller : String) (data : AssignAlbumData) (lib : Library) :
    Except AppError (AssignOutcome × Library) := do
  let album_dir ← Result.ok_or (.new .invalidInput "Album not found in dir cache")
    (lib.dirs.get_dir_path_for_album data.album_id)
  if !env.is_dir album_dir then
    throw (.new .invalidInput ("Album directory no longer exists on disk: " ++
      album_dir.display ++ " — re-index to refresh"))
  let _ ← (write_gate env.roots caller none (some album_dir)).mapError
    fun _ => AppError.new .permissionDenied "Destination album not writable"
  move_asset_into_album env data.asset_id data.album_id album_dir data.on_conflict caller lib

/-! ## What a request can have done -/

section Success

variable {caller : String} {lib lib' : Library} {record : AssetRecord}

/-- A successful move of an album directory is skipped, or moves the directory to where it lands. -/
theorem move_album_into_album_ok {album_id : String} {target_dir : PathBuf}
    (hrecord : lib.store.get_asset_by_id album_id = some record)
    (h : move_album_into_album env album_id target_dir on_conflict caller lib =
      .ok (outcome, lib')) :
    env.is_dir (ofString record.path) = true ∧
      starts_with target_dir (ofString record.path) ≠ true ∧
      ∃ name dest, file_name (ofString record.path) = some name ∧ Plain (.normal name) ∧
        landing env.roots.fs on_conflict (target_dir ++ [.normal name]) = .ok (dest, outcome) ∧
        lib' = dest.elim lib fun dest_dir => relocate_dir (ofString record.path) dest_dir lib := by
  simp only [move_album_into_album, Result.bind_eq_ok, Result.guard_eq_ok, Result.ok_or_eq_ok,
    Result.mapError_eq_ok] at h
  obtain ⟨record', hrecord', hdir, hinto, -, -, -, name, hname, ⟨dest, outcome'⟩, hland, h⟩ := h
  obtain rfl : record = record' := Option.mem_unique hrecord hrecord'
  have hplain := plain_of_file_name (wellFormed_ofString record.path) hname
  rw [join_of_plain target_dir (by simpa using hplain)] at hland
  refine ⟨by simpa using hdir, fun hstart => hinto (Or.inr hstart), name, dest, hname, hplain, ?_⟩
  cases dest with
  | none =>
    obtain ⟨rfl, rfl⟩ := Prod.mk.inj (Result.pure_eq_ok.mp h)
    exact ⟨hland, rfl⟩
  | some dest_dir =>
    obtain ⟨-, -, h⟩ := Result.bind_eq_ok.mp h
    obtain ⟨rfl, rfl⟩ := Prod.mk.inj (Result.pure_eq_ok.mp h)
    exact ⟨hland, rfl⟩

/-- A successful move of a file leaves it where it is, is skipped, or takes it to where it lands. -/
theorem move_file_into_album_ok {asset_id album_id : String} {album_dir : PathBuf}
    (h : move_file_into_album env asset_id album_id album_dir on_conflict caller record lib =
      .ok (outcome, lib')) :
    env.roots.fs.exists_ (ofString record.path) = true ∧
      ∃ name, file_name (ofString record.path) = some name ∧ Plain (.normal name) ∧
        if env.roots.fs.exists_ (album_dir ++ [.normal name]) = true ∧
            ofString record.path = album_dir ++ [.normal name] then lib' = lib
        else ∃ dest,
          landing env.roots.fs on_conflict (album_dir ++ [.normal name]) = .ok (dest, outcome) ∧
            lib' = dest.elim lib fun final_dest => { lib with
              store := relocate_asset asset_id album_id record (display final_dest) lib.store } := by
  obtain ⟨⟨dest, outcome'⟩, htarget, h⟩ := Result.bind_eq_ok.mp h
  simp only [move_target, Result.bind_eq_ok, Result.guard_eq_ok, Result.ok_or_eq_ok] at htarget
  obtain ⟨hexists, -, -, name, hname, htarget⟩ := htarget
  have hplain := plain_of_file_name (wellFormed_ofString record.path) hname
  rw [join_of_plain album_dir (by simpa using hplain)] at htarget
  refine ⟨by simpa using hexists, name, hname, hplain, ?_⟩
  have hlib : outcome' = outcome ∧ lib' = dest.elim lib fun final_dest => { lib with
      store := relocate_asset asset_id album_id record (display final_dest) lib.store } := by
    cases dest with
    | none =>
      obtain ⟨rfl, rfl⟩ := Prod.mk.inj (Result.pure_eq_ok.mp h)
      exact ⟨rfl, rfl⟩
    | some final_dest =>
      obtain ⟨-, -, h⟩ := Result.bind_eq_ok.mp h
      obtain ⟨rfl, rfl⟩ := Prod.mk.inj (Result.pure_eq_ok.mp h)
      exact ⟨rfl, rfl⟩
  obtain ⟨rfl, rfl⟩ := hlib
  split at htarget
  · rename_i hthere
    rw [if_pos hthere, ← (Prod.mk.inj (Result.pure_eq_ok.mp htarget)).1]
    rfl
  · rename_i hthere
    rw [if_neg hthere]
    exact ⟨dest, Result.mapError_eq_ok.mp htarget, rfl⟩

/-- A successful request found the album's directory and the asset, and left everything as it was,
moved a file, or moved a directory. -/
theorem assign_album_cases {data : AssignAlbumData}
    (h : assign_album env caller data lib = .ok (outcome, lib')) :
    ∃ album_dir record, lib.dirs.get_dir_path_for_album data.album_id = some album_dir ∧
      lib.store.get_asset_by_id data.asset_id = some record ∧
      (lib' = lib ∨
        (record.kind ≠ .album ∧ ∃ name, Plain (.normal name) ∧
          lib' = { lib with
            store := relocate_asset data.asset_id data.album_id record
              (display (album_dir ++ [.normal name])) lib.store }) ∨
        (record.kind = .album ∧ ∃ name, Plain (.normal name) ∧ ofString record.path ≠ [] ∧
          lib' = relocate_dir (ofString record.path) (album_dir ++ [.normal name]) lib)) := by
  simp only [assign_album, move_asset_into_album, Result.bind_eq_ok, Result.guard_eq_ok,
    Result.ok_or_eq_ok] at h
  obtain ⟨album_dir, hdir, -, -, -, record, hrecord, h⟩ := h
  refine ⟨album_dir, record, hdir, hrecord, ?_⟩
  split at h
  · rename_i hkind
    obtain ⟨-, -, name, dest, hname, hplain, hland, rfl⟩ := move_album_into_album_ok hrecord h
    cases dest with
    | none => exact Or.inl rfl
    | some dest_dir =>
      obtain ⟨name', rfl, hname'⟩ := landing_sibling hplain hland
      exact Or.inr (Or.inr ⟨hkind, name', hname', ne_nil_of_file_name hname, rfl⟩)
  · rename_i hkind
    obtain ⟨-, name, -, hplain, hcases⟩ := move_file_into_album_ok h
    split at hcases
    · exact Or.inl hcases
    · obtain ⟨dest, hland, rfl⟩ := hcases
      cases dest with
      | none => exact Or.inl rfl
      | some final_dest =>
        obtain ⟨name', rfl, hname'⟩ := landing_sibling hplain hland
        exact Or.inr (Or.inl ⟨hkind, name', hname', rfl⟩)

end Success

/-! ## Selected assets -/

section Within

variable {S : String → Prop} {R : AssetRecord → Prop} {Q : String → Prop} {s : AssetStore}

theorem within_relocate_asset (h : s.Within S R Q) {asset_id : String} {record : AssetRecord}
    (hrecord : s.get_asset_by_id asset_id = some record) {album_id new_path : String}
    (hnew : S asset_id → R { record with path := new_path, album_id := some album_id } ∧
      Q new_path) :
    (relocate_asset asset_id album_id record new_path s).Within S R Q := by
  have hid : record.asset_id = asset_id := h.keyed asset_id record hrecord
  subst hid
  have hrow := Table.Within.insert h
    (v := { record with path := new_path, album_id := some album_id }) fun hS => (hnew hS).1
  exact (hrow.forget record.path).point fun hS => (hnew hS).2

/-- The loop over the records below a directory keeps the conditions if each selected record
satisfies them at its new path. -/
theorem within_relocate_below (h : s.Within S R Q) {source_dir dest_dir : PathBuf}
    (records : List AssetRecord) (hnew : ∀ record ∈ records, S record.asset_id → ∀ rel,
      strip_text record.path source_dir = some rel →
        R { record with path := join_text dest_dir rel } ∧ Q (join_text dest_dir rel)) :
    (records.foldl (relocate_below source_dir dest_dir) s).Within S R Q := by
  induction records generalizing s with
  | nil => exact h
  | cons record records ih =>
    rw [List.foldl_cons]
    apply ih
    · unfold relocate_below
      split
      · rename_i rel hstrip
        have hat := fun hS => hnew record List.mem_cons_self hS rel hstrip
        have hindex := (Table.Within.forget h record.path).point (p := join_text dest_dir rel)
          fun hS => (hat hS).2
        exact hindex.insert (v := { record with path := join_text dest_dir rel })
          fun hS => (hat hS).1
      · exact h
    · exact fun r hr => hnew r (List.mem_cons_of_mem _ hr)

end Within
