import Picasu.Router.AssignAlbum

/-! # What a Move Does to Rows, Index and Cache

A move of an album directory rewrites the record of everything at or below it, one by one, and
re-points the path index with each. A move of a file rewrites one record. Both find their
destination free on the disk, but neither asks whether a record has it: a file that has vanished
from the disk keeps its record until a scan removes it.

* `get_asset_after_dir_move`: the move of a directory acts on every record at once;
* `assign_album_ok`: where a successful request moves something;
* `assign_consistent_iff`: rows and index agree after a move exactly if no other record is, or is
  moved to, the place where a moved one goes.
-/

open PathBuf

/-- What every file system satisfies: a directory exists, and so does whatever lies on the way to
something that exists. -/
structure MoveEnv.Lawful (env : MoveEnv) : Prop where
  exists_of_is_dir : ∀ p, env.is_dir p = true → env.roots.fs.exists_ p = true
  exists_ancestor : ∀ p rel, p ≠ [] → env.roots.fs.exists_ (p ++ rel) = true →
    env.roots.fs.exists_ p = true

/-- Records are stored under their own id. -/
def AssetStore.Keyed (s : AssetStore) : Prop :=
  ∀ id record, s.get_asset_by_id id = some record → record.asset_id = id

/-- `ASSET_BY_PATH` points at an asset exactly if the asset has the path. -/
def AssetStore.PathsAgree (s : AssetStore) : Prop :=
  Table.Inverse AssetRecord.path s.tables.assets s.by_path

/-! ## The records below a directory -/

def moved_record (source_dir dest_dir : PathBuf) (record : AssetRecord) : AssetRecord :=
  match strip_text record.path source_dir with
  | some rel => { record with path := join_text dest_dir rel }
  | none => record

section Loop

variable (source_dir dest_dir : PathBuf) {s : AssetStore} {record : AssetRecord}
  {records : List AssetRecord}

/-- A turn writes the record that is moved, and re-points its path. -/
theorem relocate_below_eq (record : AssetRecord) {rel : String}
    (hrel : strip_text record.path source_dir = some rel) :
    relocate_below source_dir dest_dir s record =
      { s with
        tables := { s.tables with
          assets := s.tables.assets.insert record.asset_id
            (moved_record source_dir dest_dir record) }
        by_path := (s.by_path.erase record.path).insert
          (moved_record source_dir dest_dir record).path record.asset_id } := by
  unfold relocate_below moved_record
  rw [hrel]
  rfl

theorem relocate_below_of_none (hrel : strip_text record.path source_dir = none) :
    relocate_below source_dir dest_dir s record = s ∧
      moved_record source_dir dest_dir record = record := by
  unfold relocate_below moved_record
  rw [hrel]
  exact ⟨rfl, rfl⟩

/-- A turn changes the row of its own record only. -/
theorem get_asset_relocate_below (hrow : s.get_asset_by_id record.asset_id = some record)
    (id : String) :
    (relocate_below source_dir dest_dir s record).get_asset_by_id id =
      if id = record.asset_id then some (moved_record source_dir dest_dir record)
      else s.get_asset_by_id id := by
  cases hrel : strip_text record.path source_dir with
  | some rel =>
    rw [relocate_below_eq source_dir dest_dir record hrel]
    exact Table.lookup_insert _ _ _ _
  | none =>
    obtain ⟨hsame, hmoved⟩ := relocate_below_of_none source_dir dest_dir (s := s) hrel
    rw [hsame, hmoved]
    split
    · rename_i heq
      rw [heq, hrow]
    · rfl

/-- The loop over records with different ids moves each of them. -/
theorem get_asset_foldl_relocate_below
    (hnodup : (records.map AssetRecord.asset_id).Nodup)
    (hrows : ∀ record ∈ records, s.get_asset_by_id record.asset_id = some record) (id : String) :
    (records.foldl (relocate_below source_dir dest_dir) s).get_asset_by_id id =
      if id ∈ records.map AssetRecord.asset_id then
        (s.get_asset_by_id id).map (moved_record source_dir dest_dir)
      else s.get_asset_by_id id := by
  induction records generalizing s with
  | nil => rfl
  | cons record records ih =>
    obtain ⟨hfresh, hnodup⟩ := List.nodup_cons.mp hnodup
    have hrow := hrows record List.mem_cons_self
    have hstep := get_asset_relocate_below source_dir dest_dir hrow
    rw [List.foldl_cons, ih hnodup, hstep]
    · by_cases hid : id = record.asset_id
      · subst hid
        rw [if_neg hfresh, if_pos rfl, if_pos (by simp), hrow]
        rfl
      · simp only [List.map_cons, List.mem_cons, hid, false_or, if_false]
    · intro record' hmem
      rw [hstep, if_neg, hrows record' (List.mem_cons_of_mem record hmem)]
      intro heq
      exact hfresh (heq ▸ List.mem_map_of_mem hmem)

/-- The loop keeps rows and index in agreement, if at each turn no other record is at the new path,
nor will be. -/
theorem pathsAgree_foldl_relocate_below
    (hnodup : (records.map AssetRecord.asset_id).Nodup)
    (hrows : ∀ record ∈ records, s.get_asset_by_id record.asset_id = some record)
    (hout : ∀ record ∈ records, moved_record source_dir dest_dir
      (moved_record source_dir dest_dir record) = moved_record source_dir dest_dir record)
    (hfree : ∀ record ∈ records, ∀ rel, strip_text record.path source_dir = some rel →
      ∀ id other, id ≠ record.asset_id → s.get_asset_by_id id = some other →
        other.path ≠ (moved_record source_dir dest_dir record).path ∧
          (moved_record source_dir dest_dir other).path ≠
            (moved_record source_dir dest_dir record).path) (hagree : s.PathsAgree) :
    (records.foldl (relocate_below source_dir dest_dir) s).PathsAgree := by
  induction records generalizing s with
  | nil => exact hagree
  | cons record records ih =>
    obtain ⟨hfresh, hnodup⟩ := List.nodup_cons.mp hnodup
    have hrow := hrows record List.mem_cons_self
    have hstep := get_asset_relocate_below source_dir dest_dir hrow
    rw [List.foldl_cons]
    apply ih hnodup
    · intro record' hmem
      rw [hstep, if_neg, hrows record' (List.mem_cons_of_mem record hmem)]
      intro heq
      exact hfresh (heq ▸ List.mem_map_of_mem hmem)
    · exact fun record' hmem => hout record' (List.mem_cons_of_mem record hmem)
    · intro record' hmem rel hrel id other hid hother
      have hfree' := hfree record' (List.mem_cons_of_mem record hmem) rel hrel
      rw [hstep] at hother
      split at hother
      · -- the record of this turn, which is not moved again
        rename_i heq
        subst heq
        obtain rfl := Option.some.inj hother
        rw [hout record List.mem_cons_self]
        have hnew := (hfree' record.asset_id record hid hrow).2
        exact ⟨hnew, hnew⟩
      · exact hfree' id other hid hother
    · cases hrel : strip_text record.path source_dir with
      | some rel =>
        rw [relocate_below_eq source_dir dest_dir record hrel]
        apply Table.Inverse.move hagree hrow
        intro id other hid hother
        exact (hfree record List.mem_cons_self rel hrel id other hid hother).1
      | none =>
        rw [(relocate_below_of_none source_dir dest_dir (s := s) hrel).1]
        exact hagree

end Loop

/-! ## The move of a directory -/

section Directory

variable {source_dir dest_dir : PathBuf} {s : AssetStore} {record : AssetRecord}

/-- No other record is, or is moved to, the new path of a moved one. -/
def DirUnobstructed (source_dir dest_dir : PathBuf) (s : AssetStore) : Prop :=
  ∀ id id' record other rel, id ≠ id' → s.get_asset_by_id id = some record →
    s.get_asset_by_id id' = some other → strip_text record.path source_dir = some rel →
      (moved_record source_dir dest_dir other).path ≠ join_text dest_dir rel

theorem AssetStore.Keyed.rows (hkeyed : s.Keyed) (hmem : record ∈ s.get_all_assets) :
    s.get_asset_by_id record.asset_id = some record := by
  obtain ⟨id, hrow⟩ := Table.mem_values.mp hmem
  rw [hkeyed id record hrow]
  exact hrow

theorem AssetStore.Keyed.nodup (hkeyed : s.Keyed) :
    (s.get_all_assets.map AssetRecord.asset_id).Nodup :=
  Table.nodup_map_values hkeyed

/-- Every record is moved along, if it lies at or below the directory. -/
theorem get_asset_after_dir_move (source_dir dest_dir : PathBuf) (hkeyed : s.Keyed) (id : String) :
    (update_asset_tables_after_dir_move source_dir dest_dir s).get_asset_by_id id =
      (s.get_asset_by_id id).map (moved_record source_dir dest_dir) := by
  unfold update_asset_tables_after_dir_move
  rw [get_asset_foldl_relocate_below source_dir dest_dir hkeyed.nodup
    fun record hmem => hkeyed.rows hmem]
  split
  · rfl
  rename_i habsent
  cases hrow : s.get_asset_by_id id with
  | none => rfl
  | some record =>
    refine absurd (List.mem_map.mpr ⟨record, ?_, hkeyed id record hrow⟩) habsent
    exact Table.mem_values.mpr ⟨id, hrow⟩

theorem metadata_after_dir_move :
    (update_asset_tables_after_dir_move source_dir dest_dir s).tables.metadata =
      s.tables.metadata := by
  unfold update_asset_tables_after_dir_move
  generalize s.get_all_assets = records
  induction records generalizing s with
  | nil => rfl
  | cons record records ih =>
    rw [List.foldl_cons, ih]
    unfold relocate_below
    split
    · rfl
    · rfl

/-- The destination and the source of a move have nothing below both. -/
def DirsApart (source_dir dest_dir : PathBuf) : Prop :=
  ∀ rel rel', dest_dir ++ rel ≠ source_dir ++ rel'

/-- A directory that a text can be joined to, with a separator between. -/
structure Landing (source_dir dest_dir : PathBuf) : Prop where
  wellFormed : WellFormed dest_dir
  ne_nil : dest_dir ≠ []
  ne_root : dest_dir ≠ [.rootDir]
  source_ne_nil : source_dir ≠ []
  apart : DirsApart source_dir dest_dir

variable {path text : String}

theorem Landing.ofString_join_text (hland : Landing source_dir dest_dir)
    {rel : PathBuf} (htext : strip_text path source_dir = some text)
    (hrel : ofString path = source_dir ++ rel) :
    ofString (join_text dest_dir text) = dest_dir ++ rel :=
  PathBuf.ofString_join_text hland.wellFormed hland.ne_nil hland.ne_root hland.source_ne_nil htext
    (strip_eq_some.mpr hrel)

theorem exists_strip_text {rel : PathBuf} (hrel : ofString path = source_dir ++ rel) :
    ∃ text, strip_text path source_dir = some text := by
  apply Option.isSome_iff_exists.mp
  rw [strip_text_isSome, hrel]
  exact starts_with_append source_dir rel

theorem exists_rel (htext : strip_text path source_dir = some text) :
    ∃ rel, ofString path = source_dir ++ rel := by
  apply starts_with_iff.mp
  rw [← strip_text_isSome, htext]
  rfl

theorem path_moved_record (dest_dir : PathBuf)
    (htext : strip_text record.path source_dir = some text) :
    (moved_record source_dir dest_dir record).path = join_text dest_dir text := by
  unfold moved_record
  rw [htext]

variable (hland : Landing source_dir dest_dir)

include hland

/-- What has been moved is not below the source. -/
theorem Landing.not_below (htext : strip_text path source_dir = some text) :
    strip_text (join_text dest_dir text) source_dir = none := by
  obtain ⟨rel, hrel⟩ := exists_rel htext
  have hread := hland.ofString_join_text htext hrel
  cases hagain : strip_text (join_text dest_dir text) source_dir with
  | none => rfl
  | some text' =>
    obtain ⟨rel', hrel'⟩ := exists_rel hagain
    exact absurd (hread.symm.trans hrel') (hland.apart rel rel')

theorem Landing.moved_twice (record : AssetRecord) :
    moved_record source_dir dest_dir (moved_record source_dir dest_dir record) =
      moved_record source_dir dest_dir record := by
  cases htext : strip_text record.path source_dir with
  | none =>
    have hsame : moved_record source_dir dest_dir record = record := by
      unfold moved_record
      rw [htext]
    rw [hsame, hsame]
  | some text =>
    have hnone := hland.not_below htext
    rw [← path_moved_record dest_dir htext] at hnone
    exact (relocate_below_of_none source_dir dest_dir (s := ⟨⟨∅, ∅⟩, ∅, ∅⟩) hnone).2

/-- After the move of a directory rows and index agree exactly if nothing obstructs it. -/
theorem pathsAgree_after_dir_move_iff (hkeyed : s.Keyed) (hagree : s.PathsAgree) :
    (update_asset_tables_after_dir_move source_dir dest_dir s).PathsAgree ↔
      DirUnobstructed source_dir dest_dir s := by
  constructor
  · intro hafter id id' record other rel hne hrecord hother hrel hsame
    have hrow := get_asset_after_dir_move source_dir dest_dir hkeyed id
    have hrow' := get_asset_after_dir_move source_dir dest_dir hkeyed id'
    rw [hrecord] at hrow
    rw [hother] at hrow'
    apply hne
    apply Table.Inverse.unique hafter hrow hrow'
    rw [hsame, path_moved_record dest_dir hrel]
  · intro hfree
    apply pathsAgree_foldl_relocate_below source_dir dest_dir hkeyed.nodup
      (fun record hmem => hkeyed.rows hmem) (fun record _ => hland.moved_twice record) _ hagree
    intro record hmem rel hrel id other hid hother
    have hnew := hfree record.asset_id id record other rel hid.symm (hkeyed.rows hmem) hother hrel
    rw [path_moved_record dest_dir hrel]
    refine ⟨?_, hnew⟩
    cases hother' : strip_text other.path source_dir with
    | none => rwa [(relocate_below_of_none source_dir dest_dir (s := s) hother').2] at hnew
    | some rel' =>
      -- a record that is still below the source is not at the destination
      intro hsame
      have hnone := hland.not_below hrel
      rw [← hsame, hother'] at hnone
      cases hnone

end Directory

/-! ## Where a request moves something -/

section Landing

variable {env : MoveEnv} {on_conflict : OnConflict} {outcome : AssignOutcome}

theorem landing_free {fs : Fs} {base_dest dest : PathBuf}
    (h : landing fs on_conflict base_dest = .ok (some dest, outcome)) :
    fs.exists_ dest = false := by
  rcases landing_cases h with ⟨hfree, rfl⟩ | hunique
  · exact hfree
  · exact (find_unique_path_free hunique).1

theorem landing_skipped {fs : Fs} {base_dest : PathBuf} {dest : Option PathBuf}
    (h : landing fs on_conflict base_dest = .ok (dest, outcome)) :
    dest = none ↔ outcome = .skipped := by
  rcases landing_eq_ok h with ⟨rfl, rfl, -⟩ | ⟨hmoved, -, found, rfl, -⟩
  · exact iff_of_true rfl rfl
  · exact iff_of_false nofun hmoved

/-- A directory is not moved into itself, and what is free is not on the way to it: source and
destination are apart. -/
theorem landing_apart (hfs : env.Lawful) {target_dir source_dir : PathBuf} {name : String}
    (hsource : env.is_dir source_dir = true) (hinto : starts_with target_dir source_dir ≠ true)
    (hfree : env.roots.fs.exists_ (target_dir ++ [.normal name]) = false) :
    DirsApart source_dir (target_dir ++ [.normal name]) := by
  intro rel rel' heq
  have hexists := hfs.exists_of_is_dir source_dir hsource
  rcases List.append_eq_append_iff.mp heq with ⟨between, hlong, -⟩ | ⟨between, hlong, -⟩
  · -- the destination is on the way to the source
    rw [hlong] at hexists
    rw [hfs.exists_ancestor _ _ (by simp) hexists] at hfree
    cases hfree
  · -- the source is on the way to the destination
    rcases List.eq_nil_or_concat between with rfl | ⟨between, c, rfl⟩
    · rw [List.append_nil] at hlong
      rw [hlong, hexists] at hfree
      cases hfree
    · apply hinto
      rw [List.concat_eq_append, ← List.append_assoc] at hlong
      rw [(List.append_inj' hlong rfl).1]
      exact starts_with_append source_dir between

/-- A directory that is moved lands in a free place below the target. -/
theorem landing_of_move (hfs : env.Lawful) {album_id caller : String} {target_dir dest_dir : PathBuf}
    {lib lib' : Library} {record : AssetRecord} {name : String} (htarget : WellFormed target_dir)
    (hrecord : lib.store.get_asset_by_id album_id = some record)
    (h : move_album_into_album env album_id target_dir on_conflict caller lib = .ok (outcome, lib'))
    (hname : file_name (ofString record.path) = some name) (hland : landing env.roots.fs on_conflict
      (target_dir ++ [.normal name]) = .ok (some dest_dir, outcome)) :
    Landing (ofString record.path) dest_dir := by
  obtain ⟨hdir, hinto, -⟩ := move_album_into_album_ok hrecord h
  have hplain := plain_of_file_name (wellFormed_ofString record.path) hname
  obtain ⟨name', rfl, hname'⟩ := landing_sibling hplain hland
  exact ⟨wellFormed_append htarget (by simpa using hname'), by simp, append_normal_ne_root _ _,
    ne_nil_of_file_name hname, landing_apart hfs hdir hinto (landing_free hland)⟩

end Landing

/-! ## Rows, index and cache after a request -/

section Assign

variable {env : MoveEnv} {caller : String} {data : AssignAlbumData} {lib lib' : Library}
  {outcome : AssignOutcome} {record : AssetRecord}

/-- Where a request leaves what it is about. -/
def destination (env : MoveEnv) (data : AssignAlbumData) (record : AssetRecord) (lib : Library) :
    PathBuf :=
  let source := ofString record.path
  match lib.dirs.get_dir_path_for_album data.album_id, file_name source with
  | some album_dir, some name =>
    let base_dest := join album_dir [.normal name]
    -- a file that is already there stays
    if record.kind ≠ .album ∧ env.roots.fs.exists_ base_dest = true ∧ source = base_dest then source
    else
      match landing env.roots.fs data.on_conflict base_dest with
      | .ok (some dest, _) => dest
      | _ => source
  | _, _ => source

theorem destination_eq {album_dir : PathBuf} {name : String}
    (hdir : lib.dirs.get_dir_path_for_album data.album_id = some album_dir)
    (hname : file_name (ofString record.path) = some name) :
    destination env data record lib =
      if record.kind ≠ .album ∧ env.roots.fs.exists_ (album_dir ++ [.normal name]) = true ∧
        ofString record.path = album_dir ++ [.normal name] then ofString record.path
      else
        match landing env.roots.fs data.on_conflict (album_dir ++ [.normal name]) with
        | .ok (some dest, _) => dest
        | _ => ofString record.path := by
  have hplain := plain_of_file_name (wellFormed_ofString record.path) hname
  have hjoin : join album_dir [.normal name] = album_dir ++ [.normal name] :=
    join_of_plain album_dir (by simpa using hplain)
  simp only [destination, hdir, hname, hjoin]

/-- The move from the path of the record to `dest` keeps everything consistent. -/
structure MovedConsistently (record : AssetRecord) (dest : PathBuf) (lib lib' : Library) : Prop where
  agree : lib'.store.PathsAgree
  /-- No id is created or lost. -/
  ids : ∀ id, (lib'.store.get_asset_by_id id).isSome = (lib.store.get_asset_by_id id).isSome
  /-- What is at or below the moved path has its prefix replaced. -/
  below : ∀ id before rel, lib.store.get_asset_by_id id = some before →
    ofString before.path = ofString record.path ++ rel →
      ∃ after, lib'.store.get_asset_by_id id = some after ∧ ofString after.path = dest ++ rel ∧
        after = { before with path := after.path, album_id := after.album_id }
  /-- All others are untouched. -/
  others : ∀ id before, lib.store.get_asset_by_id id = some before →
    starts_with (ofString before.path) (ofString record.path) = false →
      lib'.store.get_asset_by_id id = some before
  /-- The directories that move along are cached at their new path. -/
  cache : record.kind = .album → ∀ rel id, lib.dirs.lookup (ofString record.path ++ rel) = some id →
    lib'.dirs.lookup (dest ++ rel) = some id ∧ lib'.dirs.lookup (ofString record.path ++ rel) = none

/-- Nothing obstructs the move. For a directory: no other record is, or is moved to, the new path of
a moved one. For a file that moves: no other record is at the new path, and none at or below the
old one. -/
def Unobstructed (asset_id : String) (record : AssetRecord) (dest : PathBuf) (s : AssetStore) :
    Prop :=
  if record.kind = .album then DirUnobstructed (ofString record.path) dest s
  else dest ≠ ofString record.path → ∀ id other, id ≠ asset_id →
    s.get_asset_by_id id = some other →
      other.path ≠ display dest ∧ starts_with (ofString other.path) (ofString record.path) = false

theorem movedConsistently_self (hkind : record.kind ≠ .album) (hagree : lib.store.PathsAgree) :
    MovedConsistently record (ofString record.path) lib lib where
  agree := hagree
  ids _ := rfl
  below _ before _ hbefore hrel := ⟨before, hbefore, hrel, rfl⟩
  others _ _ hbefore _ := hbefore
  cache h := absurd h hkind

/-- A successful request leaves everything as it is, moves a directory to where it lands, or moves a
file there. -/
theorem assign_album_ok (hfs : env.Lawful) (hdirs : lib.dirs.WellFormed)
    (hrecord : lib.store.get_asset_by_id data.asset_id = some record)
    (h : assign_album env caller data lib = .ok (outcome, lib')) :
    ∃ album_dir, lib.dirs.get_dir_path_for_album data.album_id = some album_dir ∧
      let dest := destination env data record lib
      ((dest = ofString record.path ∧ lib' = lib ∧ (record.kind = .album → outcome = .skipped)) ∨
        ∃ name, dest = album_dir ++ [.normal name] ∧
          ((record.kind = .album ∧ Landing (ofString record.path) dest ∧ outcome ≠ .skipped ∧
              lib' = relocate_dir (ofString record.path) dest lib) ∨
            (record.kind ≠ .album ∧ WellFormed dest ∧ dest ≠ ofString record.path ∧
              lib' = { lib with
                store := relocate_asset data.asset_id data.album_id record (display dest)
                  lib.store }))) := by
  simp only [assign_album, move_asset_into_album, Result.bind_eq_ok, Result.guard_eq_ok,
    Result.ok_or_eq_ok] at h
  obtain ⟨album_dir, hdir, -, -, -, record', hrecord', h⟩ := h
  obtain rfl : record = record' := Option.mem_unique hrecord hrecord'
  have hwf : WellFormed album_dir := hdirs _ _ (DirAlbumCache.lookup_of_get_dir_path hdir)
  refine ⟨album_dir, hdir, ?_⟩
  split at h
  · rename_i hkind
    obtain ⟨-, -, name, dest, hname, hplain, hlanding, rfl⟩ := move_album_into_album_ok hrecord h
    have hwhere : destination env data record lib = _ := destination_eq hdir hname
    rw [if_neg fun hfile => hfile.1 hkind, hlanding] at hwhere
    cases dest with
    | none => exact Or.inl ⟨hwhere, rfl, fun _ => (landing_skipped hlanding).mp rfl⟩
    | some dest_dir =>
      have hland := landing_of_move hfs hwf hrecord h hname hlanding
      obtain ⟨name', hsibling, -⟩ := landing_sibling hplain hlanding
      rw [hwhere]
      exact Or.inr ⟨name', hsibling, Or.inl ⟨hkind, hland,
        fun hskip => (Option.some_ne_none _) ((landing_skipped hlanding).mpr hskip), rfl⟩⟩
  · rename_i hkind
    obtain ⟨hexists, name, hname, hplain, hcases⟩ := move_file_into_album_ok h
    have hwhere : destination env data record lib = _ := destination_eq hdir hname
    split at hcases
    · rename_i hthere
      rw [if_pos ⟨hkind, hthere⟩] at hwhere
      exact Or.inl ⟨hwhere, hcases, fun halbum => absurd halbum hkind⟩
    · rename_i hthere
      obtain ⟨dest, hlanding, rfl⟩ := hcases
      rw [if_neg fun hfile => hthere hfile.2, hlanding] at hwhere
      cases dest with
      | none => exact Or.inl ⟨hwhere, rfl, fun halbum => absurd halbum hkind⟩
      | some final_dest =>
        have hne : final_dest ≠ ofString record.path := by
          rintro rfl
          rw [landing_free hlanding] at hexists
          cases hexists
        obtain ⟨name', rfl, hname'⟩ := landing_sibling hplain hlanding
        rw [hwhere]
        exact Or.inr ⟨name', rfl, Or.inr ⟨hkind, wellFormed_append hwf (by simpa using hname'),
          hne, rfl⟩⟩

/-- Where a request leaves what has this id and path. -/
def left_at (env : MoveEnv) (data : AssignAlbumData) (record : AssetRecord) (lib : Library)
    (id : String) (p : PathBuf) : PathBuf :=
  if record.kind = .album then
    match strip p (ofString record.path) with
    | some rel => destination env data record lib ++ rel
    | none => p
  else if id = data.asset_id then destination env data record lib
  else p

section Rows

variable {id : String} {row row' : AssetRecord}

/-- The record of an id before and after a request. -/
structure MovedRow (env : MoveEnv) (data : AssignAlbumData) (record : AssetRecord) (lib : Library)
    (id : String) (row row' : AssetRecord) : Prop where
  path : ofString row'.path = left_at env data record lib id (ofString row.path)
  rest : row' = { row with path := row'.path, album_id := row'.album_id }
  stays : left_at env data record lib id (ofString row.path) = ofString row.path → row' = row

theorem MovedRow.same (h : left_at env data record lib id (ofString row.path) = ofString row.path) :
    MovedRow env data record lib id row row :=
  ⟨h.symm, rfl, fun _ => rfl⟩

theorem left_at_of_strip {p rel : PathBuf} (hkind : record.kind = .album)
    (hp : p = ofString record.path ++ rel) :
    left_at env data record lib id p = destination env data record lib ++ rel := by
  rw [left_at, if_pos hkind, strip_eq_some.mpr hp]

theorem left_at_outside {p : PathBuf} (hkind : record.kind = .album)
    (hp : ∀ rel, p ≠ ofString record.path ++ rel) : left_at env data record lib id p = p := by
  rw [left_at, if_pos hkind]
  split
  · rename_i rel hrel
    exact absurd (strip_eq_some.mp hrel) (hp rel)
  · rfl

theorem left_at_other {p : PathBuf} (hkind : record.kind ≠ .album) (hid : id ≠ data.asset_id) :
    left_at env data record lib id p = p := by
  rw [left_at, if_neg hkind, if_neg hid]

theorem left_at_self {p : PathBuf} (hkind : record.kind ≠ .album) :
    left_at env data record lib data.asset_id p = destination env data record lib := by
  rw [left_at, if_neg hkind, if_pos rfl]

theorem left_at_of_outside (hrecord : lib.store.get_asset_by_id data.asset_id = some record)
    (hrow : lib.store.get_asset_by_id id = some row)
    (hout : starts_with (ofString row.path) (ofString record.path) = false) :
    left_at env data record lib id (ofString row.path) = ofString row.path := by
  have hrel : ∀ rel, ofString row.path ≠ ofString record.path ++ rel := by
    intro rel hrel
    rw [hrel, starts_with_append] at hout
    cases hout
  by_cases hkind : record.kind = .album
  · exact left_at_outside hkind hrel
  · apply left_at_other hkind
    rintro rfl
    obtain rfl := Option.mem_unique hrecord hrow
    exact hrel [] (List.append_nil _).symm

end Rows

section Request

variable (hfs : env.Lawful) (hdirs : lib.dirs.WellFormed) (hkeyed : lib.store.Keyed)
  (hrecord : lib.store.get_asset_by_id data.asset_id = some record)
  (h : assign_album env caller data lib = .ok (outcome, lib'))

include hfs hdirs hkeyed hrecord h

/-- A request moves the records and nothing else of the tables. -/
theorem movedRow_assign : lib'.store.tables.metadata = lib.store.tables.metadata ∧
    ∀ id, (lib.store.get_asset_by_id id = none ∧ lib'.store.get_asset_by_id id = none) ∨
      ∃ row row', lib.store.get_asset_by_id id = some row ∧
        lib'.store.get_asset_by_id id = some row' ∧ MovedRow env data record lib id row row' := by
  obtain ⟨album_dir, -, hcases⟩ := assign_album_ok hfs hdirs hrecord h
  rcases hcases with ⟨hwhere, rfl, -⟩ | ⟨name, -, ⟨hkind, hland, -, rfl⟩ | ⟨hkind, hwf, hne, rfl⟩⟩
  · refine ⟨rfl, fun id => ?_⟩
    cases hrow : lib'.store.get_asset_by_id id with
    | none => exact Or.inl ⟨rfl, rfl⟩
    | some row =>
      refine Or.inr ⟨row, row, rfl, rfl, .same ?_⟩
      unfold left_at
      rw [hwhere]
      split
      · split
        · rename_i rel hrel
          exact (strip_eq_some.mp hrel).symm
        · rfl
      · split
        · rename_i hid
          rw [Option.some.inj (hrecord.symm.trans (hid ▸ hrow))]
        · rfl
  · refine ⟨metadata_after_dir_move, fun id => ?_⟩
    have hrow : (relocate_dir (ofString record.path) (destination env data record lib)
        lib).store.get_asset_by_id id = _ := get_asset_after_dir_move _ _ hkeyed id
    rw [hrow]
    cases lib.store.get_asset_by_id id with
    | none => exact Or.inl ⟨rfl, rfl⟩
    | some row =>
      refine Or.inr ⟨row, _, rfl, rfl, ?_⟩
      cases htext : strip_text row.path (ofString record.path) with
      | none =>
        rw [(relocate_below_of_none _ _ (s := lib.store) htext).2]
        refine .same (left_at_outside hkind fun rel hrel => ?_)
        obtain ⟨text, htext'⟩ := exists_strip_text hrel
        cases htext.symm.trans htext'
      | some text =>
        obtain ⟨rel, hrel⟩ := exists_rel htext
        have hleft : left_at env data record lib id (ofString row.path) = _ :=
          left_at_of_strip hkind hrel
        refine ⟨?_, ?_, fun hsame => ?_⟩
        · rw [path_moved_record _ htext, hland.ofString_join_text htext hrel, hleft]
        · unfold moved_record
          rw [htext]
        · rw [hleft, hrel] at hsame
          exact absurd hsame (hland.apart rel rel)
  · refine ⟨rfl, fun id => ?_⟩
    have hid : record.asset_id = data.asset_id := hkeyed _ _ hrecord
    by_cases hself : id = data.asset_id
    · subst hself
      refine Or.inr ⟨record, { record with
        path := display (destination env data record lib), album_id := some data.album_id },
        hrecord, ?_, ?_, rfl, fun hsame => ?_⟩
      · rw [← hid]
        exact AList.lookup_insert _
      · rw [left_at_self hkind]
        exact ofString_display hwf
      · rw [left_at_self hkind] at hsame
        exact absurd hsame hne
    · have hrow : (relocate_asset data.asset_id data.album_id record
          (display (destination env data record lib)) lib.store).get_asset_by_id id =
          lib.store.get_asset_by_id id := AList.lookup_insert_ne (hid.symm ▸ hself)
      show _ ∨ ∃ row row', _ ∧ (relocate_asset _ _ _ _ _).get_asset_by_id id = _ ∧ _
      rw [hrow]
      cases lib.store.get_asset_by_id id with
      | none => exact Or.inl ⟨rfl, rfl⟩
      | some row => exact Or.inr ⟨row, row, rfl, rfl, .same (left_at_other hkind hself)⟩

/-- A move is consistent if the index is, the records below the path move along, and the cache
follows. -/
theorem movedConsistently_of_below (hagree : lib'.store.PathsAgree)
    (hbelow : ∀ id before rel, lib.store.get_asset_by_id id = some before →
      ofString before.path = ofString record.path ++ rel →
        left_at env data record lib id (ofString before.path) =
          destination env data record lib ++ rel)
    (hcache : record.kind = .album → ∀ rel id,
      lib.dirs.lookup (ofString record.path ++ rel) = some id →
        lib'.dirs.lookup (destination env data record lib ++ rel) = some id ∧
          lib'.dirs.lookup (ofString record.path ++ rel) = none) :
    MovedConsistently record (destination env data record lib) lib lib' := by
  obtain ⟨-, hrows⟩ := movedRow_assign hfs hdirs hkeyed hrecord h
  refine ⟨hagree, ?_, ?_, ?_, hcache⟩
  · intro id
    rcases hrows id with ⟨hrow, hrow'⟩ | ⟨row, row', hrow, hrow', -⟩
    · rw [hrow, hrow']
    · rw [hrow, hrow']
      rfl
  · intro id before rel hbefore hrel
    rcases hrows id with ⟨hrow, -⟩ | ⟨row, row', hrow, hrow', hmoved⟩
    · cases hrow.symm.trans hbefore
    · obtain rfl := Option.mem_unique hrow hbefore
      exact ⟨row', hrow', hmoved.path.trans (hbelow id row rel hrow hrel), hmoved.rest⟩
  · intro id before hbefore hout
    rcases hrows id with ⟨hrow, -⟩ | ⟨row, row', hrow, hrow', hmoved⟩
    · cases hrow.symm.trans hbefore
    · obtain rfl := Option.mem_unique hrow hbefore
      rw [hrow', hmoved.stays (left_at_of_outside hrecord hrow hout)]

end Request

/-- A request that moves something keeps rows, index and cache consistent exactly if nothing
obstructs the move. -/
theorem assign_consistent_iff (hfs : env.Lawful) (hdirs : lib.dirs.WellFormed)
    (hkeyed : lib.store.Keyed) (hagree : lib.store.PathsAgree)
    (hrecord : lib.store.get_asset_by_id data.asset_id = some record)
    (h : assign_album env caller data lib = .ok (outcome, lib')) (hmoved : outcome ≠ .skipped) :
    MovedConsistently record (destination env data record lib) lib lib' ↔
      Unobstructed data.asset_id record (destination env data record lib) lib.store := by
  obtain ⟨album_dir, -, hcases⟩ := assign_album_ok hfs hdirs hrecord h
  rcases hcases with ⟨hwhere, rfl, hskipped⟩ |
    ⟨name, -, ⟨hkind, hland, -, rfl⟩ | ⟨hkind, hdest, hne, rfl⟩⟩
  · have hkind : record.kind ≠ .album := fun halbum => hmoved (hskipped halbum)
    rw [hwhere, Unobstructed, if_neg hkind]
    exact iff_of_true (movedConsistently_self hkind hagree) fun hne => absurd rfl hne
  · rw [Unobstructed, if_pos hkind, ← pathsAgree_after_dir_move_iff hland hkeyed hagree]
    refine ⟨fun hafter => hafter.agree, fun hafter => ?_⟩
    apply movedConsistently_of_below hfs hdirs hkeyed hrecord h hafter
    · exact fun _ _ _ _ hrel => left_at_of_strip hkind hrel
    · exact fun _ _ _ hlook =>
        DirAlbumCache.lookup_rewrite hdirs hland.source_ne_nil hland.apart hlook rfl
  · rw [Unobstructed, if_neg hkind]
    obtain ⟨asset_id, album_id, on_conflict⟩ := data
    obtain rfl : record.asset_id = asset_id := hkeyed _ _ hrecord
    constructor
    · intro hafter _ id other hid hrow
      have hrow' : AList.lookup id (AList.insert record.asset_id { record with
          path := display (destination env ⟨record.asset_id, album_id, on_conflict⟩ record lib)
          album_id := some album_id } lib.store.tables.assets) = some other :=
        (AList.lookup_insert_ne hid).trans hrow
      constructor
      · exact fun hpath =>
          hid (Table.Inverse.unique hafter.agree hrow' (AList.lookup_insert _) hpath)
      · -- a record below the file would have to move along, and it stays
        by_contra hstart
        obtain ⟨rel, hrel⟩ := starts_with_iff.mp (Bool.of_not_eq_false hstart)
        obtain ⟨after, hlater, hpath, -⟩ := hafter.below id other rel hrow hrel
        rw [← Option.mem_unique hrow' hlater, hrel] at hpath
        exact hne (List.append_cancel_right hpath).symm
    · intro hfree
      apply movedConsistently_of_below hfs hdirs hkeyed hrecord h
      · exact Table.Inverse.move (v := record) hagree hrecord fun id other hid hrow =>
          (hfree hne id other hid hrow).1
      · intro id before rel hbefore hrel
        by_cases hid : id = record.asset_id
        · subst hid
          obtain rfl := Option.mem_unique hrecord hbefore
          rw [List.self_eq_append_right.mp hrel, List.append_nil]
          exact left_at_self hkind
        · have hout := (hfree hne id before hid hbefore).2
          rw [hrel, starts_with_append] at hout
          cases hout
      · exact fun halbum => absurd halbum hkind

end Assign

/-! ## A small library -/

/-- A disk with these directories, those on the way to them, and these files in them. -/
def small_disk (dirs files : List String) : MoveEnv where
  roots :=
    { fs :=
        { canonicalize := some
          exists_ := fun p => (dirs ++ files).any fun d => starts_with (ofString d) p }
      image_home := some (ofString "/photos")
      users_home := none }
  is_dir p := dirs.any fun d => starts_with (ofString d) p
  rename _ _ := .ok ()

theorem lawful_small_disk (dirs files : List String) : (small_disk dirs files).Lawful where
  exists_of_is_dir p h := by
    obtain ⟨d, hd, hstart⟩ := List.any_eq_true.mp h
    exact List.any_eq_true.mpr ⟨d, List.mem_append_left files hd, hstart⟩
  exists_ancestor p rel _ h := by
    obtain ⟨d, hd, hstart⟩ := List.any_eq_true.mp h
    obtain ⟨rest, hrest⟩ := starts_with_iff.mp hstart
    refine List.any_eq_true.mpr ⟨d, hd, ?_⟩
    rw [hrest, List.append_assoc]
    exact starts_with_append p (rel ++ rest)

/-- The store of the records, with their paths in the index. -/
def shelve (records : List AssetRecord) : AssetStore :=
  records.foldl (fun s record =>
    (s.put_asset_by_id record).put_asset_by_path record.path record.asset_id) AssetStore.empty

theorem keyed_empty : AssetStore.empty.Keyed := by
  intro id record hrow
  cases hrow

theorem AssetStore.Keyed.put {s : AssetStore} (hkeyed : s.Keyed) (record : AssetRecord)
    (path id : String) : ((s.put_asset_by_id record).put_asset_by_path path id).Keyed := by
  intro id' record' hrow
  rcases Table.lookup_insert_eq_some.mp hrow with ⟨rfl, rfl⟩ | ⟨-, hrow⟩
  · rfl
  · exact hkeyed id' record' hrow

/-- Records with different ids and different paths are shelved in agreement. -/
theorem shelve_agrees {records : List AssetRecord} (hids : (records.map AssetRecord.asset_id).Nodup)
    (hpaths : (records.map AssetRecord.path).Nodup) :
    (shelve records).Keyed ∧ (shelve records).PathsAgree := by
  -- what is still to be shelved has neither its id nor its path in the store
  suffices hall : ∀ s : AssetStore, s.Keyed → s.PathsAgree →
      (∀ record ∈ records, s.get_asset_by_id record.asset_id = none ∧
        s.get_asset_id_by_path record.path = none) →
      let shelved := records.foldl (fun s record =>
        (s.put_asset_by_id record).put_asset_by_path record.path record.asset_id) s
      shelved.Keyed ∧ shelved.PathsAgree from
    hall AssetStore.empty keyed_empty Table.Inverse.empty fun _ _ => ⟨rfl, rfl⟩
  induction records with
  | nil => exact fun s hkeyed hagree _ => ⟨hkeyed, hagree⟩
  | cons record records ih =>
    obtain ⟨hid, hids⟩ := List.nodup_cons.mp hids
    obtain ⟨hpath, hpaths⟩ := List.nodup_cons.mp hpaths
    intro s hkeyed hagree hfresh
    obtain ⟨hrow, hentry⟩ := hfresh record List.mem_cons_self
    apply ih hids hpaths
    · exact hkeyed.put record _ _
    · exact Table.Inverse.put hagree (Or.inr ⟨hentry, hrow⟩)
    · intro other hother
      obtain ⟨hrow', hentry'⟩ := hfresh other (List.mem_cons_of_mem record hother)
      have hid' : other.asset_id ≠ record.asset_id := fun h => hid (h ▸ List.mem_map_of_mem hother)
      have hpath' : other.path ≠ record.path := fun h => hpath (h ▸ List.mem_map_of_mem hother)
      exact ⟨(AList.lookup_insert_ne hid').trans hrow', (AList.lookup_insert_ne hpath').trans hentry'⟩

/-- The album `trips` with the album `rome` in it, and beside it the album `best`. The user shares
`rome`. -/
def trips_library (user : String) : Library where
  store :=
    (shelve [.new_album 0 "trips" "/photos/trips", .new_album 0 "rome" "/photos/trips/rome",
      .new_album 0 "best" "/photos/best"]).put_metadata "rome"
        (to_metadata_record (.album
          { object := ObjectSchema.new 0 "rome" .album
            metadata :=
              { share_list := AList.insert "url" ⟨"url", "", none, true, true, false, 0, user⟩ ∅ } }))
  dirs :=
    AList.insert (ofString "/photos/trips") "trips" (AList.insert (ofString "/photos/trips/rome")
      "rome" (AList.insert (ofString "/photos/best") "best" ∅))

theorem wellFormed_trips_dirs (user : String) : (trips_library user).dirs.WellFormed :=
  DirAlbumCache.WellFormed.insert (DirAlbumCache.WellFormed.insert
    (DirAlbumCache.WellFormed.insert (fun _ _ h => by cases h) (wellFormed_ofString _) _)
    (wellFormed_ofString _) _) (wellFormed_ofString _) _

theorem keyed_trips_library (user : String) : (trips_library user).store.Keyed :=
  (shelve_agrees (by decide) (by decide)).1

theorem pathsAgree_trips_library (user : String) : (trips_library user).store.PathsAgree :=
  (shelve_agrees (by decide) (by decide)).2

theorem ok_of_outcome {result : Except AppError (AssignOutcome × Library)}
    {outcome : AssignOutcome} (h : result.map Prod.fst = .ok outcome) :
    ∃ lib', result = .ok (outcome, lib') := by
  cases result with
  | error e => cases h
  | ok r =>
    obtain ⟨outcome', lib'⟩ := r
    obtain rfl : outcome' = outcome := Except.ok.inj h
    exact ⟨lib', rfl⟩

/-- Nothing obstructs a move of a directory if nothing does among the records. -/
theorem dirUnobstructed_of_records {source_dir dest_dir : PathBuf} {s : AssetStore}
    (hkeyed : s.Keyed) (h : ∀ record ∈ s.get_all_assets, ∀ other ∈ s.get_all_assets,
      record.asset_id ≠ other.asset_id →
        strip_text record.path source_dir ≠ none →
          (moved_record source_dir dest_dir other).path ≠
            (moved_record source_dir dest_dir record).path) :
    DirUnobstructed source_dir dest_dir s := by
  intro id id' record other rel hne hrecord hother hrel
  have hids : record.asset_id ≠ other.asset_id := by
    rw [hkeyed id record hrecord, hkeyed id' other hother]
    exact hne
  have hpath := h record (Table.mem_values.mpr ⟨id, hrecord⟩) other
    (Table.mem_values.mpr ⟨id', hother⟩) hids (by rw [hrel]; exact Option.some_ne_none rel)
  rwa [path_moved_record dest_dir hrel] at hpath

/-- The album `trips` moves into `best`, with the album in it. -/
theorem assign_consistent_trips :
    let env := small_disk ["/photos/trips/rome", "/photos/best"] []
    let data : AssignAlbumData := ⟨"trips", "best", .skip⟩
    let record := AssetRecord.new_album 0 "trips" "/photos/trips"
    ∃ lib', assign_album env "alice" data (trips_library "alice") = .ok (.moved, lib') ∧
      MovedConsistently record (destination env data record (trips_library "alice"))
        (trips_library "alice") lib' := by
  intro env data record
  obtain ⟨lib', hmoved⟩ := ok_of_outcome (by decide +kernel :
    (assign_album env "alice" data (trips_library "alice")).map Prod.fst = .ok .moved)
  refine ⟨lib', hmoved, (assign_consistent_iff (lawful_small_disk _ _) (wellFormed_trips_dirs _)
    (keyed_trips_library _) (pathsAgree_trips_library _) rfl hmoved (by decide)).mpr ?_⟩
  exact dirUnobstructed_of_records (keyed_trips_library _) (by decide +kernel)

/-- A photo of `trips`, and a record of `best` whose file is gone. -/
def seas_library : Library where
  store :=
    shelve [.new_album 0 "trips" "/photos/trips", .new_album 0 "best" "/photos/best",
      ⟨"sea", .image, "/photos/trips/sea.jpg", some "5ea", 7, "jpg", 0, 0, false, some "trips"⟩,
      ⟨"old", .image, "/photos/best/sea.jpg", some "01d", 7, "jpg", 0, 0, false, some "best"⟩]
  dirs :=
    AList.insert (ofString "/photos/trips") "trips"
      (AList.insert (ofString "/photos/best") "best" ∅)

/-- The photo is moved to the path of the other record, and two records have one path. -/
theorem moved_onto_vanished_record :
    let env := small_disk ["/photos/trips", "/photos/best"] ["/photos/trips/sea.jpg"]
    seas_library.store.Keyed ∧ seas_library.store.PathsAgree ∧
      ∃ lib', assign_album env "alice" ⟨"sea", "best", .skip⟩ seas_library = .ok (.moved, lib') ∧
        (lib'.store.get_asset_by_id "old").map AssetRecord.path = some "/photos/best/sea.jpg" ∧
        lib'.store.get_asset_id_by_path "/photos/best/sea.jpg" = some "sea" ∧
        ¬ lib'.store.PathsAgree := by
  intro env
  have hagrees : seas_library.store.Keyed ∧ seas_library.store.PathsAgree :=
    shelve_agrees (by decide) (by decide)
  obtain ⟨lib', hmoved⟩ := ok_of_outcome (by decide +kernel :
    (assign_album env "alice" ⟨"sea", "best", .skip⟩ seas_library).map Prod.fst = .ok .moved)
  have hafter : (assign_album env "alice" ⟨"sea", "best", .skip⟩ seas_library).map (fun r =>
      ((r.2.store.get_asset_by_id "old").map AssetRecord.path,
        r.2.store.get_asset_id_by_path "/photos/best/sea.jpg")) =
      .ok (some "/photos/best/sea.jpg", some "sea") := by decide +kernel
  rw [hmoved] at hafter
  obtain ⟨hold, hentry⟩ := Prod.mk.inj (Except.ok.inj hafter)
  refine ⟨hagrees.1, hagrees.2, lib', hmoved, hold, hentry, ?_⟩
  intro hagree
  obtain ⟨record, hrow, hpath⟩ := Option.map_eq_some_iff.mp hold
  have hold' := (hagree "/photos/best/sea.jpg" "old").mpr ⟨record, hrow, hpath⟩
  exact absurd (Option.mem_unique hentry hold') (by decide)
