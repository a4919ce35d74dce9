import Mathlib.Data.String.Basic
import Picasu.Process.DirAlbum
import Picasu.Storage.AssetStore

/-! # What Indexing Writes

The serial writer of the indexing pipeline: it flushes scanned assets into the store, removes the
assets of vanished files, sweeps the records of vanished directories, and rebuilds the in-memory
tree. Directory albums are created on the way, by the indexer.

Each inserted asset, each removed asset and each swept directory is its own write transaction;
other requests run between them. So the atomic steps are `flush_insert`, `flush_remove` and
`sweep_dir_album`, and `flush_tables` and `handle_sweep_dir_albums` are loops over them.

The random ids are arguments, and so are the clock and the file system. The set of albums that
wait for a refresh is left out: a refresh of any album may come at any time.
-/

/-- The state that indexing and moves work on: the asset store and the album of each directory. -/
structure Library where
  store : AssetStore
  dirs : DirAlbumCache

/-! ## Flushing -/

/-- The kind of record a view is stored as. -/
def AbstractData.kind : AbstractData → AssetKind
  | .image _ => .image
  | .video _ => .video
  | .album _ => .album

/-- The path `flush_tables` files a view under; empty without file entry. -/
def flush_path (data : AbstractData) : String := (data.path.map fun entry => entry.file).getD ""

/-- The identity record `flush_tables` derives from a scanned view. -/
def flush_record (now : Int) (asset_id : String) (data : AbstractData) : AssetRecord where
  asset_id
  kind := data.kind
  path := flush_path data
  content_hash := some data.hash
  file_size :=
    match data with
    | .image img => img.metadata.size
    | .video vid => vid.metadata.size
    | .album _ => 0
  ext := data.ext.getD ""
  modified := (data.path.map fun entry => entry.modified).getD 0
  scan_time := (data.path.map fun entry => entry.scan_time).getD now
  is_trashed :=
    match data with
    | .album alb => alb.metadata.is_trashed
    | _ => data.path.any fun entry => entry.is_trashed
  album_id := data.inAlbum

/-- The id an insert is written under: the one its path has, or a new one. -/
def flush_id (random_hash : String) (data : AbstractData) (s : AssetStore) : String :=
  (s.get_asset_id_by_path (flush_path data)).getD random_hash

/-- One insert of `flush_tables`. -/
def flush_insert (now : Int) (random_hash : String) (data : AbstractData) (s : AssetStore) :
    AssetStore :=
  let asset_id := flush_id random_hash data s
  let old_hash := ((s.get_asset_id_by_path (flush_path data)).bind s.get_asset_by_id).bind
    fun record => record.content_hash
  let s := s.put_asset_by_id (flush_record now asset_id data)
  let s := s.put_asset_by_path (flush_path data) asset_id
  let s := s.put_metadata asset_id (to_metadata_record data)
  -- a file whose bytes changed leaves the group of its old hash
  let s :=
    match old_hash with
    | some old => if old ≠ data.hash then s.remove_from_dupe_group old asset_id else s
    | none => s
  s.add_to_dupe_group data.hash asset_id

def remove_asset_from_tables (asset_id path content_hash : String) (s : AssetStore) :
    AssetStore :=
  let s := s.remove_asset_by_id asset_id
  let s := s.remove_asset_by_path path
  let s := s.remove_from_dupe_group content_hash asset_id
  s.remove_metadata asset_id

/-- One turn of the loop over a duplicate group: remove the asset if its file is gone. -/
def remove_if_vanished (fs : Fs) (content_hash : String) (s : AssetStore) (id : String) :
    AssetStore :=
  match s.get_asset_by_id id with
  | some record =>
    if fs.exists_ (PathBuf.ofString record.path) then s
    else remove_asset_from_tables id record.path content_hash s
  | none => s

/-- One remove of `flush_tables`. -/
def flush_remove (fs : Fs) (data : AbstractData) (s : AssetStore) : AssetStore :=
  if flush_path data = "" then
    (s.get_dupe_ids data.hash).foldl (remove_if_vanished fs data.hash) s
  else
    match s.get_asset_id_by_path (flush_path data) with
    | some asset_id => remove_asset_from_tables asset_id (flush_path data) data.hash s
    | none => s

/-- `flush_tables`. Each insert comes with the id that is drawn for it if its path is new. -/
def flush_tables (now : Int) (fs : Fs) (insert_list : List (String × AbstractData))
    (remove_list : List AbstractData) (s : AssetStore) : AssetStore :=
  let s := insert_list.foldl (fun s (random_hash, data) => flush_insert now random_hash data s) s
  remove_list.foldl (fun s data => flush_remove fs data s) s

/-! ## Sweeping -/

/-- One entry of `handle_sweep_dir_albums`. The path entry removed is the one of the printed cache
key, and the directory leaves the cache (`evict_dir_album`). -/
def sweep_dir_album (dir_path : PathBuf) (album_id : String) (lib : Library) : Library where
  store := ((lib.store.remove_asset_by_id album_id).remove_asset_by_path
    dir_path.display).remove_metadata album_id
  dirs := lib.dirs.erase dir_path

def handle_sweep_dir_albums (entries : List (PathBuf × String)) (lib : Library) : Library :=
  entries.foldl (fun lib (dir_path, album_id) => sweep_dir_album dir_path album_id lib) lib

def handle_prune_users_root (users_root : PathBuf) (lib : Library) : Library :=
  match lib.store.get_asset_id_by_path users_root.display with
  | none => lib
  | some album_id => sweep_dir_album users_root album_id lib

/-! ## Directory albums -/

/-- What `read_albuminfo` finds in a directory's `.albuminfo.xmp`. -/
structure AlbumInfo where
  title : Option String := none
  description : Option String := none
  tags : Finset String := ∅
  rating : Option Nat := none
  trashed : Bool := false

/-- `AssetRecord::new_album`, with its id. -/
def AssetRecord.new_album (now : Int) (asset_id path : String) : AssetRecord where
  asset_id
  kind := .album
  path
  content_hash := none
  file_size := 0
  ext := ""
  modified := now
  scan_time := now
  is_trashed := false
  album_id := none

variable (to_uppercase : Char → String)

def new_dir_album (now : Int) (info : AlbumInfo) (album_id dir_path : String) : AlbumCombined where
  object :=
    { ObjectSchema.new now album_id .album with
      description := info.description
      tags := info.tags
      rating := info.rating }
  metadata :=
    { id := album_id
      title := some (info.title.getD (derive_default_title to_uppercase dir_path))
      created_time := now
      last_modified_time := now
      dir_path
      custom_title := info.title
      is_trashed := info.trashed }

def write_album_to_db (now : Int) (info : AlbumInfo) (album_id dir_path : String)
    (s : AssetStore) : AssetStore :=
  let album := new_dir_album to_uppercase now info album_id dir_path
  let s := s.put_metadata album_id (to_metadata_record (.album album))
  let s := s.put_asset_by_path dir_path album_id
  s.put_asset_by_id (AssetRecord.new_album now album_id dir_path)

/-- `get_or_create_dir_album`: the album's id, and the library with it. -/
def get_or_create_dir_album (now : Int) (info : AlbumInfo) (random_hash dir_path : String)
    (lib : Library) : String × Library :=
  let dir := PathBuf.ofString dir_path
  match lib.dirs.get_album_id_for_dir dir with
  | some album_id => (album_id, lib)
  | none => (random_hash,
      { store := write_album_to_db to_uppercase now info random_hash dir_path lib.store
        dirs := lib.dirs.insert dir random_hash })

/-! ## The in-memory tree -/

/-- `build_from_asset_tables`: one row for each record, over the timestamp that is computed from a
view. -/
def build_from_asset_tables (now : Int) (timestamp : AbstractData → Int) (tables : Tables) :
    MemoryTree :=
  tables.assets.values.map fun record =>
    let abstract_data := compose_abstract_data now record (tables.metadata.lookup record.asset_id)
    { abstract_data, timestamp := timestamp abstract_data, asset_id := record.asset_id }

/-- The order of the tree: newest first, then by path. -/
def tree_order (a b : DatabaseTimestamp) : Bool :=
  b.timestamp < a.timestamp ||
    (a.timestamp == b.timestamp && flush_path a.abstract_data ≤ flush_path b.abstract_data)

def refresh_tree_cache (now : Int) (timestamp : AbstractData → Int) (tables : Tables) :
    MemoryTree :=
  (build_from_asset_tables now timestamp tables).mergeSort tree_order

theorem mem_refresh_tree_cache {now : Int} {timestamp : AbstractData → Int} {tables : Tables}
    {row : DatabaseTimestamp} (h : row ∈ refresh_tree_cache now timestamp tables) :
    ∃ record ∈ tables.assets.values, row.asset_id = record.asset_id ∧
      row.abstract_data =
        compose_abstract_data now record (tables.metadata.lookup record.asset_id) := by
  have hmem : row ∈ build_from_asset_tables now timestamp tables := List.mem_mergeSort.mp h
  obtain ⟨record, hrecord, rfl⟩ := List.mem_map.mp hmem
  exact ⟨record, hrecord, rfl, rfl⟩

/-! ## Selected assets

What each write needs to keep the conditions `R` and `Q` on the assets in `S`. A new id is outside
`S`; an id that is written again was found by its path, which therefore satisfies `Q` already. -/

section Within

variable {S : String → Prop} {R : AssetRecord → Prop} {Q : String → Prop} {s : AssetStore}

theorem tables_flush_insert (now : Int) (random_hash : String) (data : AbstractData)
    (s : AssetStore) : (flush_insert now random_hash data s).tables =
      ⟨s.tables.assets.insert (flush_id random_hash data s)
          (flush_record now (flush_id random_hash data s) data),
        s.tables.metadata.insert (flush_id random_hash data s) (to_metadata_record data)⟩ := by
  simp only [flush_insert, AssetStore.tables_add_to_dupe_group]
  split
  · split
    · rw [AssetStore.tables_remove_from_dupe_group]
      rfl
    · rfl
  · rfl

theorem by_path_flush_insert (now : Int) (random_hash : String) (data : AbstractData)
    (s : AssetStore) : (flush_insert now random_hash data s).by_path =
      s.by_path.insert (flush_path data) (flush_id random_hash data s) := by
  simp only [flush_insert, AssetStore.by_path_add_to_dupe_group]
  split
  · split
    · rw [AssetStore.by_path_remove_from_dupe_group]
      rfl
    · rfl
  · rfl

/-- An insert keeps the conditions if the record it writes over a selected asset satisfies `R`. -/
theorem within_flush_insert (h : s.Within S R Q) (now : Int) {random_hash : String}
    {data : AbstractData} (hnew : ¬ S random_hash)
    (hrecord : ∀ id, s.get_asset_id_by_path (flush_path data) = some id → S id →
      Q (flush_path data) → R (flush_record now id data)) :
    (flush_insert now random_hash data s).Within S R Q := by
  -- a selected id that is written was found under the path
  have hfound : S (flush_id random_hash data s) →
      s.get_asset_id_by_path (flush_path data) = some (flush_id random_hash data s) := by
    intro hS
    unfold flush_id at hS ⊢
    cases hlook : s.get_asset_id_by_path (flush_path data) with
    | none =>
      rw [hlook] at hS
      exact absurd hS hnew
    | some id => rfl
  have hpath : S (flush_id random_hash data s) → Q (flush_path data) :=
    fun hS => h.entries _ _ hS (hfound hS)
  show Table.Within _ _ _ _ _ _
  rw [tables_flush_insert, by_path_flush_insert]
  have hrow := Table.Within.insert h (v := flush_record now (flush_id random_hash data s) data)
    fun hS => hrecord _ (hfound hS) hS (hpath hS)
  exact hrow.point hpath

theorem tables_remove_asset_from_tables (asset_id path hash : String) (s : AssetStore) :
    (remove_asset_from_tables asset_id path hash s).tables =
      ⟨s.tables.assets.erase asset_id, s.tables.metadata.erase asset_id⟩ := by
  simp only [remove_asset_from_tables, AssetStore.remove_metadata,
    AssetStore.tables_remove_from_dupe_group]
  rfl

theorem by_path_remove_asset_from_tables (asset_id path hash : String) (s : AssetStore) :
    (remove_asset_from_tables asset_id path hash s).by_path = s.by_path.erase path := by
  simp only [remove_asset_from_tables, AssetStore.remove_metadata,
    AssetStore.by_path_remove_from_dupe_group]
  rfl

theorem within_remove_asset_from_tables (h : s.Within S R Q) (asset_id path hash : String) :
    (remove_asset_from_tables asset_id path hash s).Within S R Q := by
  show Table.Within _ _ _ _ _ _
  rw [tables_remove_asset_from_tables, by_path_remove_asset_from_tables]
  exact (Table.Within.erase h asset_id).forget path

theorem within_flush_remove (h : s.Within S R Q) (fs : Fs) (data : AbstractData) :
    (flush_remove fs data s).Within S R Q := by
  unfold flush_remove
  split
  · -- the loop over the duplicate group only removes
    generalize s.get_dupe_ids data.hash = ids
    induction ids generalizing s with
    | nil => exact h
    | cons id ids ih =>
      apply ih
      unfold remove_if_vanished
      split
      · split
        · exact h
        · exact within_remove_asset_from_tables h _ _ _
      · exact h
  · split
    · exact within_remove_asset_from_tables h _ _ _
    · exact h

variable {lib : Library}

variable (h : lib.store.Within S R Q)

include h

theorem within_sweep_dir_album (dir_path : PathBuf)
    (album_id : String) : (sweep_dir_album dir_path album_id lib).store.Within S R Q :=
  (Table.Within.erase h album_id).forget dir_path.display

theorem within_handle_prune_users_root
    (users_root : PathBuf) : (handle_prune_users_root users_root lib).store.Within S R Q := by
  unfold handle_prune_users_root
  split
  · exact h
  · exact within_sweep_dir_album h users_root _

theorem within_get_or_create_dir_album (to_uppercase : Char → String) (now : Int) (info : AlbumInfo)
    {random_hash : String} (hnew : ¬ S random_hash) (dir_path : String) :
    (get_or_create_dir_album to_uppercase now info random_hash dir_path lib).2.store.Within
      S R Q := by
  simp only [get_or_create_dir_album]
  split
  · exact h
  · have hpoint := Table.Within.point h (p := dir_path) fun hS => absurd hS hnew
    exact hpoint.insert (v := AssetRecord.new_album now random_hash dir_path)
      fun hS => absurd hS hnew

end Within
