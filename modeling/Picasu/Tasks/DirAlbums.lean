import Picasu.Framework.Run
import Picasu.Tasks.Writer

/-! # One Album for a Directory

`get_or_create_dir_album` asks the directory cache whether a directory has an album, and makes one
if the cache has none. The tables are not asked. The cache forgets a directory when a delete
request evicts it, also one that is refused afterwards; a sweep evicts it with the album; and a
restart builds the cache anew, from the albums whose directories are on the disk at that moment.

The system below has these operations as its labels, and the disk changes at any time. A sweep
reads the albums from the in-memory tree, which may be old, and leaves what it finds to the
writer.

* `good_next_iff`: a step keeps directories and albums in order exactly if it is not the creation
  of a second album, nor a restart that caches an album without an entry in the path index;
* `one_album_per_directory_iff`: the same for every run.
-/

open PathBuf

/-! ## Sweeping and restarting -/

/-- The part of `sweep_stale_asset_paths` about albums: the albums of the tree under the root whose
directory is gone. -/
def stale_albums (exists_ : PathBuf → Bool) (root : PathBuf) (tree : MemoryTree) :
    List (PathBuf × String) :=
  tree.filterMap fun dt =>
    match dt.abstract_data with
    | .album alb =>
      let dir_path := ofString alb.metadata.dir_path
      if alb.metadata.dir_path ≠ "" ∧ starts_with dir_path root = true ∧ exists_ dir_path = false
      then some (dir_path, alb.object.id)
      else none
    | _ => none

variable (is_dir : PathBuf → Bool)

/-- One turn of the loop of `init_dir_album_cache`. -/
def load_dir_album (s : AssetStore) (cache : DirAlbumCache)
    (e : Sigma fun _ : String => MetadataRecord) : DirAlbumCache :=
  match e.2, s.get_asset_by_id e.1 with
  | .album _, some record =>
    let path := ofString record.path
    if is_dir path then AList.insert path record.asset_id cache else cache
  | _, _ => cache

/-- `init_dir_album_cache`. The albums it queues for an update are left out. -/
def init_dir_album_cache (s : AssetStore) : DirAlbumCache :=
  s.tables.metadata.entries.foldl (load_dir_album is_dir s) ∅

/-- The album is loaded: it has a payload and a record, and the directory is there. -/
def Loads (s : AssetStore) (id : String) (record : AssetRecord) : Prop :=
  (∃ payload, s.tables.metadata.lookup id = some (.album payload)) ∧
    s.get_asset_by_id id = some record ∧ is_dir (ofString record.path) = true

section Load

variable {is_dir : PathBuf → Bool} {s : AssetStore}

theorem load_dir_album_cases (cache : DirAlbumCache) (e : Sigma fun _ : String => MetadataRecord) :
    load_dir_album is_dir s cache e = cache ∨
      ∃ payload record, e.2 = .album payload ∧ s.get_asset_by_id e.1 = some record ∧
        is_dir (ofString record.path) = true ∧
        load_dir_album is_dir s cache e =
          AList.insert (ofString record.path) record.asset_id cache := by
  unfold load_dir_album
  split
  · rename_i payload record hpayload hrecord
    by_cases hdir : is_dir (ofString record.path) = true
    · exact Or.inr ⟨payload, record, hpayload, hrecord, hdir, if_pos hdir⟩
    · exact Or.inl (if_neg hdir)
  · exact Or.inl rfl

/-- What is cached after a restart was loaded from some album. -/
theorem loads_of_lookup {dir : PathBuf} {album_id : String}
    (h : (init_dir_album_cache is_dir s).lookup dir = some album_id) :
    ∃ id record, Loads is_dir s id record ∧ ofString record.path = dir ∧
      record.asset_id = album_id := by
  -- over the rows that have been read so far
  suffices hall : ∀ rows cache, rows ⊆ s.tables.metadata.entries →
      (rows.foldl (load_dir_album is_dir s) cache).lookup dir = some album_id →
      cache.lookup dir = some album_id ∨ ∃ id record, Loads is_dir s id record ∧
        ofString record.path = dir ∧ record.asset_id = album_id by
    rcases hall _ ∅ (List.Subset.refl _) h with hempty | hloaded
    · cases hempty
    · exact hloaded
  intro rows
  induction rows with
  | nil => exact fun cache _ hlook => Or.inl hlook
  | cons e rows ih =>
    intro cache hsub hlook
    rcases ih _ (fun x hx => hsub (List.mem_cons_of_mem e hx)) hlook with hlook | hloaded
    · rcases load_dir_album_cases cache e with heq | ⟨payload, record, hpayload, hrecord, hdir, heq⟩
      · rw [heq] at hlook
        exact Or.inl hlook
      · rw [heq] at hlook
        rcases Table.lookup_insert_eq_some.mp hlook with ⟨rfl, rfl⟩ | ⟨-, hlook⟩
        · refine Or.inr ⟨e.1, record, ⟨⟨payload, ?_⟩, hrecord, hdir⟩, rfl, rfl⟩
          rw [← hpayload]
          exact Table.lookup_eq_some_iff.mpr (hsub List.mem_cons_self)
        · exact Or.inl hlook
    · exact Or.inr hloaded

/-- The directory of an album that is loaded is cached after a restart. -/
theorem lookup_of_loads {id : String} {record : AssetRecord} (h : Loads is_dir s id record) :
    (init_dir_album_cache is_dir s).lookup (ofString record.path) ≠ none := by
  obtain ⟨⟨payload, hpayload⟩, hrecord, hdir⟩ := h
  have hmem := Table.lookup_eq_some_iff.mp hpayload
  obtain ⟨before, after, hsplit⟩ := List.append_of_mem hmem
  have hkept : ∀ (rows : List (Sigma fun _ : String => MetadataRecord)) (cache : DirAlbumCache),
      cache.lookup (ofString record.path) ≠ none →
      (rows.foldl (load_dir_album is_dir s) cache).lookup (ofString record.path) ≠ none := by
    intro rows
    induction rows with
    | nil => exact fun cache hlook => hlook
    | cons e rows ih =>
      intro cache hlook
      apply ih
      rcases load_dir_album_cases cache e with heq | ⟨-, record', -, -, -, heq⟩
      · rwa [heq]
      rw [heq]
      by_cases hpath : ofString record.path = ofString record'.path
      · rw [hpath, AList.lookup_insert]
        exact Option.some_ne_none _
      · rwa [AList.lookup_insert_ne hpath]
  unfold init_dir_album_cache
  rw [hsplit, List.foldl_append, List.foldl_cons]
  apply hkept
  simp only [load_dir_album, hrecord, hdir, if_true, AList.lookup_insert]
  exact Option.some_ne_none _

end Load

/-! ## The system -/

/-- The library, the in-memory tree, the swept albums that wait for the writer, and which paths are
on the disk. -/
structure DirAlbums where
  lib : Library
  tree : MemoryTree
  swept : List (PathBuf × String)
  exists_ : PathBuf → Bool
  is_dir : PathBuf → Bool

namespace DirAlbums

inductive Label where
  /-- `get_or_create_dir_album` of a directory. -/
  | get_or_create (to_uppercase : Char → String) (now : Int) (info : AlbumInfo)
      (random_hash : String) (dir : { p : PathBuf // WellFormed p })
  /-- `evict_dir_album`, by a delete request. -/
  | evict (dir : PathBuf)
  /-- Files and directories are removed or come back. -/
  | disk (exists_ is_dir : PathBuf → Bool)
  /-- The in-memory tree is built anew. -/
  | refresh (now : Int) (timestamp : AbstractData → Int)
  /-- `sweep_stale_asset_paths` submits the stale albums. -/
  | sweep (root : PathBuf)
  /-- The writer removes the next of them. -/
  | write
  /-- The server is started again; the memory is lost, the tables are kept. -/
  | restart

def next (s : DirAlbums) : Label → DirAlbums
  | .get_or_create to_uppercase now info random_hash dir =>
    { s with
      lib := (get_or_create_dir_album to_uppercase now info random_hash dir.val.display s.lib).2 }
  | .evict dir => { s with lib := { s.lib with dirs := s.lib.dirs.erase dir } }
  | .disk exists_ is_dir => { s with exists_, is_dir }
  | .refresh now timestamp =>
    { s with tree := refresh_tree_cache now timestamp s.lib.store.tables }
  | .sweep root => { s with swept := s.swept ++ stale_albums s.exists_ root s.tree }
  | .write =>
    match s.swept with
    | (dir, album_id) :: swept => { s with lib := sweep_dir_album dir album_id s.lib, swept }
    | [] => s
  | .restart =>
    { s with
      lib := { s.lib with dirs := init_dir_album_cache s.is_dir s.lib.store }
      tree := []
      swept := [] }

variable (exists_ is_dir : PathBuf → Bool)

/-- A server with empty tables and an empty cache. -/
def start : DirAlbums :=
  ⟨⟨AssetStore.empty, ∅⟩, [], [], exists_, is_dir⟩

def AlbumAt (s : DirAlbums) (dir : PathBuf) (id : String) : Prop :=
  ∃ record, s.lib.store.get_asset_by_id id = some record ∧ record.kind = .album ∧
    ofString record.path = dir

/-- Every directory has at most one album, and what is cached is in the path index. -/
structure Good (s : DirAlbums) : Prop where
  unique : ∀ dir id id', s.AlbumAt dir id → s.AlbumAt dir id' → id = id'
  cached : ∀ dir id, s.lib.dirs.lookup dir = some id →
    s.lib.store.get_asset_id_by_path dir.display = some id

/-- The steps that keep it: an album is created only where there is no other, and a restart loads
only albums that the path index knows. -/
def StepOk (s : DirAlbums) : Label → Prop
  | .get_or_create _ _ _ random_hash dir =>
    s.lib.dirs.lookup dir.val = none → ∀ id, s.AlbumAt dir.val id → id = random_hash
  | .restart => ∀ id record, Loads s.is_dir s.lib.store id record →
    s.lib.store.get_asset_id_by_path (ofString record.path).display = some id
  | _ => True

/-- What holds in every state. -/
structure Base (s : DirAlbums) : Prop where
  keyed : ∀ id record, s.lib.store.get_asset_by_id id = some record → record.asset_id = id
  albums : ∀ id record, s.lib.store.get_asset_by_id id = some record → record.kind = .album
  payloads : ∀ id record, s.lib.store.get_asset_by_id id = some record →
    ∃ payload, s.lib.store.tables.metadata.lookup id = some (.album payload)
  dirs : s.lib.dirs.WellFormed
  swept : ∀ e ∈ s.swept, WellFormed e.1

/-! ## Creating an album -/

section Create

variable {s : DirAlbums} {to_uppercase : Char → String} {now : Int} {info : AlbumInfo}
  {random_hash : String} {dir : { p : PathBuf // WellFormed p }}

variable {id : String}

/-- A directory that the cache knows has its album. -/
theorem next_get_or_create_of_some (h : s.lib.dirs.lookup dir.val = some id) :
    s.next (.get_or_create to_uppercase now info random_hash dir) = s := by
  have hlook : s.lib.dirs.get_album_id_for_dir (ofString dir.val.display) = some id := by
    rw [ofString_display dir.property]
    exact h
  simp only [next, get_or_create_dir_album, hlook]

theorem next_get_or_create_of_none (h : s.lib.dirs.lookup dir.val = none) :
    s.next (.get_or_create to_uppercase now info random_hash dir) =
      { s with
        lib :=
          { store := write_album_to_db to_uppercase now info random_hash dir.val.display s.lib.store
            dirs := s.lib.dirs.insert dir.val random_hash } } := by
  have hlook : s.lib.dirs.get_album_id_for_dir dir.val = none := h
  simp only [next, get_or_create_dir_album, ofString_display dir.property, hlook]

/-- The new album is where it was made, and the others are where they were. -/
theorem get_asset_write_album_to_db {store : AssetStore} {path : String} {record : AssetRecord} :
    (write_album_to_db to_uppercase now info random_hash path store).get_asset_by_id id =
        some record ↔
      id = random_hash ∧ record = AssetRecord.new_album now random_hash path ∨
        id ≠ random_hash ∧ store.get_asset_by_id id = some record :=
  Table.lookup_insert_eq_some

theorem albumAt_get_or_create (h : s.lib.dirs.lookup dir.val = none) {d : PathBuf} :
    (s.next (.get_or_create to_uppercase now info random_hash dir)).AlbumAt d id ↔
      id = random_hash ∧ d = dir.val ∨ id ≠ random_hash ∧ s.AlbumAt d id := by
  rw [next_get_or_create_of_none h]
  constructor
  · rintro ⟨record, hrecord, hkind, hpath⟩
    rcases get_asset_write_album_to_db.mp hrecord with ⟨hid, rfl⟩ | ⟨hid, hrecord⟩
    · refine Or.inl ⟨hid, ?_⟩
      rw [← hpath]
      exact ofString_display dir.property
    · exact Or.inr ⟨hid, record, hrecord, hkind, hpath⟩
  · rintro (⟨hid, rfl⟩ | ⟨hid, record, hrecord, hkind, hpath⟩)
    · exact ⟨_, get_asset_write_album_to_db.mpr (Or.inl ⟨hid, rfl⟩), rfl,
        ofString_display dir.property⟩
    · exact ⟨record, get_asset_write_album_to_db.mpr (Or.inr ⟨hid, hrecord⟩), hkind, hpath⟩

theorem display_inj {p q : PathBuf} (hp : WellFormed p) (hq : WellFormed q)
    (h : p.display = q.display) : p = q := by
  rw [← ofString_display hp, ← ofString_display hq, h]

theorem Base.display_ne (hbase : s.Base) {d dir : PathBuf} (hdir : WellFormed dir)
    (hlook : s.lib.dirs.lookup d = some id) (hne : d ≠ dir) : d.display ≠ dir.display :=
  fun h => hne (display_inj (hbase.dirs d id hlook) hdir h)

theorem good_get_or_create_iff (hbase : s.Base) (hgood : s.Good) :
    (s.next (.get_or_create to_uppercase now info random_hash dir)).Good ↔
      s.StepOk (.get_or_create to_uppercase now info random_hash dir) := by
  cases hdir : s.lib.dirs.lookup dir.val with
  | some id =>
    rw [next_get_or_create_of_some hdir]
    refine iff_of_true hgood fun hnone => ?_
    rw [hdir] at hnone
    cases hnone
  | none =>
    constructor
    · intro hafter _ id hid
      by_contra hne
      apply hne
      exact hafter.unique dir.val id random_hash
        ((albumAt_get_or_create hdir).mpr (Or.inr ⟨hne, hid⟩))
        ((albumAt_get_or_create hdir).mpr (Or.inl ⟨rfl, rfl⟩))
    · intro hok
      have hothers := hok hdir
      constructor
      · intro d id id' hid hid'
        rcases (albumAt_get_or_create hdir).mp hid with ⟨rfl, rfl⟩ | ⟨hne, hold⟩
        · rcases (albumAt_get_or_create hdir).mp hid' with ⟨rfl, -⟩ | ⟨-, hold'⟩
          · rfl
          · exact (hothers id' hold').symm
        · rcases (albumAt_get_or_create hdir).mp hid' with ⟨rfl, rfl⟩ | ⟨-, hold'⟩
          · exact hothers id hold
          · exact hgood.unique d id id' hold hold'
      · intro d id hlook
        rw [next_get_or_create_of_none hdir] at hlook ⊢
        rcases Table.lookup_insert_eq_some.mp hlook with ⟨rfl, rfl⟩ | ⟨hne, hlook⟩
        · exact AList.lookup_insert _
        · exact (AList.lookup_insert_ne (hbase.display_ne dir.property hlook hne)).trans
            (hgood.cached d id hlook)

end Create

/-! ## Removing a swept album -/

section Sweep

variable {s : DirAlbums} {dir : PathBuf} {album_id : String} {swept : List (PathBuf × String)}

theorem Base.wellFormed_swept (hbase : s.Base) (h : s.swept = (dir, album_id) :: swept) :
    WellFormed dir := by
  apply hbase.swept (dir, album_id)
  rw [h]
  exact List.mem_cons_self

theorem next_write (h : s.swept = (dir, album_id) :: swept) :
    s.next .write = { s with lib := sweep_dir_album dir album_id s.lib, swept } := by
  simp only [next, h]

theorem next_write_of_nil (h : s.swept = []) : s.next .write = s := by simp only [next, h]

theorem get_asset_sweep_dir_album {lib : Library} {id : String} {record : AssetRecord} :
    (sweep_dir_album dir album_id lib).store.get_asset_by_id id = some record ↔
      id ≠ album_id ∧ lib.store.get_asset_by_id id = some record :=
  Table.lookup_erase_eq_some

theorem albumAt_write (h : s.swept = (dir, album_id) :: swept) {d : PathBuf} {id : String} :
    (s.next .write).AlbumAt d id ↔ id ≠ album_id ∧ s.AlbumAt d id := by
  rw [next_write h]
  constructor
  · rintro ⟨record, hrecord, hkind, hpath⟩
    obtain ⟨hne, hrecord⟩ := get_asset_sweep_dir_album.mp hrecord
    exact ⟨hne, record, hrecord, hkind, hpath⟩
  · rintro ⟨hne, record, hrecord, hkind, hpath⟩
    exact ⟨record, get_asset_sweep_dir_album.mpr ⟨hne, hrecord⟩, hkind, hpath⟩

theorem good_write (hbase : s.Base) (hgood : s.Good) : (s.next .write).Good := by
  cases hswept : s.swept with
  | nil =>
    rw [next_write_of_nil hswept]
    exact hgood
  | cons e swept =>
    obtain ⟨dir, album_id⟩ := e
    constructor
    · intro d id id' hid hid'
      exact hgood.unique d id id' ((albumAt_write hswept).mp hid).2 ((albumAt_write hswept).mp hid').2
    · intro d id hlook
      rw [next_write hswept] at hlook ⊢
      obtain ⟨hne, hlook⟩ := Table.lookup_erase_eq_some.mp hlook
      exact Table.lookup_erase_eq_some.mpr
        ⟨hbase.display_ne (hbase.wellFormed_swept hswept) hlook hne, hgood.cached d id hlook⟩

end Sweep

/-! ## Restarting -/

variable {s : DirAlbums}

/-- After a restart, the directory of a loaded album is cached under its id. -/
theorem lookup_init_dir_album_cache (hbase : s.Base) (hgood : s.Good) {id : String}
    {record : AssetRecord} (h : Loads s.is_dir s.lib.store id record) :
    (init_dir_album_cache s.is_dir s.lib.store).lookup (ofString record.path) = some id := by
  obtain ⟨album_id, hlook⟩ := Option.ne_none_iff_exists'.mp (lookup_of_loads h)
  -- the album that is cached for the directory is the only one
  obtain ⟨id', record', hloads', hpath, hid'⟩ := loads_of_lookup hlook
  have hsame : id' = id := hgood.unique (ofString record.path) id' id
    ⟨record', hloads'.2.1, hbase.albums id' record' hloads'.2.1, hpath⟩
    ⟨record, h.2.1, hbase.albums id record h.2.1, rfl⟩
  rw [hlook, ← hid', hbase.keyed id' record' hloads'.2.1, hsame]

theorem good_restart_iff (hbase : s.Base) (hgood : s.Good) :
    (s.next .restart).Good ↔ s.StepOk .restart := by
  constructor
  · intro hafter id record hloads
    exact hafter.cached _ id (lookup_init_dir_album_cache hbase hgood hloads)
  · intro hok
    constructor
    · exact hgood.unique
    · intro d id hlook
      obtain ⟨id', record, hloads, rfl, rfl⟩ := loads_of_lookup hlook
      rw [hbase.keyed id' record hloads.2.1]
      exact hok id' record hloads

/-- A step keeps directories and albums in order exactly if it meets the condition. -/
theorem good_next_iff (hbase : s.Base) (hgood : s.Good) (l : Label) :
    (s.next l).Good ↔ s.StepOk l := by
  cases l with
  | get_or_create to_uppercase now info random_hash dir => exact good_get_or_create_iff hbase hgood
  | evict dir =>
    refine iff_of_true ⟨hgood.unique, ?_⟩ trivial
    intro d id hlook
    exact hgood.cached d id (Table.lookup_erase_eq_some.mp hlook).2
  | disk | refresh | sweep => exact iff_of_true ⟨hgood.unique, hgood.cached⟩ trivial
  | write => exact iff_of_true (good_write hbase hgood) trivial
  | restart => exact good_restart_iff hbase hgood

/-! ## Every run -/

theorem mem_stale_albums {exists_ : PathBuf → Bool} {root : PathBuf} {tree : MemoryTree}
    {e : PathBuf × String} (h : e ∈ stale_albums exists_ root tree) : WellFormed e.1 := by
  obtain ⟨dt, -, hdt⟩ := List.mem_filterMap.mp h
  split at hdt
  · simp only at hdt
    split at hdt
    · rw [← Option.some.inj hdt]
      exact wellFormed_ofString _
    · cases hdt
  · cases hdt

theorem base_start : (start exists_ is_dir).Base where
  keyed _ _ h := by cases h
  albums _ _ h := by cases h
  payloads _ _ h := by cases h
  dirs _ _ h := by cases h
  swept _ h := by cases h

theorem Base.next (h : s.Base) (l : Label) : (s.next l).Base := by
  cases l with
  | get_or_create to_uppercase now info random_hash dir =>
    cases hdir : s.lib.dirs.lookup dir.val with
    | some id =>
      rw [next_get_or_create_of_some hdir]
      exact h
    | none =>
      rw [next_get_or_create_of_none hdir]
      refine ⟨?_, ?_, ?_, h.dirs.insert dir.property random_hash, h.swept⟩
      · intro id record hrow
        rcases get_asset_write_album_to_db.mp hrow with ⟨rfl, rfl⟩ | ⟨-, hrow⟩
        · rfl
        · exact h.keyed id record hrow
      · intro id record hrow
        rcases get_asset_write_album_to_db.mp hrow with ⟨rfl, rfl⟩ | ⟨-, hrow⟩
        · rfl
        · exact h.albums id record hrow
      · intro id record hrow
        rcases get_asset_write_album_to_db.mp hrow with ⟨rfl, rfl⟩ | ⟨hne, hrow⟩
        · exact ⟨_, AList.lookup_insert _⟩
        · obtain ⟨payload, hpayload⟩ := h.payloads id record hrow
          exact ⟨payload, (AList.lookup_insert_ne hne).trans hpayload⟩
  | evict dir => exact ⟨h.keyed, h.albums, h.payloads, h.dirs.erase dir, h.swept⟩
  | disk | refresh => exact ⟨h.keyed, h.albums, h.payloads, h.dirs, h.swept⟩
  | sweep root =>
    refine ⟨h.keyed, h.albums, h.payloads, h.dirs, ?_⟩
    intro e he
    rcases List.mem_append.mp he with hold | hnew
    · exact h.swept e hold
    · exact mem_stale_albums hnew
  | write =>
    cases hswept : s.swept with
    | nil =>
      rw [next_write_of_nil hswept]
      exact h
    | cons e swept =>
      obtain ⟨dir, album_id⟩ := e
      rw [next_write hswept]
      refine ⟨?_, ?_, ?_, h.dirs.erase dir, ?_⟩
      · intro id record hrow
        exact h.keyed id record (get_asset_sweep_dir_album.mp hrow).2
      · intro id record hrow
        exact h.albums id record (get_asset_sweep_dir_album.mp hrow).2
      · intro id record hrow
        obtain ⟨hne, hrow⟩ := get_asset_sweep_dir_album.mp hrow
        obtain ⟨payload, hpayload⟩ := h.payloads id record hrow
        exact ⟨payload, Table.lookup_erase_eq_some.mpr ⟨hne, hpayload⟩⟩
      · intro e he
        apply h.swept
        rw [hswept]
        exact List.mem_cons_of_mem _ he
  | restart =>
    refine ⟨h.keyed, h.albums, h.payloads, ?_, fun e he => by cases he⟩
    intro d id hlook
    obtain ⟨-, record, -, rfl, -⟩ := loads_of_lookup hlook
    exact wellFormed_ofString record.path

theorem base_run (labels : List Label) : (LTS.run next (start exists_ is_dir) labels).Base :=
  LTS.run_invariant (I := Base) (base_start exists_ is_dir) fun _ l _ h => h.next l

theorem good_start : (start exists_ is_dir).Good where
  unique dir id id' h := by
    obtain ⟨record, hrow, -⟩ := h
    cases hrow
  cached _ _ h := by cases h

/-! ## Careful runs -/

/-- Every album is cached and in the path index. -/
def Known (s : DirAlbums) : Prop :=
  ∀ dir id, s.AlbumAt dir id → s.lib.dirs.lookup dir = some id ∧
    s.lib.store.get_asset_id_by_path dir.display = some id

/-- A directory is evicted only after its album is gone, the writer removes an album only while it
is the one of its directory, and the server is restarted only while the directories of all
albums are there. -/
def Careful (s : DirAlbums) : Label → Prop
  | .evict dir => ∀ id, ¬ s.AlbumAt dir id
  | .write => ∀ e swept, s.swept = e :: swept → ∀ dir id, s.AlbumAt dir id → (dir = e.1 ↔ id = e.2)
  | .restart => ∀ dir id, s.AlbumAt dir id → s.is_dir dir = true
  | _ => True

theorem Known.stepOk (h : s.Known) (hbase : s.Base) (l : Label) : s.StepOk l := by
  cases l with
  | get_or_create to_uppercase now info random_hash dir =>
    intro hnone id hid
    rw [(h dir.val id hid).1] at hnone
    cases hnone
  | restart =>
    intro id record hloads
    exact (h _ id ⟨record, hloads.2.1, hbase.albums id record hloads.2.1, rfl⟩).2
  | evict | disk | refresh | sweep | write => trivial

theorem Known.next (h : s.Known) (hbase : s.Base) (hgood : s.Good) {l : Label}
    (hcareful : s.Careful l) : (s.next l).Known := by
  cases l with
  | get_or_create to_uppercase now info random_hash dir =>
    cases hdir : s.lib.dirs.lookup dir.val with
    | some id =>
      rw [next_get_or_create_of_some hdir]
      exact h
    | none =>
      intro d id hid
      rcases (albumAt_get_or_create hdir).mp hid with ⟨rfl, rfl⟩ | ⟨-, hold⟩
      · rw [next_get_or_create_of_none hdir]
        exact ⟨AList.lookup_insert _, AList.lookup_insert _⟩
      · obtain ⟨hlook, hentry⟩ := h d id hold
        have hne : d ≠ dir.val := by
          rintro rfl
          rw [hdir] at hlook
          cases hlook
        have htext := hbase.display_ne dir.property hlook hne
        rw [next_get_or_create_of_none hdir]
        exact ⟨(AList.lookup_insert_ne hne).trans hlook, (AList.lookup_insert_ne htext).trans hentry⟩
  | evict dir =>
    intro d id hid
    obtain ⟨hlook, hentry⟩ := h d id hid
    refine ⟨Table.lookup_erase_eq_some.mpr ⟨?_, hlook⟩, hentry⟩
    rintro rfl
    exact hcareful id hid
  | disk | refresh | sweep => exact h
  | write =>
    cases hswept : s.swept with
    | nil =>
      rw [next_write_of_nil hswept]
      exact h
    | cons e swept =>
      obtain ⟨dir, album_id⟩ := e
      intro d id hid
      obtain ⟨hne, hold⟩ := (albumAt_write hswept).mp hid
      obtain ⟨hlook, hentry⟩ := h d id hold
      have hdir : d ≠ dir := fun heq => hne ((hcareful _ _ hswept d id hold).mp heq)
      have htext := hbase.display_ne (hbase.wellFormed_swept hswept) hlook hdir
      rw [next_write hswept]
      exact ⟨Table.lookup_erase_eq_some.mpr ⟨hdir, hlook⟩,
        Table.lookup_erase_eq_some.mpr ⟨htext, hentry⟩⟩
  | restart =>
    intro d id hid
    obtain ⟨-, hentry⟩ := h d id hid
    refine ⟨?_, hentry⟩
    have hthere := hcareful d id hid
    obtain ⟨record, hrow, -, rfl⟩ := hid
    exact lookup_init_dir_album_cache hbase hgood ⟨hbase.payloads id record hrow, hrow, hthere⟩

/-- Every directory has at most one album, and what is cached is in the path index, throughout a
run exactly if every creation finds no other album in its directory, and every restart loads
only albums that the path index knows. So it is in every careful run. -/
theorem one_album_per_directory_iff (exists_ is_dir : PathBuf → Bool) (labels : List Label) :
    ((∀ done, done <+: labels → (LTS.run next (start exists_ is_dir) done).Good) ↔
      ∀ done l, done ++ [l] <+: labels → (LTS.run next (start exists_ is_dir) done).StepOk l) ∧
    ((∀ done l, done ++ [l] <+: labels → (LTS.run next (start exists_ is_dir) done).Careful l) →
      ∀ done, done <+: labels → (LTS.run next (start exists_ is_dir) done).Good) := by
  constructor
  · apply LTS.run_invariant_iff (good_start exists_ is_dir)
    intro done l _ hgood
    exact good_next_iff (base_run exists_ is_dir done) hgood l
  · intro hcareful done hdone
    refine (LTS.run_induction (Q := fun _ (s : DirAlbums) => s.Base ∧ s.Known ∧ s.Good)
      ⟨base_start exists_ is_dir, ?_, good_start exists_ is_dir⟩ ?_).2.2
    · rintro dir id ⟨record, hrow, -⟩
      cases hrow
    · intro pre l hpre hinv
      obtain ⟨hbase, hknown, hgood⟩ := hinv
      have hstep := hcareful pre l (hpre.trans hdone)
      exact ⟨hbase.next l, hknown.next hbase hgood hstep,
        (good_next_iff hbase hgood l).mpr (hknown.stepOk hbase l)⟩

/-- The directory of the examples. -/
def trip_dir : { p : PathBuf // WellFormed p } :=
  ⟨ofString "/photos/trip", wellFormed_ofString "/photos/trip"⟩

/-- The album of a directory is made, a refused delete request evicts it, and the directory is
indexed again: it has two albums. -/
theorem evicted_directory_gets_second_album :
    let create := fun id => Label.get_or_create Char.toString 0 {} id trip_dir
    let s := LTS.run next (start (fun _ => true) fun _ => true)
      [create "a", .evict trip_dir.val, create "b"]
    s.AlbumAt trip_dir.val "a" ∧ s.AlbumAt trip_dir.val "b" ∧ ¬ s.Good := by
  intro create s
  have ha : s.AlbumAt trip_dir.val "a" :=
    ⟨.new_album 0 "a" "/photos/trip", by decide +kernel, rfl, rfl⟩
  have hb : s.AlbumAt trip_dir.val "b" :=
    ⟨.new_album 0 "b" "/photos/trip", by decide +kernel, rfl, rfl⟩
  refine ⟨ha, hb, fun hgood => ?_⟩
  exact absurd (hgood.unique _ _ _ ha hb) (by decide)

end DirAlbums
