import Picasu.Router.Albums
import Picasu.Router.Delete

/-! # Deleting an Album

`delete_data` on an album removes the records of everything below its directory
(`cleanup_album_descendants`), flushes the removal of those records and of the album itself,
rebuilds the tree and refreshes the affected albums.

The descendants' rows leave `ASSET_BY_ID`, `ASSET_BY_PATH` and `DUPE_INDEX` first, so the flush
that follows, which looks an asset up by its path, finds nothing to remove and their rows stay in
`METADATA_TABLE`. The album itself is no descendant of its directory, and a flush finds albums by
neither path nor content hash, so its own rows stay everywhere but in the directory cache.
-/

open PathBuf

/-! ## The handler -/

/-- What a deletion asks its surroundings. The file system answers differently while it loses files:
at the checks, at the flush of the descendants and at the last flush. -/
structure DeleteEnv where
  now : Int
  roots : Roots
  refuses : PathBuf → Bool
  fs_cleanup : Fs
  fs_flush : Fs
  timestamp : AbstractData → Int

/-- One turn of the loop over the descendants. -/
def remove_descendant (refuses : PathBuf → Bool) (st : Library × MediaDisk) (desc : AssetRecord) :
    Library × MediaDisk :=
  ({ store := st.1.store.remove_asset desc
     dirs := if desc.kind = .album then evict_dir_album (ofString desc.path) st.1.dirs
       else st.1.dirs },
    { st.2 with files := remove_asset_file refuses (ofString desc.path) st.2.files })

/-- `std::fs::remove_dir_all`, as far as it gets. -/
def remove_dir_all (refuses : PathBuf → Bool) (dir : PathBuf) (files : FileMap ByteArray) :
    FileMap ByteArray :=
  fun p => if starts_with p dir && !refuses p then none else files p

variable (env : DeleteEnv)

/-- `cleanup_album_descendants`, on one view. -/
def cleanup_album (st : Library × MediaDisk) (data : AbstractData) : Library × MediaDisk :=
  match data with
  | .album alb =>
    if alb.metadata.dir_path = "" then st
    else
      let descendants := st.1.store.get_assets_under_path alb.metadata.dir_path
      let (lib, disk) := descendants.foldl (remove_descendant env.refuses) st
      let store := flush_tables env.now env.fs_cleanup []
        (descendants.map (asset_record_to_abstract_data env.now)) lib.store
      ({ lib with store },
        { disk with
          files := remove_dir_all env.refuses (ofString alb.metadata.dir_path) disk.files })
  | _ => st

def cleanup_album_descendants (abstract_data_to_remove : List AbstractData)
    (st : Library × MediaDisk) : Library × MediaDisk :=
  abstract_data_to_remove.foldl (cleanup_album env) st

/-- Refresh albums one after the other, over the tree of the moment. -/
def refresh_albums (album_ids : List String) (tables : Tables) : Tables :=
  let tree := refresh_tree_cache env.now env.timestamp tables
  album_ids.foldl (fun tables album_id => album_task env.now tree album_id tables) tables

/-- `delete_data`, for a caller that passed the guards. `pending` are the albums that wait for a
refresh when the tree is rebuilt. -/
def delete_data (caller : String) (asset_ids pending : List String) (lib : Library)
    (disk : MediaDisk) : Except AppError Unit × Library × MediaDisk :=
  if asset_ids = [] then (.error (.new .invalidInput "assetIds must not be empty"), lib, disk)
  else
    match process_deletes env.now env.roots env.refuses caller asset_ids lib disk with
    | (.error err, lib, disk) => (.error err, lib, disk)
    | (.ok (abstract_data_to_remove, all_affected_album_ids), lib, disk) =>
      let (lib, disk) := cleanup_album_descendants env abstract_data_to_remove (lib, disk)
      let store := flush_tables env.now env.fs_flush [] abstract_data_to_remove lib.store
      let tables := refresh_albums env pending store.tables
      let tables := refresh_albums env all_affected_album_ids tables
      (.ok (), { lib with store := { store with tables } }, disk)

/-! ## What a removal can do

Flushes only take rows away, and refreshes only rewrite rows that are there. -/

structure Shrinks (s₀ s : AssetStore) : Prop where
  assets : ∀ id record, s.tables.assets.lookup id = some record →
    s₀.tables.assets.lookup id = some record
  by_path : ∀ path id, s.by_path.lookup path = some id → s₀.by_path.lookup path = some id
  dupes : ∀ hash id, id ∈ s.get_dupe_ids hash → id ∈ s₀.get_dupe_ids hash

/-- Besides, the rows of every asset that is not `gone` are the same. -/
structure Loses (gone : String → Prop) (s₀ s : AssetStore) : Prop extends Shrinks s₀ s where
  kept : ∀ id, ¬ gone id → s.tables.assets.lookup id = s₀.tables.assets.lookup id ∧
    s.tables.metadata.lookup id = s₀.tables.metadata.lookup id

variable {id d album_id : String} {s s₀ s₁ : AssetStore} {record : AssetRecord} {lib : Library}
  {alb : AlbumCombined} {gone gone' : String → Prop}

theorem Shrinks.trans {s₂ : AssetStore} (h : Shrinks s₀ s₁) (h' : Shrinks s₁ s₂) :
    Shrinks s₀ s₂ :=
  ⟨fun id r hr => h.assets id r (h'.assets id r hr),
    fun p id hp => h.by_path p id (h'.by_path p id hp),
    fun hash id hid => h.dupes hash id (h'.dupes hash id hid)⟩

theorem Shrinks.refl (s : AssetStore) : Shrinks s s :=
  ⟨fun _ _ h => h, fun _ _ h => h, fun _ _ h => h⟩

theorem Loses.refl (s : AssetStore) : Loses gone s s := ⟨.refl s, fun _ _ => ⟨rfl, rfl⟩⟩

theorem Loses.trans (h : Loses gone s₀ s₁) (h' : Loses gone' s₁ s)
    (hgone : ∀ id, gone' id → gone id) : Loses gone s₀ s where
  toShrinks := h.toShrinks.trans h'.toShrinks
  kept id hid := by
    obtain ⟨hassets, hmetadata⟩ := h.kept id hid
    obtain ⟨hassets', hmetadata'⟩ := h'.kept id fun hgone' => hid (hgone id hgone')
    exact ⟨hassets'.trans hassets, hmetadata'.trans hmetadata⟩

theorem loses_remove_asset_from_tables (asset_id path hash : String) (s : AssetStore) :
    Loses (· = asset_id) s (remove_asset_from_tables asset_id path hash s) where
  assets id record h := by
    rw [tables_remove_asset_from_tables] at h
    exact (Table.lookup_erase_eq_some.mp h).2
  by_path p id h := by
    rw [by_path_remove_asset_from_tables] at h
    exact (Table.lookup_erase_eq_some.mp h).2
  dupes hash' id h := (AssetStore.mem_get_dupe_ids_remove _).mp h |>.1
  kept id hne := by
    rw [tables_remove_asset_from_tables]
    exact ⟨AList.lookup_erase_ne hne, AList.lookup_erase_ne hne⟩

/-- What a flush may remove: the asset its path points at, or an asset of its group that has a
record. -/
def Flushed (s : AssetStore) (data : AbstractData) (id : String) : Prop :=
  if flush_path data = "" then
    id ∈ s.get_dupe_ids data.hash ∧ s.tables.assets.lookup id ≠ none
  else s.by_path.lookup (flush_path data) = some id

/-- The loop over a group: what it removes had a record in `s₀`. -/
theorem loses_foldl_remove_if_vanished (fs : Fs) (hash : String) {ids : List String}
    (hids : ∀ id ∈ ids, s₀.tables.assets.lookup id ≠ none → gone id) (h : Loses gone s₀ s) :
    Loses gone s₀ (ids.foldl (remove_if_vanished fs hash) s) := by
  induction ids generalizing s with
  | nil => exact h
  | cons id ids ih =>
    have hlater := fun x hx => hids x (List.mem_cons_of_mem id hx)
    rw [List.foldl_cons]
    unfold remove_if_vanished
    split
    · rename_i record hrecord
      split
      · exact ih hlater h
      · refine ih hlater (h.trans (loses_remove_asset_from_tables id record.path hash s) ?_)
        rintro _ rfl
        exact hids _ List.mem_cons_self (by simp [h.assets _ record hrecord])
    · exact ih hlater h

/-- A flush shrinks the store and keeps the rows of every asset it may not remove. -/
theorem loses_flush_remove (fs : Fs) (data : AbstractData) (s : AssetStore) :
    Loses (Flushed s data) s (flush_remove fs data s) := by
  unfold flush_remove Flushed
  split
  · exact loses_foldl_remove_if_vanished fs data.hash (fun id hid hrow => ⟨hid, hrow⟩) (.refl s)
  split
  · rename_i asset_id hfound
    refine (Loses.refl s).trans (loses_remove_asset_from_tables asset_id _ _ s) ?_
    rintro _ rfl
    exact hfound
  · exact .refl s

/-- A later state can remove no more. -/
theorem Flushed.of_shrinks (h : Shrinks s₀ s) {data : AbstractData} (hid : Flushed s data id) :
    Flushed s₀ data id := by
  unfold Flushed at hid ⊢
  split
  · rename_i hpath
    rw [if_pos hpath] at hid
    obtain ⟨hgroup, hrow⟩ := hid
    obtain ⟨record, hrecord⟩ := Option.ne_none_iff_exists'.mp hrow
    exact ⟨h.dupes _ _ hgroup, by simp [h.assets _ _ hrecord]⟩
  · rename_i hpath
    rw [if_neg hpath] at hid
    exact h.by_path _ _ hid

theorem loses_flush_removes (now : Int) (fs : Fs) (list : List AbstractData) (s : AssetStore) :
    Loses (fun id => ∃ data ∈ list, Flushed s data id) s (flush_tables now fs [] list s) := by
  induction list generalizing s with
  | nil => exact .refl s
  | cons data list ih =>
    have hfirst := loses_flush_remove fs data s
    refine ((Loses.refl s).trans hfirst ?_).trans (ih (flush_remove fs data s)) ?_
    · exact fun id hid => ⟨data, List.mem_cons_self, hid⟩
    · rintro id ⟨data', hdata', hid⟩
      exact ⟨data', List.mem_cons_of_mem _ hdata', hid.of_shrinks hfirst.toShrinks⟩

/-! ## Refreshes -/

/-- A refresh keeps the path of every record, and which assets have records and payloads. -/
theorem rows_album_task (now : Int) (tree : MemoryTree) (album_id : String) (tables : Tables)
    (id : String) :
    ((album_task now tree album_id tables).assets.lookup id).map AssetRecord.path =
        (tables.assets.lookup id).map AssetRecord.path ∧
      ((album_task now tree album_id tables).metadata.lookup id).isSome =
        (tables.metadata.lookup id).isSome := by
  have hclear : ((clear_membership album_id tree tables.assets).lookup id).map AssetRecord.path =
      (tables.assets.lookup id).map AssetRecord.path := by
    apply Table.map_lookup_foldl_rewriteAt
    intro record record' hrewrite
    split at hrewrite
    · obtain rfl := Option.some.inj hrewrite
      rfl
    · cases hrewrite
  simp only [album_task]
  split
  · rename_i record payload _ hpayload
    split
    · -- the payload is there already
      refine ⟨rfl, ?_⟩
      by_cases hid : id = album_id
      · subst hid
        simp [put_album, hpayload]
      · simp [put_album, AList.lookup_insert_ne hid]
    · exact ⟨hclear, rfl⟩
  · exact ⟨hclear, rfl⟩

theorem rows_refresh_albums (album_ids : List String) (tables : Tables) (id : String) :
    ((refresh_albums env album_ids tables).assets.lookup id).map AssetRecord.path =
        (tables.assets.lookup id).map AssetRecord.path ∧
      ((refresh_albums env album_ids tables).metadata.lookup id).isSome =
        (tables.metadata.lookup id).isSome := by
  simp only [refresh_albums]
  generalize refresh_tree_cache env.now env.timestamp tables = tree
  induction album_ids generalizing tables with
  | nil => exact ⟨rfl, rfl⟩
  | cons album_id album_ids ih =>
    rw [List.foldl_cons]
    obtain ⟨hassets, hmetadata⟩ := rows_album_task env.now tree album_id tables id
    obtain ⟨hassets', hmetadata'⟩ := ih (album_task env.now tree album_id tables)
    exact ⟨hassets'.trans hassets, hmetadata'.trans hmetadata⟩

/-! ## Removing the descendants -/

theorem rows_remove_asset (record : AssetRecord) (s : AssetStore) :
    (s.remove_asset record).tables.assets = s.tables.assets.erase record.asset_id ∧
      (s.remove_asset record).tables.metadata = s.tables.metadata ∧
      (s.remove_asset record).by_path = s.by_path.erase record.path ∧
      ∀ hash id, id ∈ (s.remove_asset record).get_dupe_ids hash →
        id ∈ s.get_dupe_ids hash ∧ (record.content_hash = some hash → id ≠ record.asset_id) := by
  unfold AssetStore.remove_asset
  dsimp only
  split
  · rename_i hash hhash
    rw [AssetStore.tables_remove_from_dupe_group, AssetStore.by_path_remove_from_dupe_group]
    refine ⟨rfl, rfl, rfl, fun hash' id hmem => ?_⟩
    obtain ⟨hold, hother⟩ := (AssetStore.mem_get_dupe_ids_remove _).mp hmem
    exact ⟨hold, fun hhash' hid => hother ⟨Option.mem_unique hhash' hhash, hid⟩⟩
  · rename_i hnone
    refine ⟨rfl, rfl, rfl, fun hash id hmem => ⟨hmem, fun hhash => ?_⟩⟩
    cases hnone.symm.trans hhash

theorem shrinks_remove_asset (record : AssetRecord) (s : AssetStore) :
    Shrinks s (s.remove_asset record) := by
  obtain ⟨hassets, -, hby_path, hdupes⟩ := rows_remove_asset record s
  refine ⟨fun id r h => ?_, fun p id h => ?_, fun hash id h => (hdupes hash id h).1⟩
  · rw [hassets] at h
    exact (Table.lookup_erase_eq_some.mp h).2
  · rw [hby_path] at h
    exact (Table.lookup_erase_eq_some.mp h).2

/-- After the loop the descendants have no record, no path entry and no group, their payloads are
untouched, and so are the records of all others. -/
theorem remove_descendants_spec (refuses : PathBuf → Bool) (descendants : List AssetRecord)
    (st : Library × MediaDisk) :
    let after := descendants.foldl (remove_descendant refuses) st
    Shrinks st.1.store after.1.store ∧
      (∀ desc ∈ descendants, after.1.store.tables.assets.lookup desc.asset_id = none ∧
        after.1.store.by_path.lookup desc.path = none ∧
        ∀ hash, desc.content_hash = some hash → desc.asset_id ∉ after.1.store.get_dupe_ids hash) ∧
      after.1.store.tables.metadata = st.1.store.tables.metadata ∧
      ∀ id, (∀ desc ∈ descendants, desc.asset_id ≠ id) →
        after.1.store.tables.assets.lookup id = st.1.store.tables.assets.lookup id := by
  induction descendants generalizing st with
  | nil =>
    exact ⟨Shrinks.refl _, fun desc hdesc => absurd hdesc List.not_mem_nil, rfl, fun id _ => rfl⟩
  | cons first descendants ih =>
    obtain ⟨hshrinks, hgone, hmetadata, hkept⟩ := ih (remove_descendant refuses st first)
    obtain ⟨hassets₁, hmetadata₁, hby_path₁, hdupes₁⟩ := rows_remove_asset first st.1.store
    refine ⟨(shrinks_remove_asset first st.1.store).trans hshrinks, ?_,
      hmetadata.trans hmetadata₁, ?_⟩
    · intro desc hdesc
      rcases List.mem_cons.mp hdesc with rfl | hdesc
      · -- the rows of the first one do not come back
        refine ⟨Option.eq_none_iff_forall_ne_some.mpr fun r hr => ?_,
          Option.eq_none_iff_forall_ne_some.mpr fun id hid => ?_, fun hash hhash hmem => ?_⟩
        · have hbefore := hshrinks.assets _ _ hr
          rw [show (remove_descendant refuses st desc).1.store.tables.assets = _ from hassets₁]
            at hbefore
          exact (Table.lookup_erase_eq_some.mp hbefore).1 rfl
        · have hbefore := hshrinks.by_path _ _ hid
          rw [show (remove_descendant refuses st desc).1.store.by_path = _ from hby_path₁]
            at hbefore
          exact (Table.lookup_erase_eq_some.mp hbefore).1 rfl
        · exact (hdupes₁ hash _ (hshrinks.dupes _ _ hmem)).2 hhash rfl
      · exact hgone desc hdesc
    · intro id hid
      rw [List.foldl_cons, hkept id fun desc hdesc => hid desc (List.mem_cons_of_mem _ hdesc)]
      show (st.1.store.remove_asset first).tables.assets.lookup id = _
      rw [hassets₁, AList.lookup_erase_ne (hid first List.mem_cons_self).symm]

/-- The loop evicts the directories of the albums among the descendants. -/
theorem dirs_remove_descendants (refuses : PathBuf → Bool) (descendants : List AssetRecord)
    (st : Library × MediaDisk) (dir : PathBuf) :
    (descendants.foldl (remove_descendant refuses) st).1.dirs.lookup dir =
      if ∃ desc ∈ descendants, desc.kind = .album ∧ ofString desc.path = dir then none
      else st.1.dirs.lookup dir := by
  induction descendants generalizing st with
  | nil => simp
  | cons first descendants ih =>
    have hturn : (remove_descendant refuses st first).1.dirs.lookup dir =
        if first.kind = .album ∧ ofString first.path = dir then none else st.1.dirs.lookup dir := by
      show (if first.kind = .album then _ else _ : DirAlbumCache).lookup _ = _
      split
      · rename_i hkind
        rw [evict_dir_album, Table.lookup_erase]
        simp only [hkind, true_and, eq_comm]
      · rename_i hkind
        rw [if_neg fun hfirst => hkind hfirst.1]
    rw [List.foldl_cons, ih, hturn]
    by_cases hfirst : first.kind = .album ∧ ofString first.path = dir
    · simp [hfirst]
    · simp only [List.mem_cons, exists_eq_or_imp, hfirst, false_or, if_false]

/-! ## The tree of an album -/

def AtOrBelow (d path : String) : Prop := path = d ∨ AssetStore.is_under d path = true

def InTree (s : AssetStore) (d id : String) : Prop :=
  ∃ record, s.get_asset_by_id id = some record ∧ AtOrBelow d record.path

/-- The four tables describe the same assets. -/
structure IndexAgreement (s : AssetStore) : Prop where
  /-- Records are stored under their own id. -/
  keyed : ∀ id record, s.get_asset_by_id id = some record → record.asset_id = id
  /-- `ASSET_BY_PATH` is the inverse of `ASSET_BY_ID`. -/
  by_path : ∀ path id, s.get_asset_id_by_path path = some id ↔
    ∃ record, s.get_asset_by_id id = some record ∧ record.path = path
  /-- Only assets have payloads. -/
  metadata : ∀ id, s.tables.metadata.lookup id ≠ none → s.get_asset_by_id id ≠ none
  /-- `DUPE_INDEX` groups the media by their content hash. -/
  dupes : ∀ hash id, id ∈ s.get_dupe_ids hash ↔
    ∃ record, s.get_asset_by_id id = some record ∧ record.kind ≠ .album ∧
      record.content_hash = some hash

/-- No table has an entry for an asset that was at or below the directory, or for a path there. -/
structure NoTrace (s₀ : AssetStore) (d : String) (lib : Library) : Prop where
  assets : ∀ id record, lib.store.get_asset_by_id id = some record →
    ¬ InTree s₀ d id ∧ ¬ AtOrBelow d record.path
  by_path : ∀ path id, lib.store.get_asset_id_by_path path = some id →
    ¬ InTree s₀ d id ∧ ¬ AtOrBelow d path
  dupes : ∀ hash id, id ∈ lib.store.get_dupe_ids hash → ¬ InTree s₀ d id
  metadata : ∀ id, InTree s₀ d id → lib.store.tables.metadata.lookup id = none
  dirs : ∀ dir id, lib.dirs.lookup dir = some id →
    ¬ InTree s₀ d id ∧ starts_with dir (ofString d) = false

/-- Some album at or below the directory has this path. -/
def AlbumDir (s : AssetStore) (d : String) (dir : PathBuf) : Prop :=
  ∃ album_id record, s.get_asset_by_id album_id = some record ∧ record.kind = .album ∧
    AtOrBelow d record.path ∧ ofString record.path = dir

/-- What it takes for a deletion to leave no trace: the directory's path ends in a separator, so
that it counts as below itself; nothing in the tree has a payload; and the cache knows the tree
by its albums' paths. -/
structure Removable (lib : Library) (d : String) : Prop where
  separator : d.toList.getLast? = some '/'
  metadata : ∀ id, InTree lib.store d id → lib.store.tables.metadata.lookup id = none
  dirs : ∀ dir id, lib.dirs.lookup dir = some id →
    InTree lib.store d id ∨ starts_with dir (ofString d) = true → AlbumDir lib.store d dir

/-- A directory is below itself exactly when its path ends in a separator. -/
theorem is_under_self (d : String) :
    AssetStore.is_under d d = true ↔ d.toList.getLast? = some '/' := by
  unfold AssetStore.is_under AssetStore.children_of
  split
  · rename_i hsep
    simp [hsep]
  · rename_i hsep
    constructor
    · intro hself
      have hlen := (List.isPrefixOf_iff_prefix.mp hself).length_le
      rw [String.toList_append, List.length_append] at hlen
      have hone : "/".toList.length = 1 := by decide
      omega
    · exact fun h => absurd h hsep

theorem ne_empty_of_is_under {path : String} (h : AssetStore.is_under d path = true) :
    path ≠ "" := by
  rintro rfl
  have hlen := (List.isPrefixOf_iff_prefix.mp h).length_le
  have hpos : 0 < (AssetStore.children_of d).toList.length := by
    unfold AssetStore.children_of
    split
    · rename_i hsep
      cases hd : d.toList with
      | nil => simp [hd] at hsep
      | cons c cs => simp
    · simp
  have hzero : "".toList.length = 0 := by decide
  omega

theorem mem_get_assets_under_path :
    record ∈ s.get_assets_under_path d ↔
      (∃ id, s.get_asset_by_id id = some record) ∧ AssetStore.is_under d record.path = true := by
  unfold AssetStore.get_assets_under_path AssetStore.get_all_assets
  rw [List.mem_filter, Table.mem_values]
  rfl

/-! ## What a successful deletion did -/

theorem compose_album_view (now : Int) (hkind : record.kind = .album)
    (meta_ : Option MetadataRecord) :
    ∃ alb, compose_abstract_data now record meta_ = .album alb ∧
      alb.metadata.dir_path = record.path := by
  unfold compose_abstract_data
  rw [hkind]
  refine ⟨_, rfl, ?_⟩
  unfold compose_album
  split <;> rfl

/-- The library after the checks: the album's directory is evicted. -/
def evicted_library (d : String) (lib : Library) : Library :=
  { lib with dirs := if d = "" then lib.dirs else evict_dir_album (ofString d) lib.dirs }

def cleaned_library (d : String) (alb : AlbumCombined) (lib : Library)
    (disk : MediaDisk) : Library :=
  (cleanup_album env (evicted_library d lib, disk) (.album alb)).1

theorem delete_data_album_eq {env : DeleteEnv} {caller : String} {pending : List String}
    {lib' : Library} {disk disk' : MediaDisk}
    (hrecord : lib.store.get_asset_by_id album_id = some record) (hkind : record.kind = .album)
    (h : delete_data env caller [album_id] pending lib disk = (.ok (), lib', disk')) :
    ∃ alb disk₁, alb.metadata.dir_path = record.path ∧
      let cleaned := cleaned_library env record.path alb lib disk₁
      let flushed := flush_tables env.now env.fs_flush [] [.album alb] cleaned.store
      lib' = { cleaned with store := { flushed with
        tables := refresh_albums env [alb.object.id] (refresh_albums env pending flushed.tables) } } := by
  unfold delete_data at h
  rw [if_neg (List.cons_ne_nil _ _)] at h
  unfold process_deletes at h
  cases hresolve : resolve_delete env.now env.roots caller lib.store.tables album_id with
  | error err =>
    rw [resolve_deletes_cons_error hresolve] at h
    cases h
  | ok data =>
    have hdata := resolve_delete_eq_ok hresolve
    unfold compose_by_asset_id at hdata
    rw [show lib.store.tables.assets.lookup album_id = some record from hrecord] at hdata
    obtain ⟨alb, halb, hdir⟩ := compose_album_view env.now hkind
      (lib.store.tables.metadata.lookup album_id)
    obtain rfl : .album alb = data := halb.symm.trans (Option.some.inj hdata)
    have hevict : { lib with dirs := evict_resolved (.album alb) lib.dirs } =
        evicted_library record.path lib := by
      unfold evicted_library evict_resolved evicted_dir
      dsimp only
      rw [hdir]
      by_cases hempty : record.path = ""
      · rw [if_pos hempty, if_pos hempty]
      · rw [if_neg hempty, if_neg hempty]
    rw [resolve_deletes_cons_ok hresolve] at h
    simp only [resolve_deletes, Except.map] at h
    rw [hevict] at h
    obtain ⟨-, h⟩ := Prod.mk.inj h
    obtain ⟨rfl, -⟩ := Prod.mk.inj h
    exact ⟨alb, [AbstractData.album alb].foldl (delete_from_disk env.refuses lib.store) disk, hdir,
      rfl⟩

/-! ## What the cleanup leaves -/

def Grouped (s : AssetStore) (id : String) : Prop :=
  (∃ hash, id ∈ s.get_dupe_ids hash) ∧ s.tables.assets.lookup id ≠ none

/-- A flush of an album removes assets only through its group. -/
theorem flushed_album (h : Flushed s (.album alb) id) : Grouped s id := by
  have hpath : flush_path (.album alb) = "" := rfl
  unfold Flushed at h
  rw [if_pos hpath] at h
  exact ⟨⟨_, h.1⟩, h.2⟩

/-- So does a flush of a descendant whose path entry is gone. -/
theorem flushed_descendant {now : Int} {desc : AssetRecord}
    (hpath : s.by_path.lookup desc.path = none) (hne : desc.path ≠ "")
    (h : Flushed s (asset_record_to_abstract_data now desc) id) : Grouped s id := by
  have hmedia : flush_path (asset_record_to_abstract_data now desc) = desc.path → False := by
    intro hflush
    unfold Flushed at h
    rw [hflush, if_neg hne, hpath] at h
    cases h
  unfold asset_record_to_abstract_data at h hmedia
  split at h
  · rename_i hkind
    rw [hkind] at hmedia
    exact absurd rfl hmedia
  · rename_i hkind
    rw [hkind] at hmedia
    exact absurd rfl hmedia
  · exact flushed_album h

def looped_library (d : String) (lib : Library) (disk : MediaDisk) : Library :=
  ((lib.store.get_assets_under_path d).foldl (remove_descendant env.refuses)
    (evicted_library d lib, disk)).1

/-- The cleanup takes rows away, and keeps those of every asset that is in no group, or whose record
is gone after the loop. -/
theorem loses_cleaned_library (hdir : alb.metadata.dir_path = d) (lib : Library) (disk : MediaDisk)
    (hd : d ≠ "") :
    let looped := looped_library env d lib disk
    let cleaned := cleaned_library env d alb lib disk
    Loses (Grouped looped.store) looped.store cleaned.store ∧ cleaned.dirs = looped.dirs := by
  intro looped cleaned
  obtain ⟨-, hgone, -, -⟩ := remove_descendants_spec env.refuses
    (lib.store.get_assets_under_path d) (evicted_library d lib, disk)
  have hcleaned : cleaned = { looped with
      store := flush_tables env.now env.fs_cleanup [] ((lib.store.get_assets_under_path d).map
        (asset_record_to_abstract_data env.now)) looped.store } := by
    simp only [cleaned, cleaned_library, cleanup_album]
    rw [if_neg (by rw [hdir]; exact hd), hdir]
    rfl
  rw [hcleaned]
  refine ⟨(Loses.refl _).trans (loses_flush_removes env.now env.fs_cleanup _ looped.store) ?_, rfl⟩
  rintro id ⟨data, hdata, hflushed⟩
  obtain ⟨desc, hdesc, rfl⟩ := List.mem_map.mp hdata
  exact flushed_descendant (hgone desc hdesc).2.1
    (ne_empty_of_is_under (mem_get_assets_under_path.mp hdesc).2) hflushed

/-- Without a separator at its end, the album keeps its record. -/
theorem album_row_kept (hagree : IndexAgreement lib.store)
    (hrecord : lib.store.get_asset_by_id album_id = some record) (hkind : record.kind = .album)
    (hdir : alb.metadata.dir_path = record.path) (hsep : record.path.toList.getLast? ≠ some '/')
    (disk : MediaDisk) :
    (∀ hash, album_id ∉ (cleaned_library env record.path alb lib disk).store.get_dupe_ids hash) ∧
      (cleaned_library env record.path alb lib disk).store.tables.assets.lookup album_id =
        some record := by
  -- an album is in no group
  have hgroup : ∀ hash, album_id ∉ lib.store.get_dupe_ids hash := by
    intro hash hmem
    obtain ⟨record', hrecord', hmedia, -⟩ := (hagree.dupes hash album_id).mp hmem
    obtain rfl := Option.mem_unique hrecord hrecord'
    exact hmedia hkind
  by_cases hd : record.path = ""
  · have hsame : cleaned_library env record.path alb lib disk = evicted_library record.path lib := by
      unfold cleaned_library cleanup_album
      dsimp only
      rw [if_pos (hdir.trans hd)]
    rw [hsame]
    exact ⟨hgroup, hrecord⟩
  · obtain ⟨hloop, -, -, hkept⟩ := remove_descendants_spec env.refuses
      (lib.store.get_assets_under_path record.path) (evicted_library record.path lib, disk)
    obtain ⟨hloses, -⟩ := loses_cleaned_library env hdir lib disk hd
    have hgroup' : ∀ hash,
        album_id ∉ (looped_library env record.path lib disk).store.get_dupe_ids hash :=
      fun hash hmem => hgroup hash (hloop.dupes _ _ hmem)
    -- it is no descendant of its own directory
    have hother : ∀ desc ∈ lib.store.get_assets_under_path record.path, desc.asset_id ≠ album_id := by
      rintro desc hdesc rfl
      obtain ⟨⟨id, hid⟩, hunder⟩ := mem_get_assets_under_path.mp hdesc
      have hkey := hagree.keyed id desc hid
      rw [hkey, hid] at hrecord
      obtain rfl := Option.some.inj hrecord
      exact hsep ((is_under_self _).mp hunder)
    refine ⟨fun hash hmem => hgroup' hash (hloses.dupes _ _ hmem), ?_⟩
    rw [(hloses.kept album_id fun h => h.1.elim hgroup').1]
    exact (hkept album_id hother).trans hrecord

/-- With a separator at its end, the cleanup removes the tree from three of the tables, leaves its
payloads, and evicts the tree's albums by their paths. -/
theorem tree_cleared (hagree : IndexAgreement lib.store)
    (hrecord : lib.store.get_asset_by_id album_id = some record) (hkind : record.kind = .album)
    (hdir : alb.metadata.dir_path = record.path) (hsep : record.path.toList.getLast? = some '/')
    (disk : MediaDisk) :
    let cleaned := cleaned_library env record.path alb lib disk
    Shrinks lib.store cleaned.store ∧
      (∀ id, InTree lib.store record.path id → cleaned.store.tables.assets.lookup id = none ∧
        cleaned.store.tables.metadata.lookup id = lib.store.tables.metadata.lookup id) ∧
      (∀ path id, cleaned.store.by_path.lookup path = some id → ¬ InTree lib.store record.path id) ∧
      (∀ hash id, id ∈ cleaned.store.get_dupe_ids hash → ¬ InTree lib.store record.path id) ∧
      ∀ dir, (AlbumDir lib.store record.path dir → cleaned.dirs.lookup dir = none) ∧
        (¬ AlbumDir lib.store record.path dir →
          cleaned.dirs.lookup dir = lib.dirs.lookup dir) := by
  intro cleaned
  have hd : record.path ≠ "" := by
    intro hempty
    rw [hempty] at hsep
    cases hsep
  obtain ⟨hloop, hgone, hmetadata, -⟩ := remove_descendants_spec env.refuses
    (lib.store.get_assets_under_path record.path) (evicted_library record.path lib, disk)
  have hdirs := dirs_remove_descendants env.refuses
    (lib.store.get_assets_under_path record.path) (evicted_library record.path lib, disk)
  obtain ⟨hloses, hcleaned_dirs⟩ := loses_cleaned_library env hdir lib disk hd
  -- the tree is the list of descendants
  have hbelow : ∀ path, AtOrBelow record.path path ↔
      AssetStore.is_under record.path path = true := by
    intro path
    refine ⟨fun h => ?_, Or.inr⟩
    rcases h with rfl | h
    · exact (is_under_self _).mpr hsep
    · exact h
  have hlisted : ∀ id r, lib.store.get_asset_by_id id = some r → AtOrBelow record.path r.path →
      r ∈ lib.store.get_assets_under_path record.path :=
    fun id r hr hat => mem_get_assets_under_path.mpr ⟨⟨id, hr⟩, (hbelow r.path).mp hat⟩
  have hassets : ∀ id, InTree lib.store record.path id →
      (looped_library env record.path lib disk).store.tables.assets.lookup id = none := by
    rintro id ⟨r, hr, hat⟩
    have hrow := (hgone r (hlisted id r hr hat)).1
    rwa [hagree.keyed id r hr] at hrow
  refine ⟨hloop.trans hloses.toShrinks, ?_, ?_, ?_, ?_⟩
  · intro id hid
    obtain ⟨hrow, hpayload⟩ := hloses.kept id fun h => h.2 (hassets id hid)
    refine ⟨hrow.trans (hassets id hid), hpayload.trans ?_⟩
    exact congrArg (AList.lookup id) hmetadata
  · rintro path id hpath ⟨r, hr, hat⟩
    -- the entry was there before, so it is the one of the record's path
    have hlater := hloses.by_path _ _ hpath
    obtain ⟨r', hr', rfl⟩ := (hagree.by_path path id).mp (hloop.by_path _ _ hlater)
    obtain rfl := Option.mem_unique hr hr'
    cases hlater.symm.trans (hgone r (hlisted id r hr hat)).2.1
  · rintro hash id hmem ⟨r, hr, hat⟩
    have hlater := hloses.dupes _ _ hmem
    obtain ⟨r', hr', -, hhash⟩ := (hagree.dupes hash id).mp (hloop.dupes _ _ hlater)
    obtain rfl := Option.mem_unique hr hr'
    have hout := (hgone r (hlisted id r hr hat)).2.2 hash hhash
    rw [hagree.keyed id r hr] at hout
    exact hout hlater
  · intro dir
    rw [hcleaned_dirs, looped_library, hdirs]
    constructor
    · rintro ⟨id, r, hr, halbum, hat, hpath⟩
      exact if_pos ⟨r, hlisted id r hr hat, halbum, hpath⟩
    · intro hkept
      have hnone : ¬ ∃ desc ∈ lib.store.get_assets_under_path record.path,
          desc.kind = .album ∧ ofString desc.path = dir := by
        rintro ⟨desc, hdesc, halbum, hpath⟩
        obtain ⟨⟨id, hid⟩, hunder⟩ := mem_get_assets_under_path.mp hdesc
        exact hkept ⟨id, desc, hid, halbum, Or.inr hunder, hpath⟩
      have hne : dir ≠ ofString record.path := by
        rintro rfl
        exact hkept ⟨album_id, record, hrecord, hkind, Or.inl rfl, rfl⟩
      rw [if_neg hnone]
      show (if record.path = "" then _ else _ : DirAlbumCache).lookup dir = _
      rw [if_neg hd]
      exact AList.lookup_erase_ne hne

/-! ## No trace -/

/-- What the last flush and the refreshes leave, for an asset that the last flush cannot remove. -/
theorem rows_after_flush (alb : AlbumCombined) (pending : List String) (s : AssetStore)
    (id : String) (hid : ¬ Grouped s id) :
    let flushed := flush_tables env.now env.fs_flush [] [.album alb] s
    let tables := refresh_albums env [alb.object.id] (refresh_albums env pending flushed.tables)
    (tables.assets.lookup id).map AssetRecord.path =
        (s.tables.assets.lookup id).map AssetRecord.path ∧
      (tables.metadata.lookup id).isSome = (s.tables.metadata.lookup id).isSome := by
  intro flushed tables
  have hgone : ¬ ∃ data ∈ [AbstractData.album alb], Flushed s data id := by
    rintro ⟨data, hdata, hflushed⟩
    obtain rfl := List.mem_singleton.mp hdata
    exact hid (flushed_album hflushed)
  obtain ⟨hassets, hmetadata⟩ :=
    (loses_flush_removes env.now env.fs_flush [.album alb] s).kept id hgone
  obtain ⟨hassets₁, hmetadata₁⟩ := rows_refresh_albums env pending flushed.tables id
  obtain ⟨hassets₂, hmetadata₂⟩ := rows_refresh_albums env [alb.object.id]
    (refresh_albums env pending flushed.tables) id
  rw [← hassets, ← hmetadata]
  exact ⟨hassets₂.trans hassets₁, hmetadata₂.trans hmetadata₁⟩

/-- A successful deletion of an album leaves no trace of its tree exactly when the album's path ends
in a separator, nothing in the tree has a payload, and every cache entry of the tree is keyed by
the path of one of its albums. -/
theorem album_delete_no_trace_iff {env : DeleteEnv} {caller album_id : String}
    {pending : List String} {lib lib' : Library} {disk disk' : MediaDisk} {record : AssetRecord}
    (hagree : IndexAgreement lib.store)
    (hrecord : lib.store.get_asset_by_id album_id = some record) (hkind : record.kind = .album)
    (h : delete_data env caller [album_id] pending lib disk = (.ok (), lib', disk')) :
    NoTrace lib.store record.path lib' ↔ Removable lib record.path := by
  obtain ⟨alb, disk₁, hdir, rfl⟩ := delete_data_album_eq hrecord hkind h
  set cleaned := cleaned_library env record.path alb lib disk₁ with hcleaned
  set flushed := flush_tables env.now env.fs_flush [] [.album alb] cleaned.store with hflushed
  by_cases hsep : record.path.toList.getLast? = some '/'
  · obtain ⟨hshrinks, htree, hby_path, hdupes, hdirs⟩ :=
      tree_cleared env hagree hrecord hkind hdir hsep disk₁
    have hflush := (loses_flush_removes env.now env.fs_flush [.album alb] cleaned.store).toShrinks
    -- the tree's rows stay as the cleanup left them
    have hrows : ∀ id, InTree lib.store record.path id → _ := fun id hid =>
      rows_after_flush env alb pending cleaned.store id fun hrow => hrow.2 (htree id hid).1
    constructor
    · intro htrace
      refine ⟨hsep, fun id hid => ?_, fun dir id hlook hin => ?_⟩
      · have hnone := htrace.metadata id hid
        have hsome := (hrows id hid).2
        rw [(htree id hid).2] at hsome
        rw [← Option.isNone_iff_eq_none, ← Option.not_isSome, ← hsome, Option.not_isSome,
          Option.isNone_iff_eq_none]
        exact hnone
      · by_contra hkept
        obtain ⟨hout, hapart⟩ := htrace.dirs dir id (((hdirs dir).2 hkept).trans hlook)
        rcases hin with hin | hbelow
        · exact hout hin
        · rw [hbelow] at hapart
          cases hapart
    · intro hremovable
      refine ⟨fun id r hr => ?_, fun path id hpath => ?_, fun hash id hmem => ?_, fun id hid => ?_,
        fun dir id hlook => ?_⟩
      · -- a record that is left has the path it had, and is not in the tree
        have hleft_row : (refresh_albums env [alb.object.id]
            (refresh_albums env pending flushed.tables)).assets.lookup id = some r := hr
        have hleft : ¬ InTree lib.store record.path id := by
          intro hid
          have hgone := (hrows id hid).1
          rw [(htree id hid).1, hleft_row] at hgone
          cases hgone
        obtain ⟨hassets, -⟩ := rows_refresh_albums env pending flushed.tables id
        obtain ⟨hassets', -⟩ := rows_refresh_albums env [alb.object.id]
          (refresh_albums env pending flushed.tables) id
        have hpath := hassets'.trans hassets
        rw [hleft_row] at hpath
        obtain ⟨r₀, hr₀, hsame⟩ := Option.map_eq_some_iff.mp hpath.symm
        refine ⟨hleft, fun hat => hleft ⟨r₀, (hshrinks.trans hflush).assets _ _ hr₀, ?_⟩⟩
        rwa [hsame]
      · have hbefore := hflush.by_path _ _ hpath
        have hout := hby_path path id hbefore
        refine ⟨hout, fun hat => hout ?_⟩
        obtain ⟨r, hr, rfl⟩ := (hagree.by_path path id).mp (hshrinks.by_path _ _ hbefore)
        exact ⟨r, hr, hat⟩
      · exact hdupes hash id (hflush.dupes _ _ hmem)
      · have hsome := (hrows id hid).2
        rw [(htree id hid).2, hremovable.metadata id hid] at hsome
        exact Option.isSome_eq_false_iff.mp hsome |> Option.isNone_iff_eq_none.mp
      · have hkept : ¬ AlbumDir lib.store record.path dir := by
          intro hevicted
          rw [(hdirs dir).1 hevicted] at hlook
          cases hlook
        have hbefore := ((hdirs dir).2 hkept).symm.trans hlook
        refine ⟨fun hin => hkept (hremovable.dirs dir id hbefore (Or.inl hin)), ?_⟩
        by_contra hbelow
        exact hkept (hremovable.dirs dir id hbefore (Or.inr (Bool.of_not_eq_false hbelow)))
  · -- the album's own record is still there
    refine iff_of_false (fun htrace => ?_) fun hremovable => hsep hremovable.separator
    obtain ⟨hgroup, hrow⟩ := album_row_kept env hagree hrecord hkind hdir hsep disk₁
    have hpath := (rows_after_flush env alb pending cleaned.store album_id
      fun hrow => hrow.1.elim hgroup).1
    rw [hrow] at hpath
    obtain ⟨r, hr, -⟩ := Option.map_eq_some_iff.mp hpath
    exact (htrace.assets album_id r hr).1 ⟨record, hrecord, Or.inl rfl⟩

/-! ## Examples -/

theorem get_asset_by_id_tripLibraryAt :
    (tripLibraryAt d).store.get_asset_by_id id = some record ↔
      id = "sea" ∧ record = seaImage ∨
        id = "trip" ∧ record = AssetRecord.new_album 0 "trip" d := by
  show (AList.insert "sea" seaImage (AList.insert "trip" (AssetRecord.new_album 0 "trip" d)
    (∅ : Table String AssetRecord))).lookup id = some record ↔ _
  rw [Table.lookup_insert_eq_some, Table.lookup_insert_eq_some, AList.lookup_empty]
  have hne : id = "trip" → id ≠ "sea" := by
    rintro rfl
    decide
  grind

theorem indexAgreement_tripLibraryAt (hd : d ≠ "/photos/trip/sea.jpg") :
    IndexAgreement (tripLibraryAt d).store where
  keyed id record h := by
    rcases get_asset_by_id_tripLibraryAt.mp h with ⟨rfl, rfl⟩ | ⟨rfl, rfl⟩ <;> rfl
  by_path path id := by
    have hlook : (tripLibraryAt d).store.get_asset_id_by_path path = some id ↔
        path = "/photos/trip/sea.jpg" ∧ id = "sea" ∨ path = d ∧ id = "trip" := by
      show (AList.insert "/photos/trip/sea.jpg" "sea" (AList.insert d "trip"
        (∅ : Table String String))).lookup path = some id ↔ _
      rw [Table.lookup_insert_eq_some, Table.lookup_insert_eq_some, AList.lookup_empty]
      grind
    rw [hlook]
    constructor
    · rintro (⟨rfl, rfl⟩ | ⟨rfl, rfl⟩)
      · exact ⟨_, get_asset_by_id_tripLibraryAt.mpr (Or.inl ⟨rfl, rfl⟩), rfl⟩
      · exact ⟨_, get_asset_by_id_tripLibraryAt.mpr (Or.inr ⟨rfl, rfl⟩), rfl⟩
    · rintro ⟨record, hrecord, rfl⟩
      rcases get_asset_by_id_tripLibraryAt.mp hrecord with ⟨rfl, rfl⟩ | ⟨rfl, rfl⟩
      · exact Or.inl ⟨rfl, rfl⟩
      · exact Or.inr ⟨rfl, rfl⟩
  metadata id h := absurd rfl h
  dupes hash id := by
    have hgroup : id ∈ (tripLibraryAt d).store.get_dupe_ids hash ↔ hash = "5ea" ∧ id = "sea" := by
      show id ∈ ((AList.insert "5ea" ["sea"] (∅ : Table String (List String))).lookup hash).getD [] ↔ _
      rw [Table.lookup_insert]
      split <;> simp [*]
    rw [hgroup]
    constructor
    · rintro ⟨rfl, rfl⟩
      exact ⟨_, get_asset_by_id_tripLibraryAt.mpr (Or.inl ⟨rfl, rfl⟩), by decide, rfl⟩
    · rintro ⟨record, hrecord, hkind, hhash⟩
      rcases get_asset_by_id_tripLibraryAt.mp hrecord with ⟨rfl, rfl⟩ | ⟨rfl, rfl⟩
      · exact ⟨(Option.some.inj hhash).symm, rfl⟩
      · exact absurd rfl hkind

/-- The surroundings of the examples: every file can be removed. -/
def tripEnv : DeleteEnv where
  now := 0
  roots := photosRoots
  refuses _ := false
  fs_cleanup := { canonicalize := fun p => some p, exists_ := fun _ => false }
  fs_flush := { canonicalize := fun p => some p, exists_ := fun _ => false }
  timestamp _ := 0

/-- An album whose path is written with a separator at its end, without payloads, is deleted without
a trace. -/
theorem album_delete_no_trace_separator :
    let disk : MediaDisk := ⟨fun _ => none, fun _ => none⟩
    let result := delete_data tripEnv "alice" ["trip"] [] (tripLibraryAt "/photos/trip/") disk
    result.1 = .ok () ∧
      NoTrace (tripLibraryAt "/photos/trip/").store "/photos/trip/" result.2.1 := by
  intro disk result
  have hok : result.1 = .ok () := by decide +kernel
  have hrecord : (tripLibraryAt "/photos/trip/").store.get_asset_by_id "trip" =
      some (AssetRecord.new_album 0 "trip" "/photos/trip/") :=
    get_asset_by_id_tripLibraryAt.mpr (Or.inr ⟨rfl, rfl⟩)
  have hresult : result = (.ok (), result.2.1, result.2.2) := Prod.ext hok rfl
  refine ⟨hok, (album_delete_no_trace_iff (indexAgreement_tripLibraryAt (by decide)) hrecord rfl
    hresult).mpr ⟨by decide +kernel, fun id _ => rfl, fun dir id hlook _ => ?_⟩⟩
  -- the one cached directory is the album's
  refine ⟨"trip", _, hrecord, rfl, Or.inl rfl, ?_⟩
  by_contra hne
  have hother : dir ≠ ofString "/photos/trip/" := fun heq => hne heq.symm
  rw [show (tripLibraryAt "/photos/trip/").dirs.lookup dir = none from
    AList.lookup_insert_ne hother] at hlook
  cases hlook

/-- The deletion of an ordinary album succeeds and leaves its record and its path entry. -/
theorem album_delete_leaves_album :
    let disk : MediaDisk := ⟨fun _ => none, fun _ => none⟩
    let result := delete_data tripEnv "alice" ["trip"] [] tripLibrary disk
    IndexAgreement tripLibrary.store ∧ result.1 = .ok () ∧
      (result.2.1.store.get_asset_by_id "trip").isSome ∧
      result.2.1.store.get_asset_id_by_path "/photos/trip" = some "trip" ∧
      ¬ NoTrace tripLibrary.store "/photos/trip" result.2.1 := by
  intro disk result
  have hrow : (result.2.1.store.get_asset_by_id "trip").isSome := by decide +kernel
  refine ⟨indexAgreement_tripLibraryAt (by decide), by decide +kernel, hrow, by decide +kernel, ?_⟩
  intro htrace
  obtain ⟨record, hrecord⟩ := Option.isSome_iff_exists.mp hrow
  exact (htrace.assets "trip" record hrecord).1
    ⟨_, get_asset_by_id_tripLibraryAt.mpr (Or.inr ⟨rfl, rfl⟩), Or.inl rfl⟩
