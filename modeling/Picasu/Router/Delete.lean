import Picasu.Process.AssetFiles
import Picasu.Tasks.Writer

/-! # Deleting Assets

`process_deletes` works on a list of asset ids in two passes. The first one resolves every entry
and checks that the caller may write there; the second one removes files. An entry that is
malformed, unknown or forbidden fails the request in the first pass.

The first pass is not free of effects: it evicts the directory of every album it resolves from
`DIR_ALBUM_CACHE`. So a refused request leaves the files and the tables alone, but not always the
cache; a directory album that is not in the cache cannot be addressed any more.
-/

open PathBuf

/-! ## Resolving an entry -/

/-- The checks of `process_deletes` on one entry: the composed view of the asset. -/
def resolve_delete (now : Int) (roots : Roots) (caller : String) (tables : Tables)
    (asset_id : String) : Except AppError AbstractData :=
  if 64 < asset_id.utf8ByteSize then
    .error (.new .invalidInput ("Invalid asset_id format: " ++ asset_id))
  else
    match compose_by_asset_id now tables asset_id with
    | none => .error (.new .notFound ("Asset not found: " ++ asset_id))
    | some data =>
      match data.visibility_path with
      | none => .ok data
      | some path =>
        match write_gate roots caller (some path) none with
        | .ok _ => .ok data
        | .error _ => .error (.new .permissionDenied "Asset not writable")

/-- The albums whose figures a deletion changes. -/
def affected_albums : AbstractData → List String
  | .image img => img.metadata.album.toList
  | .video vid => vid.metadata.album.toList
  | .album alb => [alb.object.id]

def evict_dir_album (dir_path : PathBuf) (dirs : DirAlbumCache) : DirAlbumCache :=
  dirs.erase dir_path

/-- The directory that resolving an entry evicts. -/
def evicted_dir : AbstractData → Option PathBuf
  | .album alb => if alb.metadata.dir_path = "" then none else some (ofString alb.metadata.dir_path)
  | _ => none

def evict_resolved (data : AbstractData) (dirs : DirAlbumCache) : DirAlbumCache :=
  match evicted_dir data with
  | some dir_path => evict_dir_album dir_path dirs
  | none => dirs

/-! ## The two passes -/

/-- The first pass. -/
def resolve_deletes (now : Int) (roots : Roots) (caller : String) (tables : Tables) :
    List String → DirAlbumCache → Except AppError (List AbstractData) × DirAlbumCache
  | [], dirs => (.ok [], dirs)
  | asset_id :: asset_ids, dirs =>
    match resolve_delete now roots caller tables asset_id with
    | .error err => (.error err, dirs)
    | .ok data =>
      match resolve_deletes now roots caller tables asset_ids (evict_resolved data dirs) with
      | (.error err, dirs) => (.error err, dirs)
      | (.ok collected, dirs) => (.ok (data :: collected), dirs)

/-- One turn of the second pass. -/
def delete_from_disk (refuses : PathBuf → Bool) (store : AssetStore) (disk : MediaDisk)
    (data : AbstractData) : MediaDisk where
  files :=
    match data.path with
    | some file_entry => remove_asset_file refuses (ofString file_entry.file) disk.files
    | none => disk.files
  compressed := remove_compressed_thumbnail refuses store data disk.compressed

/-- `process_deletes`: the views to remove and the affected albums, with library and disk. -/
def process_deletes (now : Int) (roots : Roots) (refuses : PathBuf → Bool) (caller : String)
    (asset_ids : List String) (lib : Library) (disk : MediaDisk) :
    Except AppError (List AbstractData × List String) × Library × MediaDisk :=
  match resolve_deletes now roots caller lib.store.tables asset_ids lib.dirs with
  | (.error err, dirs) => (.error err, { lib with dirs }, disk)
  | (.ok collected, dirs) =>
    (.ok (collected, collected.flatMap affected_albums), { lib with dirs },
      collected.foldl (delete_from_disk refuses lib.store) disk)

/-! ## Refused requests -/

section Refused

variable {now : Int} {roots : Roots} {caller : String} {tables : Tables}

variable {asset_id : String} {data : AbstractData} {asset_ids : List String} {dirs : DirAlbumCache}

theorem resolve_delete_eq_ok (h : resolve_delete now roots caller tables asset_id = .ok data) :
    compose_by_asset_id now tables asset_id = some data := by
  unfold resolve_delete at h
  split at h
  · cases h
  split at h
  · cases h
  rename_i view hview
  split at h
  · rw [← Except.ok.inj h]
    exact hview
  · split at h
    · rw [← Except.ok.inj h]
      exact hview
    · cases h

theorem resolve_deletes_cons_error {err : AppError}
    (h : resolve_delete now roots caller tables asset_id = .error err) (asset_ids : List String)
    (dirs : DirAlbumCache) :
    resolve_deletes now roots caller tables (asset_id :: asset_ids) dirs = (.error err, dirs) := by
  rw [resolve_deletes, h]

theorem resolve_deletes_cons_ok (h : resolve_delete now roots caller tables asset_id = .ok data)
    (asset_ids : List String) (dirs : DirAlbumCache) :
    resolve_deletes now roots caller tables (asset_id :: asset_ids) dirs =
      ((resolve_deletes now roots caller tables asset_ids (evict_resolved data dirs)).1.map
          fun collected => data :: collected,
        (resolve_deletes now roots caller tables asset_ids (evict_resolved data dirs)).2) := by
  rw [resolve_deletes, h]
  dsimp only
  rcases resolve_deletes now roots caller tables asset_ids (evict_resolved data dirs)
    with ⟨result, after⟩
  cases result with
  | error err => rfl
  | ok collected => rfl

/-- What the first pass collects are the views of entries. -/
theorem mem_resolve_deletes {after : DirAlbumCache} {collected : List AbstractData}
    (h : resolve_deletes now roots caller tables asset_ids dirs = (.ok collected, after)) :
    ∀ data ∈ collected, ∃ id ∈ asset_ids, resolve_delete now roots caller tables id = .ok data := by
  induction asset_ids generalizing dirs collected after with
  | nil =>
    obtain rfl : [] = collected := Except.ok.inj (Prod.mk.inj h).1
    intro data hdata
    cases hdata
  | cons asset_id asset_ids ih =>
    unfold resolve_deletes at h
    split at h
    · cases h
    rename_i view hview
    split at h
    · cases h
    rename_i rest _ hrest
    obtain rfl : view :: rest = collected := Except.ok.inj (Prod.mk.inj h).1
    intro data hdata
    rcases List.mem_cons.mp hdata with rfl | hdata
    · exact ⟨asset_id, List.mem_cons_self, hview⟩
    · obtain ⟨id, hid, hresolve⟩ := ih hrest data hdata
      exact ⟨id, List.mem_cons_of_mem _ hid, hresolve⟩

variable (refuses : PathBuf → Bool)

/-- The second pass removes files and sidecars of what was collected, and nothing else. -/
theorem files_foldl_delete_from_disk (store : AssetStore) (r : PathBuf)
    (collected : List AbstractData) (disk : MediaDisk) :
    (collected.foldl (delete_from_disk refuses store) disk).files r = disk.files r ∨
      (collected.foldl (delete_from_disk refuses store) disk).files r = none ∧
        ∃ data ∈ collected, ∃ file_entry, data.path = some file_entry ∧
          (r = ofString file_entry.file ∨ r = with_extension (ofString file_entry.file) "xmp") := by
  induction collected generalizing disk with
  | nil => exact Or.inl rfl
  | cons data collected ih =>
    rw [List.foldl_cons]
    rcases ih (delete_from_disk refuses store disk data) with hsame | ⟨hgone, data', hdata', hrest⟩
    · rw [hsame]
      -- this turn removes the files of one asset
      unfold delete_from_disk
      cases hentry : data.path with
      | none => exact Or.inl rfl
      | some file_entry =>
        dsimp only
        rw [remove_asset_file_apply]
        split
        · rename_i hsidecar
          exact Or.inr ⟨rfl, data, List.mem_cons_self, file_entry, hentry, Or.inr hsidecar.1⟩
        · split
          · rename_i hfile
            exact Or.inr ⟨rfl, data, List.mem_cons_self, file_entry, hentry, Or.inl hfile.1⟩
          · exact Or.inl rfl
    · exact Or.inr ⟨hgone, data', List.mem_cons_of_mem _ hdata', hrest⟩

/-- A request touches the files of its assets only. -/
theorem files_process_deletes (asset_ids : List String) (lib : Library) (disk : MediaDisk)
    (r : PathBuf) :
    let after := (process_deletes now roots refuses caller asset_ids lib disk).2.2.files
    after r = disk.files r ∨
      after r = none ∧ ∃ id ∈ asset_ids, ∃ data file_entry,
        resolve_delete now roots caller lib.store.tables id = .ok data ∧
          data.path = some file_entry ∧
          (r = ofString file_entry.file ∨ r = with_extension (ofString file_entry.file) "xmp") := by
  unfold process_deletes
  rcases hpass : resolve_deletes now roots caller lib.store.tables asset_ids lib.dirs
    with ⟨result, dirs⟩
  cases result with
  | error err => exact Or.inl rfl
  | ok collected =>
    rcases files_foldl_delete_from_disk refuses lib.store r collected disk
      with hsame | ⟨hgone, data, hdata, file_entry, hrest⟩
    · exact Or.inl hsame
    · obtain ⟨id, hid, hresolve⟩ := mem_resolve_deletes hpass data hdata
      exact Or.inr ⟨hgone, id, hid, data, file_entry, hresolve, hrest⟩

/-- A request on one asset that may be deleted. -/
theorem process_deletes_single {lib : Library} (disk : MediaDisk)
    (h : resolve_delete now roots caller lib.store.tables asset_id = .ok data) :
    process_deletes now roots refuses caller [asset_id] lib disk =
      (.ok ([data], affected_albums data),
        { lib with dirs := evict_resolved data lib.dirs },
        delete_from_disk refuses lib.store disk data) := by
  unfold process_deletes
  rw [resolve_deletes_cons_ok h]
  simp [resolve_deletes, Except.map]

theorem resolve_deletes_error
    (h : ∃ id ∈ asset_ids, ∃ err, resolve_delete now roots caller tables id = .error err)
    (dirs : DirAlbumCache) :
    ∃ err, (resolve_deletes now roots caller tables asset_ids dirs).1 = .error err := by
  induction asset_ids generalizing dirs with
  | nil =>
    obtain ⟨id, hid, -⟩ := h
    cases hid
  | cons asset_id asset_ids ih =>
    cases hresolve : resolve_delete now roots caller tables asset_id with
    | error err => exact ⟨err, by rw [resolve_deletes_cons_error hresolve]⟩
    | ok data =>
      -- the bad entry is a later one
      have hlater : ∃ id ∈ asset_ids, ∃ err,
          resolve_delete now roots caller tables id = .error err := by
        obtain ⟨id, hid, err, hbad⟩ := h
        rcases List.mem_cons.mp hid with rfl | hid
        · rw [hresolve] at hbad
          cases hbad
        · exact ⟨id, hid, err, hbad⟩
      obtain ⟨err, hrest⟩ := ih hlater (evict_resolved data dirs)
      exact ⟨err, by rw [resolve_deletes_cons_ok hresolve, hrest]; rfl⟩

theorem evict_dir_album_of_none {dir_path : PathBuf}
    (h : dirs.lookup dir_path = none) : evict_dir_album dir_path dirs = dirs := by
  unfold evict_dir_album
  apply AList.ext
  exact List.kerase_of_notMem_keys (AList.lookup_eq_none.mp h)

theorem lookup_evict_dir_album (dir_path : PathBuf) (dirs : DirAlbumCache) :
    (evict_dir_album dir_path dirs).lookup dir_path = none :=
  AList.lookup_erase dir_path dirs

theorem lookup_evict_resolved_eq_none (data : AbstractData) {dir : PathBuf}
    (h : dirs.lookup dir = none) : (evict_resolved data dirs).lookup dir = none := by
  unfold evict_resolved
  split
  · rw [evict_dir_album, Table.lookup_erase, h, ite_self]
  · exact h

theorem lookup_resolve_deletes_eq_none (asset_ids : List String)
    {dir : PathBuf} (h : dirs.lookup dir = none) :
    (resolve_deletes now roots caller tables asset_ids dirs).2.lookup dir = none := by
  induction asset_ids generalizing dirs with
  | nil => exact h
  | cons asset_id asset_ids ih =>
    cases hresolve : resolve_delete now roots caller tables asset_id with
    | error err =>
      rw [resolve_deletes_cons_error hresolve]
      exact h
    | ok data =>
      rw [resolve_deletes_cons_ok hresolve]
      exact ih (lookup_evict_resolved_eq_none data h)

/-- The first pass keeps the cache exactly when none of the entries it gets through is an album
whose directory is cached. -/
theorem resolve_deletes_dirs_iff (asset_ids : List String) (dirs : DirAlbumCache) :
    (resolve_deletes now roots caller tables asset_ids dirs).2 = dirs ↔
      ∀ id ∈ asset_ids.takeWhile fun id => (resolve_delete now roots caller tables id).isOk,
        ∀ data dir, resolve_delete now roots caller tables id = .ok data →
          evicted_dir data = some dir → dirs.lookup dir = none := by
  induction asset_ids generalizing dirs with
  | nil => simp [resolve_deletes]
  | cons asset_id asset_ids ih =>
    cases hresolve : resolve_delete now roots caller tables asset_id with
    | error err =>
      have hnone : (asset_id :: asset_ids).takeWhile
          (fun id => (resolve_delete now roots caller tables id).isOk) = [] := by
        simp [hresolve, Except.isOk, Except.toBool]
      rw [resolve_deletes_cons_error hresolve, hnone]
      simp
    | ok data =>
      have hcons : (asset_id :: asset_ids).takeWhile
          (fun id => (resolve_delete now roots caller tables id).isOk) =
          asset_id :: asset_ids.takeWhile
            fun id => (resolve_delete now roots caller tables id).isOk := by
        simp [hresolve, Except.isOk, Except.toBool]
      rw [resolve_deletes_cons_ok hresolve, hcons, List.forall_mem_cons]
      by_cases hcached : ∃ dir, evicted_dir data = some dir ∧ dirs.lookup dir ≠ none
      · -- this entry evicts a cached directory, for good
        obtain ⟨dir, hdir, hlook⟩ := hcached
        have hgone : (evict_resolved data dirs).lookup dir = none := by
          unfold evict_resolved
          rw [hdir]
          exact lookup_evict_dir_album dir dirs
        constructor
        · intro hsame
          have hafter : (resolve_deletes now roots caller tables asset_ids
              (evict_resolved data dirs)).2.lookup dir = none :=
            lookup_resolve_deletes_eq_none asset_ids hgone
          rw [hsame] at hafter
          exact absurd hafter hlook
        · rintro ⟨hfirst, -⟩
          exact absurd (hfirst data dir hresolve hdir) hlook
      · -- nothing is cached for this entry, so that the rest decides
        have hkept : evict_resolved data dirs = dirs := by
          unfold evict_resolved
          split
          · rename_i dir hdir
            have hlook : dirs.lookup dir = none := by
              by_contra hlook
              exact hcached ⟨dir, hdir, hlook⟩
            exact evict_dir_album_of_none hlook
          · rfl
        have hfirst : ∀ data' dir, resolve_delete now roots caller tables asset_id = .ok data' →
            evicted_dir data' = some dir → dirs.lookup dir = none := by
          intro data' dir hdata hdir
          obtain rfl := Except.ok.inj (hresolve.symm.trans hdata)
          by_contra hlook
          exact hcached ⟨dir, hdir, hlook⟩
        rw [hkept]
        exact ⟨fun hsame => ⟨hfirst, (ih dirs).mp hsame⟩, fun h => (ih dirs).mpr h.2⟩

/-- A request with a bad entry is refused, and files, previews and tables stay as they are. -/
theorem process_deletes_refused {lib : Library} (disk : MediaDisk) (hbad : ∃ id ∈ asset_ids, ∃ err,
      resolve_delete now roots caller lib.store.tables id = .error err) :
    ∃ err, process_deletes now roots refuses caller asset_ids lib disk =
      (.error err, { lib with
        dirs := (resolve_deletes now roots caller lib.store.tables asset_ids lib.dirs).2 }, disk) := by
  obtain ⟨err, herr⟩ := resolve_deletes_error hbad lib.dirs
  refine ⟨err, ?_⟩
  unfold process_deletes
  rcases hpass : resolve_deletes now roots caller lib.store.tables asset_ids lib.dirs
    with ⟨result, after⟩
  rw [hpass] at herr
  obtain rfl : result = .error err := herr
  rfl

/-- A request with a bad entry is refused and changes nothing at all exactly when no entry before
the first bad one is an album whose directory is in the cache. -/
theorem refused_delete_changes_nothing_iff (refuses : PathBuf → Bool) {asset_ids : List String}
    {lib : Library} (disk : MediaDisk) (hbad : ∃ id ∈ asset_ids, ∃ err,
      resolve_delete now roots caller lib.store.tables id = .error err) :
    ((∃ err, (process_deletes now roots refuses caller asset_ids lib disk).1 = .error err) ∧
        (process_deletes now roots refuses caller asset_ids lib disk).2 = (lib, disk)) ↔
      ∀ id ∈ asset_ids.takeWhile
          fun id => (resolve_delete now roots caller lib.store.tables id).isOk,
        ∀ data dir, resolve_delete now roots caller lib.store.tables id = .ok data →
          evicted_dir data = some dir → lib.dirs.lookup dir = none := by
  obtain ⟨err, hrefused⟩ := process_deletes_refused refuses disk hbad
  rw [hrefused, ← resolve_deletes_dirs_iff]
  constructor
  · rintro ⟨-, hsame⟩
    exact congrArg Library.dirs (Prod.mk.inj hsame).1
  · intro hsame
    exact ⟨⟨err, rfl⟩, by rw [hsame]⟩

end Refused

def photosRoots : Roots where
  fs := { canonicalize := fun p => some p, exists_ := fun _ => true }
  image_home := some (ofString "/photos")
  users_home := none

def seaImage : AssetRecord :=
  ⟨"sea", .image, "/photos/trip/sea.jpg", some "5ea", 7, "jpg", 0, 0, false, some "trip"⟩

/-- An album, its directory written as `d`, with one image in it. -/
def tripLibraryAt (d : String) : Library where
  store :=
    { tables :=
        { assets := ((∅ : Table String AssetRecord).insert "trip"
            (AssetRecord.new_album 0 "trip" d)).insert "sea" seaImage
          metadata := ∅ }
      by_path := ((∅ : Table String String).insert d "trip").insert "/photos/trip/sea.jpg" "sea"
      dupes := (∅ : Table String (List String)).insert "5ea" ["sea"] }
  dirs := (∅ : Table PathBuf String).insert (ofString d) "trip"

def tripLibrary : Library := tripLibraryAt "/photos/trip"

/-- An image and an unknown id: the request is refused without a trace. -/
theorem refused_delete_image_unknown :
    let disk : MediaDisk := ⟨fun _ => none, fun _ => none⟩
    (process_deletes 0 photosRoots (fun _ => false) "alice" ["sea", "lost"] tripLibrary disk).2 =
      (tripLibrary, disk) := by
  intro disk
  have hbad : ∃ id ∈ ["sea", "lost"], ∃ err,
      resolve_delete 0 photosRoots "alice" tripLibrary.store.tables id = .error err :=
    ⟨"lost", by simp, .new .notFound "Asset not found: lost", by decide +kernel⟩
  refine ((refused_delete_changes_nothing_iff (fun _ => false) disk hbad).mpr ?_).2
  have hnoalbum : ∀ id ∈ ["sea", "lost"].takeWhile
      fun id => (resolve_delete 0 photosRoots "alice" tripLibrary.store.tables id).isOk,
      ((resolve_delete 0 photosRoots "alice" tripLibrary.store.tables id).toOption.bind
        evicted_dir) = none := by decide +kernel
  intro id hid data dir hdata hdir
  have hnone := hnoalbum id hid
  rw [hdata] at hnone
  exact absurd (hdir.symm.trans hnone) (by simp)

/-- An album and an unknown id: the request is refused, and the album is not found any more. -/
theorem refused_delete_loses_album :
    let disk : MediaDisk := ⟨fun _ => none, fun _ => none⟩
    let result := process_deletes 0 photosRoots (fun _ => false) "alice" ["trip", "lost"]
      tripLibrary disk
    result.1 = .error (.new .notFound "Asset not found: lost") ∧
      tripLibrary.dirs.get_dir_path_for_album "trip" = some (ofString "/photos/trip") ∧
      result.2.1.dirs.get_dir_path_for_album "trip" = none := by
  decide +kernel
