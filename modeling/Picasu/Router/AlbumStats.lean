import Mathlib.Algebra.BigOperators.Group.List.Basic
import Picasu.Framework.Selection
import Picasu.Router.Albums
import Picasu.Tasks.Writer

/-! # Album Statistics

How many files an album holds, their size, and their earliest and latest date are stored with the
album. A refresh (`album_task`) computes them again from the tree.

* `stats_self_update`: a refresh stores the statistics of the files that the tree lists in the
  album's directory, in whatever order;
* `stats_album_task`, `stats_refresh`: a round of refreshes over one tree rewrites the statistics
  of the albums it is given, and of no others;
* `exact_refreshed_iff`: refreshed statistics are exact, except that upload placeholders are left
  out.
-/

open PathBuf

/-! ## Statistics -/

structure AlbumStats where
  item_count : Nat
  item_size : Nat
  start_time : Option Int
  end_time : Option Int
  deriving DecidableEq, Repr

/-- The statistics of files, given their sizes and dates. -/
def stats_of (files : List (Nat × Int)) : AlbumStats where
  item_count := files.length
  item_size := (files.map Prod.fst).sum
  start_time := (files.map Prod.snd).min?
  end_time := (files.map Prod.snd).max?

theorem stats_of_perm {files files' : List (Nat × Int)} (h : files.Perm files') :
    stats_of files = stats_of files' := by
  unfold stats_of
  rw [h.length_eq, (h.map Prod.fst).sum_eq, (h.map Prod.snd).min?_eq, (h.map Prod.snd).max?_eq]

/-- How a media file is dated: by its EXIF data and its file entry, at the clock and in the time
zone of the server. -/
abbrev Stamp := Option (Table String String) → Option FileEntry → Int

def AbstractData.compute_timestamp (stamp : Stamp) : AbstractData → Int
  | .album alb => alb.metadata.created_time
  | data => stamp data.exif_vec data.path

/-- The statistics in a view. -/
def AlbumMetadata.stats (metadata : AlbumMetadata) : AlbumStats :=
  ⟨metadata.item_count, metadata.item_size, metadata.start_time, metadata.end_time⟩

def AlbumPayload.stats (payload : AlbumPayload) : AlbumStats :=
  ⟨payload.item_count, payload.item_size, payload.start_time, payload.end_time⟩

namespace Tables

/-- The directory and the stored statistics of an album. -/
def album_stats (tables : Tables) (id : String) : Option (PathBuf × AlbumStats) :=
  match tables.assets.lookup id, tables.metadata.lookup id with
  | some record, some (.album payload) =>
    if record.kind = .album then some (ofString record.path, payload.stats) else none
  | _, _ => none

/-- The EXIF data of a media file. -/
def exif (tables : Tables) (record : AssetRecord) : Table String String :=
  match record.kind, tables.metadata.lookup record.asset_id with
  | .image, some (.image payload) => payload.exif_vec
  | .video, some (.video payload) => payload.exif_vec
  | _, _ => ∅

/-- The size and date of a live media file directly in the directory. -/
def live_in (stamp : Stamp) (tables : Tables) (dir : PathBuf) (record : AssetRecord) :
    Option (Nat × Int) :=
  if record.kind ≠ .album ∧ record.is_trashed = false ∧ parent (ofString record.path) = some dir then
    some (record.file_size, stamp (some (tables.exif record)) (some record.file_entry))
  else none

/-- The live media files directly in the directory. -/
def live_media (stamp : Stamp) (tables : Tables) (dir : PathBuf) : List (Nat × Int) :=
  tables.assets.pick (live_in stamp tables dir)

/-- The album's stored statistics are those of the live media files in its directory. -/
def ExactStats (stamp : Stamp) (tables : Tables) (id : String) : Prop :=
  ∀ dir stats, tables.album_stats id = some (dir, stats) →
    stats = stats_of (tables.live_media stamp dir)

end Tables

/-- A file has a name, and it is not that of an upload placeholder. -/
def counts (record : AssetRecord) : Bool :=
  (file_name (ofString record.path)).any fun name => name != ".__picasu_ph__.jpg"

/-- The live media files directly in the directory that a refresh counts. -/
def counted_media (stamp : Stamp) (tables : Tables) (dir : PathBuf) : List (Nat × Int) :=
  tables.assets.pick fun record => if counts record then tables.live_in stamp dir record else none

/-! ## What a refresh computes -/

/-- The size and date of an item. -/
def MediaItemInfo.weight (info : MediaItemInfo) : Nat × Int := (info.size, info.timestamp)

variable (test : FileEntry → Bool)

theorem media_items_perm (tree : MemoryTree) :
    (media_items test tree).Perm (tree.filterMap (media_item test)) :=
  List.perm_insertionSort _ _

theorem media_items_sorted (tree : MemoryTree) :
    ((media_items test tree).map MediaItemInfo.timestamp).Pairwise fun a b => b ≤ a := by
  rw [List.pairwise_map, media_items]
  have : Std.Total fun a b : MediaItemInfo => b.timestamp ≤ a.timestamp :=
    ⟨fun a b => le_total b.timestamp a.timestamp⟩
  have : IsTrans MediaItemInfo fun a b => b.timestamp ≤ a.timestamp :=
    ⟨fun _ _ _ hab hbc => le_trans hbc hab⟩
  exact List.pairwise_insertionSort _ _

/-- A refresh stores the statistics of the items of the album's directory. -/
theorem stats_self_update (now : Int) (tree : MemoryTree) (album : AlbumCombined) :
    (album.self_update now tree).metadata.stats =
      stats_of ((media_items (belongs_to_album (ofString album.metadata.dir_path)) tree).map
        MediaItemInfo.weight) := by
  have hsorted := media_items_sorted (belongs_to_album (ofString album.metadata.dir_path)) tree
  simp only [AlbumCombined.self_update]
  cases hitems : media_items (belongs_to_album (ofString album.metadata.dir_path)) tree with
  | nil => rfl
  | cons first rest =>
    rw [hitems] at hsorted
    -- the first item has the latest date, the last one the earliest
    have hfirst := List.head?_eq_max? hsorted
    have hlast := List.getLast?_eq_min? hsorted
    have hdates : ((first :: rest).map MediaItemInfo.weight).map Prod.snd =
        (first :: rest).map MediaItemInfo.timestamp := List.map_map
    have hsizes : ((first :: rest).map MediaItemInfo.weight).map Prod.fst =
        (first :: rest).map MediaItemInfo.size := List.map_map
    have hstats : stats_of ((first :: rest).map MediaItemInfo.weight) =
        ⟨(first :: rest).length, ((first :: rest).map MediaItemInfo.size).sum,
          (first :: rest).getLast?.map MediaItemInfo.timestamp, some first.timestamp⟩ := by
      unfold stats_of
      rw [hdates, hsizes, ← hfirst, ← hlast, List.length_map, List.getLast?_map]
      rfl
    rw [hstats]
    -- the cover is another field
    cases album.metadata.cover with
    | none => rfl
    | some cover =>
      dsimp only
      split
      · rfl
      · rfl

/-! ## The tree of the tables -/

section Tree

variable {now : Int} {stamp : Stamp} {tables : Tables}

theorem parent_starts_with {p dir : PathBuf} (h : parent p = some dir) :
    starts_with p dir = true := by
  unfold parent at h
  split at h
  · cases h
  · cases h
  · obtain rfl := Option.some.inj h
    exact List.isPrefixOf_iff_prefix.mpr (List.dropLast_prefix p)

variable {record : AssetRecord}

/-- A file belongs to the directory if it is live, directly in it, and counts. -/
theorem belongs_to_album_iff {dir : PathBuf} :
    belongs_to_album dir record.file_entry = true ↔
      counts record = true ∧ record.is_trashed = false ∧
        parent (ofString record.path) = some dir := by
  simp only [belongs_to_album, below_album, path_is_in_album_or_descendant, counts,
    AssetRecord.file_entry, Bool.and_eq_true, Bool.not_eq_true', beq_iff_eq]
  constructor
  · rintro ⟨⟨hlive, -, hname⟩, hparent⟩
    exact ⟨hname, hlive, hparent⟩
  · rintro ⟨hname, hlive, hparent⟩
    exact ⟨⟨hlive, parent_starts_with hparent, hname⟩, hparent⟩

/-- Composing a media view leaves the EXIF data of its payload. -/
theorem exif_vec_compose (now : Int) (tables : Tables) (hkind : record.kind ≠ .album) :
    (compose_abstract_data now record (tables.metadata.lookup record.asset_id)).exif_vec =
      some (tables.exif record) := by
  unfold compose_abstract_data Tables.exif
  cases hrecord : record.kind with
  | album => exact absurd hrecord hkind
  | image | video =>
    cases tables.metadata.lookup record.asset_id with
    | none => rfl
    | some payload => cases payload <;> rfl

theorem compute_timestamp_compose (now : Int) (stamp : Stamp) (tables : Tables)
    (hkind : record.kind ≠ .album) :
    (compose_abstract_data now record
        (tables.metadata.lookup record.asset_id)).compute_timestamp stamp =
      stamp (some (tables.exif record)) (some record.file_entry) := by
  have hexif := exif_vec_compose now tables hkind
  have hpath := path_compose now record (tables.metadata.lookup record.asset_id)
  rw [if_neg hkind] at hpath
  rw [← hexif, ← hpath]
  cases hview : compose_abstract_data now record (tables.metadata.lookup record.asset_id) with
  | image img => rfl
  | video vid => rfl
  | album alb =>
    rw [hview] at hpath
    cases hpath

theorem compose_image_file (now : Int) (record : AssetRecord) (payload : Option ImagePayload) :
    (compose_image now record payload).metadata.size = record.file_size ∧
      (compose_image now record payload).metadata.path = some record.file_entry := by
  cases payload <;> exact ⟨rfl, rfl⟩

theorem compose_video_file (now : Int) (record : AssetRecord) (payload : Option VideoPayload) :
    (compose_video now record payload).metadata.size = record.file_size ∧
      (compose_video now record payload).metadata.path = some record.file_entry := by
  cases payload <;> exact ⟨rfl, rfl⟩

/-- The row of a media record has the record's size. -/
theorem weight_media_item_compose (now : Int) (test : FileEntry → Bool)
    (hkind : record.kind ≠ .album) (payload : Option MetadataRecord) (timestamp : Int)
    (asset_id : String) :
    (media_item test ⟨compose_abstract_data now record payload, timestamp, asset_id⟩).map
        MediaItemInfo.weight =
      if test record.file_entry then some (record.file_size, timestamp) else none := by
  unfold compose_abstract_data
  cases hrecord : record.kind with
  | album => exact absurd hrecord hkind
  | image =>
    simp only [media_item, compose_image_file, Option.any_some]
    split
    · rfl
    · rfl
  | video =>
    simp only [media_item, compose_video_file, Option.any_some]
    split
    · rfl
    · rfl

/-- The row of a record lends the album its size and date, if it counts. -/
theorem weight_media_item (now : Int) (stamp : Stamp) (tables : Tables) (dir : PathBuf)
    (record : AssetRecord) :
    let view := compose_abstract_data now record (tables.metadata.lookup record.asset_id)
    (media_item (belongs_to_album dir)
        ⟨view, view.compute_timestamp stamp, record.asset_id⟩).map MediaItemInfo.weight =
      if counts record then tables.live_in stamp dir record else none := by
  intro view
  by_cases hkind : record.kind = .album
  · -- the row of an album is no item
    simp only [view, compose_abstract_data, hkind, Tables.live_in, ne_eq, not_true_eq_false,
      false_and, if_false, ite_self]
    rfl
  · rw [weight_media_item_compose now _ hkind, compute_timestamp_compose now stamp tables hkind]
    simp only [belongs_to_album_iff, Tables.live_in, hkind, ne_eq, not_false_eq_true, true_and]
    by_cases hcounts : counts record = true
    · simp only [hcounts, true_and, if_true]
    · rw [if_neg hcounts, if_neg fun h => hcounts h.1]

/-- What a refresh reads from the tree of the tables. -/
theorem stats_tree (now : Int) (stamp : Stamp) (tables : Tables) (dir : PathBuf) :
    stats_of ((media_items (belongs_to_album dir)
        (refresh_tree_cache now (AbstractData.compute_timestamp stamp) tables)).map
          MediaItemInfo.weight) =
      stats_of (counted_media stamp tables dir) := by
  apply stats_of_perm
  -- neither the order of the tree nor that of the items matters
  have hitems := (media_items_perm (belongs_to_album dir)
    (refresh_tree_cache now (AbstractData.compute_timestamp stamp) tables)).map MediaItemInfo.weight
  have htree := (List.mergeSort_perm
    (build_from_asset_tables now (AbstractData.compute_timestamp stamp) tables)
    tree_order).filterMap (media_item (belongs_to_album dir))
  refine hitems.trans ((htree.map MediaItemInfo.weight).trans ?_)
  rw [List.map_filterMap]
  unfold build_from_asset_tables counted_media Table.pick
  rw [List.filterMap_map]
  have hrow : (fun row => (media_item (belongs_to_album dir) row).map MediaItemInfo.weight) ∘
      (fun record => (⟨compose_abstract_data now record (tables.metadata.lookup record.asset_id),
        (compose_abstract_data now record
          (tables.metadata.lookup record.asset_id)).compute_timestamp stamp,
        record.asset_id⟩ : DatabaseTimestamp)) =
      fun record => if counts record then tables.live_in stamp dir record else none :=
    funext fun record => weight_media_item now stamp tables dir record
  rw [← hrow]

end Tree

/-! ## What a refresh leaves alone -/

/-- A record, but for the album it is filed in. -/
def AssetRecord.unfiled (record : AssetRecord) : AssetRecord := { record with album_id := none }

/-- Records are stored under their own id. -/
def Tables.Keyed (tables : Tables) : Prop :=
  ∀ id record, tables.assets.lookup id = some record → record.asset_id = id

/-- The tables have the same media files: only the payloads of albums, and the albums that records
are filed in, may differ. -/
structure SameMedia (tables tables' : Tables) : Prop where
  rows : ∀ id, (tables'.assets.lookup id).map AssetRecord.unfiled =
    (tables.assets.lookup id).map AssetRecord.unfiled
  payloads : ∀ id record, tables.assets.lookup id = some record → record.kind ≠ .album →
    tables'.metadata.lookup id = tables.metadata.lookup id

section SameMedia

variable {tables tables' tables'' : Tables}

theorem SameMedia.refl (tables : Tables) :
    SameMedia tables tables := ⟨fun _ => rfl, fun _ _ _ _ => rfl⟩

variable {id : String}

/-- A row is a row on the other side, maybe filed in another album. -/
theorem exists_filed {rows rows' : Table String AssetRecord}
    (h : (rows'.lookup id).map AssetRecord.unfiled = (rows.lookup id).map AssetRecord.unfiled)
    {record : AssetRecord} (hrow : rows.lookup id = some record) :
    ∃ album_id, rows'.lookup id = some { record with album_id } := by
  rw [hrow] at h
  obtain ⟨record', hrow', hsame⟩ := Option.map_eq_some_iff.mp h
  refine ⟨record'.album_id, hrow'.trans (congrArg some ?_)⟩
  exact congrArg (fun unfiled : AssetRecord => { unfiled with album_id := record'.album_id }) hsame

variable (h : SameMedia tables tables')

include h

theorem SameMedia.absent (hrow : tables.assets.lookup id = none) :
    tables'.assets.lookup id = none := by
  have hrows := h.rows id
  rw [hrow] at hrows
  exact Option.map_eq_none_iff.mp hrows

theorem SameMedia.trans (h' : SameMedia tables' tables'') : SameMedia tables tables'' where
  rows id := (h'.rows id).trans (h.rows id)
  payloads id record hrow hkind := by
    obtain ⟨album_id, hrow'⟩ := exists_filed (h.rows id) hrow
    rw [← h.payloads id record hrow hkind]
    exact h'.payloads id _ hrow' hkind

theorem SameMedia.exists_row {record' : AssetRecord}
    (hrow' : tables'.assets.lookup id = some record') :
    ∃ record, tables.assets.lookup id = some record ∧
      ∃ album_id, record' = { record with album_id } := by
  cases hrow : tables.assets.lookup id with
  | none =>
    rw [h.absent hrow] at hrow'
    cases hrow'
  | some record =>
    obtain ⟨album_id, hfiled⟩ := exists_filed (h.rows id) hrow
    exact ⟨record, rfl, album_id, Option.mem_unique hrow' hfiled⟩

variable (hkeyed : tables.Keyed) (stamp : Stamp) (dir : PathBuf)

include hkeyed

/-- The filing of a file makes no difference. -/
theorem SameMedia.live_in {record : AssetRecord} (hrow : tables.assets.lookup id = some record)
    (album_id : Option String) :
    tables'.live_in stamp dir { record with album_id } = tables.live_in stamp dir record := by
  show tables'.live_in stamp dir record = tables.live_in stamp dir record
  unfold Tables.live_in
  by_cases hkind : record.kind = .album
  · rw [if_neg fun hlive => hlive.1 hkind, if_neg fun hlive => hlive.1 hkind]
  have hexif : tables'.exif record = tables.exif record := by
    unfold Tables.exif
    rw [hkeyed id record hrow, h.payloads id record hrow hkind]
  rw [hexif]

/-- What is selected among the live files by their records is the same. -/
theorem SameMedia.pick_perm (select : AssetRecord → Bool)
    (hselect : ∀ record album_id, select { record with album_id } = select record) :
    (tables'.assets.pick fun record =>
        if select record then tables'.live_in stamp dir record else none).Perm
      (tables.assets.pick fun record =>
        if select record then tables.live_in stamp dir record else none) := by
  apply Table.pick_perm
  intro id
  cases hrow : tables.assets.lookup id with
  | none =>
    rw [h.absent hrow]
    rfl
  | some record =>
    obtain ⟨album_id, hrow'⟩ := exists_filed (h.rows id) hrow
    rw [hrow', Option.bind_some, Option.bind_some, hselect,
      h.live_in hkeyed stamp dir hrow album_id]

theorem SameMedia.live_media_perm :
    (tables'.live_media stamp dir).Perm (tables.live_media stamp dir) :=
  h.pick_perm hkeyed stamp dir (fun _ => true) fun _ _ => rfl

theorem SameMedia.counted_media_perm :
    (counted_media stamp tables' dir).Perm (counted_media stamp tables dir) :=
  h.pick_perm hkeyed stamp dir counts fun _ _ => rfl

omit h hkeyed

/-- Where the payload is the same, the directory and the statistics of an album are. -/
theorem album_stats_congr (hrow : (tables'.assets.lookup id).map AssetRecord.unfiled =
      (tables.assets.lookup id).map AssetRecord.unfiled)
    (hpayload : tables'.metadata.lookup id = tables.metadata.lookup id) :
    tables'.album_stats id = tables.album_stats id := by
  unfold Tables.album_stats
  rw [hpayload]
  cases hrecord : tables.assets.lookup id with
  | none =>
    rw [hrecord] at hrow
    rw [Option.map_eq_none_iff.mp hrow]
  | some record =>
    obtain ⟨album_id, hrecord'⟩ := exists_filed hrow hrecord
    rw [hrecord']
    cases tables.metadata.lookup id with
    | none => rfl
    | some payload => cases payload <;> rfl

end SameMedia

/-! ## A round of refreshes -/

section Refresh

variable {tables : Tables}

/-- The statistics that a refresh finds in the tree for a directory. -/
def tree_stats (tree : MemoryTree) (dir : PathBuf) : AlbumStats :=
  stats_of ((media_items (belongs_to_album dir) tree).map MediaItemInfo.weight)

variable {id : String}

theorem album_stats_eq_some {dir : PathBuf} {stats : AlbumStats} :
    tables.album_stats id = some (dir, stats) ↔
      ∃ record payload, tables.assets.lookup id = some record ∧ record.kind = .album ∧
        tables.metadata.lookup id = some (.album payload) ∧ dir = ofString record.path ∧
        stats = payload.stats := by
  unfold Tables.album_stats
  constructor
  · intro h
    split at h
    · rename_i record payload hrecord hpayload
      split at h
      · rename_i hkind
        obtain ⟨rfl, rfl⟩ := Prod.mk.inj (Option.some.inj h)
        exact ⟨record, payload, hrecord, hkind, hpayload, rfl, rfl⟩
      · cases h
    · cases h
  · rintro ⟨record, payload, hrecord, hkind, hpayload, rfl, rfl⟩
    rw [hrecord, hpayload]
    exact if_pos hkind

variable (now : Int) (tree : MemoryTree)

/-- A stored album gets the statistics of the tree, and nothing else changes. -/
theorem album_task_stored {dir : PathBuf} {stats : AlbumStats}
    (h : tables.album_stats id = some (dir, stats)) :
    ∃ payload : AlbumPayload, payload.stats = tree_stats tree dir ∧
      album_task now tree id tables =
        { tables with metadata := tables.metadata.insert id (.album payload) } := by
  obtain ⟨record, payload, hrecord, hkind, hpayload, rfl, -⟩ := album_stats_eq_some.mp h
  simp only [album_task, hrecord, hpayload, compose_abstract_data, hkind]
  refine ⟨_, ?_, rfl⟩
  exact stats_self_update now tree _

/-- A refresh of what is no stored album ends the membership of its files. -/
theorem album_task_deleted (h : tables.album_stats id = none) :
    album_task now tree id tables =
      { tables with assets := clear_membership id tree tables.assets } := by
  unfold album_task
  split
  · rename_i record payload hrecord hpayload
    have hkind : record.kind ≠ .album := by
      intro hkind
      rw [album_stats_eq_some.mpr ⟨record, payload, hrecord, hkind, hpayload, rfl, rfl⟩] at h
      cases h
    split
    · rename_i album hview
      have hpath := path_compose now record (some (.album payload))
      rw [if_neg hkind, hview] at hpath
      cases hpath
    · rfl
  · rfl

theorem unfiled_clear_membership (album_id : String) (tree : MemoryTree)
    (assets : Table String AssetRecord) (id : String) :
    ((clear_membership album_id tree assets).lookup id).map AssetRecord.unfiled =
      (assets.lookup id).map AssetRecord.unfiled := by
  apply Table.map_lookup_foldl_rewriteAt
  intro record record' hrewrite
  split at hrewrite
  · obtain rfl := Option.some.inj hrewrite
    rfl
  · cases hrewrite

theorem sameMedia_album_task (id : String) (tables : Tables) :
    SameMedia tables (album_task now tree id tables) := by
  cases hstats : tables.album_stats id with
  | none =>
    rw [album_task_deleted now tree hstats]
    exact ⟨unfiled_clear_membership id tree tables.assets, fun _ _ _ _ => rfl⟩
  | some entry =>
    obtain ⟨payload, -, htask⟩ := album_task_stored now tree hstats
    rw [htask]
    refine ⟨fun _ => rfl, ?_⟩
    intro id' record hrow hkind
    apply AList.lookup_insert_ne
    rintro rfl
    obtain ⟨album, -, halbum, hkind', -⟩ := album_stats_eq_some.mp hstats
    rw [Option.mem_unique hrow halbum] at hkind
    exact hkind hkind'

/-- A refresh rewrites the statistics of its album, and of no other. -/
theorem stats_album_task (id : String) (tables : Tables) (k : String) :
    (album_task now tree id tables).album_stats k =
      if k = id then (tables.album_stats k).map fun entry => (entry.1, tree_stats tree entry.1)
      else tables.album_stats k := by
  cases hstats : tables.album_stats id with
  | none =>
    have hsame : (album_task now tree id tables).album_stats k = tables.album_stats k := by
      rw [album_task_deleted now tree hstats]
      exact album_stats_congr (unfiled_clear_membership id tree tables.assets k) rfl
    rw [hsame]
    split
    · rename_i hk
      rw [hk, hstats]
      rfl
    · rfl
  | some entry =>
    obtain ⟨payload, hpayload, htask⟩ := album_task_stored now tree hstats
    rw [htask]
    split
    · rename_i hk
      obtain ⟨record, -, hrecord, hkind, -, hdir, -⟩ := album_stats_eq_some.mp hstats
      rw [hk, hstats]
      exact album_stats_eq_some.mpr
        ⟨record, payload, hrecord, hkind, AList.lookup_insert _, hdir, hpayload.symm⟩
    · rename_i hk
      exact album_stats_congr rfl (AList.lookup_insert_ne hk)

/-- A round of refreshes over one tree rewrites the statistics of the albums it is given, and of no
others. -/
theorem stats_refresh (ids : List String) (tables : Tables) :
    let after := ids.foldl (fun tables id => album_task now tree id tables) tables
    SameMedia tables after ∧ ∀ k, after.album_stats k =
      if k ∈ ids then (tables.album_stats k).map fun entry => (entry.1, tree_stats tree entry.1)
      else tables.album_stats k := by
  induction ids generalizing tables with
  | nil => exact ⟨SameMedia.refl tables, fun k => rfl⟩
  | cons id ids ih =>
    obtain ⟨hsame, hstats⟩ := ih (album_task now tree id tables)
    refine ⟨(sameMedia_album_task now tree id tables).trans hsame, ?_⟩
    intro k
    rw [List.foldl_cons, hstats, stats_album_task]
    by_cases hk : k = id
    · subst hk
      simp only [if_true, List.mem_cons, true_or]
      split
      · -- refreshed again, from the same tree
        rw [Option.map_map]
        rfl
      · rfl
    · simp only [hk, if_false, List.mem_cons, false_or]

end Refresh

/-! ## The tree task -/

/-- `UpdateTreeTask`: rebuild the tree, refresh the albums that wait for it, and rebuild it again if
there were any. -/
def update_tree_task (now : Int) (timestamp : AbstractData → Int) (pending : List String)
    (tables : Tables) : MemoryTree × Tables :=
  let tree := refresh_tree_cache now timestamp tables
  if pending = [] then (tree, tables)
  else
    let tables := pending.foldl (fun tables id => album_task now tree id tables) tables
    (refresh_tree_cache now timestamp tables, tables)

section Task

variable {stamp : Stamp} {tables : Tables}

/-- The statistics that a refresh would store. -/
def refreshed_stats (stamp : Stamp) (tables : Tables) (entry : PathBuf × AlbumStats) :
    PathBuf × AlbumStats :=
  (entry.1, stats_of (counted_media stamp tables entry.1))

/-- The task refreshes the albums that wait, and its tree has the media files of the tables. -/
theorem stats_update_tree_task (now : Int) (stamp : Stamp) (pending : List String)
    (hkeyed : tables.Keyed) :
    let result := update_tree_task now (AbstractData.compute_timestamp stamp) pending tables
    SameMedia tables result.2 ∧
      (∀ dir, tree_stats result.1 dir = stats_of (counted_media stamp tables dir)) ∧
      ∀ k, result.2.album_stats k =
        if k ∈ pending then (tables.album_stats k).map (refreshed_stats stamp tables)
        else tables.album_stats k := by
  have htree := stats_tree now stamp tables
  unfold update_tree_task
  by_cases hpending : pending = []
  · subst hpending
    exact ⟨SameMedia.refl tables, htree, fun k => rfl⟩
  · obtain ⟨hsame, hstats⟩ := stats_refresh now
      (refresh_tree_cache now (AbstractData.compute_timestamp stamp) tables) pending tables
    simp only [hpending, if_false]
    refine ⟨hsame, ?_, ?_⟩
    · intro dir
      exact (stats_tree now stamp _ dir).trans
        (stats_of_perm (hsame.counted_media_perm hkeyed stamp dir))
    · intro k
      rw [hstats]
      have hrefreshed : (fun entry : PathBuf × AlbumStats => (entry.1, tree_stats
          (refresh_tree_cache now (AbstractData.compute_timestamp stamp) tables) entry.1)) =
          refreshed_stats stamp tables :=
        funext fun entry => congrArg (Prod.mk entry.1) (htree entry.1)
      rw [hrefreshed]

/-- Every live media file directly in the directory counts. -/
def AllCount (tables : Tables) (dir : PathBuf) : Prop :=
  ∀ id record, tables.assets.lookup id = some record → record.kind ≠ .album →
    record.is_trashed = false → parent (ofString record.path) = some dir → counts record = true

theorem live_in_ne_none {dir : PathBuf} {record : AssetRecord} :
    tables.live_in stamp dir record ≠ none ↔ record.kind ≠ .album ∧ record.is_trashed = false ∧
      parent (ofString record.path) = some dir := by
  unfold Tables.live_in
  split
  · rename_i hlive
    exact iff_of_true (Option.some_ne_none _) hlive
  · rename_i hlive
    exact iff_of_false (fun h => h rfl) hlive

/-- Refreshed statistics are exact exactly if every file counts. -/
theorem exact_refreshed_iff (stamp : Stamp) (tables : Tables) (dir : PathBuf) :
    stats_of (counted_media stamp tables dir) = stats_of (tables.live_media stamp dir) ↔
      AllCount tables dir := by
  constructor
  · intro hexact id record hrow hkind hlive hparent
    by_contra hcounts
    -- a file that does not count is missing
    have hless : (counted_media stamp tables dir).length < (tables.live_media stamp dir).length := by
      apply Table.length_pick_lt (k := id)
      · intro k
        cases tables.assets.lookup k with
        | none => exact Or.inl rfl
        | some other =>
          by_cases hother : counts other = true
          · exact Or.inl (if_pos hother)
          · exact Or.inr (if_neg hother)
      · rw [hrow]
        exact live_in_ne_none.mpr ⟨hkind, hlive, hparent⟩
      · rw [hrow]
        exact if_neg hcounts
    exact absurd (congrArg AlbumStats.item_count hexact) (Nat.ne_of_lt hless)
  · intro hall
    apply stats_of_perm
    apply Table.pick_perm
    intro id
    cases hrow : tables.assets.lookup id with
    | none => rfl
    | some record =>
      by_cases hcounts : counts record = true
      · exact if_pos hcounts
      -- what does not count is not live in the directory
      have hnone : tables.live_in stamp dir record = none := by
        by_contra hlive
        obtain ⟨hkind, hlive, hparent⟩ := live_in_ne_none.mp hlive
        exact hcounts (hall id record hrow hkind hlive hparent)
      rw [Option.bind_some, Option.bind_some, if_neg hcounts, hnone]

end Task
