import Mathlib.Algebra.GroupWithZero.Nat
import Mathlib.Data.List.Sort
import Picasu.Router.Shares

/-! # Album Handlers

Title and cover edits and the background task that refreshes an album's statistics. Each composes
the album from its record and payload, edits the view and writes the whole payload back, all in
one transaction, so the share list that is written is the one that was there.
-/

/-! ## Statistics -/

structure MediaItemInfo where
  asset_id : String
  size : Nat
  thumbhash : Option (List UInt8)
  timestamp : Int
  deriving DecidableEq, Repr

/-- `path_is_in_album_or_descendant`; upload placeholders do not count. -/
def path_is_in_album_or_descendant (path dir_path : PathBuf) : Bool :=
  PathBuf.starts_with path dir_path &&
    (PathBuf.file_name path).any fun name => name != ".__picasu_ph__.jpg"

/-- A live file somewhere under the album's directory. -/
def below_album (dir_path : PathBuf) (e : FileEntry) : Bool :=
  !e.is_trashed && path_is_in_album_or_descendant (PathBuf.ofString e.file) dir_path

/-- `belongs_to_album`: a live file directly in the album's directory. -/
def belongs_to_album (dir_path : PathBuf) (e : FileEntry) : Bool :=
  below_album dir_path e && PathBuf.parent (PathBuf.ofString e.file) == some dir_path

/-- The item of a media row whose file entry passes `test`. -/
def media_item (test : FileEntry → Bool) (row : DatabaseTimestamp) : Option MediaItemInfo :=
  match row.abstract_data with
  | .image img =>
    if img.metadata.path.any test then
      some ⟨row.asset_id, img.metadata.size, img.object.thumbhash, row.timestamp⟩
    else none
  | .video vid =>
    if vid.metadata.path.any test then
      some ⟨row.asset_id, vid.metadata.size, vid.object.thumbhash, row.timestamp⟩
    else none
  | .album _ => none

/-- The media rows of the tree whose file entry passes `test`, newest first. -/
def media_items (test : FileEntry → Bool) (tree : MemoryTree) : List MediaItemInfo :=
  (tree.filterMap (media_item test)).insertionSort fun a b => b.timestamp ≤ a.timestamp

def AlbumCombined.set_cover (cover_data : AbstractData) (asset_id : String)
    (album : AlbumCombined) : AlbumCombined :=
  { object := { album.object with thumbhash := cover_data.thumbhash }
    metadata := { album.metadata with cover := some asset_id } }

def AlbumCombined.set_cover_from_info (info : MediaItemInfo) (album : AlbumCombined) :
    AlbumCombined :=
  { object := { album.object with thumbhash := info.thumbhash }
    metadata := { album.metadata with cover := some info.asset_id } }

/-- `AlbumCombined::self_update`: recompute times, counts and cover from the tree. -/
def AlbumCombined.self_update (now : Int) (tree : MemoryTree) (album : AlbumCombined) :
    AlbumCombined :=
  let dir_path := PathBuf.ofString album.metadata.dir_path
  match media_items (belongs_to_album dir_path) tree with
  | [] =>
    -- no file of its own: the newest file below lends its face
    let descendant := (media_items (below_album dir_path) tree).head?
    { object := { album.object with thumbhash := descendant.bind fun info => info.thumbhash }
      metadata := { album.metadata with
        start_time := none
        end_time := none
        cover := descendant.map fun info => info.asset_id
        item_count := 0
        item_size := 0 } }
  | first :: rest =>
    let items := first :: rest
    let album : AlbumCombined := { album with metadata := { album.metadata with
      start_time := items.getLast?.map fun info => info.timestamp
      end_time := some first.timestamp
      item_count := items.length
      item_size := (items.map fun info => info.size).sum
      last_modified_time := now } }
    match album.metadata.cover with
    | none => album.set_cover_from_info first
    | some current_cover =>
      if items.any fun info => info.asset_id == current_cover then album
      else album.set_cover_from_info first

theorem AlbumCombined.share_list_self_update (now : Int) (tree : MemoryTree)
    (album : AlbumCombined) :
    (album.self_update now tree).metadata.share_list = album.metadata.share_list := by
  simp only [self_update]
  split
  · rfl
  split
  · rfl
  · split
    · rfl
    · rfl

/-! ## Handlers -/

/-- Fetch an album composed with its record, as the handlers below do inside their transaction. -/
def load_album (now : Int) (tables : Tables) (album_id : String) :
    Except AppError (AssetRecord × AlbumCombined) :=
  match tables.assets.lookup album_id with
  | none => .error (.new .notFound "Album not found")
  | some record =>
    match compose_abstract_data now record (tables.metadata.lookup album_id) with
    | .album album => .ok (record, album)
    | _ => .error (.new .invalidInput "Expected Album but got different type")

/-- Write an album's payload back. -/
def put_album (album_id : String) (album : AlbumCombined) (tables : Tables) : Tables :=
  { tables with
    metadata := tables.metadata.insert album_id (to_metadata_record (.album album)) }

def update_album (now : Int) (album_id : String) (mutate : AlbumCombined → AlbumCombined)
    (tables : Tables) : Except AppError Tables := do
  let (_, album) ← load_album now tables album_id
  return put_album album_id (mutate album) tables

/-- The edit of `set_album_title`: no title falls back to the directory's name. -/
def title_edit (to_uppercase : Char → String) (title : Option String) (album : AlbumCombined) :
    AlbumCombined :=
  { album with metadata := { album.metadata with
      custom_title := title
      title := title.or (some (derive_default_title to_uppercase album.metadata.dir_path)) } }

def set_album_title (to_uppercase : Char → String) (now : Int) (roots : Roots)
    (caller album_id : String) (title : Option String) (tables : Tables) :
    Except AppError Tables := do
  let (record, _) ← load_album now tables album_id
  if record.path ≠ "" then
    match write_gate roots caller (some (PathBuf.ofString record.path)) none with
    | .error _ => throw (.new .permissionDenied "Album not writable")
    | .ok _ => pure ()
  update_album now album_id (title_edit to_uppercase title) tables

def set_album_cover (now : Int) (roots : Roots) (caller album_id cover_asset_id : String)
    (tables : Tables) : Except AppError Tables := do
  let (record, album) ← load_album now tables album_id
  match tables.assets.lookup cover_asset_id, tables.metadata.lookup cover_asset_id with
  | some cover_record, some cover_payload =>
    let cover_data := compose_abstract_data now cover_record (some cover_payload)
    match write_gate roots caller (some (PathBuf.ofString cover_record.path))
        (some (PathBuf.ofString record.path)) with
    | .error _ => throw (.new .permissionDenied "Cover or album not writable")
    | .ok _ => return put_album album_id (album.set_cover cover_data cover_asset_id) tables
  | _, _ => throw (.new .notFound "Cover image not found")

/-- The members of a deleted album that the tree still lists lose their membership. -/
def clear_membership (album_id : String) (tree : MemoryTree) (assets : Table String AssetRecord) :
    Table String AssetRecord :=
  let asset_ids := (tree.filter fun row => row.abstract_data.inAlbum == some album_id).map
    fun row => row.asset_id
  asset_ids.foldl (Table.rewriteAt fun record =>
    if record.album_id = some album_id then some { record with album_id := none } else none) assets

/-- `album_task`: refresh an album, or clean up after a deleted one. -/
def album_task (now : Int) (tree : MemoryTree) (album_id : String) (tables : Tables) : Tables :=
  let deleted := { tables with assets := clear_membership album_id tree tables.assets }
  match tables.assets.lookup album_id, tables.metadata.lookup album_id with
  | some record, some (.album payload) =>
    match compose_abstract_data now record (some (.album payload)) with
    | .album album =>
      let album := { album with object := { album.object with pending := true } }
      let album := album.self_update now tree
      let album := { album with object := { album.object with pending := false } }
      put_album album_id album tables
    | _ => deleted
  | _, _ => deleted
