import Picasu.Model.AbstractData

/-! # The Stored Metadata

`METADATA_TABLE` holds, per asset, only what users and the indexer say *about* it; identity lives
in the `AssetRecord`. `to_metadata_record` extracts the payload from a composed view and
`compose_abstract_data` puts record and payload together.
-/

structure ImagePayload where
  tags : Finset String
  description : Option String
  rating : Option Nat
  update_at : Int
  pending : Bool
  thumbhash : Option (List UInt8)
  width : Nat
  height : Nat
  phash : Option (List UInt8)
  exif_vec : Table String String
  deriving DecidableEq

structure VideoPayload where
  tags : Finset String
  description : Option String
  rating : Option Nat
  update_at : Int
  pending : Bool
  thumbhash : Option (List UInt8)
  width : Nat
  height : Nat
  duration : UInt64
  exif_vec : Table String String
  deriving DecidableEq

structure AlbumPayload where
  tags : Finset String
  description : Option String
  rating : Option Nat
  update_at : Int
  pending : Bool
  thumbhash : Option (List UInt8)
  title : Option String
  created_time : Int
  start_time : Option Int
  end_time : Option Int
  last_modified_time : Int
  cover : Option String
  item_count : Nat
  item_size : Nat
  share_list : Table String Share
  custom_title : Option String
  deriving DecidableEq

/-- `MetadataRecord`, the row of `METADATA_TABLE`. -/
inductive MetadataRecord where
  | image (payload : ImagePayload)
  | video (payload : VideoPayload)
  | album (payload : AlbumPayload)
  deriving DecidableEq

/-- The fields of a payload come from the object and the metadata of the view. -/
def to_metadata_record : AbstractData → MetadataRecord
  | .image img => .image { img.object, img.metadata with }
  | .video vid => .video { vid.object, vid.metadata with }
  | .album alb => .album { alb.object, alb.metadata with }

/-! ## Composition -/

def AssetRecord.file_entry (record : AssetRecord) : FileEntry :=
  { record with file := record.path }

/-- The `object.id` of a view: the content hash for media, the asset id for albums. -/
def AssetRecord.display_id (record : AssetRecord) : String :=
  match record.kind with
  | .album => record.asset_id
  | _ => record.content_hash.getD record.asset_id

/-- The image arm of `compose_abstract_data`. -/
def compose_image (now : Int) (record : AssetRecord) (payload : Option ImagePayload) :
    ImageCombined :=
  let object := ObjectSchema.new now record.display_id .image
  let metadata := ImageMetadata.new record.file_size 0 0 record.ext
  let (object, metadata) : ObjectSchema × ImageMetadata :=
    match payload with
    -- the fields that the payload has
    | some p => ({ p, object with }, { p, metadata with })
    | none => (object, metadata)
  { object, metadata := { metadata with
      album := record.album_id, path := some record.file_entry } }

/-- The video arm of `compose_abstract_data`. -/
def compose_video (now : Int) (record : AssetRecord) (payload : Option VideoPayload) :
    VideoCombined :=
  let object := ObjectSchema.new now record.display_id .video
  let metadata := VideoMetadata.new record.file_size 0 0 record.ext
  let (object, metadata) : ObjectSchema × VideoMetadata :=
    match payload with
    | some p => ({ p, object with }, { p, metadata with })
    | none => (object, metadata)
  { object, metadata := { metadata with
      album := record.album_id, path := some record.file_entry } }

/-- The album arm of `compose_abstract_data`. -/
def compose_album (now : Int) (record : AssetRecord) (payload : Option AlbumPayload) :
    AlbumCombined :=
  let object := ObjectSchema.new now record.display_id .album
  let metadata : AlbumMetadata :=
    { id := record.asset_id, dir_path := record.path, is_trashed := record.is_trashed }
  match payload with
  | some p => { object := { p, object with }, metadata := { p, metadata with } }
  | none => { object, metadata }

/-- `compose_abstract_data`, at clock reading `now` (the `update_at` of a view without payload). A
payload of another variant than the record's kind counts as missing. -/
def compose_abstract_data (now : Int) (record : AssetRecord) (meta_ : Option MetadataRecord) :
    AbstractData :=
  match record.kind with
  | .image => .image (compose_image now record
      (meta_.bind fun | .image p => some p | _ => none))
  | .video => .video (compose_video now record
      (meta_.bind fun | .video p => some p | _ => none))
  | .album => .album (compose_album now record
      (meta_.bind fun | .album p => some p | _ => none))

/-! What decides about membership and visibility comes from the record. -/

theorem visibility_path_compose (now : Int) (record : AssetRecord)
    (meta_ : Option MetadataRecord) :
    (compose_abstract_data now record meta_).visibility_path =
      some (PathBuf.ofString record.path) := by
  unfold compose_abstract_data
  split
  · cases meta_.bind _ <;> rfl
  · cases meta_.bind _ <;> rfl
  · unfold compose_album
    split <;> rfl

theorem inAlbum_compose (now : Int) (record : AssetRecord) (meta_ : Option MetadataRecord) :
    (compose_abstract_data now record meta_).inAlbum =
      if record.kind = .album then none else record.album_id := by
  unfold compose_abstract_data
  split <;> rename_i hkind <;> rw [hkind] <;> rfl

theorem path_compose (now : Int) (record : AssetRecord) (meta_ : Option MetadataRecord) :
    (compose_abstract_data now record meta_).path =
      if record.kind = .album then none else some record.file_entry := by
  unfold compose_abstract_data
  split <;> rename_i hkind <;> rw [hkind] <;> rfl
