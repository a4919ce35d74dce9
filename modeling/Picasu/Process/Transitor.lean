import Picasu.Model.MetadataRecord

/-! # Between Stored Rows and Views

The two tables of the store that describe assets, the one-transaction write every metadata edit
ends in, and the views that list and detail responses are built from.
-/

/-- The asset tables: `ASSET_BY_ID` and `METADATA_TABLE`. -/
structure Tables where
  assets : Table String AssetRecord
  metadata : Table String MetadataRecord

def compose_by_asset_id (now : Int) (tables : Tables) (asset_id : String) :
    Option AbstractData :=
  (tables.assets.lookup asset_id).map fun record =>
    compose_abstract_data now record (tables.metadata.lookup asset_id)

/-- `store_metadata_record`: replace the whole payload, and update the trash flag of the record if
one is given. -/
def store_metadata_record (asset_id : String) (data : AbstractData) (trash : Option Bool)
    (tables : Tables) : Tables where
  metadata := tables.metadata.insert asset_id (to_metadata_record data)
  assets :=
    match trash, tables.assets.lookup asset_id with
    | some is_trashed, some record => tables.assets.insert asset_id { record with is_trashed }
    | _, _ => tables.assets

/-- `asset_record_to_abstract_data`, at clock reading `now`. -/
def asset_record_to_abstract_data (now : Int) (record : AssetRecord) : AbstractData :=
  let display_id := record.content_hash.getD record.asset_id
  match record.kind with
  | .image => .image
      { object := ObjectSchema.new now display_id .image
        metadata := { ImageMetadata.new record.file_size 0 0 record.ext with
          path := some record.file_entry } }
  | .video => .video
      { object := ObjectSchema.new now display_id .video
        metadata := { VideoMetadata.new record.file_size 0 0 record.ext with
          path := some record.file_entry } }
  | .album => .album
      { object := ObjectSchema.new now record.asset_id .album
        metadata :=
          { id := record.asset_id
            created_time := record.scan_time
            last_modified_time := record.modified
            dir_path := record.path
            is_trashed := record.is_trashed } }

/-- `ReducedData`: what a snapshot keeps of a row. -/
structure ReducedData where
  asset_id : String
  hash : String
  width : Nat
  height : Nat
  date : Int
  update_at : Int
  pending : Bool
  deriving DecidableEq, Repr

/-- `lean_media_abstract_data`: a list row from the identity record and the snapshot, without
reading the metadata. -/
def lean_media_abstract_data (now : Int) (record : AssetRecord) (reduced : ReducedData) :
    AbstractData :=
  let data := asset_record_to_abstract_data now record
  let data := data.set_width reduced.width
  let data := data.set_height reduced.height
  let data := data.set_album record.album_id
  match data with
  | .album _ => data
  | _ => data.mapObject fun o => { o with update_at := reduced.update_at, pending := reduced.pending }

/-- `clear_abstract_data_metadata`: what a share that hides metadata does not show. -/
def clear_abstract_data_metadata (show_metadata : Bool) : AbstractData → AbstractData
  | .image img =>
    if show_metadata then .image img
    else .image
      { object := { img.object with tags := ∅ }
        metadata := { img.metadata with album := none, path := none, exif_vec := ∅ } }
  | .video vid =>
    if show_metadata then .video vid
    else .video
      { object := { vid.object with tags := ∅ }
        metadata := { vid.metadata with album := none, path := none, exif_vec := ∅ } }
  | .album alb =>
    if show_metadata then .album alb
    else .album { alb with object := { alb.object with tags := ∅ } }

def cover_content_hash_from_data (tables : Tables) : AbstractData → Option String
  | .album alb => do
    let cover_asset_id ← alb.metadata.cover
    let record ← tables.assets.lookup cover_asset_id
    return record.content_hash.getD record.asset_id
  | _ => none
