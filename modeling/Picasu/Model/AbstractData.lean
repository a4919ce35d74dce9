import Mathlib.Data.Finset.Basic
import Picasu.Framework.Path
import Picasu.Framework.Table
import Picasu.Model.Share

/-! # Assets and Their Composed View

Every image, video and album directory is an *asset*. Its identity (path, kind, content hash,
album membership, trash flag) is an `AssetRecord`, and what handlers filter, edit and return is
the composed view `AbstractData` of the record and its stored metadata.

Identifiers, `ArrayString<64>` in the code, are strings. The `f64` duration of a video is only
ever copied and is kept as its bits.
-/

/-! ## Identity records -/

inductive AssetKind where
  | image
  | video
  | album
  deriving DecidableEq, Repr

/-- `AssetRecord`, the row of `ASSET_BY_ID`. -/
structure AssetRecord where
  asset_id : String
  kind : AssetKind
  /-- The file for media, the directory for albums. -/
  path : String
  content_hash : Option String
  file_size : Nat
  ext : String
  modified : Int
  scan_time : Int
  is_trashed : Bool
  /-- The album of a media file. -/
  album_id : Option String
  deriving DecidableEq, Repr

/-! ## The composed view -/

inductive ObjectType where
  | image
  | video
  | album
  deriving DecidableEq, Repr

structure FileEntry where
  file : String
  modified : Int
  scan_time : Int
  is_trashed : Bool
  deriving DecidableEq, Repr

/-- `ObjectSchema`: the part common to the three variants. -/
structure ObjectSchema where
  id : String
  obj_type : ObjectType
  pending : Bool
  thumbhash : Option (List UInt8)
  description : Option String
  tags : Finset String
  rating : Option Nat
  update_at : Int
  deriving DecidableEq

/-- `ObjectSchema::new`, at clock reading `now`. -/
def ObjectSchema.new (now : Int) (id : String) (obj_type : ObjectType) : ObjectSchema where
  id
  obj_type
  pending := false
  thumbhash := none
  description := none
  tags := ∅
  rating := none
  update_at := now

structure ImageMetadata where
  size : Nat
  width : Nat
  height : Nat
  ext : String
  phash : Option (List UInt8)
  album : Option String
  exif_vec : Table String String
  path : Option FileEntry
  deriving DecidableEq

def ImageMetadata.new (size width height : Nat) (ext : String) : ImageMetadata where
  size
  width
  height
  ext
  phash := none
  album := none
  exif_vec := ∅
  path := none

structure VideoMetadata where
  size : Nat
  width : Nat
  height : Nat
  ext : String
  duration : UInt64
  album : Option String
  exif_vec : Table String String
  path : Option FileEntry
  deriving DecidableEq

def VideoMetadata.new (size width height : Nat) (ext : String) : VideoMetadata where
  size
  width
  height
  ext
  duration := 0
  album := none
  exif_vec := ∅
  path := none

/-- `AlbumMetadata`, with its `Default`. -/
structure AlbumMetadata where
  id : String := ""
  title : Option String := none
  created_time : Int := 0
  start_time : Option Int := none
  end_time : Option Int := none
  last_modified_time : Int := 0
  /-- The asset id of the cover. -/
  cover : Option String := none
  item_count : Nat := 0
  item_size : Nat := 0
  share_list : Table String Share := ∅
  dir_path : String := ""
  custom_title : Option String := none
  is_trashed : Bool := false
  deriving DecidableEq

structure ImageCombined where
  object : ObjectSchema
  metadata : ImageMetadata
  deriving DecidableEq

structure VideoCombined where
  object : ObjectSchema
  metadata : VideoMetadata
  deriving DecidableEq

structure AlbumCombined where
  object : ObjectSchema
  metadata : AlbumMetadata
  deriving DecidableEq

inductive AbstractData where
  | image (img : ImageCombined)
  | video (vid : VideoCombined)
  | album (alb : AlbumCombined)
  deriving DecidableEq

namespace AbstractData

/-! ## Reading the view -/

/-- The common part. -/
def object : AbstractData → ObjectSchema
  | image img => img.object
  | video vid => vid.object
  | album alb => alb.object

/-- `hash`: the content hash of media, the asset id of albums. -/
def hash (d : AbstractData) : String := d.object.id

def tag (d : AbstractData) : Finset String := d.object.tags

def description (d : AbstractData) : Option String := d.object.description

def rating (d : AbstractData) : Option Nat := d.object.rating

def thumbhash (d : AbstractData) : Option (List UInt8) := d.object.thumbhash

def update_at (d : AbstractData) : Int := d.object.update_at

def pending (d : AbstractData) : Bool := d.object.pending

def width : AbstractData → Nat
  | image img => img.metadata.width
  | video vid => vid.metadata.width
  | album _ => 300

def height : AbstractData → Nat
  | image img => img.metadata.height
  | video vid => vid.metadata.height
  | album _ => 300

/-- The file extension of a media view. -/
def ext : AbstractData → Option String
  | image img => some img.metadata.ext
  | video vid => some vid.metadata.ext
  | album _ => none

def ext_type : AbstractData → String
  | image _ => "image"
  | video _ => "video"
  | album _ => "album"

def exif_vec : AbstractData → Option (Table String String)
  | image img => some img.metadata.exif_vec
  | video vid => some vid.metadata.exif_vec
  | album _ => none

def path : AbstractData → Option FileEntry
  | image img => img.metadata.path
  | video vid => vid.metadata.path
  | album _ => none

/-- `album`: the album a media file is in. Albums are in none. -/
def inAlbum : AbstractData → Option String
  | image img => img.metadata.album
  | video vid => vid.metadata.album
  | album _ => none

/-- `is_trashed`: media without a file entry are not in the trash. -/
def is_trashed : AbstractData → Bool
  | image img => img.metadata.path.any fun entry => entry.is_trashed
  | video vid => vid.metadata.path.any fun entry => entry.is_trashed
  | album alb => alb.metadata.is_trashed

/-- `visibility_path`: what decides who sees the asset. -/
def visibility_path : AbstractData → Option PathBuf
  | image img => img.metadata.path.map fun e => PathBuf.ofString e.file
  | video vid => vid.metadata.path.map fun e => PathBuf.ofString e.file
  | album alb => some (PathBuf.ofString alb.metadata.dir_path)

/-! ## Editing the view -/

/-- Edit the common part, whatever the variant: the body of the setters of `ObjectSchema`. -/
def mapObject (f : ObjectSchema → ObjectSchema) : AbstractData → AbstractData
  | image img => image { img with object := f img.object }
  | video vid => video { vid with object := f vid.object }
  | album alb => album { alb with object := f alb.object }

def set_description (description : Option String) : AbstractData → AbstractData :=
  mapObject fun o => { o with description }

def set_rating (rating : Option Nat) : AbstractData → AbstractData :=
  mapObject fun o => { o with rating }

/-- An edit through `tag_mut`. -/
def edit_tags (f : Finset String → Finset String) : AbstractData → AbstractData :=
  mapObject fun o => { o with tags := f o.tags }

/-- `set_trashed`: a media view without a file entry is left alone. -/
def set_trashed (trashed : Bool) : AbstractData → AbstractData
  | image img => image { img with metadata := { img.metadata with
      path := img.metadata.path.map fun p => { p with is_trashed := trashed } } }
  | video vid => video { vid with metadata := { vid.metadata with
      path := vid.metadata.path.map fun p => { p with is_trashed := trashed } } }
  | album alb => album { alb with metadata := { alb.metadata with is_trashed := trashed } }

def set_width (width : Nat) : AbstractData → AbstractData
  | image img => image { img with metadata := { img.metadata with width } }
  | video vid => video { vid with metadata := { vid.metadata with width } }
  | album alb => album alb

def set_height (height : Nat) : AbstractData → AbstractData
  | image img => image { img with metadata := { img.metadata with height } }
  | video vid => video { vid with metadata := { vid.metadata with height } }
  | album alb => album alb

def set_album (album_id : Option String) : AbstractData → AbstractData
  | image img => image { img with metadata := { img.metadata with album := album_id } }
  | video vid => video { vid with metadata := { vid.metadata with album := album_id } }
  | album alb => album alb

/-- An edit through `path_mut`; albums have no path to edit. -/
def edit_path (f : Option FileEntry → Option FileEntry) : AbstractData → AbstractData
  | image img => image { img with metadata := { img.metadata with path := f img.metadata.path } }
  | video vid => video { vid with metadata := { vid.metadata with path := f vid.metadata.path } }
  | album alb => album alb

end AbstractData

/-- `DatabaseTimestamp`: one row of the in-memory tree. -/
structure DatabaseTimestamp where
  abstract_data : AbstractData
  timestamp : Int
  asset_id : String
  deriving DecidableEq

abbrev MemoryTree := List DatabaseTimestamp
