import Picasu.Model.AbstractData
import Picasu.Process.DirAlbum

/-! # Search Expressions

The filter language of the gallery. `generate_filter` is the full compiler;
`generate_filter_hide_metadata` is the one used for shares that hide metadata, which answers
`false` for the conditions such a share must not be probed with.

The compilers are functions from an expression and a view to `Bool`. Where the image and the video
arm of a condition are the same test on the same field, the test is written once, on the field
(`ext`, `exif_vec`, `path`), which albums do not have.
-/

open Text

inductive FilterValue where
  | value (v : String)
  | exists_ (b : Bool)
  deriving DecidableEq, Repr

inductive AlbumFilterValue where
  | value (album_id : String)
  | exists_ (b : Bool)
  deriving DecidableEq, Repr

inductive Expression where
  | or (exprs : List Expression)
  | and (exprs : List Expression)
  | not (expr : Expression)
  | tag (v : FilterValue)
  | extType (ext_type : String)
  | ext (ext : String)
  | model (v : FilterValue)
  | make (v : FilterValue)
  | path (path : String)
  | album (v : AlbumFilterValue)
  | rootAlbum (b : Bool)
  | any (identifier : String)
  | parentAlbum (parent_id : String)
  | trashed (b : Bool)

namespace Expression

/-! ## Root albums -/

mutual
/-- `contains_root_album_true`. A negation hides what is inside it. -/
def contains_root_album_true : Expression → Bool
  | .rootAlbum b => b
  | .and exprs | .or exprs => any_contains_root_album_true exprs
  | _ => false

def any_contains_root_album_true : List Expression → Bool
  | [] => false
  | e :: exprs => e.contains_root_album_true || any_contains_root_album_true exprs
end

/-! ## Tests on fields -/

/-- `normalize_parent`: the directory of a file, relative paths being below the image home. -/
def normalize_parent (roots : Roots) (file : String) : Option PathBuf :=
  let p := PathBuf.ofString file
  let abs :=
    if PathBuf.is_absolute p then p
    else
      match roots.image_home with
      | some image_home => PathBuf.join image_home p
      | none => p
  PathBuf.parent abs

def containsLower (needle field : String) : Bool :=
  contains (to_ascii_lowercase field) (to_ascii_lowercase needle)

def ext_contains (needle : String) (data : AbstractData) : Bool :=
  data.ext.any (containsLower needle)

def exif_contains (key needle : String) (data : AbstractData) : Bool :=
  data.exif_vec.any fun exif => (exif.lookup key).any (containsLower needle)

/-- The EXIF entry `key` is there, or is not, as asked. -/
def exif_exists (key : String) (b : Bool) (data : AbstractData) : Bool :=
  data.exif_vec.any fun exif => (exif.lookup key).isSome == b

/-- `Model` and `Make`: the condition on one EXIF entry. -/
def exif_matches (key : String) : FilterValue → AbstractData → Bool
  | .value needle, data => exif_contains key needle data
  | .exists_ b, data => exif_exists key b data

def path_contains (needle : String) (data : AbstractData) : Bool :=
  data.path.any fun entry => containsLower needle entry.file

/-- `Trashed`: the trash flag has the given value. A media view without file entry has no flag. -/
def trashed_is (b : Bool) : AbstractData → Bool
  | .image img => img.metadata.path.any fun entry => entry.is_trashed == b
  | .video vid => vid.metadata.path.any fun entry => entry.is_trashed == b
  | .album alb => alb.metadata.is_trashed == b

/-! ## The compilers -/

/-- The leaves of `generate_filter`. -/
def leaf_filter (layout : Layout) (data : AbstractData) : Expression → Bool
  | .tag (.value t) => decide (t ∈ data.tag)
  | .tag (.exists_ b) => decide (data.tag = ∅) != b
  | .trashed b => trashed_is b data
  | .extType t => contains t data.ext_type
  | .ext x => ext_contains x data
  | .model v => exif_matches "Model" v data
  | .make v => exif_matches "Make" v data
  | .path p => path_contains p data
  | .album (.value album_id) =>
    -- membership by directory: the file's parent is the album's directory
    match layout.dirs.get_dir_path_for_album album_id with
    | some dir => data.path.any fun entry => normalize_parent layout.roots entry.file == some dir
    | none => false
  | .album (.exists_ b) =>
    match data with
    | .image img => img.metadata.album.isSome == b
    | .video vid => vid.metadata.album.isSome == b
    | .album _ => false
  | .rootAlbum b =>
    match data with
    | .album alb =>
      (layout.dirs.get_parent_album_id (PathBuf.ofString alb.metadata.dir_path)).isNone == b
    | _ => false
  | .parentAlbum parent_id =>
    match data with
    | .album alb =>
      layout.dirs.get_parent_album_id (PathBuf.ofString alb.metadata.dir_path) == some parent_id
    | _ => false
  | .any identifier =>
    match data with
    | .album alb =>
      decide (identifier ∈ alb.object.tags) ||
        contains (to_ascii_lowercase "album") (to_ascii_lowercase identifier) ||
        containsLower identifier alb.object.id
    | _ =>
      decide (identifier ∈ data.tag) || contains data.ext_type identifier ||
        containsLower identifier data.hash || ext_contains identifier data ||
        exif_contains "Make" identifier data || exif_contains "Model" identifier data ||
        path_contains identifier data
  | .or _ | .and _ | .not _ => false

/-- The leaves of `generate_filter_hide_metadata`. -/
def leaf_filter_hide_metadata (shared_album_id : String) (data : AbstractData) :
    Expression → Bool
  | .album (.value album_id) =>
    -- membership by the recorded album, and only in the shared one
    if album_id = shared_album_id then data.inAlbum == some album_id else false
  | .album (.exists_ b) =>
    match data with
    | .image _ | .video _ => b
    | .album _ => false
  | .tag _ | .path _ | .rootAlbum _ | .parentAlbum _ => false
  | .trashed b => trashed_is b data
  | .extType t =>
    match data with
    | .image _ => contains t "image"
    | .video _ => contains t "video"
    | .album _ => false
  | .ext x => ext_contains x data
  | .model v => exif_matches "Model" v data
  | .make v => exif_matches "Make" v data
  | .any identifier =>
    match data with
    | .album _ => false
    | _ =>
      contains data.ext_type identifier || ext_contains identifier data ||
        exif_contains "Make" identifier data || exif_contains "Model" identifier data
  | .or _ | .and _ | .not _ => false

section Eval

variable (leaf : Expression → Bool)

mutual
/-- The shape both compilers share: connectives over the answers at the leaves. -/
def eval : Expression → Bool
  | .or exprs => eval_any exprs
  | .and exprs => eval_all exprs
  | .not e => !(eval e)
  | e => leaf e

/-- Some part holds. -/
def eval_any : List Expression → Bool
  | [] => false
  | e :: exprs => eval e || eval_any exprs

/-- Every part holds. -/
def eval_all : List Expression → Bool
  | [] => true
  | e :: exprs => eval e && eval_all exprs
end

theorem eval_and (exprs : List Expression) : eval leaf (.and exprs) = exprs.all (eval leaf) := by
  show eval_all leaf exprs = _
  induction exprs with
  | nil => rfl
  | cons e exprs ih => simp [eval_all, ih]

end Eval

def generate_filter (layout : Layout) (e : Expression) (data : AbstractData) : Bool :=
  eval (leaf_filter layout data) e

def generate_filter_hide_metadata (shared_album_id : String) (e : Expression)
    (data : AbstractData) : Bool :=
  eval (leaf_filter_hide_metadata shared_album_id data) e

end Expression
