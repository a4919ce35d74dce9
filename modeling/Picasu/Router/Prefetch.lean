import Picasu.Auth.Sessions
import Picasu.Model.Expression
import Picasu.Storage.Cache

/-! # Prefetch

A client first asks which rows match a query: `prefetch` filters the in-memory tree for the
presenter, stores the selected rows as a snapshot and returns the snapshot's id and a token for
it. A query that was asked before is answered from the query cache.
-/

/-! ## Selecting rows -/

/-- `row_visible`: the caller sees the row, and opted in if it is personal. -/
def row_visible (roots : Roots) (data : AbstractData) (caller : String)
    (include_personal : Bool) : Bool :=
  match data.visibility_path with
  | some path =>
    if !visible_to roots caller path then false
    else
      match classify_path roots path with
      | .personal _ => include_personal
      | _ => true
  | none => true

/-- `From<&DatabaseTimestamp> for ReducedData`. -/
def DatabaseTimestamp.reduce (row : DatabaseTimestamp) : ReducedData where
  asset_id := row.asset_id
  hash := row.abstract_data.hash
  width := row.abstract_data.width
  height := row.abstract_data.height
  date := row.timestamp
  update_at := row.abstract_data.update_at
  pending := row.abstract_data.pending

/-- The visibility path of the row, if any, is in the given class. -/
def classified_as (roots : Roots) (data : AbstractData) (c : PathClassification) : Bool :=
  data.visibility_path.any fun path => classify_path roots path == c

/-- The filter expression of a share's request: the full compiler, or the metadata-hiding one. -/
def share_filter (layout : Layout) (resolved : ResolvedShare) (e : Expression)
    (data : AbstractData) : Bool :=
  if resolved.share.show_metadata then e.generate_filter layout data
  else e.generate_filter_hide_metadata resolved.album_id data

/-- The test of `filter_items` on one row. -/
def selects (layout : Layout) (expression : Option Expression)
    (resolved_share : Option ResolvedShare) (caller_id : String)
    (include_personal personal_only_roots : Bool) (row : DatabaseTimestamp) : Bool :=
  let data := row.abstract_data
  match expression, resolved_share with
  | some e, some resolved =>
    -- a share is scoped by the album condition in its expression
    if classified_as layout.roots data .usersRoot then false
    else share_filter layout resolved e data
  | some e, none =>
    if !row_visible layout.roots data caller_id include_personal then false
    else if personal_only_roots && classified_as layout.roots data .isPublic then false
    else e.generate_filter layout data
  | none, _ => row_visible layout.roots data caller_id include_personal

def filter_items (layout : Layout) (tree : MemoryTree) (expression : Option Expression)
    (resolved_share : Option ResolvedShare) (caller_id : String)
    (include_personal personal_only_roots : Bool) : List ReducedData :=
  (tree.filter (selects layout expression resolved_share caller_id include_personal
    personal_only_roots)).map DatabaseTimestamp.reduce

def compute_locate (rows : List ReducedData) (locate : Option String) : Option Nat :=
  locate.bind fun asset_id => rows.findIdx? fun reduced => reduced.asset_id == asset_id

/-! ## The request -/

/-- Who presents a request: a user's session, or a resolved share. -/
inductive Presenter where
  | user (id : String)
  | share (resolved : ResolvedShare)

/-- The caller id of a presenter; shares have the empty one. -/
def Presenter.caller_id : Presenter → String
  | user id => id
  | share _ => ""

def Presenter.get_share : Presenter → Option ResolvedShare
  | user _ => none
  | share resolved => some resolved

structure PrefetchRequest where
  presenter : Presenter
  query : Option Expression
  locate : Option String
  include_personal : Bool

namespace PrefetchRequest

/-- The client's expression, combined with the album condition of a share. -/
def expression (req : PrefetchRequest) : Option Expression :=
  match req.presenter with
  | .user _ => req.query
  | .share resolved =>
    let album_filter : Expression := .album (.value resolved.album_id)
    match req.query with
    | some client => some (.and [album_filter, client])
    | none => some album_filter

/-- The `MyAlbums` view: only the caller's own root albums. -/
def personal_only_roots (req : PrefetchRequest) : Bool :=
  req.include_personal && req.query.any Expression.contains_root_album_true

def select (layout : Layout) (tree : MemoryTree) (req : PrefetchRequest) : List ReducedData :=
  filter_items layout tree req.expression req.presenter.get_share req.presenter.caller_id
    req.include_personal req.personal_only_roots

end PrefetchRequest

/-! ## The handler -/

/-- The tuple `build_cache_key` hashes. The share is not part of it. -/
structure QueryKey where
  expression : Option Expression
  version : Int
  locate : Option String
  caller_id : String
  include_personal : Bool
  personal_only_roots : Bool

/-- The tuple of a request. -/
def PrefetchRequest.cache_key (version : Int) (req : PrefetchRequest) : QueryKey where
  expression := req.expression
  version
  locate := req.locate
  caller_id := req.presenter.caller_id
  include_personal := req.include_personal
  personal_only_roots := req.personal_only_roots

structure ClaimsSnapshot where
  caller : String
  resolved_share_opt : Option ResolvedShare
  timestamp : Int
  exp : Nat
  typ : TokenType
  deriving DecidableEq, Repr

/-- `ClaimsSnapshot::new`, at clock reading `now` in seconds. -/
def ClaimsSnapshot.new (now : Nat) (caller : String) (resolved_share_opt : Option ResolvedShare)
    (timestamp : Int) : ClaimsSnapshot :=
  { caller, resolved_share_opt, timestamp, exp := now + 300, typ := .snapshot }

/-- `PrefetchReturn`; the token is given by its claims. -/
structure PrefetchReturn where
  prefetch : Prefetch
  token : ClaimsSnapshot
  resolved_share_opt : Option ResolvedShare
  deriving DecidableEq, Repr

/-- `execute_prefetch_logic`, for a request at clock reading `now`, in milliseconds: the caches it
leaves and its answer. -/
def execute_prefetch_logic (hasher : QueryKey → UInt64) (version : Int) (layout : Layout)
    (tree : MemoryTree) (now : Nat) (req : PrefetchRequest) (caches : Caches) :
    PrefetchReturn × Caches :=
  let query_hash := hasher (req.cache_key version)
  let share := req.presenter.get_share
  let caller := req.presenter.caller_id
  match caches.read_query_snapshot query_hash with
  | some prefetch => (⟨prefetch, .new (now / 1000) caller share prefetch.timestamp, share⟩, caches)
  | none =>
    let rows := req.select layout tree
    let (timestamp, caches) := caches.insert_tree_snapshot now rows
    let prefetch : Prefetch := ⟨timestamp, compute_locate rows req.locate, rows.length⟩
    (⟨prefetch, .new (now / 1000) caller share timestamp, share⟩,
      { caches with query_snapshot := caches.query_snapshot.put query_hash prefetch })
