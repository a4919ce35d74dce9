import Picasu.Framework.Result
import Picasu.Router.Prefetch
import Picasu.Router.Shares

/-! # Reading Rows and Details

With a snapshot token, a client reads ranges of the snapshot (`get_data`) and the details of
single assets (`get_metadata`), and renews the tokens that serve images (`renew_hash_token`). Rows
and details are composed from the stored tables at request time, not from the snapshot.

`get_metadata` and `renew_hash_token` check that the asset is in the token's scope now
(`in_scope`). `get_data` does not.

Bearer tokens are given by their claims; the guards have checked them.
-/

def resolve_show_download_and_metadata (resolved_share_opt : Option ResolvedShare) :
    Bool × Bool :=
  match resolved_share_opt with
  | none => (true, true)
  | some resolved => (resolved.share.show_download, resolved.share.show_metadata)

/-- `ClaimsAsset`: the token that serves one asset's images. -/
structure ClaimsAsset where
  allow_original : Bool
  hash : String
  asset_id : String
  timestamp : Int
  exp : Nat
  caller : String
  resolved_share_opt : Option ResolvedShare
  typ : TokenType
  deriving DecidableEq, Repr

/-- `ClaimsAsset::new`, at clock reading `now` in milliseconds. -/
def ClaimsAsset.new (now : Nat) (hash asset_id : String) (timestamp : Int) (allow_original : Bool)
    (caller : String) (resolved_share_opt : Option ResolvedShare) : ClaimsAsset :=
  { allow_original, hash, asset_id, timestamp, exp := now / 1000 + 300, caller,
    resolved_share_opt, typ := .asset }

/-! ## Rows of a snapshot -/

structure DataBaseTimestampReturn where
  abstract_data : AbstractData
  timestamp : Int
  token : ClaimsAsset
  asset_id : String
  cover_hash : Option String
  deriving DecidableEq

/-- `abstract_data_to_timestamp_return`: mint the token from the full view, then clear what the
share hides. The row's date is the snapshot's, as `get_data` sets it. -/
def abstract_data_to_timestamp_return (now : Nat) (claims : ClaimsSnapshot) (timestamp : Int)
    (data : AbstractData) (reduced : ReducedData) (cover_content_hash : Option String) :
    DataBaseTimestampReturn :=
  let (show_download, show_metadata) := resolve_show_download_and_metadata claims.resolved_share_opt
  let token :=
    match data with
    | .album alb =>
      -- album covers have no original of their own
      let token_hash := cover_content_hash.getD (alb.metadata.cover.getD reduced.asset_id)
      ClaimsAsset.new now token_hash reduced.asset_id timestamp false claims.caller
        claims.resolved_share_opt
    | _ => ClaimsAsset.new now data.hash reduced.asset_id timestamp show_download claims.caller
        claims.resolved_share_opt
  { abstract_data := clear_abstract_data_metadata show_metadata data
    timestamp := reduced.date
    token
    asset_id := reduced.asset_id
    cover_hash := cover_content_hash }

/-- The row `get_data` returns for one snapshot entry. -/
def get_row (now : Nat) (claims : ClaimsSnapshot) (timestamp : Int) (tables : Tables)
    (reduced : ReducedData) : Except AppError DataBaseTimestampReturn :=
  match tables.assets.lookup reduced.asset_id with
  | none => .error (.new .database ("No ASSET_BY_ID record for asset_id " ++ reduced.asset_id))
  | some record =>
    match record.kind with
    | .album =>
      match tables.metadata.lookup reduced.asset_id with
      | none => .error (.new .database
          ("Failed to retrieve album for asset_id " ++ reduced.asset_id))
      | some payload =>
        let data := compose_abstract_data now record (some payload)
        .ok (abstract_data_to_timestamp_return now claims timestamp data reduced
          (cover_content_hash_from_data tables data))
    | _ =>
      .ok (abstract_data_to_timestamp_return now claims timestamp
        (lean_media_abstract_data now record reduced) reduced none)

/-- `get_data`: the rows `start` to `end`, or the first error among them. -/
def get_data (now : Nat) (claims : ClaimsSnapshot) (timestamp : Int) (start stop : Nat)
    (caches : Caches) (tables : Tables) : Except AppError (List DataBaseTimestampReturn) :=
  match caches.read_tree_snapshot timestamp with
  | none => .error (.new .invalidInput ("Unknown snapshot id: " ++ toString timestamp))
  | some rows =>
    let stop := min stop rows.length
    ((rows.take stop).drop start).mapM (get_row now claims timestamp tables)

/-! ## Details and renewals -/

/-- What a token may read: assets of its share's album, or assets its caller sees. -/
def in_scope (roots : Roots) (claims : ClaimsSnapshot) (data : AbstractData) : Bool :=
  match claims.resolved_share_opt with
  | some resolved => data.inAlbum == some resolved.album_id
  | none => data.visibility_path.all (visible_to roots claims.caller)

def get_metadata (now : Int) (roots : Roots) (claims : ClaimsSnapshot) (asset_id : String)
    (tables : Tables) : Except AppError AbstractData :=
  let (_, show_metadata) := resolve_show_download_and_metadata claims.resolved_share_opt
  if 64 < asset_id.utf8ByteSize then
    .error (.new .invalidInput ("Invalid asset_id: " ++ asset_id))
  else
    match compose_by_asset_id now tables asset_id with
    | none => .error (.new .notFound "Record not found")
    | some data =>
      if in_scope roots claims data then .ok (clear_abstract_data_metadata show_metadata data)
      else .error (.new .notFound "Record not found")

/-- The share of an asset token and of a snapshot token are the same. -/
def same_share : Option ResolvedShare → Option ResolvedShare → Bool
  | some a, some b => a.album_id == b.album_id && a.share.url == b.share.url
  | none, none => true
  | _, _ => false

/-- `renew_hash_token`, for a decoded asset token. -/
def renew_hash_token (now : Nat) (roots : Roots) (users : Users) (claims : ClaimsSnapshot)
    (asset : ClaimsAsset) (tables : Tables) : Except AppError ClaimsAsset := do
  if asset.timestamp ≠ claims.timestamp then
    throw (.new .auth "Unauthorized: Timestamp mismatch")
  if asset.caller ≠ claims.caller then
    throw (.new .auth "Unauthorized: Caller mismatch")
  if !same_share asset.resolved_share_opt claims.resolved_share_opt then
    throw (.new .auth "Unauthorized: Share mismatch")
  match claims.resolved_share_opt with
  | some resolved =>
    revalidate_share_record users tables.metadata (now / 1000) resolved.album_id resolved.share.url
  | none => pure ()
  match compose_by_asset_id now tables asset.asset_id with
  | none => throw (.new .auth "Unauthorized: Asset not found")
  | some data =>
    if !in_scope roots claims data then
      throw (.new .auth "Unauthorized: Asset out of scope")
    return ClaimsAsset.new now asset.hash asset.asset_id asset.timestamp asset.allow_original
      asset.caller asset.resolved_share_opt

/-- A renewal answers only for an asset that is in the token's scope now. -/
theorem renew_hash_token_in_scope {now : Nat} {roots : Roots} {users : Users}
    {claims : ClaimsSnapshot} {asset renewed : ClaimsAsset} {tables : Tables}
    (h : renew_hash_token now roots users claims asset tables = .ok renewed) :
    renewed.asset_id = asset.asset_id ∧
      ∃ data, compose_by_asset_id now tables asset.asset_id = some data ∧
        in_scope roots claims data = true := by
  simp only [renew_hash_token, Result.guard_eq_ok] at h
  obtain ⟨-, -, -, h⟩ := h
  cases hdata : compose_by_asset_id now tables asset.asset_id with
  | none =>
    rw [hdata] at h
    split at h
    · obtain ⟨-, -, h⟩ := Result.bind_eq_ok.mp h
      cases h
    · cases h
  | some data =>
    rw [hdata] at h
    -- with and without a share to look up again, the rest is the same
    have hrest : ¬ (!in_scope roots claims data) = true ∧
        ClaimsAsset.new now asset.hash asset.asset_id asset.timestamp asset.allow_original
          asset.caller asset.resolved_share_opt = renewed := by
      split at h
      · obtain ⟨-, -, h⟩ := Result.bind_eq_ok.mp h
        obtain ⟨hscope, h⟩ := Result.guard_eq_ok.mp h
        exact ⟨hscope, Result.pure_eq_ok.mp h⟩
      · obtain ⟨hscope, h⟩ := Result.guard_eq_ok.mp h
        exact ⟨hscope, Result.pure_eq_ok.mp h⟩
    obtain ⟨hscope, rfl⟩ := hrest
    exact ⟨rfl, data, rfl, by simpa using hscope⟩
