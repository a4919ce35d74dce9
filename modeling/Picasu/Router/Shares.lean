import Picasu.Auth.Sessions
import Picasu.Process.DirAlbum
import Picasu.Process.Transitor

/-! # Share Handlers

The share list of an album lives in the album's payload, keyed by the share's bearer id.
`create_share`, `edit_share`, `delete_share` and `cascade_owned_shares` each read and write it in
one transaction; `resolve_share_internal` decides whether a request that presents an album id and
a share id is let in.

Handlers name an existing share by its *fingerprint*, a truncated hash of the bearer id. The hash,
like the argon2 functions, is a parameter.
-/

/-- The stored payloads, `METADATA_TABLE`. -/
abbrev Metadata := Table String MetadataRecord

/-! ## Handlers -/

structure CreateShare where
  album_id : String
  description : String
  password : Option String
  show_metadata : Bool
  show_download : Bool
  show_upload : Bool
  exp : Int
  deriving DecidableEq, Repr

structure CreateShareResponse where
  link : String
  fingerprint : String
  deriving DecidableEq, Repr

variable (fingerprint hash_share_password : String → String)

/-- `create_and_insert_share`, with the freshly generated `link`. -/
def create_and_insert_share (link : String) (req : CreateShare) (creator : String)
    (metadata : Metadata) : Except AppError (CreateShareResponse × Metadata) :=
  match metadata.lookup req.album_id with
  | some (.album album) =>
    if 64 < link.utf8ByteSize then .error (.new .internal "Failed to create share ID")
    else
      let share : Share :=
        { url := link
          description := req.description
          password := req.password.map hash_share_password
          show_metadata := req.show_metadata
          show_download := req.show_download
          show_upload := req.show_upload
          exp := req.exp
          created_by := creator }
      .ok (⟨link, fingerprint share.url⟩, metadata.insert req.album_id
        (.album { album with share_list := album.share_list.insert link share }))
  | _ => .error (.new .notFound "Album not found")

def create_share (users : Users) (layout : Layout) (creator link : String) (req : CreateShare)
    (metadata : Metadata) :
    Except AppError (CreateShareResponse × Metadata) := do
  if (UserStore.read users creator).any fun record => !record.shares_enabled then
    throw (.new .permissionDenied "Sharing disabled")
  layout.check_album creator req.album_id
  create_and_insert_share fingerprint hash_share_password link req creator metadata

/-- The entry of a share list with the given fingerprint. -/
def find_share (fingerprint : String → String) (target : String) (list : Table String Share) :
    Option (String × Share) :=
  (list.entries.find? fun e => fingerprint e.2.url == target).map fun e => (e.1, e.2)

/-- The share that `edit_share` stores: the submitted object, except for the password contract
(absent keeps, empty clears), the creator and the bearer, which stay with the server. -/
def edited_share (hash_share_password : String → String) (caller stored_url : String)
    (existing submitted : Share) : Share :=
  { submitted with
    password :=
      match submitted.password with
      | some pw => if pw = "" then none else some (hash_share_password pw)
      | none => existing.password
    created_by := if existing.created_by = "" then caller else existing.created_by
    url := stored_url }

/-- `edit_share`: an unknown album or fingerprint is a silent no-op. -/
def edit_share (layout : Layout) (caller album_id : String) (submitted : Share)
    (metadata : Metadata) :
    Except AppError Metadata := do
  layout.check_album caller album_id
  match metadata.lookup album_id with
  | some (.album album) =>
    match find_share fingerprint submitted.url album.share_list with
    | some (stored_url, existing) =>
      if existing.created_by ≠ caller then
        throw (.new .permissionDenied "Share not owned by caller")
      let share := edited_share hash_share_password caller stored_url existing submitted
      return metadata.insert album_id
        (.album { album with share_list := album.share_list.insert stored_url share })
    | none => return metadata
  | _ => return metadata

/-- `delete_share`: the creator or an administrator removes the share. -/
def delete_share (fingerprint : String → String) (layout : Layout) (caller : String)
    (caller_is_admin : Bool) (album_id share_id : String) (metadata : Metadata) :
    Except AppError Metadata := do
  layout.check_album caller album_id
  match metadata.lookup album_id with
  | some (.album album) =>
    match find_share fingerprint share_id album.share_list with
    | some (stored_key, existing) =>
      if existing.created_by ≠ caller && !caller_is_admin then
        throw (.new .permissionDenied "Share not owned by caller")
      return metadata.insert album_id
        (.album { album with share_list := album.share_list.erase stored_key })
    | none => return metadata.insert album_id (.album album)
  | _ => return metadata

/-- What `cascade_owned_shares` does to one row: drop the target's shares, and rewrite the row only
if there were any. -/
def drop_owned_shares (target : String) : MetadataRecord → Option MetadataRecord
  | .album album =>
    let kept := album.share_list.retain fun _ share => share.created_by != target
    if kept.entries.length ≠ album.share_list.entries.length then
      some (.album { album with share_list := kept })
    else none
  | _ => none

/-- `cascade_owned_shares`: part of deleting the user `target`. -/
def cascade_owned_shares (target : String) (metadata : Metadata) : Metadata :=
  metadata.rewriteEach (drop_owned_shares target)

/-! ## Resolving a share -/

/-- What `resolve_share_internal` reads of a request: the clock, in seconds, and the
`x-share-password` header. -/
structure ShareRequest where
  now : Nat
  x_share_password : Option String
  deriving DecidableEq, Repr

variable (argon2 : String → String → Bool)

/-- `verify_share_password`: argon2 for hashed values, plain comparison for legacy ones. -/
def verify_share_password (candidate stored : String) : Bool :=
  if "$argon2id$".toList.isPrefixOf stored.toList then argon2 candidate stored
  else candidate == stored

def validate_share_access (share : Share) (req : ShareRequest) : Except AppError Unit :=
  if share.exp > 0 ∧ (req.now : Int) > share.exp then
    .error (.new .permissionDenied "Share link expired")
  else
    match share.password with
    | some pwd =>
      if req.x_share_password.any fun header_pwd => verify_share_password argon2 header_pwd pwd then
        .ok ()
      else .error (.new .auth "Share password required or incorrect")
    | none => .ok ()

/-- `resolve_share_internal`; `jti` is the id the minted session claims get. -/
def resolve_share_internal (users : Users) (metadata : Metadata) (album_id share_id : String)
    (req : ShareRequest) (jti : String) : Except AppError ClaimsSession :=
  match metadata.lookup album_id with
  | none => .error (.new .notFound ("Album not found for id '" ++ album_id ++ "'"))
  | some (.album album) =>
    match album.share_list.lookup share_id with
    | none => .error (.new .notFound
        ("Share '" ++ share_id ++ "' not found in album '" ++ album_id ++ "'"))
    | some share => do
      if share.created_by ≠ "" &&
          (UserStore.read users share.created_by).any fun record => !record.shares_enabled then
        throw (.new .auth "Share no longer exists")
      validate_share_access argon2 share req
      -- the resolved share echoes the password the request presented
      let share :=
        match share.password, req.x_share_password with
        | some _, some pw => { share with password := some pw }
        | _, _ => share
      if 64 < album_id.utf8ByteSize then throw (.new .internal "Failed to parse album_id")
      return ClaimsSession.new_share req.now jti { share, album_id, album_title := album.title }
  | some _ => .error (.new .invalidInput ("Data with id '" ++ album_id ++ "' is not an album"))

/-- `revalidate_share_record`: the share of a token that is renewed is still there, its creator may
share, and it has not expired at `now`, in seconds. -/
def revalidate_share_record (users : Users) (metadata : Metadata) (now : Nat)
    (album_id share_id : String) : Except AppError Unit :=
  match metadata.lookup album_id with
  | some (.album album) =>
    match album.share_list.lookup share_id with
    | none => .error (.new .auth "Share no longer exists")
    | some share =>
      if share.created_by ≠ "" &&
          (UserStore.read users share.created_by).any fun record => !record.shares_enabled then
        .error (.new .auth "Share no longer exists")
      else if share.exp > 0 ∧ (now : Int) > share.exp then
        .error (.new .auth "Share link expired")
      else .ok ()
  | _ => .error (.new .auth "Share no longer exists")
