import Picasu.Router.Scope

/-! # Renewing Tokens

Snapshot and asset tokens live for five minutes and are renewed by clients that keep using them.
Both endpoints accept tokens that have expired, so what a renewal re-checks is all that stands
between a client and an unlimited capability:

* `renew_timestamp_token` renews a snapshot token for a presenter, who is a user's session or a
  share;
* `renew_hash_token` renews an asset token for the bearer of a snapshot token.

The two check different things about different credentials. What they guarantee together is about
chains of renewals, in between which shares, accounts and assets change, so the system here
consists of everything that issues a token: logins, prefetches, reads of rows, and renewals.
Nobody else can sign one.
-/

open LTS Scope

/-! ## Who a token is for -/

/-- The pair that names a share: its album and its bearer id. -/
def ResolvedShare.pair (resolved : ResolvedShare) : String × String :=
  (resolved.album_id, resolved.share.url)

/-- A caller, and the share they came through. -/
structure Identity where
  caller : String
  share : Option (String × String)
  deriving DecidableEq, Repr

/-- Exactly the shares have no caller id. -/
def Identity.Proper (i : Identity) : Prop := i.caller = "" ↔ i.share.isSome

def ClaimsSession.identity (claims : ClaimsSession) : Identity :=
  match claims.role with
  | .user id _ => ⟨id, none⟩
  | .share resolved => ⟨"", some resolved.pair⟩

def ClaimsSnapshot.identity (claims : ClaimsSnapshot) : Identity :=
  ⟨claims.caller, claims.resolved_share_opt.map ResolvedShare.pair⟩

def ClaimsAsset.identity (claims : ClaimsAsset) : Identity :=
  ⟨claims.caller, claims.resolved_share_opt.map ResolvedShare.pair⟩

def ClaimsSession.presenter (claims : ClaimsSession) : Presenter :=
  match claims.role with
  | .user id _ => .user id
  | .share resolved => .share resolved

/-! ## Guards -/

def Validation.allow_expired : Validation := { validate_exp := false, leeway := 60 }

/-- `decode_typed`, for claims with the given expiry and type marker. -/
def decode_claims {α : Type} (exp : α → Nat) (typ : α → TokenType) (expected : TokenType)
    (validation : Validation) (now : Nat) (token : Option α) : Except String α :=
  match token with
  | none => .error "Failed to decode JWT token"
  | some claims =>
    if validation.validate_exp = true ∧ exp claims + validation.leeway < now then
      .error "Failed to decode JWT token"
    else if typ claims ≠ expected then
      .error ("Token type mismatch: expected " ++ expected.debug ++ ", found " ++ (typ claims).debug)
    else .ok claims

def decode_snapshot : Validation → Nat → Option ClaimsSnapshot → Except String ClaimsSnapshot :=
  decode_claims (fun c => c.exp) (fun c => c.typ) .snapshot

def decode_asset : Validation → Nat → Option ClaimsAsset → Except String ClaimsAsset :=
  decode_claims (fun c => c.exp) (fun c => c.typ) .asset

/-- What the presenter guard reads of a request: the clock, in seconds, the share credentials in its
headers and its query, and the session cookie. `jti` is the id that claims minted for it get. -/
structure PresenterRequest where
  now : Nat
  x_album_id : Option String
  x_share_id : Option String
  album_id : Option String
  share_id : Option String
  x_share_password : Option String
  jwt : Option Jwt
  jti : String

/-- Resolve a share from a pair of optional credentials. -/
def try_resolve_share (incomplete : String) (argon2 : String → String → Bool) (users : Users)
    (metadata : Metadata) (req : PresenterRequest) (album_id share_id : Option String) :
    Except AppError (Option ClaimsSession) :=
  match album_id, share_id with
  | none, none => .ok none
  | some album_id, some share_id =>
    (resolve_share_internal argon2 users metadata album_id share_id
      ⟨req.now, req.x_share_password⟩ req.jti).map some
  | _, _ => .error (.new .invalidInput incomplete)

variable (argon2 : String → String → Bool)

def try_resolve_share_from_headers (users : Users) (metadata : Metadata)
    (req : PresenterRequest) : Except AppError (Option ClaimsSession) :=
  try_resolve_share "Both x-album-id and x-share-id must be provided together" argon2 users
    metadata req req.x_album_id req.x_share_id

def try_resolve_share_from_query (users : Users) (metadata : Metadata)
    (req : PresenterRequest) : Except AppError (Option ClaimsSession) :=
  try_resolve_share "Both albumId and shareId must be provided together" argon2 users
    metadata req req.album_id req.share_id

/-- `resolve_presenter`, and with it `GuardPresenter`: share headers, else share query, else the
session cookie of a live user. -/
def resolve_presenter (st : AuthState) (metadata : Metadata)
    (req : PresenterRequest) : Except AppError ClaimsSession :=
  match try_resolve_share_from_headers argon2 st.users metadata req with
  | .error e => .error e
  | .ok (some claims) => .ok claims
  | .ok none =>
    match try_resolve_share_from_query argon2 st.users metadata req with
    | .error e => .error e
    | .ok (some claims) => .ok claims
    | .ok none => (try_jwt_cookie_user st .strict req.now req.jwt).mapError denied

/-- `GuardSnapshot::from_request`: a live snapshot token for the snapshot that is asked for,
presented by whom it was minted for. -/
def guard_snapshot (st : AuthState) (metadata : Metadata) (req : PresenterRequest)
    (token : Option ClaimsSnapshot) (query_timestamp : Option Int) :
    Except AppError ClaimsSnapshot :=
  match decode_snapshot .strict req.now token with
  | .error e => .error (.new .auth e)
  | .ok claims =>
    match query_timestamp with
    | none => .error (.new .auth "No valid 'timestamp' parameter found in the query")
    | some query_timestamp =>
      if query_timestamp ≠ claims.timestamp then .error (.new .auth "Timestamp mismatch")
      else
        match resolve_presenter argon2 st metadata req with
        | .error e => .error e
        | .ok presenter =>
          match presenter.role with
          | .user id _ =>
            if id ≠ claims.caller then .error (.new .auth "Snapshot caller mismatch")
            else .ok claims
          | .share resolved =>
            if claims.caller ≠ "" then .error (.new .auth "Snapshot caller mismatch")
            else if !same_share claims.resolved_share_opt (some resolved) then
              .error (.new .auth "Snapshot share mismatch")
            else .ok claims

/-- `GuardRenewHash::from_request`: a live snapshot token. -/
def guard_renew_hash (now : Nat) (token : Option ClaimsSnapshot) : Except AppError ClaimsSnapshot :=
  (decode_snapshot .strict now token).mapError fun e =>
    { kind := .auth, message := e, context := ["JWT decoding failed"] }

/-- The first check of `renew_timestamp_token`: the snapshot was minted for the presenter. The share
of a user's token is not looked at. -/
def check_minted_for (presenter : ClaimsSession) (claims : ClaimsSnapshot) : Except AppError Unit :=
  match presenter.role with
  | .user id _ =>
    if claims.caller ≠ id then .error (.new .auth "Unauthorized: Caller mismatch") else .ok ()
  | .share presenter_share =>
    if claims.caller = "" ∧ same_share claims.resolved_share_opt (some presenter_share) = true then
      .ok ()
    else .error (.new .auth "Unauthorized: Share mismatch")

/-- The share of a token, if it has one, is looked up again. -/
def revalidate_embedded (users : Users) (metadata : Metadata) (now : Nat) :
    Option ResolvedShare → Except AppError Unit
  | some resolved => revalidate_share_record users metadata now resolved.album_id resolved.share.url
  | none => .ok ()

/-- `renew_timestamp_token`, at clock reading `now` in milliseconds. -/
def renew_timestamp_token (now : Nat) (users : Users) (metadata : Metadata)
    (presenter : ClaimsSession) (token : Option ClaimsSnapshot) : Except AppError ClaimsSnapshot := do
  let claims ← (decode_snapshot .allow_expired (now / 1000) token).mapError fun _ =>
    .new .auth "Unauthorized: Invalid token"
  check_minted_for presenter claims
  revalidate_embedded users metadata (now / 1000) claims.resolved_share_opt
  return ClaimsSnapshot.new (now / 1000) claims.caller claims.resolved_share_opt claims.timestamp

/-! ## What a renewal checks -/

/-- The share is in the album's list now, it has not expired, and its creator, if they still have a
record, may share. -/
def ShareLive (users : Users) (metadata : Metadata) (now : Nat) (pair : String × String) : Prop :=
  ∃ album share, metadata.lookup pair.1 = some (.album album) ∧
    album.share_list.lookup pair.2 = some share ∧ (0 < share.exp → (now : Int) ≤ share.exp) ∧
    (share.created_by ≠ "" → ∀ record, UserStore.read users share.created_by = some record →
      record.shares_enabled = true)

variable {users : Users} {metadata : Metadata} {now : Nat} {claims : ClaimsSnapshot}

theorem shareLive_of_revalidate {album_id share_id : String}
    (h : revalidate_share_record users metadata now album_id share_id = .ok ()) :
    ShareLive users metadata now (album_id, share_id) := by
  unfold revalidate_share_record at h
  split at h
  · rename_i album halbum
    split at h
    · cases h
    rename_i share hshare
    split at h
    · cases h
    rename_i hcreator
    split at h
    · cases h
    rename_i hexp
    refine ⟨album, share, halbum, hshare, ?_, ?_⟩
    · intro hpos
      by_contra hlate
      exact hexp ⟨hpos, by omega⟩
    · intro hnamed record hrecord
      simpa [hnamed, hrecord] using hcreator
  · cases h

theorem same_share_iff {a b : Option ResolvedShare} :
    same_share a b = true ↔ a.map ResolvedShare.pair = b.map ResolvedShare.pair := by
  cases a with
  | none =>
    cases b with
    | none | some b => simp [same_share]
  | some a =>
    cases b with
    | none => simp [same_share]
    | some b => simp [same_share, ResolvedShare.pair]

theorem decode_claims_ok {α : Type} {exp : α → Nat} {typ : α → TokenType} {expected : TokenType}
    {validation : Validation} {token : Option α} {claims : α}
    (h : decode_claims exp typ expected validation now token = .ok claims) :
    token = some claims ∧ typ claims = expected := by
  unfold decode_claims at h
  split at h
  · cases h
  split at h
  · cases h
  split at h
  · cases h
  · rename_i htyp
    obtain rfl := Except.ok.inj h
    exact ⟨rfl, not_not.mp htyp⟩

theorem shareLive_of_revalidate_embedded {opt : Option ResolvedShare}
    (h : revalidate_embedded users metadata now opt = .ok ()) :
    ∀ pair ∈ opt.map ResolvedShare.pair, ShareLive users metadata now pair := by
  intro pair hpair
  obtain ⟨resolved, rfl, rfl⟩ := Option.map_eq_some_iff.mp hpair
  exact shareLive_of_revalidate h

/-- A token with a proper identity that passes the check is for the presenter. -/
theorem identity_of_check_minted_for {presenter : ClaimsSession}
    (h : check_minted_for presenter claims = .ok ()) (hpresenter : presenter.identity.Proper)
    (hclaims : claims.identity.Proper) : claims.identity = presenter.identity := by
  unfold check_minted_for at h
  cases hrole : presenter.role with
  | user id admin =>
    have hid : presenter.identity = ⟨id, none⟩ := by
      unfold ClaimsSession.identity
      rw [hrole]
    have hcaller : claims.caller = id := by
      rw [hrole] at h
      by_contra hne
      simp [hne] at h
    -- a user has an id, so a token with that caller has no share
    have hnamed : id ≠ "" := by
      intro hempty
      rw [hid] at hpresenter
      exact absurd (hpresenter.mp hempty) (by simp)
    have hnone : claims.identity.share = none := by
      cases hshare : claims.identity.share with
      | none => rfl
      | some pair =>
        have hempty : claims.caller = "" := hclaims.mpr (by simp [hshare])
        exact absurd (hcaller.symm.trans hempty) hnamed
    rw [hid, ← hnone, ← hcaller]
    rfl
  | share resolved =>
    rw [hrole] at h
    have hboth : claims.caller = "" ∧ same_share claims.resolved_share_opt (some resolved) = true := by
      by_contra hne
      simp [hne] at h
    unfold ClaimsSnapshot.identity ClaimsSession.identity
    rw [hrole, hboth.1, same_share_iff.mp hboth.2]
    rfl

/-- A renewed snapshot token is for its presenter, its share is live, and only the expiry is new. -/
theorem renew_timestamp_token_ok {presenter : ClaimsSession} {token : Option ClaimsSnapshot}
    {renewed : ClaimsSnapshot}
    (h : renew_timestamp_token now users metadata presenter token = .ok renewed)
    (hpresenter : presenter.identity.Proper) (hproper : ∀ old ∈ token, old.identity.Proper) :
    ∃ old, token = some old ∧ renewed = { old with exp := now / 1000 + 300 } ∧
      renewed.identity = presenter.identity ∧
      ∀ pair ∈ renewed.identity.share, ShareLive users metadata (now / 1000) pair := by
  unfold renew_timestamp_token at h
  obtain ⟨old, hdecode, hrest⟩ := Result.bind_eq_ok.mp h
  obtain ⟨rfl, htyp⟩ := decode_claims_ok (Result.mapError_eq_ok.mp hdecode)
  obtain ⟨_, hminted, hrest⟩ := Result.bind_eq_ok.mp hrest
  obtain ⟨_, hlive, hrest⟩ := Result.bind_eq_ok.mp hrest
  obtain rfl := Result.pure_eq_ok.mp hrest
  refine ⟨old, rfl, ?_, ?_, shareLive_of_revalidate_embedded hlive⟩
  · unfold ClaimsSnapshot.new
    rw [← htyp]
  · exact identity_of_check_minted_for hminted hpresenter (hproper old rfl)

/-- The checks of `renew_hash_token`, one after the other. -/
theorem renew_hash_token_eq_ok {roots : Roots} {asset renewed : ClaimsAsset} {tables : Tables}
    (h : renew_hash_token now roots users claims asset tables = .ok renewed) :
    asset.caller = claims.caller ∧
      same_share asset.resolved_share_opt claims.resolved_share_opt = true ∧
      revalidate_embedded users tables.metadata (now / 1000) claims.resolved_share_opt = .ok () ∧
      renewed = ClaimsAsset.new now asset.hash asset.asset_id asset.timestamp asset.allow_original
        asset.caller asset.resolved_share_opt := by
  obtain ⟨-, data, hdata, -⟩ := renew_hash_token_in_scope h
  simp only [renew_hash_token, Result.guard_eq_ok] at h
  obtain ⟨-, hcaller, hshare, h⟩ := h
  refine ⟨not_not.mp hcaller, by simpa using hshare, ?_⟩
  rw [hdata] at h
  cases hopt : claims.resolved_share_opt with
  | some resolved =>
    rw [hopt] at h
    obtain ⟨_, hlive, h⟩ := Result.bind_eq_ok.mp h
    obtain ⟨-, h⟩ := Result.guard_eq_ok.mp h
    exact ⟨hlive, (Result.pure_eq_ok.mp h).symm⟩
  | none =>
    rw [hopt] at h
    obtain ⟨-, h⟩ := Result.guard_eq_ok.mp h
    exact ⟨rfl, (Result.pure_eq_ok.mp h).symm⟩

/-- A renewed asset token is for the bearer of the snapshot token; its share is live and its asset
in scope; and only the expiry is new. -/
theorem renew_hash_token_ok {roots : Roots}
    {asset renewed : ClaimsAsset} {tables : Tables} (htyp : asset.typ = .asset)
    (h : renew_hash_token now roots users claims asset tables = .ok renewed) :
    renewed = { asset with exp := now / 1000 + 300 } ∧ renewed.identity = claims.identity ∧
      (∀ pair ∈ renewed.identity.share, ShareLive users tables.metadata (now / 1000) pair) ∧
      ∃ record, tables.assets.lookup renewed.asset_id = some record ∧
        RecordInScope roots claims record := by
  obtain ⟨-, data, hdata, hscope⟩ := renew_hash_token_in_scope h
  obtain ⟨record, hrecord, rfl⟩ := Option.map_eq_some_iff.mp hdata
  obtain ⟨hcaller, hshare, hlive, rfl⟩ := renew_hash_token_eq_ok h
  have hpair := same_share_iff.mp hshare
  have hidentity : (⟨asset.caller, asset.resolved_share_opt.map ResolvedShare.pair⟩ : Identity) =
      claims.identity := by
    rw [hcaller, hpair]
    rfl
  refine ⟨?_, hidentity, ?_, record, hrecord, (in_scope_compose roots claims _ record _).mp hscope⟩
  · unfold ClaimsAsset.new
    rw [← htyp]
  · show ∀ pair ∈ asset.resolved_share_opt.map ResolvedShare.pair, _
    rw [hpair]
    exact shareLive_of_revalidate_embedded hlive

/-! ## Everything that issues a token -/

/-- Third-party functions, and the hash of the query cache. -/
structure Signers where
  argon2 : String → String → Bool
  verify_password : String → String → Bool
  hasher : QueryKey → UInt64

/-- What the handlers read. -/
structure World where
  auth : AuthState
  tables : Tables
  layout : Layout
  tree : MemoryTree
  caches : Caches
  version : Int

namespace Renewals

/-- The world, and the tokens issued so far. -/
structure State where
  world : World
  sessions : List ClaimsSession
  snapshots : List ClaimsSnapshot
  assets : List ClaimsAsset

/-- One request, or a change of the world: shares and accounts come and go, time passes, assets
move. Times are in milliseconds. -/
inductive Label where
  | change (world : World)
  | login (loaded : Users) (user_id password : String) (now : Nat) (jti : String)
  | prefetch (req : PresenterRequest) (query : Option Expression) (locate : Option String)
      (include_personal : Bool) (now : Nat)
  | get_data (req : PresenterRequest) (bearer : Option ClaimsSnapshot) (timestamp : Int)
      (start stop now : Nat)
  | renew_timestamp (req : PresenterRequest) (token : Option ClaimsSnapshot) (now : Nat)
  | renew_hash (bearer : Option ClaimsSnapshot) (token : Option ClaimsAsset) (now : Nat)

namespace State

variable (env : Signers) (s : State)

/-- A presented token verifies only if it was issued. -/
def verified {α : Type} [DecidableEq α] (issued : List α) (token : Option α) : Option α :=
  token.filter (· ∈ issued)

def presenter (req : PresenterRequest) : Except AppError ClaimsSession :=
  resolve_presenter env.argon2 s.world.auth s.world.tables.metadata
    { req with jwt := req.jwt.map (verified s.sessions) }

/-- The login endpoint: `validate_user_id`, then `login_sync`. -/
def serve_login (loaded : Users) (user_id password : String) (now : Nat) (jti : String) :
    Except AppError ClaimsSession := do
  let user_id ← validate_user_id user_id
  let (claims, _) ← login_sync env.verify_password s.world.auth.users loaded user_id password
    (now / 1000) jti
  return claims

/-- The prefetch endpoint, behind `GuardPresenter`. -/
def serve_prefetch (req : PresenterRequest) (query : Option Expression) (locate : Option String)
    (include_personal : Bool) (now : Nat) : Except AppError (PrefetchReturn × Caches) := do
  let claims ← s.presenter env req
  return execute_prefetch_logic env.hasher s.world.version s.world.layout s.world.tree now
    ⟨claims.presenter, query, locate, include_personal⟩ s.world.caches

/-- The endpoint that reads rows, behind `GuardSnapshot`. -/
def serve_data (req : PresenterRequest) (bearer : Option ClaimsSnapshot) (timestamp : Int)
    (start stop now : Nat) : Except AppError (List DataBaseTimestampReturn) := do
  let claims ← guard_snapshot env.argon2 s.world.auth s.world.tables.metadata
    { req with jwt := req.jwt.map (verified s.sessions) } (verified s.snapshots bearer) timestamp
  get_data now claims timestamp start stop s.world.caches s.world.tables

/-- The endpoint that renews a snapshot token, behind `GuardPresenter`. -/
def serve_renew_timestamp (req : PresenterRequest) (token : Option ClaimsSnapshot) (now : Nat) :
    Except AppError ClaimsSnapshot := do
  let claims ← s.presenter env req
  renew_timestamp_token now s.world.auth.users s.world.tables.metadata claims
    (verified s.snapshots token)

/-- The endpoint that renews an asset token, behind `GuardRenewHash`. -/
def serve_renew_hash (bearer : Option ClaimsSnapshot) (token : Option ClaimsAsset) (now : Nat) :
    Except AppError ClaimsAsset := do
  let claims ← guard_renew_hash (now / 1000) (verified s.snapshots bearer)
  let asset ← (decode_asset .allow_expired (now / 1000) (verified s.assets token)).mapError fun _ =>
    .new .auth "Unauthorized: Invalid token"
  renew_hash_token now s.world.layout.roots s.world.auth.users claims asset s.world.tables

/-- A failed request issues nothing. -/
def step : Label → State
  | .change world => { s with world }
  | .login loaded user_id password now jti =>
    match s.serve_login env loaded user_id password now jti with
    | .ok claims => { s with sessions := claims :: s.sessions }
    | .error _ => s
  | .prefetch req query locate include_personal now =>
    match s.serve_prefetch env req query locate include_personal now with
    | .ok (answer, caches) =>
      { s with world := { s.world with caches }, snapshots := answer.token :: s.snapshots }
    | .error _ => s
  | .get_data req bearer timestamp start stop now =>
    match s.serve_data env req bearer timestamp start stop now with
    | .ok rows => { s with assets := rows.map (fun row => row.token) ++ s.assets }
    | .error _ => s
  | .renew_timestamp req token now =>
    match s.serve_renew_timestamp env req token now with
    | .ok renewed => { s with snapshots := renewed :: s.snapshots }
    | .error _ => s
  | .renew_hash bearer token now =>
    match s.serve_renew_hash bearer token now with
    | .ok renewed => { s with assets := renewed :: s.assets }
    | .error _ => s

end State

/-! ## Presenters -/

/-- Sessions are issued to users only, and users have an id. -/
def UserSessions (sessions : List ClaimsSession) : Prop :=
  ∀ claims ∈ sessions, ∃ id admin, claims.role = .user id admin ∧ id ≠ ""

variable {argon2 : String → String → Bool} {claims : ClaimsSession} {req : PresenterRequest}
  {now : Nat} {env : Signers} {s : State}

theorem role_of_resolve_share_internal {users : Users}
    {metadata : Metadata} {album_id share_id jti : String} {req : ShareRequest}
    (h : resolve_share_internal argon2 users metadata album_id share_id req jti = .ok claims) :
    ∃ resolved, claims.role = .share resolved := by
  unfold resolve_share_internal at h
  split at h
  · cases h
  · split at h
    · cases h
    simp only [Result.guard_eq_ok] at h
    obtain ⟨-, h⟩ := h
    obtain ⟨_, -, h⟩ := Result.bind_eq_ok.mp h
    obtain ⟨-, h⟩ := Result.guard_eq_ok.mp h
    obtain rfl := Result.pure_eq_ok.mp h
    exact ⟨_, rfl⟩
  · cases h

theorem role_of_try_resolve_share {incomplete : String}
    {users : Users} {metadata : Metadata} {album_id share_id : Option String}
    (h : try_resolve_share incomplete argon2 users metadata req album_id share_id =
      .ok (some claims)) : ∃ resolved, claims.role = .share resolved := by
  unfold try_resolve_share at h
  split at h
  · cases h
  · rename_i album_id share_id
    cases hresolve : resolve_share_internal argon2 users metadata album_id share_id
        ⟨req.now, req.x_share_password⟩ req.jti with
    | error e =>
      rw [hresolve] at h
      cases h
    | ok resolved =>
      rw [hresolve] at h
      obtain rfl := Option.some.inj (Except.ok.inj h)
      exact role_of_resolve_share_internal hresolve
  · cases h

/-- A session that is let in belongs to the user of the presented token. -/
theorem role_of_try_jwt_cookie_user {st : AuthState} {validation : Validation} {cookie : Option Jwt}
    (h : try_jwt_cookie_user st validation now cookie = .ok claims) :
    ∃ token id admin admin', cookie = some (some token) ∧ token.role = .user id admin ∧
      claims.role = .user id admin' := by
  unfold try_jwt_cookie_user at h
  split at h
  · cases h
  split at h
  · cases h
  rename_i jwt
  split at h
  · cases h
  rename_i token hdecode
  have hjwt : jwt = some token := by
    unfold decode_typed at hdecode
    split at hdecode
    · cases hdecode
    split at hdecode
    · cases hdecode
    · split at hdecode
      · cases hdecode
      · rw [Except.ok.inj hdecode]
  split at h
  · cases h
  rename_i id admin hrole
  split at h
  · cases h
  rename_i record hrecord
  split at h
  · split at h
    · cases h
    obtain rfl := Except.ok.inj h
    refine ⟨token, id, admin, record.admin, by rw [hjwt], hrole, ?_⟩
    unfold ClaimsSession.withAdmin
    rw [hrole]
  · cases h

/-- Whoever presents a request is a share, or a user with an id. -/
theorem proper_presenter (hsessions : UserSessions s.sessions)
    (h : s.presenter env req = .ok claims) :
    claims.identity.Proper := by
  have hshare : (∃ resolved, claims.role = .share resolved) → claims.identity.Proper := by
    rintro ⟨resolved, hrole⟩
    unfold ClaimsSession.identity Identity.Proper
    rw [hrole]
    simp
  unfold State.presenter resolve_presenter at h
  split at h
  · cases h
  · rename_i c hheaders
    obtain rfl := Except.ok.inj h
    exact hshare (role_of_try_resolve_share hheaders)
  · split at h
    · cases h
    · rename_i c hquery
      obtain rfl := Except.ok.inj h
      exact hshare (role_of_try_resolve_share hquery)
    · -- the cookie holds a token that was issued, so its user has an id
      obtain ⟨token, id, admin, admin', hcookie, htoken, hrole⟩ :=
        role_of_try_jwt_cookie_user (Result.mapError_eq_ok.mp h)
      obtain ⟨jwt, -, hverified⟩ := Option.map_eq_some_iff.mp hcookie
      have hissued : token ∈ s.sessions := by simpa using (Option.filter_eq_some_iff.mp hverified).2
      obtain ⟨id', _, hrole', hnamed⟩ := hsessions token hissued
      obtain ⟨rfl, -⟩ := Role.user.inj (htoken.symm.trans hrole')
      unfold ClaimsSession.identity Identity.Proper
      rw [hrole]
      simpa using hnamed

/-! ## Minting -/

theorem execute_prefetch_logic_token (hasher : QueryKey → UInt64) (version : Int) (layout : Layout)
    (tree : MemoryTree) (now : Nat) (req : PrefetchRequest) (caches : Caches) :
    ∃ timestamp, (execute_prefetch_logic hasher version layout tree now req caches).1.token =
      .new (now / 1000) req.presenter.caller_id req.presenter.get_share timestamp := by
  simp only [execute_prefetch_logic]
  split
  · exact ⟨_, rfl⟩
  · exact ⟨_, rfl⟩

theorem identity_of_prefetch {query : Option Expression} {locate : Option String}
    {include_personal : Bool} {answer : PrefetchReturn} {caches : Caches}
    (h : s.serve_prefetch env req query locate include_personal now = .ok (answer, caches)) :
    ∃ claims, s.presenter env req = .ok claims ∧ answer.token.identity = claims.identity := by
  obtain ⟨claims, hclaims, hanswer⟩ := Result.bind_eq_ok.mp h
  refine ⟨claims, hclaims, ?_⟩
  have hpair := Result.pure_eq_ok.mp hanswer
  obtain ⟨timestamp, htoken⟩ := execute_prefetch_logic_token env.hasher s.world.version
    s.world.layout s.world.tree now ⟨claims.presenter, query, locate, include_personal⟩ s.world.caches
  rw [hpair] at htoken
  rw [htoken]
  unfold ClaimsSession.presenter ClaimsSession.identity
  cases claims.role with
  | user id admin => rfl
  | share resolved => rfl

theorem identity_of_get_row {claims : ClaimsSnapshot} {timestamp : Int} {tables : Tables}
    {reduced : ReducedData} {row : DataBaseTimestampReturn}
    (h : get_row now claims timestamp tables reduced = .ok row) :
    row.token.identity = claims.identity := by
  have hmint : ∀ data cover, (abstract_data_to_timestamp_return now claims timestamp data reduced
      cover).token.identity = claims.identity := by
    intro data cover
    cases data with
    | image img => rfl
    | video vid => rfl
    | album alb => rfl
  unfold get_row at h
  split at h
  · cases h
  split at h
  · split at h
    · cases h
    · obtain rfl := Except.ok.inj h
      exact hmint _ _
  · obtain rfl := Except.ok.inj h
    exact hmint _ _

/-- Rows are read, and their tokens minted, for the bearer of an issued snapshot token. -/
theorem identity_of_serve_data {bearer : Option ClaimsSnapshot} {timestamp : Int} {start stop : Nat}
    {rows : List DataBaseTimestampReturn}
    (h : s.serve_data env req bearer timestamp start stop now = .ok rows) :
    ∃ claims, bearer = some claims ∧ claims ∈ s.snapshots ∧
      ∀ row ∈ rows, row.token.identity = claims.identity := by
  obtain ⟨claims, hguard, hrows⟩ := Result.bind_eq_ok.mp h
  have hverified : State.verified s.snapshots bearer = some claims := by
    unfold guard_snapshot at hguard
    split at hguard
    · cases hguard
    rename_i decoded hdecode
    have htoken := (decode_claims_ok hdecode).1
    have hsame : claims = decoded := by
      dsimp only at hguard
      split at hguard
      · cases hguard
      split at hguard
      · cases hguard
      split at hguard
      · split at hguard
        · cases hguard
        · exact (Except.ok.inj hguard).symm
      · split at hguard
        · cases hguard
        · split at hguard
          · cases hguard
          · exact (Except.ok.inj hguard).symm
    rw [htoken, hsame]
  obtain ⟨hbearer, hissued⟩ := Option.filter_eq_some_iff.mp hverified
  refine ⟨claims, hbearer, by simpa using hissued, ?_⟩
  unfold get_data at hrows
  split at hrows
  · cases hrows
  · intro row hrow
    obtain ⟨reduced, -, hrow⟩ := Result.mem_of_mapM_eq_ok hrows row hrow
    exact identity_of_get_row hrow

/-! ## Chains of renewals -/

section Chains

variable (env : Signers) (world : World)

/-- The state after some requests and changes, when no token had been issued before them. -/
def after (done : List Label) : State := run (State.step env) ⟨world, [], [], []⟩ done

/-- The token is one that a prefetch minted, but for its expiry, and it is for the presenter of that
prefetch. -/
def MintedSnapshot (done : List Label) (token : ClaimsSnapshot) : Prop :=
  ∃ earlier req query locate include_personal now claims answer caches,
    earlier ++ [.prefetch req query locate include_personal now] <+: done ∧
    (after env world earlier).presenter env req = .ok claims ∧
    (after env world earlier).serve_prefetch env req query locate include_personal now =
      .ok (answer, caches) ∧
    token = { answer.token with exp := token.exp } ∧ token.identity = claims.identity

/-- The token is one that a read of rows minted, but for its expiry, and it is for the bearer of the
snapshot token that was read with. -/
def MintedAsset (done : List Label) (token : ClaimsAsset) : Prop :=
  ∃ earlier req bearer timestamp start stop now rows row,
    earlier ++ [.get_data req (some bearer) timestamp start stop now] <+: done ∧
    (after env world earlier).serve_data env req (some bearer) timestamp start stop now = .ok rows ∧
    row ∈ rows ∧ token = { row.token with exp := token.exp } ∧
    token.identity = bearer.identity ∧ MintedSnapshot env world earlier bearer

/-- What is known of the tokens issued in a run. -/
structure Issued (done : List Label) (s : State) : Prop where
  sessions : UserSessions s.sessions
  snapshots : ∀ token ∈ s.snapshots, token.identity.Proper ∧ MintedSnapshot env world done token
  assets : ∀ token ∈ s.assets, MintedAsset env world done token

variable {env world} {done : List Label}

variable {all : List Label}

theorem MintedSnapshot.later {token : ClaimsSnapshot} (h : MintedSnapshot env world done token)
    (hall : done <+: all) (exp : Nat) : MintedSnapshot env world all { token with exp } := by
  obtain ⟨earlier, req, query, locate, personal, now, claims, answer, caches, hpre, hclaims, hanswer,
    htoken, hidentity⟩ := h
  refine ⟨earlier, req, query, locate, personal, now, claims, answer, caches, hpre.trans hall,
    hclaims, hanswer, ?_, hidentity⟩
  rw [htoken]

theorem MintedAsset.later {token : ClaimsAsset} (h : MintedAsset env world done token)
    (hall : done <+: all) (exp : Nat) : MintedAsset env world all { token with exp } := by
  obtain ⟨earlier, req, bearer, timestamp, start, stop, now, rows, row, hpre, hrows, hrow, htoken,
    hidentity, hminted⟩ := h
  refine ⟨earlier, req, bearer, timestamp, start, stop, now, rows, row, hpre.trans hall, hrows,
    hrow, ?_, hidentity, hminted⟩
  rw [htoken]

variable {s : State}

theorem Issued.mono (h : Issued env world done s) (l : Label) :
    Issued env world (done ++ [l]) s where
  sessions := h.sessions
  snapshots token htoken :=
    ⟨(h.snapshots token htoken).1, (h.snapshots token htoken).2.later (List.prefix_append _ _) _⟩
  assets token htoken := (h.assets token htoken).later (List.prefix_append _ _) _

theorem Issued.renew_timestamp (h : Issued env world done s) {req : PresenterRequest}
    {token : Option ClaimsSnapshot} {now : Nat} {renewed : ClaimsSnapshot}
    (hok : s.serve_renew_timestamp env req token now = .ok renewed) :
    ∃ old claims, token = some old ∧ s.presenter env req = .ok claims ∧
      renewed.identity = claims.identity ∧
      (∀ pair ∈ renewed.identity.share,
        ShareLive s.world.auth.users s.world.tables.metadata (now / 1000) pair) ∧
      renewed = { old with exp := now / 1000 + 300 } ∧ renewed.identity.Proper ∧
      MintedSnapshot env world done renewed := by
  obtain ⟨claims, hclaims, hrenew⟩ := Result.bind_eq_ok.mp hok
  have hpresenter := proper_presenter h.sessions hclaims
  have hissued : ∀ old ∈ State.verified s.snapshots token, token = some old ∧ old ∈ s.snapshots := by
    intro old hold
    obtain ⟨htoken, hmem⟩ := Option.filter_eq_some_iff.mp hold
    exact ⟨htoken, by simpa using hmem⟩
  obtain ⟨old, hold, hrenewed, hidentity, hlive⟩ := renew_timestamp_token_ok hrenew hpresenter
    fun old hold => (h.snapshots old (hissued old hold).2).1
  obtain ⟨htoken, hmem⟩ := hissued old hold
  refine ⟨old, claims, htoken, hclaims, hidentity, hlive, hrenewed, ?_, ?_⟩
  · rw [hidentity]
    exact hpresenter
  · rw [hrenewed]
    exact (h.snapshots old hmem).2.later List.prefix_rfl _

theorem Issued.renew_hash (h : Issued env world done s) {bearer : Option ClaimsSnapshot}
    {token : Option ClaimsAsset} {now : Nat} {renewed : ClaimsAsset}
    (hok : s.serve_renew_hash bearer token now = .ok renewed) :
    ∃ old claims, token = some old ∧ bearer = some claims ∧
      renewed.identity = claims.identity ∧
      (∀ pair ∈ renewed.identity.share,
        ShareLive s.world.auth.users s.world.tables.metadata (now / 1000) pair) ∧
      (∃ record, s.world.tables.assets.lookup renewed.asset_id = some record ∧
        RecordInScope s.world.layout.roots claims record) ∧
      renewed = { old with exp := now / 1000 + 300 } ∧ MintedAsset env world done renewed ∧
      MintedSnapshot env world done claims := by
  obtain ⟨claims, hguard, hrest⟩ := Result.bind_eq_ok.mp hok
  obtain ⟨asset, hdecode, hrenew⟩ := Result.bind_eq_ok.mp hrest
  obtain ⟨hclaims, -⟩ := decode_claims_ok (Result.mapError_eq_ok.mp hguard)
  obtain ⟨hasset, htyp⟩ := decode_claims_ok (Result.mapError_eq_ok.mp hdecode)
  obtain ⟨hbearer, hclaimsmem⟩ := Option.filter_eq_some_iff.mp hclaims
  obtain ⟨htoken, hassetmem⟩ := Option.filter_eq_some_iff.mp hasset
  obtain ⟨hrenewed, hidentity, hlive, hscope⟩ := renew_hash_token_ok htyp hrenew
  refine ⟨asset, claims, htoken, hbearer, hidentity, hlive, hscope, hrenewed, ?_,
    (h.snapshots claims (by simpa using hclaimsmem)).2⟩
  rw [hrenewed]
  exact (h.assets asset (by simpa using hassetmem)).later List.prefix_rfl _

theorem issued_step (h : Issued env world done (after env world done)) (l : Label) :
    Issued env world (done ++ [l]) ((after env world done).step env l) := by
  have hsame := h.mono l
  cases l with
  | change world' => exact { hsame with }
  | login loaded user_id password now jti =>
    simp only [State.step]
    split
    · rename_i claims hlogin
      obtain ⟨id, hid, hlogin⟩ := Result.bind_eq_ok.mp hlogin
      obtain ⟨⟨minted, summary⟩, hminted, hclaims⟩ := Result.bind_eq_ok.mp hlogin
      obtain rfl := Result.pure_eq_ok.mp hclaims
      obtain ⟨record, -, rfl⟩ := login_sync_ok hminted
      -- the id was validated, so it is not empty
      have hnew : ∃ id' admin, Role.user id record.admin = .user id' admin ∧ id' ≠ "" :=
        ⟨id, record.admin, rfl, (validate_user_id_ok hid).2⟩
      exact { hsame with sessions := List.forall_mem_cons.mpr ⟨hnew, h.sessions⟩ }
    · exact hsame
  | prefetch req query locate include_personal now =>
    simp only [State.step]
    split
    · rename_i answer caches hanswer
      obtain ⟨claims, hclaims, hidentity⟩ := identity_of_prefetch hanswer
      refine { hsame with snapshots := List.forall_mem_cons.mpr ⟨⟨?_, ?_⟩, hsame.snapshots⟩ }
      · rw [hidentity]
        exact proper_presenter h.sessions hclaims
      · exact ⟨done, req, query, locate, include_personal, now, claims, answer, caches,
          List.prefix_rfl, hclaims, hanswer, rfl, hidentity⟩
    · exact hsame
  | get_data req bearer timestamp start stop now =>
    simp only [State.step]
    split
    · rename_i rows hrows
      obtain ⟨claims, rfl, hmem, hidentity⟩ := identity_of_serve_data hrows
      refine { hsame with assets := List.forall_mem_append.mpr ⟨?_, hsame.assets⟩ }
      intro token htoken
      obtain ⟨row, hrow, rfl⟩ := List.mem_map.mp htoken
      exact ⟨done, req, claims, timestamp, start, stop, now, rows, row, List.prefix_rfl, hrows,
        hrow, rfl, hidentity row hrow, (h.snapshots claims hmem).2⟩
    · exact hsame
  | renew_timestamp req token now =>
    simp only [State.step]
    split
    · rename_i renewed hrenewed
      obtain ⟨old, claims, -, -, -, -, -, hproper, hminted⟩ := h.renew_timestamp hrenewed
      have hlater := hminted.later (List.prefix_append _ [.renew_timestamp req token now]) renewed.exp
      exact { hsame with
        snapshots := List.forall_mem_cons.mpr ⟨⟨hproper, hlater⟩, hsame.snapshots⟩ }
    · exact hsame
  | renew_hash bearer token now =>
    simp only [State.step]
    split
    · rename_i renewed hrenewed
      obtain ⟨old, claims, -, -, -, -, -, -, hminted, -⟩ := h.renew_hash hrenewed
      have hlater := hminted.later (List.prefix_append _ [.renew_hash bearer token now]) renewed.exp
      exact { hsame with assets := List.forall_mem_cons.mpr ⟨hlater, hsame.assets⟩ }
    · exact hsame

theorem issued_after (env : Signers) (world : World) (done : List Label) :
    Issued env world done (after env world done) := by
  refine run_induction (Q := fun done s => s = after env world done ∧ Issued env world done s) ?_ ?_
    |>.2
  · -- nothing has been issued yet
    exact ⟨rfl, fun _ hmem => absurd hmem List.not_mem_nil,
      fun _ hmem => absurd hmem List.not_mem_nil, fun _ hmem => absurd hmem List.not_mem_nil⟩
  · rintro earlier l - ⟨hs, h⟩
    rw [hs] at h ⊢
    refine ⟨?_, issued_step h l⟩
    unfold after
    rw [run_append]
    rfl

end Chains

/-- Whatever happened before, a renewal gives a token only

* for its presenter: the user or share that presents the request, or the
  bearer of the snapshot token;
* if the token's share, should it have one, is live at this moment;
* for an asset that exists and is in scope at this moment;
* that is the submitted token with a new expiry, and thereby, however
  often it was renewed, one that was minted for that presenter. -/
theorem renewals_sound (env : Signers) (world : World) (done : List Label) :
    let s := after env world done
    (∀ req token now renewed, s.serve_renew_timestamp env req token now = .ok renewed →
      ∃ old claims, token = some old ∧ s.presenter env req = .ok claims ∧
        renewed.identity = claims.identity ∧
        (∀ pair ∈ renewed.identity.share,
          ShareLive s.world.auth.users s.world.tables.metadata (now / 1000) pair) ∧
        renewed = { old with exp := now / 1000 + 300 } ∧ MintedSnapshot env world done renewed) ∧
    (∀ bearer token now renewed, s.serve_renew_hash bearer token now = .ok renewed →
      ∃ old claims, token = some old ∧ bearer = some claims ∧
        renewed.identity = claims.identity ∧
        (∀ pair ∈ renewed.identity.share,
          ShareLive s.world.auth.users s.world.tables.metadata (now / 1000) pair) ∧
        (∃ record, s.world.tables.assets.lookup renewed.asset_id = some record ∧
          RecordInScope s.world.layout.roots claims record) ∧
        renewed = { old with exp := now / 1000 + 300 } ∧ MintedAsset env world done renewed ∧
        MintedSnapshot env world done claims) := by
  have hissued := issued_after env world done
  constructor
  · intro req token now renewed hok
    obtain ⟨old, claims, htoken, hclaims, hidentity, hlive, hrenewed, -, hminted⟩ :=
      hissued.renew_timestamp hok
    exact ⟨old, claims, htoken, hclaims, hidentity, hlive, hrenewed, hminted⟩
  · intro bearer token now renewed hok
    exact hissued.renew_hash hok

/-! ### One picture, renewed -/

/-- Passwords are stored in the clear, and every query is cached alike. -/
def plainSigners : Signers where
  argon2 candidate stored := candidate == stored
  verify_password password hash := password == hash
  hasher _ := 0

/-- `alice` has an account, and the picture is listed for everybody. -/
def seaWorld : World where
  auth :=
    { users := (∅ : Users).insert "alice" ⟨some "secret", false, none, 0, false, true⟩
      revocations := ∅
      bootstrap_admin := false }
  tables := seaLibrary.store.tables
  layout := homesLayout
  tree := refresh_tree_cache 0 (fun _ => 0) seaLibrary.store.tables
  caches := ⟨⟨∅, ∅⟩, ⟨∅, ∅⟩, 0⟩
  version := 0

/-- `alice` signs in, lists the pictures and reads the first row. -/
def aliceReads : List Label :=
  let req : PresenterRequest :=
    ⟨1000, none, none, none, none, none, some (some (.new_user 1000 "jti" "alice" false 0)), ""⟩
  [.login seaWorld.auth.users " alice " "secret" 1000000 "jti",
    .prefetch req none none false 1000000,
    .get_data req (some (.new 1000 "alice" none 1000000)) 1000000 0 1 1000000]

/-- An hour later, long after both have expired, `alice` renews the snapshot token, and with it the
token of the picture. -/
theorem renewals_sound_alice :
    let req : PresenterRequest :=
      ⟨4600, none, none, none, none, none, some (some (.new_user 1000 "jti" "alice" false 0)), ""⟩
    let snapshot : ClaimsSnapshot := .new 1000 "alice" none 1000000
    let asset : ClaimsAsset := .new 1000000 "hash" "sea" 1000000 true "alice" none
    let renewing := aliceReads ++ [.renew_timestamp req (some snapshot) 4600000]
    (after plainSigners seaWorld aliceReads).serve_renew_timestamp plainSigners req (some snapshot)
        4600000 = .ok { snapshot with exp := 4900 } ∧
      (after plainSigners seaWorld renewing).serve_renew_hash (some { snapshot with exp := 4900 })
        (some asset) 4600000 = .ok { asset with exp := 4900 } ∧
      MintedSnapshot plainSigners seaWorld aliceReads { snapshot with exp := 4900 } ∧
      MintedAsset plainSigners seaWorld renewing { asset with exp := 4900 } := by
  intro req snapshot asset renewing
  have htimestamp : (after plainSigners seaWorld aliceReads).serve_renew_timestamp plainSigners req
      (some snapshot) 4600000 = .ok { snapshot with exp := 4900 } := by decide +kernel
  have hhash : (after plainSigners seaWorld renewing).serve_renew_hash
      (some { snapshot with exp := 4900 }) (some asset) 4600000 =
        .ok { asset with exp := 4900 } := by decide +kernel
  obtain ⟨_, _, _, _, _, _, _, hsnapshot⟩ :=
    (renewals_sound plainSigners seaWorld aliceReads).1 _ _ _ _ htimestamp
  obtain ⟨_, _, _, _, _, _, _, _, hasset, _⟩ :=
    (renewals_sound plainSigners seaWorld renewing).2 _ _ _ _ hhash
  exact ⟨htimestamp, hhash, hsnapshot, hasset⟩

end Renewals
