import Picasu.Auth.Revocations
import Picasu.Auth.UserStore
import Picasu.Model.Share

/-! # Session Tokens and Their Guards

A session is a signed token and nothing else: `login_sync` mints it from the identity record, and
every guarded request decodes it again, re-reads the record and the revocation list, and decides.
Three guards do so: `guard_user` (the `GuardUser` request guard), `try_jwt_cookie_user` and
`try_jwt_cookie_auth` (administrators only).

A token string is represented by its verified payload (`Jwt`): the claims it carries when its
signature verifies under the server's secret and its body has the shape of session claims, nothing
otherwise. Decoding still checks the expiry, with the leeway the validator is configured with, and
the type marker.
-/

open Text

/-! ## Claims -/

inductive Role where
  | user (id : String) (admin : Bool)
  | share (resolved : ResolvedShare)
  deriving DecidableEq, Repr

inductive TokenType where
  | session
  | snapshot
  | asset
  deriving DecidableEq, Repr

def TokenType.debug : TokenType → String
  | .session => "Session"
  | .snapshot => "Snapshot"
  | .asset => "Asset"

/-- `ClaimsSession`. Times are Unix seconds. -/
structure ClaimsSession where
  role : Role
  exp : Nat
  typ : TokenType
  jti : String
  /-- The token version of the user record at mint time. -/
  ver : UInt64
  deriving DecidableEq, Repr

namespace ClaimsSession

/-- Fourteen days. -/
def ttl : Nat := 14 * 86400

/-- `ClaimsSession::new_user`, with the clock reading and the fresh `jti`. -/
def new_user (now : Nat) (jti : String) (id : String) (admin : Bool) (ver : UInt64) :
    ClaimsSession :=
  { role := .user id admin, exp := now + ttl, typ := .session, jti, ver }

def new_share (now : Nat) (jti : String) (resolved : ResolvedShare) : ClaimsSession :=
  { role := .share resolved, exp := now + ttl, typ := .session, jti, ver := 0 }

def is_admin (claims : ClaimsSession) : Bool :=
  match claims.role with
  | .user _ true => true
  | _ => false

/-- Replace the admin flag of a user role, as the guards do with the record's flag. -/
def withAdmin (claims : ClaimsSession) (admin : Bool) : ClaimsSession :=
  match claims.role with
  | .user id _ => { claims with role := .user id admin }
  | .share _ => claims

end ClaimsSession

/-! ## Decoding -/

/-- A presented token string, read as its verified payload. -/
abbrev Jwt := Option ClaimsSession

structure Validation where
  validate_exp : Bool
  leeway : Nat

/-- `VALIDATION`: expiry is checked, with the library's default leeway. -/
def Validation.strict : Validation := { validate_exp := true, leeway := 60 }

/-- `decode_typed::<ClaimsSession>`: a token is accepted until its expiry plus the leeway. -/
def decode_typed (validation : Validation) (now : Nat) (token : Jwt) :
    Except String ClaimsSession :=
  match token with
  | none => .error "Failed to decode JWT token"
  | some claims =>
    if validation.validate_exp = true ∧ claims.exp + validation.leeway < now then
      .error "Failed to decode JWT token"
    else if claims.typ ≠ .session then
      .error ("Token type mismatch: expected Session, found " ++ claims.typ.debug)
    else .ok claims

/-! ## Guards -/

/-- What the guards read: the identity store, the revocation list and whether the bootstrap window
is open. -/
structure AuthState where
  users : Users
  revocations : Revocations
  bootstrap_admin : Bool

def not_enrolled_message (st : AuthState) : String :=
  if st.bootstrap_admin then
    "No administrator enrolled: enroll the first administrator via POST /post/users/bootstrap"
  else
    "No administrator enrolled: start the server with --bootstrap-admin (or " ++
      "PICASU_BOOTSTRAP_ADMIN=true) to enroll the first admin, or provision a user with the " ++
      "picasu-cmd CLI"

def session_revoked (st : AuthState) (now : Nat) (claims : ClaimsSession) : Bool :=
  st.revocations.is_revoked now (Revocations.session_key claims.jti)

/-- A refusal of the session tier. -/
def denied (message : String) : AppError :=
  { kind := .auth, message, context := ["Authentication error"] }

/-- A refusal of the privilege tier. -/
def forbidden (message : String) : AppError :=
  { kind := .permissionDenied, message, context := ["Authorization error"] }

/-- `GuardUser::from_request`. -/
def guard_user (st : AuthState) (now : Nat) (cookie : Option Jwt) :
    Except AppError ClaimsSession :=
  if UserStore.count st.users = 0 then .error (forbidden (not_enrolled_message st))
  else
    match cookie with
    | none => .error (denied "JWT not found in cookies")
    | some token =>
      match decode_typed .strict now token with
      | .error _ => .error (denied "Invalid token")
      | .ok claims =>
        match claims.role with
        | .share _ => .error (denied "Share token not accepted")
        | .user id _ =>
          match UserStore.read st.users id with
          | none => .error (denied "Unknown user")
          | some record =>
            if record.ver ≠ claims.ver ∨ record.disabled = true then
              .error (denied "Invalid token version")
            else if session_revoked st now claims then .error (denied "Session revoked")
            else .ok (claims.withAdmin record.admin)

def try_jwt_cookie_user (st : AuthState) (validation : Validation) (now : Nat)
    (cookie : Option Jwt) : Except String ClaimsSession :=
  if UserStore.count st.users = 0 then .error (not_enrolled_message st)
  else
    match cookie with
    | none => .error "JWT not found in cookies"
    | some token =>
      match decode_typed validation now token with
      | .error e => .error e
      | .ok claims =>
        match claims.role with
        | .share _ => .error "Share token not accepted"
        | .user id _ =>
          match UserStore.read st.users id with
          | none => .error "User record missing or stale"
          | some record =>
            if record.ver = claims.ver ∧ record.disabled = false then
              if session_revoked st now claims then .error "Session revoked"
              else .ok (claims.withAdmin record.admin)
            else .error "User record missing or stale"

/-- `try_jwt_cookie_auth`: as above, for administrators by token and by record. -/
def try_jwt_cookie_auth (st : AuthState) (validation : Validation) (now : Nat)
    (cookie : Option Jwt) : Except String ClaimsSession :=
  if UserStore.count st.users = 0 then .error (not_enrolled_message st)
  else
    match cookie with
    | none => .error "JWT not found in cookies"
    | some token =>
      match decode_typed validation now token with
      | .error e => .error e
      | .ok claims =>
        if claims.is_admin = false then .error "User is not an admin"
        else
          match claims.role with
          | .share _ => .error "User is not an admin"
          | .user id _ =>
            match UserStore.read st.users id with
            | none => .error "User is not an admin"
            | some record =>
              if record.admin = true ∧ record.disabled = false then
                if record.ver ≠ claims.ver ∨ record.disabled = true then
                  .error "User is not an admin"
                else if session_revoked st now claims then .error "User is not an admin"
                else .ok claims
              else .error "User is not an admin"

/-! ## Login -/

/-- `UserSummary`: the session profile the login answers with. -/
structure UserSummary where
  user_id : String
  admin : Bool
  disabled : Bool
  shares_enabled : Bool
  deriving DecidableEq, Repr

/-- The answer to a failed login, whatever its cause. -/
def invalid_credentials : AppError :=
  { kind := .auth, message := "Invalid credentials", context := ["Authentication failed"] }

def UserStore.verify (verify_password : String → String → Bool) (users : Users)
    (user_id password : String) : Bool :=
  match (UserStore.read users user_id).bind (fun r => r.hash) with
  | none => false
  | some hash => verify_password password hash

/-- `login_sync`. The store is read twice: the record the token is minted from comes from `users`,
the password is checked against `loaded`, which other calls may have changed in between. -/
def login_sync (verify_password : String → String → Bool) (users loaded : Users)
    (user_id password : String) (now : Nat) (jti : String) :
    Except AppError (ClaimsSession × UserSummary) :=
  match UserStore.read users user_id with
  | none => .error invalid_credentials
  | some record =>
    if record.disabled then .error invalid_credentials
    else if UserStore.verify verify_password loaded user_id (trim password) = false then
      .error invalid_credentials
    else
      .ok (ClaimsSession.new_user now jti user_id record.admin record.ver,
        { user_id, admin := record.admin, disabled := record.disabled,
          shares_enabled := record.shares_enabled })

/-! ## When the guards accept -/

/-- The identity record still admits the token: it exists, carries the token's version and is not
disabled. -/
def Admits (users : Users) (claims : ClaimsSession) : Prop :=
  ∃ id admin r, claims.role = .user id admin ∧ UserStore.read users id = some r ∧
    r.ver = claims.ver ∧ r.disabled = false

/-- Everything a session guard asks of a token. -/
def Accepts (st : AuthState) (now : Nat) (claims : ClaimsSession) : Prop :=
  claims.typ = .session ∧ now ≤ claims.exp + 60 ∧ Admits st.users claims ∧
    session_revoked st now claims = false

/-- No session guard lets the token through. -/
def Rejects (st : AuthState) (now : Nat) (claims : ClaimsSession) : Prop :=
  (∀ c, guard_user st now (some (some claims)) ≠ .ok c) ∧
    (∀ c, try_jwt_cookie_user st .strict now (some (some claims)) ≠ .ok c) ∧
    ∀ c, try_jwt_cookie_auth st .strict now (some (some claims)) ≠ .ok c

variable {now : Nat} {claims : ClaimsSession}

theorem decode_typed_strict_ok {claims' : ClaimsSession} :
    decode_typed .strict now (some claims) = .ok claims' ↔
      claims' = claims ∧ claims.typ = .session ∧ now ≤ claims.exp + 60 := by
  unfold decode_typed Validation.strict
  by_cases hexp : claims.exp + 60 < now
  · simp [hexp]
  have hle : now ≤ claims.exp + 60 := by omega
  by_cases htyp : claims.typ = .session
  · simp [hexp, htyp, hle, eq_comm]
  · simp [hexp, htyp]

theorem UserStore.count_ne_zero_of_read {users : Users} {id : String} {r : UserRecord}
    (h : UserStore.read users id = some r) : UserStore.count users ≠ 0 := by
  have hmem : r ∈ users.values := Table.mem_values.mpr ⟨_, h⟩
  have hpos : 0 < users.values.length := List.length_pos_of_mem hmem
  unfold UserStore.count
  omega

/-- `GuardUser` accepts exactly the tokens that meet `Accepts`. -/
theorem guard_user_ok_iff (st : AuthState) (now : Nat) (claims : ClaimsSession) :
    (∃ c, guard_user st now (some (some claims)) = .ok c) ↔ Accepts st now claims := by
  constructor
  · intro h
    obtain ⟨c, h⟩ := h
    unfold guard_user at h
    split at h
    · cases h
    simp only at h
    split at h
    · cases h
    rename_i claims' hdec
    obtain ⟨rfl, htyp, hexp⟩ := decode_typed_strict_ok.mp hdec
    split at h
    · cases h
    rename_i id admin hrole
    split at h
    · cases h
    rename_i r hread
    split at h
    · cases h
    rename_i hlive
    rw [not_or] at hlive
    split at h
    · cases h
    · rename_i hrev
      exact ⟨htyp, hexp, ⟨id, admin, r, hrole, hread, not_not.mp hlive.1,
        by simpa using hlive.2⟩, by simpa using hrev⟩
  · intro h
    obtain ⟨htyp, hexp, ⟨id, admin, r, hrole, hread, hver, hdis⟩, hrev⟩ := h
    have hdec : decode_typed .strict now (some claims) = .ok claims :=
      decode_typed_strict_ok.mpr ⟨rfl, htyp, hexp⟩
    refine ⟨claims.withAdmin r.admin, ?_⟩
    simp [guard_user, UserStore.count_ne_zero_of_read hread, hdec, hrole, hread, hver, hdis, hrev]

/-- `try_jwt_cookie_user` lets no other token through. -/
theorem accepts_of_try_jwt_cookie_user {st : AuthState} {c : ClaimsSession}
    (h : try_jwt_cookie_user st .strict now (some (some claims)) = .ok c) :
    Accepts st now claims := by
  unfold try_jwt_cookie_user at h
  split at h
  · cases h
  simp only at h
  split at h
  · cases h
  rename_i claims' hdec
  obtain ⟨rfl, htyp, hexp⟩ := decode_typed_strict_ok.mp hdec
  split at h
  · cases h
  rename_i id admin hrole
  split at h
  · cases h
  rename_i r hread
  split at h
  · rename_i hlive
    split at h
    · cases h
    · rename_i hrev
      exact ⟨htyp, hexp, ⟨id, admin, r, hrole, hread, hlive.1, hlive.2⟩, by simpa using hrev⟩
  · cases h

/-- Nor does `try_jwt_cookie_auth`, which asks for an administrator besides. -/
theorem accepts_of_try_jwt_cookie_auth {st : AuthState} {c : ClaimsSession}
    (h : try_jwt_cookie_auth st .strict now (some (some claims)) = .ok c) :
    Accepts st now claims := by
  unfold try_jwt_cookie_auth at h
  split at h
  · cases h
  simp only at h
  split at h
  · cases h
  rename_i claims' hdec
  obtain ⟨rfl, htyp, hexp⟩ := decode_typed_strict_ok.mp hdec
  split at h
  · cases h
  split at h
  · cases h
  rename_i id admin hrole
  split at h
  · cases h
  rename_i r hread
  split at h
  · split at h
    · cases h
    rename_i hlive
    rw [not_or] at hlive
    split at h
    · cases h
    · rename_i hrev
      exact ⟨htyp, hexp, ⟨id, admin, r, hrole, hread, not_not.mp hlive.1,
        by simpa using hlive.2⟩, by simpa using hrev⟩
  · cases h

/-- The three guards together reject a token exactly when it fails `Accepts`. -/
theorem rejects_iff (st : AuthState) (now : Nat) (claims : ClaimsSession) :
    Rejects st now claims ↔ ¬ Accepts st now claims := by
  constructor
  · intro hrej hacc
    obtain ⟨c, hc⟩ := (guard_user_ok_iff st now claims).mpr hacc
    exact hrej.1 c hc
  · intro hacc
    refine ⟨?_, ?_, ?_⟩
    · intro c hc
      exact hacc ((guard_user_ok_iff st now claims).mp ⟨c, hc⟩)
    · intro c hc
      exact hacc (accepts_of_try_jwt_cookie_user hc)
    · intro c hc
      exact hacc (accepts_of_try_jwt_cookie_auth hc)

/-- A successful login mints a session token for the record it read. -/
theorem login_sync_ok {verify_password : String → String → Bool} {users loaded : Users}
    {user_id password : String} {jti : String} {summary : UserSummary}
    (h : login_sync verify_password users loaded user_id password now jti = .ok (claims, summary)) :
    ∃ r, UserStore.read users user_id = some r ∧
      claims = ClaimsSession.new_user now jti user_id r.admin r.ver := by
  unfold login_sync at h
  split at h
  · cases h
  rename_i r hread
  split at h
  · cases h
  split at h
  · cases h
  · cases h
    exact ⟨r, hread, rfl⟩
