import Picasu.Auth.Password
import Picasu.Framework.Table

/-! # The User Store

The identity store: one table from user id to `UserRecord`, written only by `rmw`, a locked
read-modify-write transaction whose closure either fails and publishes nothing or publishes the
whole new table. Each operation below is the closure of the source, run by `rmw`; the ids it is
called with are trimmed first.

The password hash is produced by argon2 with a random salt, so it is not a function of the
password: an operation that writes a hash takes the string `hash_password` returned as an
argument.

`Op` names one call of an operation with its arguments and `exec` runs it. What one call can do to
the store is stated once, as a frame rule (`exec_lookup_ne`: no other row changes) and an
inversion of the row it names (`exec_row`); the invariants over whole histories are derived from
these two.
-/

open Text

/-- `UserRecord`: the identity attributes of one account. -/
structure UserRecord where
  hash : Option String
  admin : Bool
  home : Option String
  /-- Token version: a session token is live only while it carries this. -/
  ver : UInt64
  disabled : Bool
  shares_enabled : Bool
  deriving DecidableEq, Repr

abbrev Users := Table String UserRecord

namespace UserStore

/-! ## Operations -/

/-- `rmw`: run `f` on the stored table; an error publishes nothing. -/
def rmw {α : Type} (f : Users → Except AppError (α × Users)) (users : Users) :
    Except AppError α × Users :=
  match f users with
  | .error e => (.error e, users)
  | .ok (result, users') => (.ok result, users')

/-- `read`: the row of a trimmed id. -/
def read (users : Users) (id : String) : Option UserRecord := users.lookup (trim id)

def count (users : Users) : Nat := users.values.length

/-- Administrators, disabled ones included: the census of `set_admin` and `delete`. -/
def admins (users : Users) : Nat := users.census (fun r => r.admin)

/-- Administrators that can sign in: the census of `set_disabled`. -/
def enabled_admins (users : Users) : Nat := users.census (fun r => r.admin && !r.disabled)

/-- The insertions of a new account: refused with `conflict` when the id is taken. -/
def insertNew {α : Type} (target : String) (row : UserRecord) (conflict : AppError) (result : α) :
    Users → Except AppError α × Users :=
  rmw fun users =>
    if target ∈ users then .error conflict
    else .ok (result, users.insert target row)

/-- The updates of an existing account: `f` sees the table and the current row, and returns the row
to write, if any. -/
def updateCurrent {α : Type} (id : String)
    (f : Users → UserRecord → Except AppError (α × Option UserRecord)) :
    Users → Except AppError α × Users :=
  rmw fun users =>
    match users.lookup (trim id) with
    | none => .error (.new .notFound ("unknown user: " ++ trim id))
    | some current =>
      match f users current with
      | .error e => .error e
      | .ok (result, none) => .ok (result, users)
      | .ok (result, some row) => .ok (result, users.insert (trim id) row)

variable (policy : Policy)

/-- `provision`: create an account with a password. -/
def provision (id password : String) (admin : Bool) (home : Option String) (hash : String)
    (users : Users) : Except AppError String × Users :=
  match validate_user_id id with
  | .error e => (.error e, users)
  | .ok id =>
    match validate_new_password policy id password with
    | .error e => (.error e, users)
    | .ok _ =>
      insertNew id
        { hash := some hash, admin, home, ver := 0, disabled := false, shares_enabled := true }
        (.new .conflict "user already exists") id users

/-- `set_password`: a known account gets the new hash and the next version; an unknown id becomes a
plain account at version one. -/
def set_password (id hash : String) : Users → Except AppError Unit × Users :=
  rmw fun users =>
    match users.lookup (trim id) with
    | some entry =>
      .ok ((), users.insert (trim id) { entry with hash := some hash, ver := entry.ver + 1 })
    | none =>
      .ok ((), users.insert (trim id)
        { hash := some hash, admin := false, home := none, ver := 1, disabled := false,
          shares_enabled := true })

/-- `upgrade_password_hash`: rewrite the hash of a known account in place, without touching its
version. -/
def upgrade_password_hash (id hash : String) : Users → Except AppError Unit × Users :=
  rmw fun users =>
    match users.lookup (trim id) with
    | some entry => .ok ((), users.insert (trim id) { entry with hash := some hash })
    | none => .ok ((), users)

/-- `set_admin`: `false` when the flag already had that value. A demotion is refused when the census
of all administrators is at most one. -/
def set_admin (id : String) (admin : Bool) : Users → Except AppError Bool × Users :=
  updateCurrent id fun users current =>
    if current.admin = admin then .ok (false, none)
    else if admin = false ∧ admins users ≤ 1 then
      .error (.new .conflict "demotion would leave zero admins")
    else .ok (true, some { current with admin, ver := current.ver + 1 })

/-- `set_disabled`: disabling bumps the version, re-enabling does not. Disabling an administrator is
refused when the census of the enabled administrators is at most one. -/
def set_disabled (id : String) (disabled : Bool) : Users → Except AppError Bool × Users :=
  updateCurrent id fun users current =>
    if current.disabled = disabled then .ok (false, none)
    else if disabled = true ∧ current.admin = true ∧ enabled_admins users ≤ 1 then
      .error (.new .conflict "disabling would leave zero enabled admins")
    else
      .ok (true, some
        { current with disabled, ver := if disabled then current.ver + 1 else current.ver })

def set_sharing_enabled (id : String) (enabled : Bool) : Users → Except AppError Bool × Users :=
  updateCurrent id fun _ current =>
    if current.shares_enabled = enabled then .ok (false, none)
    else .ok (true, some { current with shares_enabled := enabled })

/-- `bump_ver`: the new version. -/
def bump_ver (id : String) : Users → Except AppError UInt64 × Users :=
  updateCurrent id fun _ current =>
    .ok (current.ver + 1, some { current with ver := current.ver + 1 })

def set_home (id : String) (home : Option String) : Users → Except AppError Bool × Users :=
  updateCurrent id fun _ current =>
    if current.home = home then .ok (false, none)
    else .ok (true, some { current with home })

/-- `delete`: `false` for an unknown id. Unless forced, deleting an administrator is refused when
the census of all administrators is at most one. -/
def delete (id : String) (force : Bool) : Users → Except AppError Bool × Users :=
  rmw fun users =>
    match users.lookup (trim id) with
    | none => .ok (false, users)
    | some current =>
      if current.admin = true ∧ force = false ∧ admins users ≤ 1 then
        .error (.new .conflict "deletion would leave zero admins")
      else .ok (true, users.erase (trim id))

/-- `users::create_user`: an account without a password. Its errors reach the caller as text. -/
def create_user (id : String) (admin : Bool) (users : Users) : Except String Unit × Users :=
  match validate_user_id id with
  | .error e => (.error e.display, users)
  | .ok target =>
    if (read users target).isSome then (.error ("user already exists: " ++ target), users)
    else
      let (result, users') := insertNew target
        { hash := none, admin, home := none, ver := 0, disabled := false, shares_enabled := true }
        (.new .conflict "user already exists") () users
      (result.mapError AppError.display, users')

/-- Every surface of a registration conflict answers with this error
(`REGISTRATION_CONFLICT_MESSAGE`). -/
def registrationConflict : AppError :=
  .new .conflict "registration conflict: the invite or the userId is already taken"

/-- The user-store half of `redeem_invite`: the account of an accepted invitation. -/
def insert_redeemed (user_id hash : String) : Users → Except AppError Unit × Users :=
  insertNew user_id
    { hash := some hash, admin := false, home := none, ver := 0, disabled := false,
      shares_enabled := true }
    registrationConflict ()

/-! ## One call -/

/-- One call of a store operation, with its arguments. -/
inductive Op where
  | provision (id password : String) (admin : Bool) (home : Option String) (hash : String)
  | create_user (id : String) (admin : Bool)
  | insert_redeemed (user_id hash : String)
  | set_password (id hash : String)
  | upgrade_password_hash (id hash : String)
  | set_admin (id : String) (admin : Bool)
  | set_disabled (id : String) (disabled : Bool)
  | set_sharing_enabled (id : String) (enabled : Bool)
  | set_home (id : String) (home : Option String)
  | bump_ver (id : String)
  | delete (id : String) (force : Bool)

/-- The store after a call, successful or refused. -/
def exec (users : Users) : Op → Users
  | .provision id password admin home hash => (provision policy id password admin home hash users).2
  | .create_user id admin => (create_user id admin users).2
  | .insert_redeemed user_id hash => (insert_redeemed user_id hash users).2
  | .set_password id hash => (set_password id hash users).2
  | .upgrade_password_hash id hash => (upgrade_password_hash id hash users).2
  | .set_admin id admin => (set_admin id admin users).2
  | .set_disabled id disabled => (set_disabled id disabled users).2
  | .set_sharing_enabled id enabled => (set_sharing_enabled id enabled users).2
  | .set_home id home => (set_home id home users).2
  | .bump_ver id => (bump_ver id users).2
  | .delete id force => (delete id force users).2

/-- The row a call names. `insert_redeemed` is handed the id that `redeem_invite` validated, and
uses it as it is. -/
def Op.target : Op → String
  | .insert_redeemed user_id _ => user_id
  | .provision id .. | .create_user id _ | .set_password id _ | .upgrade_password_hash id _
  | .set_admin id _ | .set_disabled id _ | .set_sharing_enabled id _ | .set_home id _
  | .bump_ver id | .delete id _ => trim id

/-- The version a call gives the account it creates, if it can create one. -/
def Op.initialVer : Op → Option UInt64
  | .provision .. | .create_user .. | .insert_redeemed .. => some 0
  | .set_password .. => some 1
  | _ => none

/-- What a call can do to the row it names, `before` to `after`. The censuses are those of the store
the call ran on. -/
inductive RowStep (users : Users) : Op → Option UserRecord → Option UserRecord → Prop where
  /-- Refused, or nothing to change. -/
  | unchanged {op : Op} {row : Option UserRecord} : RowStep users op row row
  /-- Hash upgrade, home or sharing flag. -/
  | edited {op : Op} {r r' : UserRecord} (hver : r'.ver = r.ver) (hadmin : r'.admin = r.admin)
      (hdisabled : r'.disabled = r.disabled) : RowStep users op (some r) (some r')
  /-- Password change or explicit invalidation. -/
  | bumped {op : Op} {r r' : UserRecord} (hver : r'.ver = r.ver + 1) (hadmin : r'.admin = r.admin)
      (hdisabled : r'.disabled = r.disabled) : RowStep users op (some r) (some r')
  | role {id : String} {admin : Bool} {r : UserRecord} (hne : r.admin ≠ admin)
      (hcensus : admin = false → 2 ≤ admins users) :
      RowStep users (.set_admin id admin) (some r) (some { r with admin, ver := r.ver + 1 })
  | disabled {id : String} {r : UserRecord} (hne : r.disabled = false)
      (hcensus : r.admin = true → 2 ≤ enabled_admins users) :
      RowStep users (.set_disabled id true) (some r)
        (some { r with disabled := true, ver := r.ver + 1 })
  | enabled {id : String} {r : UserRecord} :
      RowStep users (.set_disabled id false) (some r) (some { r with disabled := false })
  | created {op : Op} {r' : UserRecord} (hver : op.initialVer = some r'.ver)
      (hdisabled : r'.disabled = false) : RowStep users op none (some r')
  | removed {id : String} {force : Bool} {r : UserRecord}
      (hcensus : r.admin = true → force = false → 2 ≤ admins users) :
      RowStep users (.delete id force) (some r) none

/-! ## What one call can do -/

variable {α : Type} {users : Users} {op : Op} {id : String}

theorem insertNew_writes (target : String) (row : UserRecord) (conflict : AppError)
    (result : α) (users : Users) :
    (insertNew target row conflict result users).2 = users ∨
      users.lookup target = none ∧
        (insertNew target row conflict result users).2 = users.insert target row := by
  unfold insertNew rmw
  by_cases h : target ∈ users
  · left
    simp [h]
  · right
    exact ⟨AList.lookup_eq_none.mpr h, by simp [h]⟩

section UpdateCurrent

variable {α : Type} {id : String} {users : Users} {r row : UserRecord} {result : α}
  {f : Users → UserRecord → Except AppError (α × Option UserRecord)}

theorem updateCurrent_none (h : users.lookup (trim id) = none) :
    updateCurrent id f users = (.error (.new .notFound ("unknown user: " ++ trim id)), users) := by
  simp [updateCurrent, rmw, h]

section

variable (h : users.lookup (trim id) = some r)

include h

theorem updateCurrent_error {e : AppError}
    (hf : f users r = .error e) : updateCurrent id f users = (.error e, users) := by
  simp [updateCurrent, rmw, h, hf]

theorem updateCurrent_keep
    (hf : f users r = .ok (result, none)) : updateCurrent id f users = (.ok result, users) := by
  simp [updateCurrent, rmw, h, hf]

theorem updateCurrent_write (hf : f users r = .ok (result, some row)) :
    updateCurrent id f users = (.ok result, users.insert (trim id) row) := by
  simp [updateCurrent, rmw, h, hf]

end

/-- A successful update got its answer, and the row it wrote, from its body. -/
theorem updateCurrent_ok (h : (updateCurrent id f users).1 = .ok result) :
    ∃ r row, users.lookup (trim id) = some r ∧ f users r = .ok (result, row) ∧
      (updateCurrent id f users).2 = row.elim users (users.insert (trim id)) := by
  cases hlook : users.lookup (trim id) with
  | none =>
    rw [updateCurrent_none hlook] at h
    cases h
  | some r =>
    match hf : f users r with
    | .error e =>
      rw [updateCurrent_error hlook hf] at h
      cases h
    | .ok (result', none) =>
      rw [updateCurrent_keep hlook hf] at h ⊢
      cases h
      exact ⟨r, none, rfl, hf, rfl⟩
    | .ok (result', some row) =>
      rw [updateCurrent_write hlook hf] at h ⊢
      cases h
      exact ⟨r, some row, rfl, hf, rfl⟩

/-- An update leaves the table alone or writes the row its body returned. -/
theorem updateCurrent_writes (id : String)
    (f : Users → UserRecord → Except AppError (α × Option UserRecord)) (users : Users) :
    (updateCurrent id f users).2 = users ∨
      ∃ r result row, users.lookup (trim id) = some r ∧ f users r = .ok (result, some row) ∧
        updateCurrent id f users = (.ok result, users.insert (trim id) row) := by
  cases hlook : users.lookup (trim id) with
  | none => exact .inl (by rw [updateCurrent_none hlook])
  | some r =>
    match hf : f users r with
    | .error e => exact .inl (by rw [updateCurrent_error hlook hf])
    | .ok (result, none) => exact .inl (by rw [updateCurrent_keep hlook hf])
    | .ok (result, some row) => exact .inr ⟨r, result, row, rfl, hf, updateCurrent_write hlook hf⟩

end UpdateCurrent

/-- What `exec` may write: nothing, one row under the call's target, or the removal of that row; in
the last two cases as `RowStep` allows. -/
def Writes (users : Users) (op : Op) (users' : Users) : Prop :=
  users' = users ∨
    (∃ row, users' = users.insert op.target row ∧
      RowStep users op (users.lookup op.target) (some row)) ∨
    users' = users.erase op.target ∧ RowStep users op (users.lookup op.target) none

/-- A call that creates accounts writes at most the new row. -/
private theorem insertNew_writes_row {target : String}
    {row : UserRecord} {conflict : AppError} {result : α} (htarget : op.target = target)
    (hver : op.initialVer = some row.ver) (hdisabled : row.disabled = false) :
    Writes users op (insertNew target row conflict result users).2 := by
  subst htarget
  rcases insertNew_writes op.target row conflict result users with h | ⟨hnone, h⟩
  · exact .inl h
  · refine .inr (.inl ⟨row, h, ?_⟩)
    rw [hnone]
    exact .created hver hdisabled

/-- A call that updates accounts writes at most the row its body returns. -/
private theorem updateCurrent_writes_row
    {f : Users → UserRecord → Except AppError (α × Option UserRecord)}
    (htarget : op.target = trim id)
    (hrow : ∀ r result row, f users r = .ok (result, some row) →
      RowStep users op (some r) (some row)) :
    Writes users op (updateCurrent id f users).2 := by
  rcases updateCurrent_writes id f users with h | ⟨r, result, row, hlook, hf, h⟩
  · exact .inl h
  · refine .inr (.inl ⟨row, by rw [h, htarget], ?_⟩)
    rw [htarget, hlook]
    exact hrow r result row hf

theorem exec_writes (users : Users) (op : Op) : Writes users op (exec policy users op) := by
  cases op with
  | provision id password admin home hash =>
    simp only [exec, provision]
    split
    · exact .inl rfl
    rename_i target hid
    split
    · exact .inl rfl
    · exact insertNew_writes_row (validate_user_id_ok hid).1.symm rfl rfl
  | create_user id admin =>
    simp only [exec, create_user]
    split
    · exact .inl rfl
    rename_i target hid
    split
    · exact .inl rfl
    · exact insertNew_writes_row (validate_user_id_ok hid).1.symm rfl rfl
  | insert_redeemed user_id hash => exact insertNew_writes_row rfl rfl rfl
  | set_password id hash =>
    simp only [exec, set_password, rmw, Writes, Op.target]
    cases hlook : users.lookup (trim id) with
    | none => exact .inr (.inl ⟨_, rfl, .created rfl rfl⟩)
    | some r => exact .inr (.inl ⟨_, rfl, .bumped rfl rfl rfl⟩)
  | upgrade_password_hash id hash =>
    simp only [exec, upgrade_password_hash, rmw, Writes, Op.target]
    cases hlook : users.lookup (trim id) with
    | none => exact .inl rfl
    | some r => exact .inr (.inl ⟨_, rfl, .edited rfl rfl rfl⟩)
  | set_admin id admin =>
    refine updateCurrent_writes_row rfl fun r result row hf => ?_
    split at hf
    · cases hf
    split at hf
    · cases hf
    rename_i hne hcensus
    cases hf
    exact .role hne fun hadmin => by
      by_contra hlt
      exact hcensus ⟨hadmin, by omega⟩
  | set_disabled id disabled =>
    refine updateCurrent_writes_row rfl fun r result row hf => ?_
    split at hf
    · cases hf
    split at hf
    · cases hf
    rename_i hne hcensus
    cases hf
    cases disabled with
    | false => exact .enabled
    | true =>
      refine .disabled (by simpa using hne) fun hadmin => ?_
      by_contra hlt
      exact hcensus ⟨rfl, hadmin, by omega⟩
  | set_sharing_enabled id enabled | set_home id home =>
    refine updateCurrent_writes_row rfl fun r result row hf => ?_
    split at hf
    · cases hf
    · cases hf
      exact .edited rfl rfl rfl
  | bump_ver id =>
    refine updateCurrent_writes_row rfl fun r result row hf => ?_
    cases hf
    exact .bumped rfl rfl rfl
  | delete id force =>
    simp only [exec, delete, rmw, Writes, Op.target]
    cases hlook : users.lookup (trim id) with
    | none => exact .inl rfl
    | some r =>
      by_cases hrefuse : r.admin = true ∧ force = false ∧ admins users ≤ 1
      · simp [hrefuse]
      · refine .inr (.inr ⟨by simp [hrefuse], .removed fun hadmin hforce => ?_⟩)
        by_contra hlt
        exact hrefuse ⟨hadmin, hforce, by omega⟩

/-- An effective `set_admin` writes the new flag and the next version. -/
theorem set_admin_effective {admin : Bool} {r : UserRecord}
    (hlook : users.lookup (trim id) = some r) (hne : r.admin ≠ admin)
    (hcensus : admin = false → 2 ≤ admins users) :
    set_admin id admin users =
      (.ok true, users.insert (trim id) { r with admin, ver := r.ver + 1 }) := by
  apply updateCurrent_write hlook
  have hgo : ¬ (admin = false ∧ admins users ≤ 1) := by
    intro h
    have := hcensus h.1
    omega
  simp [hne, hgo]

/-- Frame rule: a call changes no row but the one it names. -/
theorem exec_lookup_ne (users : Users)
    (h : id ≠ op.target) : (exec policy users op).lookup id = users.lookup id := by
  rcases exec_writes policy users op with hw | ⟨row, hw, -⟩ | ⟨hw, -⟩
  · rw [hw]
  · rw [hw, AList.lookup_insert_ne h]
  · rw [hw, AList.lookup_erase_ne h]

/-- Inversion: what a call does to the row it names. -/
theorem exec_row (users : Users) (op : Op) :
    RowStep users op (users.lookup op.target) ((exec policy users op).lookup op.target) := by
  rcases exec_writes policy users op with hw | ⟨row, hw, hstep⟩ | ⟨hw, hstep⟩
  · rw [hw]
    exact .unchanged
  · rw [hw, AList.lookup_insert]
    exact hstep
  · rw [hw, AList.lookup_erase]
    exact hstep

end UserStore
