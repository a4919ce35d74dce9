import Picasu.Framework.Table

/-! # Revocations

The list of capabilities that must not work any more. A row is filed under the key of the
capability and carries the capability's own expiry, after which it is forgotten: every `revoke`
first drops the rows whose expiry has passed. Times are Unix seconds, read from the clock inside
the transaction and handed in as `now`.
-/

/-- `Revocation`: the moment the revocation stops mattering. -/
structure Revocation where
  expires_at : Nat
  deriving DecidableEq, Repr

abbrev Revocations := Table String Revocation

namespace Revocations

/-- `session_key`: the key of a revoked session token. -/
def session_key (jti : String) : String := "session:" ++ jti

/-- `revoke`: forget what has expired, then file the revocation, replacing the row the key may
already have. -/
def revoke (now : Nat) (key : String) (expires_at : Nat) (table : Revocations) : Revocations :=
  (table.retain fun _ row => decide (now < row.expires_at)).insert key ⟨expires_at⟩

/-- `is_revoked`: an expired revocation no longer counts. -/
def is_revoked (now : Nat) (key : String) (table : Revocations) : Bool :=
  match table.lookup key with
  | none => false
  | some row => decide (now < row.expires_at)

/-! ## What one revocation does -/

theorem lookup_revoke_self (now : Nat) (key : String) (expires_at : Nat) (table : Revocations) :
    (table.revoke now key expires_at).lookup key = some ⟨expires_at⟩ := by
  unfold revoke
  exact AList.lookup_insert _

/-- Another key's row survives a revocation exactly while it is not expired. -/
theorem lookup_revoke_ne {now : Nat} {key key' : String} {expires_at : Nat} {table : Revocations}
    {row : Revocation} (hne : key' ≠ key) :
    (table.revoke now key expires_at).lookup key' = some row ↔
      table.lookup key' = some row ∧ now < row.expires_at := by
  unfold revoke
  rw [AList.lookup_insert_ne hne, Table.lookup_retain_eq_some]
  simp

theorem is_revoked_eq_true {now : Nat} {key : String} {table : Revocations} :
    table.is_revoked now key = true ↔
      ∃ row, table.lookup key = some row ∧ now < row.expires_at := by
  unfold is_revoked
  cases table.lookup key with
  | none => simp
  | some row => simp

end Revocations
