import Picasu.Auth.Sessions
import Picasu.Framework.Run

/-! # Logout

A session ends before its token expires in two ways, and both file the token's `jti` in the
revocation list with the token's own expiry: `logout` and `revoke_attempt_session` (the
re-authentication guess budget is spent). The row is forgotten, and stops counting, at that
expiry.

The token validator is more patient: it accepts a token until its expiry plus a leeway of sixty
seconds. `logout_final_iff` shows what this makes of a logout: whatever else is revoked in
between, the token is rejected later on, except in the window from its expiry to the end of the
leeway, where it works again as long as the user's record admits it.
-/

open LTS

/-! ## The two revocations -/

/-- `logout`: revoke the presented session, if the cookie decodes (at `decodedAt`) to a user's
token. -/
def logout (decodedAt now : Nat) (cookie : Option Jwt) (table : Revocations) : Revocations :=
  match cookie with
  | none => table
  | some token =>
    match decode_typed .strict decodedAt token with
    | .error _ => table
    | .ok claims =>
      match claims.role with
      | .user _ _ => table.revoke now (Revocations.session_key claims.jti) claims.exp
      | .share _ => table

def revoke_attempt_session (now : Nat) (jti : String) (exp : Nat) (table : Revocations) :
    Revocations :=
  table.revoke now (Revocations.session_key jti) exp

/-- The session of a user's token is revoked at `now`: by a logout that decoded the token, or
because the guess budget of its session is spent. -/
inductive SessionRevoked (now : Nat) (claims : ClaimsSession) (table : Revocations) :
    Revocations → Prop where
  | logged_out (decodedAt : Nat) (hrole : ∃ id admin, claims.role = .user id admin)
      (hdecodes : decode_typed .strict decodedAt (some claims) = .ok claims) :
      SessionRevoked now claims table (logout decodedAt now (some (some claims)) table)
  | budget_spent :
      SessionRevoked now claims table (revoke_attempt_session now claims.jti claims.exp table)

variable {table : Revocations}

/-- Either way the row is filed under the token's `jti` with its expiry. -/
theorem SessionRevoked.eq_revoke {now : Nat} {claims : ClaimsSession} {table' : Revocations}
    (h : SessionRevoked now claims table table') :
    table' = table.revoke now (Revocations.session_key claims.jti) claims.exp := by
  cases h with
  | logged_out decodedAt hrole hdecodes =>
    obtain ⟨id, admin, hrole⟩ := hrole
    simp [logout, hdecodes, hrole]
  | budget_spent => rfl

/-! ## Later revocations -/

/-- One call of `revoke`, with the clock reading inside its transaction. -/
structure RevokeCall where
  now : Nat
  key : String
  expires_at : Nat

def RevokeCall.exec (table : Revocations) (call : RevokeCall) : Revocations :=
  table.revoke call.now call.key call.expires_at

/-- What later calls keep of the row filed under `key` with expiry `exp`, as far as a reading at
`now` can tell: it is there until `exp`, and never carries another expiry. -/
def Filed (key : String) (exp now : Nat) (table : Revocations) : Prop :=
  (now < exp → table.lookup key = some ⟨exp⟩) ∧
    ∀ row, table.lookup key = some row → row.expires_at = exp

theorem filed_step {key : String} {exp now : Nat} {call : RevokeCall}
    (hnow : call.now ≤ now) (hkey : call.key = key → call.expires_at = exp)
    (h : Filed key exp now table) : Filed key exp now (RevokeCall.exec table call) := by
  unfold RevokeCall.exec
  by_cases hsame : key = call.key
  · -- the key is revoked again: the row is refreshed with the same expiry
    subst hsame
    have hexp := hkey rfl
    have hrow := Revocations.lookup_revoke_self call.now call.key call.expires_at table
    rw [hexp] at hrow ⊢
    refine ⟨fun _ => hrow, ?_⟩
    intro row hlook
    rw [hrow] at hlook
    cases hlook
    rfl
  · -- another key: the purge spares the row as long as it matters at `now`
    refine ⟨?_, ?_⟩
    · intro hlt
      exact (Revocations.lookup_revoke_ne hsame).mpr ⟨h.1 hlt, by simp only; omega⟩
    · intro row hlook
      exact h.2 row ((Revocations.lookup_revoke_ne hsame).mp hlook).1

/-- As seen at `now`, a filed row revokes its key exactly before `exp`. -/
theorem is_revoked_of_filed {key : String} {exp now : Nat}
    (h : Filed key exp now table) : table.is_revoked now key = true ↔ now < exp := by
  rw [Revocations.is_revoked_eq_true]
  constructor
  · intro hrev
    obtain ⟨row, hlook, hlt⟩ := hrev
    rw [h.2 row hlook] at hlt
    exact hlt
  · intro hlt
    exact ⟨⟨exp⟩, h.1 hlt, hlt⟩

/-! ## Finality -/

/-- A session token revoked at some time, and then presented at a later time `now` after any calls
of `revoke` in between, is rejected by the session guards exactly when `now` is outside the window
from its expiry to the end of the validator's leeway, or the user's record no longer admits it.

`hjti` is what random `jti`s give: a call filed under this token's key
revokes this token, and so carries its expiry. -/
theorem logout_final_iff (users : Users) (bootstrap_admin : Bool) (claims : ClaimsSession)
    (htyp : claims.typ = .session) (revokedAt now : Nat) (table table' : Revocations)
    (hrevoked : SessionRevoked revokedAt claims table table') (calls : List RevokeCall)
    (hnow : ∀ call ∈ calls, revokedAt ≤ call.now ∧ call.now ≤ now)
    (hjti : ∀ call ∈ calls, call.key = Revocations.session_key claims.jti →
      call.expires_at = claims.exp) :
    Rejects ⟨users, run RevokeCall.exec table' calls, bootstrap_admin⟩ now claims ↔
      now < claims.exp ∨ claims.exp + 60 < now ∨ ¬ Admits users claims := by
  -- the row is as the logout has written it, and no later call changes it
  have h0 : Filed (Revocations.session_key claims.jti) claims.exp now table' := by
    rw [hrevoked.eq_revoke]
    have hrow := Revocations.lookup_revoke_self revokedAt
      (Revocations.session_key claims.jti) claims.exp table
    refine ⟨fun _ => hrow, ?_⟩
    intro row hlook
    rw [hrow] at hlook
    cases hlook
    rfl
  have hfiled : Filed (Revocations.session_key claims.jti) claims.exp now
      (run RevokeCall.exec table' calls) :=
    run_invariant h0 fun t call hcall ht => filed_step (hnow call hcall).2 (hjti call hcall) ht
  have hrev := is_revoked_of_filed hfiled
  rw [rejects_iff]
  unfold Accepts session_revoked
  simp only [htyp, true_and]
  generalize hseen : Revocations.is_revoked now (Revocations.session_key claims.jti) _ = seen at *
  constructor
  · intro hacc
    by_contra hout
    have hparts : claims.exp ≤ now ∧ now ≤ claims.exp + 60 ∧ Admits users claims := by
      refine ⟨by omega, by omega, ?_⟩
      by_contra hadm
      exact hout (.inr (.inr hadm))
    have hseen' : seen = false := by
      cases seen with
      | false => rfl
      | true => exact absurd (hrev.mp rfl) (by omega)
    exact hacc ⟨hparts.2.1, hparts.2.2, hseen'⟩
  · intro hout hacc
    obtain ⟨hexp, hadm, hseen'⟩ := hacc
    rcases hout with hlt | hgt | hnot
    · rw [hrev.mpr hlt] at hseen'
      cases hseen'
    · omega
    · exact hnot hadm

/-! ### A token signed out early -/

/-- The account `eve`, never changed since it was provisioned. -/
def eveStore : Users :=
  AList.insert "eve"
    { hash := none, admin := false, home := none, ver := 0, disabled := false,
      shares_enabled := true } ∅

def eveToken : ClaimsSession :=
  { role := .user "eve" false, exp := 5000, typ := .session, jti := "jti-eve", ver := 0 }

def eveLoggedOut : Revocations := logout 2000 2000 (some (some eveToken)) ∅

/-- Signed out at 2000, with another session revoked at 3000, the token is rejected at 4000. -/
theorem logout_final_before_expiry :
    Rejects ⟨eveStore, run RevokeCall.exec eveLoggedOut [⟨3000, "session:jti-bob", 9000⟩], false⟩
      4000 eveToken := by
  refine (logout_final_iff eveStore false eveToken rfl 2000 4000 ∅ eveLoggedOut
    (.logged_out 2000 ⟨"eve", false, rfl⟩ rfl) [⟨3000, "session:jti-bob", 9000⟩] ?_ ?_).mpr
    (.inl (by decide))
  · intro call hcall
    rw [List.mem_singleton] at hcall
    subst hcall
    decide
  · intro call hcall hkey
    rw [List.mem_singleton] at hcall
    subst hcall
    exact absurd hkey (by decide +kernel)

/-- Thirty seconds past its expiry, the signed-out token is accepted: the validator still honours
it, and its revocation no longer counts. -/
theorem logout_undone_in_leeway :
    SessionRevoked 2000 eveToken ∅ eveLoggedOut ∧
      ¬ Rejects ⟨eveStore, run RevokeCall.exec eveLoggedOut [], false⟩ 5030 eveToken :=
  ⟨.logged_out 2000 ⟨"eve", false, rfl⟩ rfl, fun h => h.1 eveToken (by rfl)⟩
