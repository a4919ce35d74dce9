import Mathlib.Algebra.Group.Nat.Defs
import Picasu.Auth.Sessions
import Picasu.Framework.Run

/-! # Dead Tokens Stay Dead

A session token names its user and the version the record had when the token was minted, and the
guards compare versions for equality. Changes that must end the outstanding sessions bump the
version (a wrapping 64-bit counter) or remove the record.

The invariant is a distance: `Ahead u v lo hi` says that the version of `u`, if there is a record,
is between `lo` and `hi` bumps past the token's version `v`. Each call moves the upper bound by at
most one, so a history of fewer than 2^64 calls never wraps around to `v`; a change that must end
the sessions moves the lower bound to one. What breaks it is a call that creates the account again
at a version not past `v` (`Recreates`): versions start over with the record.
-/

open Text LTS

namespace UserStore

/-! ## Ending sessions and starting over -/

/-- The call is a change of account `u` that must end its sessions: a password change, an effective
role change, a disable, an explicit invalidation or a deletion. -/
def EndsSessions (u : String) (users : Users) : Op → Prop
  | .set_password id _ => trim id = u
  | .set_admin id admin => trim id = u ∧ (set_admin id admin users).1 = .ok true
  | .set_disabled id true => trim id = u ∧ (set_disabled id true users).1 = .ok true
  | .bump_ver id => trim id = u ∧ ∃ ver, (bump_ver id users).1 = .ok ver
  | .delete id force => trim id = u ∧ (delete id force users).1 = .ok true
  | _ => False

variable (policy : Policy)

/-- The call creates a record for `u`, which had none, at a version that is not past `v`. -/
def Recreates (u : String) (v : UInt64) (users : Users) (op : Op) : Prop :=
  users.lookup u = none ∧ ∃ r, (exec policy users op).lookup u = some r ∧ r.ver ≤ v

/-- The version of `u`, if it has a record, is `lo` to `hi` bumps past `v`. -/
def Ahead (u : String) (v : UInt64) (lo hi : Nat) (users : Users) : Prop :=
  ∀ r, users.lookup u = some r → lo ≤ (r.ver - v).toNat ∧ (r.ver - v).toNat ≤ hi

/-! ## Counting bumps -/

variable {v : UInt64} {op : Op} {u : String} {users : Users}

theorem toNat_bump {ver : UInt64} (h : (ver - v).toNat + 1 < 2 ^ 64) :
    (ver + 1 - v).toNat = (ver - v).toNat + 1 := by
  have hswap : ver + 1 - v = (ver - v) + 1 := by grind
  rw [hswap, UInt64.toNat_add]
  simp at *
  omega

/-- A new account starts at version zero or one, so one that is past `v` is exactly one bump past
it. -/
theorem toNat_initialVer {ver : UInt64} (h : op.initialVer = some ver)
    (hpast : ¬ ver ≤ v) : (ver - v).toNat = 1 := by
  have hver : ver = 0 ∨ ver = 1 := by
    cases op <;> simp [Op.initialVer] at h <;> simp [← h]
  rcases hver with rfl | rfl
  · exact absurd (by simp : (0 : UInt64) ≤ v) hpast
  · have hv : v = 0 := by grind
    rw [hv]
    rfl

/-- One call that does not start the account over moves the upper bound by at most one and keeps the
lower one. -/
theorem ahead_step {lo hi : Nat} (hlo : lo ≤ 1) (hhi : hi + 1 < 2 ^ 64)
    (hnew : ¬ Recreates policy u v users op) (h : Ahead u v lo hi users) :
    Ahead u v lo (hi + 1) (exec policy users op) := by
  intro r' hr'
  by_cases hu : u = op.target
  · subst hu
    have hrow := exec_row policy users op
    rw [hr'] at hrow
    generalize hbefore : users.lookup op.target = before at hrow
    cases hrow with
    | unchanged =>
      have hbound := h r' hbefore
      omega
    | edited hver _ _ =>
      rw [hver]
      have hbound := h _ hbefore
      omega
    | @enabled _ r =>
      have hbound := h r hbefore
      exact ⟨hbound.1, Nat.le_succ_of_le hbound.2⟩
    | bumped hver _ _ =>
      have hbound := h _ hbefore
      rw [hver, toNat_bump (by omega)]
      omega
    | role _ _ | disabled _ _ =>
      have hbound := h _ hbefore
      rw [toNat_bump (by omega)]
      omega
    | created hver _ =>
      -- versions start over here; the hypothesis leaves only a start past `v`
      have hpast : ¬ r'.ver ≤ v := fun hle => hnew ⟨hbefore, r', hr', hle⟩
      rw [toNat_initialVer hver hpast]
      omega
  · rw [exec_lookup_ne policy users hu] at hr'
    have hbound := h r' hr'
    omega

/-- A change that must end the sessions of `u` removes the record or bumps its version, if there is
a record at all. -/
theorem endsSessions_row (h : EndsSessions u users op) :
    users.lookup u = none ∨ (exec policy users op).lookup u = none ∨
      ∃ r r', users.lookup u = some r ∧ (exec policy users op).lookup u = some r' ∧
        r'.ver = r.ver + 1 := by
  match op, h with
  | .set_password id hash, h =>
    obtain rfl : trim id = u := h
    cases hlook : users.lookup (trim id) with
    | none => exact .inl rfl
    | some r =>
      refine .inr (.inr ⟨r, { r with hash := some hash, ver := r.ver + 1 }, rfl, ?_, rfl⟩)
      simp [exec, set_password, rmw, hlook]
  | .set_admin id admin, h =>
    obtain ⟨rfl, hok⟩ := h
    obtain ⟨r, row, hlook, hf, hwrite⟩ := updateCurrent_ok hok
    split at hf
    · cases hf
    split at hf
    · cases hf
    · cases hf
      exact .inr (.inr ⟨r, _, hlook, by rw [exec, set_admin, hwrite]; exact AList.lookup_insert _,
        rfl⟩)
  | .set_disabled id true, h =>
    obtain ⟨rfl, hok⟩ := h
    obtain ⟨r, row, hlook, hf, hwrite⟩ := updateCurrent_ok hok
    split at hf
    · cases hf
    split at hf
    · cases hf
    · cases hf
      exact .inr (.inr ⟨r, _, hlook,
        by rw [exec, set_disabled, hwrite]; exact AList.lookup_insert _, rfl⟩)
  | .bump_ver id, h =>
    obtain ⟨rfl, ver, hok⟩ := h
    obtain ⟨r, row, hlook, hf, hwrite⟩ := updateCurrent_ok hok
    cases hf
    exact .inr (.inr ⟨r, _, hlook, by rw [exec, bump_ver, hwrite]; exact AList.lookup_insert _,
      rfl⟩)
  | .delete id force, h =>
    obtain ⟨rfl, hok⟩ := h
    refine .inr (.inl ?_)
    unfold delete rmw at hok
    unfold exec delete rmw
    cases hlook : users.lookup (trim id) with
    | none => simp [hlook]
    | some r =>
      by_cases hrefuse : r.admin = true ∧ force = false ∧ admins users ≤ 1
      · simp [hlook, hrefuse] at hok
      · simp [hlook, hrefuse, AList.lookup_erase]

/-- The call that ends the sessions puts the version at least one bump past the token's. -/
theorem ahead_of_endsSessions {hi : Nat} (hhi : hi + 1 < 2 ^ 64)
    (hnew : ¬ Recreates policy u v users op) (hends : EndsSessions u users op)
    (h : Ahead u v 0 hi users) : Ahead u v 1 (hi + 1) (exec policy users op) := by
  intro r' hr'
  have hle := ahead_step policy (Nat.zero_le 1) hhi hnew h r' hr'
  rcases endsSessions_row policy hends with hnone | hgone | ⟨r, r'', hlook, hafter, hver⟩
  · -- no record before: the call created it, past `v` by hypothesis
    have hpast : ¬ r'.ver ≤ v := fun hle' => hnew ⟨hnone, r', hr', hle'⟩
    have hne : (r'.ver - v).toNat ≠ 0 := by
      intro hzero
      apply hpast
      have hsub : r'.ver - v = 0 := UInt64.toNat_inj.mp hzero
      grind
    omega
  · rw [hgone] at hr'
    cases hr'
  · rw [hafter] at hr'
    cases hr'
    have hbound := h r hlook
    rw [hver, toNat_bump (by omega)]
    omega

/-! ## Whole histories -/

/-- Along a history that never starts the account over, the upper bound grows with the number of
calls and the lower bound stays. -/
theorem ahead_run {lo hi : Nat} (ops : List Op) (hlo : lo ≤ 1) (hlen : hi + ops.length < 2 ^ 64)
    (hnew : ∀ pre op, pre ++ [op] <+: ops → ¬ Recreates policy u v (run (exec policy) users pre) op)
    (h : Ahead u v lo hi users) : Ahead u v lo (hi + ops.length) (run (exec policy) users ops) := by
  refine run_induction (Q := fun pre t => Ahead u v lo (hi + pre.length) t) h ?_
  intro pre op hpre hpre_ahead
  have hle := hpre.length_le
  rw [List.length_append, List.length_singleton] at hle ⊢
  have hbound : hi + pre.length + 1 < 2 ^ 64 := by omega
  exact ahead_step policy hlo hbound (hnew pre op hpre) hpre_ahead

/-- In every history of fewer than 2^64 calls: once the user of a minted token undergoes a change
that must end their sessions, the guards reject the token in every later state and at any time,
provided no call since the mint created the account again at a version not past the token's. -/
theorem dead_token_stays_dead (policy : Policy) (verify_password : String → String → Bool)
    (users loaded : Users) (before between after : List Op) (op : Op)
    (user_id password jti : String) (mintTime : Nat) (claims : ClaimsSession)
    (summary : UserSummary) (hlen : (before ++ between ++ op :: after).length < 2 ^ 64)
    (hlogin : login_sync verify_password (run (exec policy) users before) loaded user_id password
      mintTime jti = .ok (claims, summary))
    (hends : EndsSessions (trim user_id) (run (exec policy) users (before ++ between)) op)
    (hnew : ∀ pre op', pre ++ [op'] <+: between ++ op :: after →
      ¬ Recreates policy (trim user_id) claims.ver
        (run (exec policy) users (before ++ pre)) op')
    (revocations : Revocations) (bootstrap_admin : Bool) (now : Nat) :
    Rejects ⟨run (exec policy) users (before ++ between ++ op :: after), revocations,
      bootstrap_admin⟩ now claims := by
  obtain ⟨r, hread, rfl⟩ := login_sync_ok hlogin
  simp only [run_append, run_cons, ClaimsSession.new_user] at hends hnew ⊢
  generalize hminted : run (exec policy) users before = minted at hread hends hnew ⊢
  have hcount : between.length + after.length + 1 < 2 ^ 64 := by
    simp only [List.length_append, List.length_cons] at hlen
    omega
  -- at the mint the version is the token's
  have h0 : Ahead (trim user_id) r.ver 0 0 minted := by
    intro r' hr'
    have hsame : r = r' := Option.mem_unique hread hr'
    subst hsame
    simp
  -- up to the change: some bumps, none needed
  have h1 := ahead_run policy between (Nat.zero_le 1) (by omega)
    (fun pre op' hpre => hnew pre op' (hpre.trans (List.prefix_append _ _))) h0
  -- the change itself: at least one bump, or no record
  have h2 := ahead_of_endsSessions policy (by omega)
    (hnew between op (by simp [List.prefix_append_right_inj])) hends h1
  -- from then on: still at least one bump, and never 2^64 of them
  have h3 := ahead_run policy after (Nat.le_refl 1) (by omega)
    (fun pre op' hpre => by
      have hlater := hnew (between ++ op :: pre) op' (by
        simpa [List.prefix_append_right_inj, List.cons_prefix_cons] using hpre)
      simpa using hlater) h2
  rw [rejects_iff]
  intro hacc
  obtain ⟨-, -, ⟨id, admin, r', hrole, hread', hver, -⟩, -⟩ := hacc
  cases hrole
  have hahead := h3 r' hread'
  rw [hver] at hahead
  simp at hahead

/-! ### One account, deleted -/

/-- A store with the single account `ann`, whose password is `correct horse`. -/
def annStore : Users :=
  AList.insert "ann"
    { hash := some "argon2:correct horse", admin := false, home := none, ver := 0,
      disabled := false, shares_enabled := true } ∅

/-- A stand-in for the password hash check. -/
def argonVerify (password hash : String) : Bool := hash == "argon2:" ++ password

def annToken : ClaimsSession := ClaimsSession.new_user 1000 "jti-1" "ann" false 0

/-- `ann` signs in, is disabled and enabled again: the token stays dead. -/
theorem dead_token_stays_dead_reenabled :
    Rejects ⟨run (exec .plain) annStore
      [.set_disabled "ann" true, .set_disabled "ann" false], ∅, false⟩ 1001 annToken := by
  refine dead_token_stays_dead .plain argonVerify annStore annStore [] []
    [.set_disabled "ann" false] (.set_disabled "ann" true) "ann" "correct horse" "jti-1" 1000
    annToken ⟨"ann", false, false, true⟩ (by decide) rfl ⟨rfl, rfl⟩ ?_ ∅ false 1001
  intro pre op hpre hnew
  have hpos := hpre.length_le
  have hcases : pre = [] ∨ pre = [.set_disabled "ann" true] := by
    match pre with
    | [] => exact .inl rfl
    | [_] =>
      right
      simp [List.cons_prefix_cons] at hpre
      simp [hpre]
    | _ :: _ :: _ => simp at hpos
  -- the account exists in both states, so neither call creates it
  rcases hcases with rfl | rfl
  · exact absurd hnew.1 (by decide +kernel)
  · exact absurd hnew.1 (by decide +kernel)

/-- `ann` signs in and is deleted, and a new account is provisioned under the same id: its version
starts at zero again, and the old token opens it. -/
theorem dead_token_revives :
    login_sync argonVerify annStore annStore "ann" "correct horse" 1000 "jti-1" =
        .ok (annToken, ⟨"ann", false, false, true⟩) ∧
      EndsSessions "ann" annStore (.delete "ann" false) ∧
      ¬ Rejects ⟨run (exec .plain) annStore
        [.delete "ann" false, .provision "ann" "battery staple" false none "argon2:battery staple"],
        ∅, false⟩ 1001 annToken := by
  refine ⟨rfl, ⟨rfl, rfl⟩, fun h => ?_⟩
  exact h.1 annToken (by rfl)

end UserStore
