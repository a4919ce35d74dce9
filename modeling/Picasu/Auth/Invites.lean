import Picasu.Auth.UserStore
import Picasu.Framework.Run

/-! # Registration Invites

An invite is a random token shown once; the server stores a row under the token's hash. Redeeming
it spans two stores that share no transaction:

1. `start` checks the user store for the id;
2. `mark` is the write transaction on the invites table, which re-checks everything and sets
   `used_by`;
3. `finish` is the read-modify-write on the user store that inserts the account, and re-checks the
   id.

`step` lets any number of redemptions take these steps in any order, interleaved with new invites,
revocations and any call of the user store. A ghost `history` (newest first) records what was
committed, so that the guarantees can speak about the past: which tokens were marked, which
records they inserted, which invites were revoked and which accounts removed.

The token generator and the hash are parameters: what the code relies on is that a new token never
hashes to a key that was issued before (`FreshToken`).
-/

open Text LTS

namespace Invites

/-! ## Operations -/

/-- `InviteRecord`, keyed by the hash of its token. -/
structure InviteRecord where
  /-- The field `prefix` of the source: the first characters of the token, for display. -/
  display : String
  created_by : String
  /-- Unix seconds from which on the invite no longer redeems. -/
  expires_at : Option Nat
  /-- The user id that consumed the invite. -/
  used_by : Option String
  /-- The only user id that may redeem the invite, if set. -/
  username : Option String
  deriving DecidableEq, Repr

abbrev Rows := Table String InviteRecord

/-- The binding of a new invite: blank means unbound. -/
def bindTo : Option String → Except AppError (Option String)
  | none => .ok none
  | some u =>
    if trim u = "" then .ok none
    else
      match validate_user_id (trim u) with
      | .error e => .error e
      | .ok id => .ok (some id)

/-- `create_invite_with_expiry`, given the token the generator produced. -/
def create_invite_with_expiry (hash_token : String → String) (created_by : String)
    (expires_at : Option Nat) (username : Option String) (token : String) (rows : Rows) :
    Except AppError (String × InviteRecord) × Rows :=
  if trim created_by = "" then
    (.error (.new .invalidInput "invite creator must not be empty"), rows)
  else
    match bindTo username with
    | .error e => (.error e, rows)
    | .ok username =>
      let record : InviteRecord :=
        { display := String.ofList (token.toList.take 8), created_by := trim created_by,
          expires_at, used_by := none, username }
      (.ok (token, record), rows.insert (hash_token token) record)

/-- `revoke_invite`: the row is removed. -/
def revoke_invite (invite_id : String) (rows : Rows) : Except AppError Bool × Rows :=
  (.ok (rows.lookup invite_id).isSome, rows.erase invite_id)

/-- The deadline has not passed at `now`. -/
def InviteRecord.unexpired (record : InviteRecord) (now : Nat) : Bool :=
  match record.expires_at with
  | none => true
  | some deadline => decide (now < deadline)

/-- The invite is unbound or bound to `id`. -/
def InviteRecord.admits (record : InviteRecord) (id : String) : Bool :=
  match record.username with
  | none => true
  | some expected => decide (id = expected)

/-- The first step of `redeem_invite`: the validated id, unless the user store already knows it. -/
def redeem_precheck (users : Users) (user_id : String) : Except AppError String :=
  match validate_user_id user_id with
  | .error e => .error e
  | .ok id =>
    if (UserStore.read users id).isSome then .error UserStore.registrationConflict else .ok id

/-- The invites transaction of `redeem_invite`: the row written back, marked as used by `id`. `now`
is the clock reading of the call. -/
def redeem_mark (users : Users) (id candidate : String) (now : Nat) (rows : Rows) :
    Except AppError InviteRecord :=
  match rows.lookup candidate with
  | none => .error (.new .notFound "invite token is not valid")
  | some record =>
    if record.admits id = false then
      .error (.new .permissionDenied "invite is not valid for this user")
    else if record.used_by.isSome then .error UserStore.registrationConflict
    else if record.unexpired now = false then
      .error (.new .permissionDenied "invite has expired")
    else if (UserStore.read users id).isSome then .error UserStore.registrationConflict
    else .ok { record with used_by := some id }

/-- A failed insertion reaches the caller as an I/O error with its text. -/
def redeem_insert_error (e : AppError) : AppError := .new .io e.display

/-! ## The system -/

/-- Where one `redeem_invite` call stands. -/
inductive Phase where
  | idle
  | checked (id token : String)
  | marked (id token : String)
  | done (result : Except AppError Unit)

/-- What has been committed, for the record. -/
inductive Event where
  /-- A redemption found this row under its token's hash and wrote that one. -/
  | marked (call : Nat) (token : String) (found : Option InviteRecord) (written : InviteRecord)
      (now : Nat)
  /-- A redemption inserted an account. -/
  | inserted (call : Nat) (token id : String)
  /-- An account ceased to exist. -/
  | removed (id : String)
  /-- The invite under this key was revoked. -/
  | revoked (key : String)
  deriving DecidableEq

/-- The two stores, the calls in flight, and the ghost record of the past. -/
structure State where
  rows : Rows
  users : Users
  calls : Nat → Phase
  /-- Newest first. -/
  history : List Event
  /-- Every key a row was ever stored under. -/
  issued : List String

/-- One atomic step. -/
inductive Label where
  | start (call : Nat) (user_id token : String)
  | mark (call : Nat) (now : Nat)
  | finish (call : Nat) (hash : String)
  | create (created_by : String) (expires_at : Option Nat) (username : Option String)
      (token : String)
  | revoke (invite_id : String)
  | store (op : UserStore.Op)

section System

variable (policy : Policy) (hash_token : String → String)

def State.setCall (s : State) (i : Nat) (phase : Phase) : State :=
  { s with calls := Function.update s.calls i phase }

/-- The step function. A step that does not fit the phase of its call changes nothing. -/
def step (s : State) : Label → State
  | .start i user_id token =>
    match s.calls i with
    | .idle =>
      match redeem_precheck s.users user_id with
      | .error e => s.setCall i (.done (.error e))
      | .ok id => s.setCall i (.checked id token)
    | _ => s
  | .mark i now =>
    match s.calls i with
    | .checked id token =>
      match redeem_mark s.users id (hash_token token) now s.rows with
      | .error e => s.setCall i (.done (.error e))
      | .ok written =>
        { s.setCall i (.marked id token) with
          rows := s.rows.insert (hash_token token) written
          history := .marked i token (s.rows.lookup (hash_token token)) written now :: s.history }
    | _ => s
  | .finish i hash =>
    match s.calls i with
    | .marked id token =>
      match UserStore.insert_redeemed id hash s.users with
      | (.error e, _) => s.setCall i (.done (.error (redeem_insert_error e)))
      | (.ok (), users) =>
        { s.setCall i (.done (.ok ())) with
          users
          history := .inserted i token id :: s.history }
    | _ => s
  | .create created_by expires_at username token =>
    match create_invite_with_expiry hash_token created_by expires_at username token s.rows with
    | (.error _, _) => s
    | (.ok _, rows) => { s with rows, issued := hash_token token :: s.issued }
  | .revoke invite_id =>
    { s with
      rows := (revoke_invite invite_id s.rows).2
      history := if invite_id ∈ s.rows then .revoked invite_id :: s.history else s.history }
  | .store op =>
    let users := UserStore.exec policy s.users op
    let gone := (s.users.lookup op.target).isSome && (users.lookup op.target).isNone
    { s with users, history := if gone then .removed op.target :: s.history else s.history }

end System

/-- The start: stored rows and accounts, no call yet, nothing recorded. -/
def init (rows : Rows) (users : Users) : State :=
  { rows, users, calls := fun _ => .idle, history := [], issued := rows.keys }

/-- The generator's promise, as far as the code relies on it: the token of a new invite does not
hash to a key that was issued before. -/
def FreshToken (hash_token : String → String) (s : State) : Label → Prop
  | .create _ _ _ token => hash_token token ∉ s.issued
  | _ => True

/-! ## Guarantees -/

def Event.call : Event → Option Nat
  | .marked call .. => some call
  | .inserted call .. => some call
  | .removed _ | .revoked _ => none

/-- The event is an insertion by a redemption of `token`. -/
def Event.insertedBy (token : String) : Event → Bool
  | .inserted _ t _ => t == token
  | _ => false

/-- The event is a write of `used_by` for `id` by this redemption of `token`, on a row that was
there, unused, unexpired, and unbound or bound to `id`. -/
def ValidMark (call : Nat) (token id : String) (e : Event) : Prop :=
  ∃ record written now, e = .marked call token (some record) written now ∧
    written.used_by = some id ∧ record.used_by = none ∧ record.unexpired now = true ∧
    record.admits id = true

/-- The history holds such a mark, and no earlier revocation of the token's invite. -/
def Marked (hash_token : String → String) (history : List Event) (call : Nat) (token id : String) :
    Prop :=
  ∃ later e earlier, history = later ++ e :: earlier ∧ ValidMark call token id e ∧
    .revoked (hash_token token) ∉ earlier

/-- Each token has inserted at most one record. -/
def SingleUse (history : List Event) : Prop :=
  ∀ token, (history.filter (Event.insertedBy token)).length ≤ 1

/-- Between two insertions of one id, the id was removed. -/
def ExclusiveIds (history : List Event) : Prop :=
  ∀ later between earlier i j token token' id,
    history = later ++ .inserted i token id :: (between ++ .inserted j token' id :: earlier) →
    .removed id ∈ between

/-- Every insertion was preceded by a valid mark for the same id. -/
def Backed (hash_token : String → String) (history : List Event) : Prop :=
  ∀ later earlier i token id, history = later ++ .inserted i token id :: earlier →
    Marked hash_token earlier i token id

/-! ## The invariant -/

/-- The key that is marked as used or revoked. -/
def Event.endedKey (hash_token : String → String) : Event → Option String
  | .marked _ token _ _ _ => some (hash_token token)
  | .revoked key => some key
  | _ => none

/-- The account was inserted by a redemption, and not removed since. -/
def Standing (id : String) : List Event → Prop
  | [] => False
  | .inserted _ _ id' :: past => id' = id ∨ Standing id past
  | .removed id' :: past => id' ≠ id ∧ Standing id past
  | _ :: past => Standing id past

/-- The event may come after these: a call marks once, a key that is not ended yet, and inserts once,
after its mark, an account that does not stand. -/
def Event.Follows (hash_token : String → String) (past : List Event) : Event → Prop
  | .marked i token _ _ _ =>
    ∀ e ∈ past, e.call ≠ some i ∧ e.endedKey hash_token ≠ some (hash_token token)
  | .inserted i token id =>
    Marked hash_token past i token id ∧ (∀ t id', .inserted i t id' ∉ past) ∧ ¬ Standing id past
  | .removed _ | .revoked _ => True

inductive Legal (hash_token : String → String) : List Event → Prop
  | nil : Legal hash_token []
  | cons {e : Event} {past : List Event} (h : Legal hash_token past) (he : e.Follows hash_token past) :
    Legal hash_token (e :: past)

section Histories

variable {e : Event} {history later : List Event} {hash_token : String → String} {id : String}

theorem Legal.follows (h : Legal hash_token (later ++ e :: history)) :
    e.Follows hash_token history := by
  induction later with
  | nil =>
    cases h with
    | cons _ he => exact he
  | cons x later ih =>
    cases h with
    | cons h _ => exact ih h

theorem Legal.backed (h : Legal hash_token history) : Backed hash_token history := by
  rintro later earlier i token id rfl
  exact h.follows.1

theorem removed_of_not_standing {i : Nat} {token : String}
    (h : ¬ Standing id (later ++ .inserted i token id :: history)) : .removed id ∈ later := by
  induction later with
  | nil => exact absurd (Or.inl rfl) h
  | cons x later ih =>
    cases x with
    | marked | revoked => exact List.mem_cons_of_mem _ (ih h)
    | inserted => exact List.mem_cons_of_mem _ (ih fun hst => h (Or.inr hst))
    | removed id' =>
      by_cases hid : id' = id
      · subst hid
        exact List.mem_cons_self
      · exact List.mem_cons_of_mem _ (ih fun hst => h ⟨hid, hst⟩)

theorem Legal.exclusive (h : Legal hash_token history) : ExclusiveIds history := by
  rintro later between earlier i j token token' id rfl
  exact removed_of_not_standing h.follows.2.2

/-- A key is marked by one call only. -/
theorem Legal.marks_eq (h : Legal hash_token history) {i j : Nat} {t t' : String}
    {f f' : Option InviteRecord} {w w' : InviteRecord} {n n' : Nat}
    (hi : .marked i t f w n ∈ history) (hj : .marked j t' f' w' n' ∈ history)
    (heq : hash_token t = hash_token t') : i = j := by
  induction h with
  | nil => cases hi
  | cons h he ih =>
    rcases List.mem_cons.mp hi with rfl | hi' <;> rcases List.mem_cons.mp hj with hx | hj'
    · cases hx
      rfl
    · exact absurd (congrArg some heq.symm) (he _ hj').2
    · subst hx
      exact absurd (congrArg some heq) (he _ hi').2
    · exact ih hi' hj'

/-- The key of the invite an insertion came from. -/
def Event.insertedKey (hash_token : String → String) : Event → Option String
  | .inserted _ token _ => some (hash_token token)
  | _ => none

/-- A key has inserted at most one record: a second one would come from a second mark. -/
theorem Legal.single (h : Legal hash_token history) :
    (history.filterMap (Event.insertedKey hash_token)).Nodup := by
  induction h with
  | nil => exact List.nodup_nil
  | @cons e past h he ih =>
    cases e with
    | marked | removed | revoked => exact ih
    | inserted i token id =>
      refine List.nodup_cons.mpr ⟨fun hmem => ?_, ih⟩
      obtain ⟨⟨_, _, _, hmine, ⟨record, written, now, rfl, -⟩, -⟩, hnot, -⟩ := he
      obtain ⟨x, hx, hkey⟩ := List.mem_filterMap.mp hmem
      cases x with
      | marked | removed | revoked => cases hkey
      | inserted j t id' =>
        obtain ⟨later, earlier, hsplit⟩ := List.append_of_mem hx
        obtain ⟨_, _, _, rfl, ⟨record', written', now', rfl, -⟩, -⟩ := h.backed _ _ j t id' hsplit
        have hmark : .marked j t (some record') written' now' ∈ past := by simp [hsplit]
        have hmark' : .marked i token (some record) written now ∈ past := by simp [hmine]
        obtain rfl := h.marks_eq hmark hmark' (Option.some.inj hkey)
        exact hnot t id' hx

end Histories

/-- What the phase of a call says about its past. -/
def CallOk (hash_token : String → String) (history : List Event) (i : Nat) : Phase → Prop
  | .idle | .checked _ _ => ∀ e ∈ history, e.call ≠ some i
  | .marked id token =>
    Marked hash_token history i token id ∧ ∀ t id', .inserted i t id' ∉ history
  | .done _ => True

/-- The invariant of the system. -/
structure Inv (hash_token : String → String) (s : State) : Prop where
  legal : Legal hash_token s.history
  /-- Rows sit under issued keys only. -/
  issued : ∀ k r, s.rows.lookup k = some r → k ∈ s.issued
  /-- The row of a key that is ended is gone or used, and the key is not fresh. -/
  spent : ∀ e ∈ s.history, ∀ k, e.endedKey hash_token = some k → k ∈ s.issued ∧
    ∀ r, s.rows.lookup k = some r → r.used_by ≠ none
  calls : ∀ i, CallOk hash_token s.history i (s.calls i)
  /-- An account that stands is there. -/
  present : ∀ id, Standing id s.history → s.users.lookup id ≠ none

theorem inv_init (hash_token : String → String) (rows : Rows) (users : Users) :
    Inv hash_token (init rows users) where
  legal := .nil
  issued k r hlook := AList.mem_keys.mp (AList.lookup_isSome.mp (Option.isSome_of_mem hlook))
  spent e he := by cases he
  calls i := by simp [init, CallOk]
  present id h := h.elim

/-! ### One step -/

section Steps

variable {policy : Policy} {hash_token : String → String} {s : State} {e : Event} {i : Nat}
  {rows : Rows} {users : Users} {id : String}

theorem callOk_cons {history : List Event} {phase : Phase} (he : e.call ≠ some i)
    (h : CallOk hash_token history i phase) : CallOk hash_token (e :: history) i phase := by
  cases phase with
  | idle | checked id token => exact List.forall_mem_cons.mpr ⟨he, h⟩
  | done result => trivial
  | marked id token =>
    obtain ⟨⟨later, m, earlier, rfl, hmark⟩, hins⟩ := h
    refine ⟨⟨e :: later, m, earlier, rfl, hmark⟩, fun t id' hmem => ?_⟩
    rcases List.mem_cons.mp hmem with rfl | hmem
    · exact he rfl
    · exact hins t id' hmem

/-- A call that goes on, and records what it did. -/
theorem callOk_setCall {phase : Phase} (h : Inv hash_token s) (he : e.call = some i)
    (hphase : CallOk hash_token (e :: s.history) i phase) (j : Nat) :
    CallOk hash_token (e :: s.history) j ((s.setCall i phase).calls j) := by
  by_cases hj : j = i
  · subst hj
    simpa [State.setCall] using hphase
  · simp only [State.setCall, Function.update_of_ne hj]
    exact callOk_cons (by simpa [he] using fun heq => hj heq.symm) (h.calls j)

theorem inv_setCall {phase : Phase} (h : Inv hash_token s)
    (hphase : CallOk hash_token s.history i phase) : Inv hash_token (s.setCall i phase) := by
  refine ⟨h.legal, h.issued, h.spent, ?_, h.present⟩
  intro j
  by_cases hj : j = i
  · subst hj
    simpa [State.setCall] using hphase
  · simpa [State.setCall, Function.update_of_ne hj] using h.calls j

/-- What the invites transaction checked when it succeeds. -/
theorem redeem_mark_ok {candidate : String} {now : Nat} {written : InviteRecord}
    (h : redeem_mark users id candidate now rows = .ok written) :
    ∃ record, rows.lookup candidate = some record ∧ record.admits id = true ∧
      record.used_by = none ∧ record.unexpired now = true ∧
      written = { record with used_by := some id } := by
  unfold redeem_mark at h
  split at h
  · cases h
  rename_i record hlook
  split at h
  · cases h
  rename_i hadmits
  split at h
  · cases h
  rename_i hunused
  split at h
  · cases h
  rename_i hlive
  split at h
  · cases h
  · cases h
    exact ⟨record, hlook, by simpa using hadmits, by simpa using hunused, by simpa using hlive, rfl⟩

theorem inv_mark {now : Nat} {token : String} {written : InviteRecord}
    (h : Inv hash_token s) (hcall : s.calls i = .checked id token)
    (hmark : redeem_mark s.users id (hash_token token) now s.rows = .ok written) :
    Inv hash_token
      { s.setCall i (.marked id token) with
        rows := s.rows.insert (hash_token token) written
        history := .marked i token (s.rows.lookup (hash_token token)) written now :: s.history } := by
  obtain ⟨record, hlook, hadmits, hunused, hlive, rfl⟩ := redeem_mark_ok hmark
  have hmine : ∀ e ∈ s.history, e.call ≠ some i := by
    have hok := h.calls i
    rw [hcall] at hok
    exact hok
  -- the key is not ended: its row would not be there unused
  have hfirst : ∀ e ∈ s.history, ∀ k, e.endedKey hash_token = some k → k ≠ hash_token token := by
    rintro e he k hk rfl
    exact (h.spent e he _ hk).2 record hlook hunused
  constructor
  · exact h.legal.cons fun e he => ⟨hmine e he, fun hk => hfirst e he _ hk rfl⟩
  · intro k r hk
    rcases Table.lookup_insert_eq_some.mp hk with ⟨rfl, -⟩ | ⟨-, hold⟩
    · exact h.issued _ record hlook
    · exact h.issued k r hold
  · intro e he k hk
    rcases List.mem_cons.mp he with rfl | he
    · obtain rfl := Option.some.inj hk
      refine ⟨h.issued _ record hlook, fun r hr => ?_⟩
      rw [AList.lookup_insert] at hr
      cases hr
      simp
    · rw [AList.lookup_insert_ne (hfirst e he k hk)]
      exact h.spent e he k hk
  · refine callOk_setCall h rfl ⟨⟨[], _, s.history, rfl, ?_, ?_⟩, ?_⟩
    · exact ⟨record, _, now, by rw [hlook], rfl, hunused, hlive, hadmits⟩
    · exact fun hrevoked => hfirst _ hrevoked _ rfl rfl
    · intro t id' hmem
      rcases List.mem_cons.mp hmem with hx | hold
      · cases hx
      · exact hmine _ hold rfl
  · exact h.present

theorem insert_redeemed_ok {hash : String} {users' : Users}
    (h : UserStore.insert_redeemed id hash users = (.ok (), users')) :
    users.lookup id = none ∧ users'.lookup id ≠ none ∧
      ∀ id', id' ≠ id → users'.lookup id' = users.lookup id' := by
  unfold UserStore.insert_redeemed UserStore.insertNew UserStore.rmw at h
  by_cases hmem : id ∈ users
  · simp [hmem] at h
  simp only [hmem, if_false, Prod.mk.injEq, true_and] at h
  subst h
  refine ⟨AList.lookup_eq_none.mpr hmem, by rw [AList.lookup_insert]; simp, ?_⟩
  intro id' hne
  rw [AList.lookup_insert_ne hne]

theorem inv_finish {token hash : String} (h : Inv hash_token s)
    (hcall : s.calls i = .marked id token)
    (hins : UserStore.insert_redeemed id hash s.users = (.ok (), users)) :
    Inv hash_token
      { s.setCall i (.done (.ok ())) with
        users
        history := .inserted i token id :: s.history } := by
  obtain ⟨hfree, hthere, hother⟩ := insert_redeemed_ok hins
  have hok := h.calls i
  rw [hcall] at hok
  constructor
  · exact h.legal.cons ⟨hok.1, hok.2, fun hst => h.present id hst hfree⟩
  · exact h.issued
  · exact List.forall_mem_cons.mpr ⟨fun k hk => (by cases hk), h.spent⟩
  · exact callOk_setCall h rfl trivial
  · intro id' hst
    by_cases hid : id' = id
    · rwa [hid]
    · rw [hother id' hid]
      exact h.present id' (hst.resolve_left (Ne.symm hid))

theorem create_invite_ok {created_by token : String} {expires_at : Option Nat}
    {username : Option String} {rows' : Rows} {result : String × InviteRecord}
    (h : create_invite_with_expiry hash_token created_by expires_at username token rows =
      (.ok result, rows')) :
    ∃ record, rows' = rows.insert (hash_token token) record := by
  unfold create_invite_with_expiry at h
  split at h
  · cases h
  split at h
  · cases h
  · cases h
    exact ⟨_, rfl⟩

theorem inv_create {key : String} {record : InviteRecord} (h : Inv hash_token s)
    (hfresh : key ∉ s.issued) :
    Inv hash_token { s with rows := s.rows.insert key record, issued := key :: s.issued } := by
  refine ⟨h.legal, ?_, ?_, h.calls, h.present⟩
  · intro k r hk
    rcases Table.lookup_insert_eq_some.mp hk with ⟨rfl, -⟩ | ⟨-, hold⟩
    · exact List.mem_cons_self
    · exact List.mem_cons_of_mem _ (h.issued k r hold)
  · intro e he k hk
    obtain ⟨hissued, hused⟩ := h.spent e he k hk
    have hne : k ≠ key := fun heq => hfresh (heq ▸ hissued)
    refine ⟨List.mem_cons_of_mem _ hissued, ?_⟩
    rwa [AList.lookup_insert_ne hne]

/-- A revocation keeps the invariant: a row that goes is recorded. -/
theorem inv_revoke {key : String} (h : Inv hash_token s) :
    Inv hash_token (step policy hash_token s (.revoke key)) := by
  have hsub : ∀ k r, (s.rows.erase key).lookup k = some r → s.rows.lookup k = some r :=
    fun k r hk => (Table.lookup_erase_eq_some.mp hk).2
  have herased : Inv hash_token { s with rows := s.rows.erase key } := by
    refine ⟨h.legal, fun k r hk => h.issued k r (hsub k r hk), ?_, h.calls, h.present⟩
    intro e he k hk
    obtain ⟨hissued, hused⟩ := h.spent e he k hk
    exact ⟨hissued, fun r hr => hused r (hsub k r hr)⟩
  by_cases hrow : key ∈ s.rows
  · simp only [step, hrow, if_true]
    refine ⟨h.legal.cons trivial, herased.issued, List.forall_mem_cons.mpr ⟨?_, herased.spent⟩,
      fun i => callOk_cons nofun (h.calls i), h.present⟩
    intro k hk
    obtain rfl := Option.some.inj hk
    obtain ⟨r, hr⟩ := Option.isSome_iff_exists.mp (AList.lookup_isSome.mpr hrow)
    refine ⟨h.issued key r hr, fun r hr => ?_⟩
    cases (AList.lookup_erase key s.rows).symm.trans hr
  · simp only [step, hrow, if_false]
    exact herased

/-- A call of the user store keeps the invariant: if an account goes, its removal is recorded. -/
theorem inv_store {op : UserStore.Op} (h : Inv hash_token s) :
    Inv hash_token (step policy hash_token s (.store op)) := by
  have hother : ∀ id, id ≠ op.target → Standing id s.history →
      (UserStore.exec policy s.users op).lookup id ≠ none := by
    intro id hid hst
    rw [UserStore.exec_lookup_ne policy s.users hid]
    exact h.present id hst
  by_cases hgone : ((s.users.lookup op.target).isSome &&
      ((UserStore.exec policy s.users op).lookup op.target).isNone) = true
  · simp only [step, hgone, if_true]
    refine ⟨h.legal.cons trivial, h.issued,
      List.forall_mem_cons.mpr ⟨fun k hk => (by cases hk), h.spent⟩,
      fun i => callOk_cons nofun (h.calls i), fun id hst => hother id (Ne.symm hst.1) hst.2⟩
  · simp only [step, hgone]
    refine ⟨h.legal, h.issued, h.spent, h.calls, fun id hst => ?_⟩
    by_cases hid : id = op.target
    · subst hid
      intro hnone
      apply hgone
      simp [hnone, Option.isSome_iff_ne_none.mpr (h.present _ hst)]
    · exact hother id hid hst

/-- Every step under the generator's promise keeps the invariant. -/
theorem inv_step {l : Label} (hfresh : FreshToken hash_token s l) (h : Inv hash_token s) :
    Inv hash_token (step policy hash_token s l) := by
  cases l with
  | start i user_id token =>
    simp only [step]
    split
    · rename_i hidle
      have hmine := h.calls i
      rw [hidle] at hmine
      split
      · exact inv_setCall h trivial
      · exact inv_setCall h hmine
    · exact h
  | mark i now =>
    simp only [step]
    split
    · rename_i id token hcall
      split
      · exact inv_setCall h trivial
      · rename_i written hmark
        exact inv_mark h hcall hmark
    · exact h
  | finish i hash =>
    simp only [step]
    split
    · rename_i id token hcall
      split
      · exact inv_setCall h trivial
      · rename_i users hins
        exact inv_finish h hcall hins
    · exact h
  | create created_by expires_at username token =>
    simp only [step]
    split
    · exact h
    · rename_i result rows hcreate
      obtain ⟨record, rfl⟩ := create_invite_ok hcreate
      exact inv_create h hfresh
  | revoke invite_id => exact inv_revoke h
  | store op => exact inv_store h

end Steps

/-! ## Every interleaving -/

theorem length_insertedBy_le (hash_token : String → String) (token : String)
    (history : List Event) :
    (history.filter (Event.insertedBy token)).length ≤
      (history.filterMap (Event.insertedKey hash_token)).count (hash_token token) := by
  induction history with
  | nil => simp
  | cons e history ih =>
    cases e with
    | marked | removed | revoked => exact ih
    | inserted i t id =>
      by_cases ht : t = token
      · subst ht
        simpa [Event.insertedBy, Event.insertedKey] using ih
      · simp only [Event.insertedBy, Event.insertedKey, List.filter_cons, beq_iff_eq, ht, if_false,
          List.filterMap_cons, List.count_cons]
        omega

/-- In every state reached by redemptions interleaved with new invites, revocations and calls of the
user store: each token has inserted at most one record, no id was inserted twice without being
removed in between, and every insertion follows a write of `used_by` for its id on an unused,
unexpired invite that is unbound or bound to that id and was not revoked before. -/
theorem redeem_interleavings (policy : Policy) (hash_token : String → String) (rows : Rows)
    (users : Users) (labels : List Label) (hfresh : ∀ pre l, pre ++ [l] <+: labels →
      FreshToken hash_token (run (step policy hash_token) (init rows users) pre) l) :
    SingleUse (run (step policy hash_token) (init rows users) labels).history ∧
      ExclusiveIds (run (step policy hash_token) (init rows users) labels).history ∧
      Backed hash_token (run (step policy hash_token) (init rows users) labels).history := by
  have hinv : Inv hash_token (run (step policy hash_token) (init rows users) labels) :=
    run_induction (Q := fun _ t => Inv hash_token t) (inv_init hash_token rows users)
      fun pre l hpre h => inv_step (hfresh pre l hpre) h
  refine ⟨?_, hinv.legal.exclusive, hinv.legal.backed⟩
  intro token
  exact Nat.le_trans (length_insertedBy_le hash_token token _)
    (List.nodup_iff_count_le_one.mp hinv.legal.single _)

/-- Two users race for one invite: `bob` finds it used. A second invite is revoked before `eve`
redeems it. -/
theorem redeem_interleavings_race :
    let hash := fun token => "h:" ++ token
    let s := run (step .plain hash) (init ∅ ∅)
      [.create "root" none none "tok", .create "root" none none "key", .start 0 "ann" "tok",
        .start 1 "bob" "tok", .start 2 "eve" "key", .mark 0 10, .revoke "h:key", .mark 1 11,
        .mark 2 12, .finish 0 "phc"]
    s.users.lookup "ann" ≠ none ∧ s.users.lookup "bob" = none ∧
      .revoked "h:key" ∈ s.history ∧ s.users.lookup "eve" = none ∧ SingleUse s.history ∧
      ExclusiveIds s.history ∧ Backed hash s.history := by
  refine ⟨by decide +kernel, by decide +kernel, by decide +kernel, by decide +kernel,
    redeem_interleavings _ _ _ _ _ ?_⟩
  simp only [forall_step_cons (C := FreshToken _), forall_step_nil (C := FreshToken _)]
  exact ⟨List.not_mem_nil, (by decide : "h:" ++ "key" ∉ ["h:" ++ "tok"]), trivial, trivial, trivial,
    trivial, trivial, trivial, trivial, trivial, trivial⟩

end Invites
