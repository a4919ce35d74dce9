import Mathlib.Data.Fintype.Basic
import Picasu.Auth.Roles
import Picasu.Process.Media
import Picasu.Router.Delete
import Picasu.Router.Shares
import Picasu.Storage.Areas

/-! # Deleting an Account

`delete_user` reads the account and counts the administrators, looks for media in the personal
directory, drops the account's shares from every album, removes the record of its personal album,
and at last deletes the account in a transaction of the user store that counts again.

The steps share no lock. A change of the user store after the first count may turn the last
transaction into a refusal, and then the shares and the album are gone while the account stays
(`Deletions.refused_too_late`).

`Deletions.refused_keeps_iff`: no deletion that has begun to remove is in danger of a refusal
exactly in the runs in which it begins with an account that can go, and no step of another call
takes that away before the account is gone. In these runs, a refused deletion has touched nothing.
One that succeeds leaves no share of the account (`Deletions.delete_user_ok`).
-/

open Text PathBuf

/-! ## The personal directory -/

/-- What `std::fs::read_dir` lists, in its order, and what is below. It ends early when the
directory, or an entry of it, cannot be read. -/
inductive Listing where
  | done
  | failed
  /-- A file, with its content if it can be opened. -/
  | file (name : String) (content : Option ByteArray) (rest : Listing)
  | dir (name : String) (inner rest : Listing)
  /-- Neither a file nor a directory. -/
  | other (name : String) (rest : Listing)

/-- What the deletion of accounts takes from outside: the normal form of a text, its lower case, the
recognition of content, and the roots. -/
structure Deletions (I : Type) where
  nfkc : String → String
  to_lowercase : String → String
  infer : ByteArray → Option String
  roots : Roots
  /-- The id that each of the calls is given. -/
  user_id : I → String

/-- The two stores. -/
structure Accounts where
  users : Users
  lib : Library

namespace Deletions

variable {I : Type} (d : Deletions I)

/-- `walk`, the loop of `has_personal_photos`: is there media below `dir`? -/
def walk (dir : PathBuf) : Listing → Bool
  | .done => false
  | .failed => true
  | .file name content rest =>
    classify_media_file d.to_lowercase d.infer (fun _ => content) (join dir (ofString name)) =
      .index || walk dir rest
  | .dir name inner rest => walk (join dir (ofString name)) inner || walk dir rest
  | .other _ rest => walk dir rest

/-- `has_personal_photos`. `home` is the personal directory, if it exists. -/
def has_personal_photos (user_id : String) (home : Option Listing) : Bool :=
  match users_dir_for d.nfkc d.roots user_id, home with
  | .ok dir, some listing => d.walk dir listing
  | _, _ => false

/-- The album id of a directory: from the cache, or else from the records. -/
def album_of_dir (dir : PathBuf) (lib : Library) : Option String :=
  (lib.dirs.get_album_id_for_dir dir).or
    ((lib.store.get_all_assets.find? fun r => r.kind = .album && r.path = display dir).map
      fun r => r.asset_id)

def prune_personal_album (user_id : String) (lib : Library) : Library :=
  match users_dir_for d.nfkc d.roots user_id with
  | .error _ => lib
  | .ok dir =>
    match album_of_dir dir lib with
    | none => lib
    | some album_id =>
      let store :=
        match lib.store.get_asset_by_id album_id with
        | some record => lib.store.remove_asset record
        | none => lib.store
      { store := store.remove_metadata album_id, dirs := evict_dir_album dir lib.dirs }

/-- `cascade_owned_shares`, on the tables. -/
def cascade (target : String) (lib : Library) : Library :=
  { lib with store := { lib.store with tables := { lib.store.tables with
      metadata := cascade_owned_shares target lib.store.tables.metadata } } }

def unknown_user (target : String) : AppError := .new .notFound ("unknown user: " ++ target)

def zero_admins : AppError := .new .conflict "deletion would leave zero admins"

def personal_photos : AppError := .new .conflict
  ("user still has personal photos: lock the account and remove/revoke the shares; " ++
    "to delete manually, remove the files from the host filesystem under " ++
    "USERS_HOME/<username>, then retry the delete")

/-- The store's answer, as `delete_user` passes it on. -/
def deleted (target : String) : Except AppError Bool → Except AppError Unit
  | .error e => .error e
  | .ok false => .error (unknown_user target)
  | .ok true => .ok ()

/-- `delete_user`, undisturbed. -/
def delete_user (id : String) (home : Option Listing) (s : Accounts) :
    Except AppError Unit × Accounts :=
  match validate_user_id id with
  | .error e => (.error e, s)
  | .ok target =>
    match UserStore.read s.users target with
    | none => (.error (unknown_user target), s)
    | some record =>
      if record.admin = true ∧ UserStore.admins s.users ≤ 1 then (.error zero_admins, s)
      else if d.has_personal_photos target home then (.error personal_photos, s)
      else
        let (removed, users) := UserStore.delete target false s.users
        (deleted target removed,
          { users, lib := d.prune_personal_album target (cascade target s.lib) })

end Deletions

/-! ## Step by step -/

/-- Where a call of `delete_user` is. -/
inductive DeletePoint where
  | start
  /-- The account was there, an administrator or not. -/
  | found (target : String) (admin : Bool)
  /-- It was not the last administrator. -/
  | counted (target : String)
  /-- There was no media. -/
  | clear (target : String)
  /-- The shares are gone. -/
  | cascaded (target : String)
  /-- The personal album is gone. -/
  | pruned (target : String)
  | done (result : Except AppError Unit)
  deriving DecidableEq

namespace Deletions

variable {I : Type} (d : Deletions I)

/-- One step of `delete_user`; `home` is the personal directory as it is at the time. -/
def step (id : String) (home : Option Listing) (point : DeletePoint) (s : Accounts) :
    DeletePoint × Accounts :=
  match point with
  | .start =>
    match validate_user_id id with
    | .error e => (.done (.error e), s)
    | .ok target =>
      match UserStore.read s.users target with
      | none => (.done (.error (unknown_user target)), s)
      | some record => (.found target record.admin, s)
  | .found target admin =>
    if admin = true ∧ UserStore.admins s.users ≤ 1 then (.done (.error zero_admins), s)
    else (.counted target, s)
  | .counted target =>
    if d.has_personal_photos target home then (.done (.error personal_photos), s)
    else (.clear target, s)
  | .clear target => (.cascaded target, { s with lib := cascade target s.lib })
  | .cascaded target => (.pruned target, { s with lib := d.prune_personal_album target s.lib })
  | .pruned target =>
    let (removed, users) := UserStore.delete target false s.users
    (.done (deleted target removed), { s with users })
  | .done result => (.done result, s)

/-- The steps of a call that nothing disturbs are `delete_user`. -/
theorem delete_user_steps (id : String) (home : Option Listing) (s : Accounts) :
    (fun t : DeletePoint × Accounts => d.step id home t.1 t.2)^[6] (.start, s) =
      (.done (d.delete_user id home s).1, (d.delete_user id home s).2) := by
  simp only [Function.iterate_succ, Function.iterate_zero, Function.comp_apply, id_eq]
  rcases hvalid : validate_user_id id with e | target
  · simp [step, delete_user, hvalid]
  rcases hread : UserStore.read s.users target with - | record
  · simp [step, delete_user, hvalid, hread]
  by_cases hcount : record.admin = true ∧ UserStore.admins s.users ≤ 1
  · simp only [step, delete_user, hvalid, hread, if_pos hcount]
  by_cases hphotos : d.has_personal_photos target home = true
  · simp only [step, delete_user, hvalid, hread, if_neg hcount, if_pos hphotos]
  · simp only [step, delete_user, hvalid, hread, if_neg hcount, if_neg hphotos]

end Deletions

namespace DeletePoint

/-- The account whose shares the next step removes. -/
def removes_next : DeletePoint → Option String
  | .clear target => some (trim target)
  | _ => none

def deletes_next : DeletePoint → Option String
  | .pruned target => some (trim target)
  | _ => none

/-- The account of a call that has begun to remove and is not at its end. -/
def under_removal : DeletePoint → Option String
  | .cascaded target | .pruned target => some (trim target)
  | _ => none

theorem deletes_next_eq_none {point : DeletePoint} (h : point.under_removal = none) :
    point.deletes_next = none := by
  cases point with
  | pruned target => cases h
  | _ => rfl

/-- The call has begun to remove, and was not refused. -/
def Begun : DeletePoint → Prop
  | .cascaded _ | .pruned _ | .done (.ok _) => True
  | _ => False

end DeletePoint

/-- The stores, and where the calls are. -/
structure DeleteState (I : Type) extends Accounts where
  point : I → DeletePoint

namespace Deletions

/-- A step of a deletion, or another change of the user store. -/
inductive Label (I : Type) where
  | step (call : I) (home : Option Listing)
  | set_admin (id : String) (admin : Bool)
  | set_disabled (id : String) (disabled : Bool)

variable {I : Type} (d : Deletions I)

/-- The state after a step of one of the deletions, or after another call. -/
def next [DecidableEq I] (s : DeleteState I) : Label I → DeleteState I
  | .step i home =>
    let (point, accounts) := d.step (d.user_id i) home (s.point i) s.toAccounts
    { toAccounts := accounts, point := Function.update s.point i point }
  | .set_admin id admin => { s with users := (UserStore.set_admin id admin s.users).2 }
  | .set_disabled id disabled => { s with users := (UserStore.set_disabled id disabled s.users).2 }

def init (accounts : Accounts) : DeleteState I where
  toAccounts := accounts
  point _ := .start

/-! ## Accounts that can go -/

open UserStore

/-- No call that has begun to remove is in danger of a refusal. -/
def Settled (s : DeleteState I) : Prop :=
  ∀ i, ∀ id ∈ (s.point i).under_removal, Removable s.users id

/-- A call begins to remove when its account can go. A call that deletes an account or demotes one
leaves the accounts under removal such that they can go without it; and an account under removal
is only promoted beside another administrator. -/
def StepOk (s : DeleteState I) : Label I → Prop
  | .step i _ =>
    (∀ id ∈ (s.point i).removes_next, Removable s.users id) ∧
      ∀ id ∈ (s.point i).deletes_next, ∀ j, j ≠ i → ∀ id' ∈ (s.point j).under_removal,
        Removable (s.users.erase id) id'
  | .set_admin id false =>
    ∀ j, ∀ id' ∈ (s.point j).under_removal, id' ≠ trim id → Removable (s.users.erase (trim id)) id'
  | .set_admin id true =>
    ∀ j, ∀ id' ∈ (s.point j).under_removal, id' = trim id → OtherAdmin s.users id'
  | .set_disabled .. => True

instance [Fintype I] [DecidableEq I] (s : DeleteState I) : (l : Label I) → Decidable (StepOk s l)
  | .step i _ => inferInstanceAs (Decidable (
    (∀ id ∈ (s.point i).removes_next, Removable s.users id) ∧
      ∀ id ∈ (s.point i).deletes_next, ∀ j, j ≠ i → ∀ id' ∈ (s.point j).under_removal,
        Removable (s.users.erase id) id'))
  | .set_admin id false => inferInstanceAs (Decidable (
    ∀ j, ∀ id' ∈ (s.point j).under_removal, id' ≠ trim id →
      Removable (s.users.erase (trim id)) id'))
  | .set_admin id true => inferInstanceAs (Decidable (
    ∀ j, ∀ id' ∈ (s.point j).under_removal, id' = trim id → OtherAdmin s.users id'))
  | .set_disabled .. => isTrue trivial

/-! ## Steps that keep the accounts removable -/

section Steps

variable {d} {s : DeleteState I} {i : I} {home : Option Listing}

theorem settled_iff : Settled s ↔
    ∀ i, ∀ id ∈ (s.point i).under_removal, Expendable (role s.users) id := by
  simp only [Settled, removable_iff]

theorem settled_init (accounts : Accounts) : Settled (init accounts : DeleteState I) := by
  intro i id hid
  cases hid

variable [DecidableEq I]

theorem settled_set_disabled_iff {id : String} {disabled : Bool} :
    Settled (d.next s (.set_disabled id disabled)) ↔ Settled s := by
  simp only [settled_iff, next, role_set_disabled]

theorem settled_set_admin_iff (h : Settled s) {id : String} {admin : Bool} :
    Settled (d.next s (.set_admin id admin)) ↔ StepOk s (.set_admin id admin) := by
  rw [settled_iff] at h ⊢
  simp only [next]
  cases admin with
  | false =>
    simp only [StepOk, removable_iff, role_erase]
    refine forall_congr' fun j => forall_congr' fun id' => forall_congr' fun hid' => ?_
    rcases role_set_admin s.users id false with hrole | ⟨hrole, hwhy⟩
    · rw [hrole]
      exact expendable_demote_iff
    · rw [hrole]
      exact iff_of_true (h j id' hid') fun hne =>
        (h j id' hid').without hne (hwhy.imp_right And.right)
  | true =>
    simp only [StepOk, otherAdmin_iff_role]
    refine forall_congr' fun j => forall_congr' fun id' => forall_congr' fun hid' => ?_
    rcases role_set_admin s.users id true with hrole | ⟨hrole, hwhy⟩
    · rw [hrole]
      exact expendable_promote_iff (h j id' hid')
    · rw [hrole]
      refine iff_of_true (h j id' hid') ?_
      rintro rfl
      rcases h j (trim id) hid' with hfalse | ⟨-, hother⟩
      · rcases hwhy with hne | hlast
        · exact absurd hfalse hne
        · cases hlast.1
      · exact hother

theorem settled_step_iff {point' : DeletePoint} {accounts' : Accounts}
    (hstep : d.step (d.user_id i) home (s.point i) s.toAccounts = (point', accounts')) :
    Settled (d.next s (.step i home)) ↔
      (∀ id ∈ point'.under_removal, Removable accounts'.users id) ∧
        ∀ j, j ≠ i → ∀ id ∈ (s.point j).under_removal, Removable accounts'.users id := by
  simp only [Settled, next, hstep]
  exact Function.forall_update_iff s.point
    fun _ point => ∀ id ∈ point.under_removal, Removable accounts'.users id

end Steps

/-- What a step of a deletion does: nothing to the stores, or one of the three removals. -/
inductive Move (s : Accounts) : DeletePoint → DeletePoint → Accounts → Prop where
  | quiet {before after : DeletePoint} (hfirst : before.removes_next = none)
      (hbefore : before.under_removal = none) (hafter : after.under_removal = none)
      (hbegun : before.Begun → after.Begun) : Move s before after s
  | cascade (target : String) : Move s (.clear target) (.cascaded target)
      { s with lib := cascade target s.lib }
  | prune (target : String) : Move s (.cascaded target) (.pruned target)
      { s with lib := d.prune_personal_album target s.lib }
  | delete (target : String) : Move s (.pruned target)
      (.done (deleted target (delete target false s.users).1))
      { s with users := (delete target false s.users).2 }

theorem move_step (id : String) (home : Option Listing) (point : DeletePoint) (s : Accounts) :
    d.Move s point (d.step id home point s).1 (d.step id home point s).2 := by
  cases point with
  | start =>
    simp only [step]
    split
    · exact .quiet rfl rfl rfl False.elim
    · split
      · exact .quiet rfl rfl rfl False.elim
      · exact .quiet rfl rfl rfl False.elim
  | found target admin | counted target =>
    simp only [step]
    split
    · exact .quiet rfl rfl rfl False.elim
    · exact .quiet rfl rfl rfl False.elim
  | clear target => exact .cascade target
  | cascaded target => exact .prune target
  | pruned target => exact .delete target
  | done result => exact .quiet rfl rfl rfl fun h => h

section Moves

variable {d} {before after : DeletePoint} {a a' : Accounts}

/-- A call whose account can go does not turn back. -/
theorem Move.begun (h : d.Move a before after a')
    (hgo : ∀ id ∈ before.under_removal, Removable a.users id) (hbegun : before.Begun) :
    after.Begun := by
  cases h with
  | quiet _ _ _ hkeep => exact hkeep hbegun
  | cascade | prune => trivial
  | delete target =>
    rw [delete_of_removable (hgo (trim target) rfl)]
    trivial

/-- What has not begun has left the library alone. -/
theorem Move.lib_eq (h : d.Move a before after a') (hbegun : ¬ after.Begun) : a'.lib = a.lib := by
  cases h with
  | quiet => rfl
  | cascade | prune => exact absurd trivial hbegun
  | delete => rfl

end Moves

section Run

variable {d} [DecidableEq I] {s : DeleteState I} {i : I} {home : Option Listing}

theorem settled_step (h : Settled s) :
    Settled (d.next s (.step i home)) ↔ StepOk s (.step i home) := by
  obtain ⟨point', accounts', hstep⟩ : ∃ point' accounts',
      d.step (d.user_id i) home (s.point i) s.toAccounts = (point', accounts') := ⟨_, _, rfl⟩
  have hmove : d.Move s.toAccounts (s.point i) point' accounts' := by
    have hmove := d.move_step (d.user_id i) home (s.point i) s.toAccounts
    rwa [hstep] at hmove
  rw [settled_step_iff hstep]
  have hself := h i
  have hothers : ∀ j, j ≠ i → ∀ id ∈ (s.point j).under_removal, Removable s.users id :=
    fun j _ => h j
  simp only [StepOk]
  generalize s.point i = before at hmove hself ⊢
  cases hmove with
  | quiet hfirst hbefore hafter hbegun =>
    rw [hfirst, hafter, DeletePoint.deletes_next_eq_none hbefore]
    exact iff_of_true ⟨by simp, hothers⟩ ⟨by simp, by simp⟩
  | cascade target =>
    exact and_congr Iff.rfl (iff_of_true hothers (by simp [DeletePoint.deletes_next]))
  | prune target =>
    refine iff_of_true ⟨hself, hothers⟩ ⟨?_, ?_⟩
    · simp [DeletePoint.removes_next]
    · simp [DeletePoint.deletes_next]
  | delete target =>
    simp [DeletePoint.removes_next, DeletePoint.deletes_next, DeletePoint.under_removal,
      delete_of_removable (hself (trim target) rfl)]

theorem settled_next_iff (h : Settled s) (l : Label I) : Settled (d.next s l) ↔ StepOk s l := by
  cases l with
  | step i home => exact settled_step h
  | set_admin id admin => exact settled_set_admin_iff h
  | set_disabled id disabled => exact iff_of_true (settled_set_disabled_iff.mpr h) trivial

theorem begun_next (h : Settled s) {l : Label I} (hbegun : (s.point i).Begun) :
    ((d.next s l).point i).Begun := by
  cases l with
  | step j home =>
    by_cases hj : i = j
    · subst hj
      simp only [next, Function.update_self]
      exact (d.move_step _ home _ _).begun (h i) hbegun
    · simpa only [next, Function.update_of_ne hj] using hbegun
  | set_admin | set_disabled => exact hbegun

/-- What has begun at some point of a settled run is not refused later. -/
theorem begun_run {accounts : Accounts} {pre labels : List (Label I)}
    (hsettled : ∀ done, done <+: labels → Settled (LTS.run d.next (init accounts) done))
    (hpre : pre <+: labels) (hbegun : ((LTS.run d.next (init accounts) pre).point i).Begun) :
    ((LTS.run d.next (init accounts) labels).point i).Begun := by
  obtain ⟨rest, rfl⟩ := hpre
  rw [LTS.run_append]
  refine LTS.run_induction (Q := fun _ (s : DeleteState I) => (s.point i).Begun) hbegun
    fun done l hdone h => begun_next ?_ h
  rw [← LTS.run_append]
  have hprefix : done <+: rest := (List.prefix_append done [l]).trans hdone
  exact hsettled _ ((List.prefix_append_right_inj pre).mpr hprefix)

theorem lib_next (hbegun : ¬ ((d.next s (.step i home)).point i).Begun) :
    (d.next s (.step i home)).lib = s.lib := by
  simp only [next, Function.update_self] at hbegun ⊢
  exact (d.move_step _ home _ _).lib_eq hbegun

variable (d)

/-- In every run of deletions, interleaved with each other and with changes of the flags: no call
that has begun to remove is in danger of a refusal exactly if every step meets the condition.
Then, if a call was refused, none of its steps has changed the albums, the records or the cache. -/
theorem refused_keeps_iff (accounts : Accounts) (labels : List (Label I)) :
    ((∀ pre, pre <+: labels → Settled (LTS.run d.next (init accounts) pre)) ↔
      ∀ pre l, pre ++ [l] <+: labels → StepOk (LTS.run d.next (init accounts) pre) l) ∧
    ((∀ pre l, pre ++ [l] <+: labels → StepOk (LTS.run d.next (init accounts) pre) l) →
      ∀ i e, (LTS.run d.next (init accounts) labels).point i = .done (.error e) →
        (e.kind = .conflict ∨ e.kind = .notFound) →
        ∀ pre home, pre ++ [.step i home] <+: labels →
          (LTS.run d.next (init accounts) (pre ++ [.step i home])).lib =
            (LTS.run d.next (init accounts) pre).lib) := by
  have hiff : (∀ pre, pre <+: labels → Settled (LTS.run d.next (init accounts) pre)) ↔
      ∀ pre l, pre ++ [l] <+: labels → StepOk (LTS.run d.next (init accounts) pre) l :=
    LTS.run_invariant_iff (I := Settled) (C := StepOk) (settled_init accounts)
      fun _ l _ hsettled => settled_next_iff hsettled l
  refine ⟨hiff, fun hok i e hdone _ pre home hpre => ?_⟩
  rw [LTS.run_append]
  refine lib_next fun hbegun => ?_
  -- a call that has begun is not refused later
  have hend := begun_run (hiff.mpr hok) hpre (by rw [LTS.run_append]; exact hbegun)
  rw [hdone] at hend
  exact hend

end Run

/-! ## A demotion in between -/

/-- The first call deletes `ann`, the second one another account. -/
def ann_and (other : String) : Deletions Bool where
  nfkc := id
  to_lowercase := id
  infer _ := none
  roots := ⟨⟨some, fun _ => true⟩, none, some (ofString "/srv/users")⟩
  user_id second := if second then other else "ann"

def album_sharing (share_list : Table String Share) : MetadataRecord := .album
  { tags := ∅, description := none, rating := none, update_at := 0, pending := false,
    thumbhash := none, title := none, created_time := 0, start_time := none, end_time := none,
    last_modified_time := 0, cover := none, item_count := 0, item_size := 0, share_list,
    custom_title := none }

def shared (lib : Library) (album_id url : String) : Bool :=
  match lib.store.tables.metadata.lookup album_id with
  | some (.album album) => (album.share_list.lookup url).isSome
  | _ => false

/-- `ann` has an empty personal album, and has shared another one. -/
def ann_library : Library where
  store := {
    tables := {
      assets := AList.insert "home"
        { asset_id := "home", kind := .album, path := "/srv/users/ann", content_hash := none,
          file_size := 0, ext := "", modified := 0, scan_time := 0, is_trashed := false,
          album_id := none } ∅
      metadata := AList.insert "home" (album_sharing ∅) (AList.insert "trip"
        (album_sharing (AList.insert "link"
          { url := "link", description := "", password := none, show_metadata := false,
            show_download := false, show_upload := false, exp := 0, created_by := "ann" } ∅)) ∅) }
    by_path := AList.insert "/srv/users/ann" "home" ∅
    dupes := ∅ }
  dirs := AList.insert (ofString "/srv/users/ann") "home" ∅

def admins_of (ids : List String) : Users :=
  ids.foldl (fun users id => users.insert id (adminRow false)) ∅

/-- `ann` is deleted while `carol` is demoted, with `bob` left; the deletion of an unknown account
has changed nothing. -/
theorem refused_keeps_beside_bob :
    let labels : List (Label Bool) :=
      [.step false none, .step false none, .step false none, .step true none, .step false none,
        .set_admin "carol" false, .step false none, .step false none]
    let start := init ⟨admins_of ["ann", "bob", "carol"], ann_library⟩
    let next := (ann_and "eve").next
    (LTS.run next start labels).point false = .done (.ok ()) ∧
      ∀ pre home, pre ++ [.step true home] <+: labels →
        (LTS.run next start (pre ++ [.step true home])).lib = (LTS.run next start pre).lib := by
  intro labels start next
  refine ⟨by decide +kernel, (refused_keeps_iff (ann_and "eve") _ labels).2 ?_ true
    (unknown_user "eve") (by decide +kernel) (Or.inr rfl)⟩
  simp only [labels, LTS.forall_step_cons, LTS.forall_step_nil, and_true]
  refine ⟨?_, ?_, ?_, ?_, ?_, ?_, ?_, ?_⟩ <;> decide +kernel

/-- `bob` is demoted after the first count, and the second count refuses the deletion of `ann`. Or,
another deletion of `ann` comes first. The share, and in the first case the album, are gone. -/
theorem refused_too_late :
    let start := init ⟨admins_of ["ann", "bob"], ann_library⟩
    let next := (ann_and "ann").next
    let demoted := LTS.run next start
      [.step false none, .step false none, .step false none, .step false none, .step false none,
        .set_admin "bob" false, .step false none]
    let begun := LTS.run next start
      [.step true none, .step true none, .step true none, .step true none]
    let raced := LTS.run next begun
      [.step false none, .step false none, .step false none, .step false none, .step false none,
        .step false none, .step true none, .step true none]
    shared ann_library "trip" "link" = true ∧
    (demoted.point false = .done (.error zero_admins) ∧
      shared demoted.lib "trip" "link" = false ∧
      demoted.lib.store.get_asset_by_id "home" = none ∧
      demoted.lib.store.tables.metadata.lookup "home" = none ∧
      demoted.lib.dirs.lookup (ofString "/srv/users/ann") = none) ∧
    raced.point true = .done (.error (unknown_user "ann")) ∧
      shared begun.lib "trip" "link" = false := by
  refine ⟨by decide +kernel, ⟨by decide +kernel, by decide +kernel, by decide +kernel,
    by decide +kernel, by decide +kernel⟩, by decide +kernel, by decide +kernel⟩

/-! ## What a deletion leaves -/

/-- The cascade leaves no share of the account. -/
theorem created_by_ne_of_cascade {target album_id url : String} {metadata : Metadata}
    {album : AlbumPayload} {share : Share}
    (hrow : (cascade_owned_shares target metadata).lookup album_id = some (.album album))
    (hshare : album.share_list.lookup url = some share) : share.created_by ≠ target := by
  rw [cascade_owned_shares, Table.lookup_rewriteEach] at hrow
  obtain ⟨row, -, hnew⟩ := Option.map_eq_some_iff.mp hrow
  cases row with
  | album old =>
    have hkept : album.share_list =
        old.share_list.retain fun _ share => share.created_by != target := by
      simp only [drop_owned_shares] at hnew
      split at hnew
      · cases hnew
        rfl
      · -- as many as before are all of them
        rename_i hlength
        cases hnew
        exact (AList.ext (List.filter_sublist.eq_of_length (not_not.mp hlength))).symm
    rw [hkept, Table.lookup_retain_eq_some] at hshare
    exact bne_iff_ne.mp hshare.2
  | image payload | video payload => cases hnew

theorem lookup_of_prune {user_id k : String} {lib : Library} {row : MetadataRecord}
    (h : (d.prune_personal_album user_id lib).store.tables.metadata.lookup k = some row) :
    lib.store.tables.metadata.lookup k = some row := by
  unfold prune_personal_album at h
  split at h
  · exact h
  split at h
  · exact h
  have hbefore := (Table.lookup_erase_eq_some.mp h).2
  split at hbefore
  · unfold AssetStore.remove_asset at hbefore
    dsimp only at hbefore
    split at hbefore
    · rwa [AssetStore.tables_remove_from_dupe_group] at hbefore
    · exact hbefore
  · exact hbefore

/-- A deletion that succeeds takes away the account and no other, and leaves no share of it in any
album. -/
theorem delete_user_ok {id : String} {home : Option Listing} {s s' : Accounts}
    (h : d.delete_user id home s = (.ok (), s')) :
    s'.users = s.users.erase (trim id) ∧ ∀ album_id album url share,
      s'.lib.store.tables.metadata.lookup album_id = some (.album album) →
        album.share_list.lookup url = some share → share.created_by ≠ trim id := by
  unfold delete_user at h
  split at h
  · cases h
  rename_i target hvalid
  obtain rfl : trim id = target := by
    simp only [validate_user_id] at hvalid
    split_ifs at hvalid
    exact Except.ok.inj hvalid
  split at h
  · cases h
  rename_i record hread
  split at h
  · cases h
  rename_i hcount
  split at h
  · cases h
  -- the second count is that of the first
  have hdelete : delete (trim id) false s.users = (.ok true, s.users.erase (trim id)) := by
    rw [UserStore.read] at hread
    simp [delete, rmw, hread, hcount]
    rw [trim_trim]
  rw [hdelete] at h
  obtain ⟨-, rfl⟩ := Prod.mk.inj h
  exact ⟨rfl, fun _ _ _ _ hrow => created_by_ne_of_cascade (d.lookup_of_prune hrow)⟩

theorem delete_user_ok_ann :
    let s : Accounts := ⟨admins_of ["ann", "bob"], ann_library⟩
    let deleted := (ann_and "bob").delete_user "ann" none s
    deleted.1 = .ok () ∧ deleted.2.users = s.users.erase (trim "ann") := by
  intro s deleted
  have hok : deleted.1 = .ok () := by decide +kernel
  exact ⟨hok, ((ann_and "bob").delete_user_ok (Prod.ext hok rfl)).1⟩

end Deletions
