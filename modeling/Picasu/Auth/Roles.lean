import Picasu.Auth.Administrators

/-! # Accounts That Can Go

An account can be deleted if it exists and is not the last administrator. This depends only on
which accounts exist and which of them are administrators: on the roles. The calls of the user
store that change roles are described here by what they do to them, and what they do to the
accounts that can go follows from that.
-/

open Text

namespace UserStore

/-- The account exists and is not the last administrator. -/
def Removable (users : Users) (id : String) : Prop :=
  ∃ r, users.lookup id = some r ∧ (r.admin = true → OtherAdmin users id)

theorem otherAdmin_iff {users : Users} {id : String} :
    OtherAdmin users id ↔ 0 < admins (users.erase id) := by
  simp only [OtherAdmin, admins, Table.census_pos_iff, Table.lookup_erase_eq_some, and_assoc]

instance (users : Users) (id : String) : Decidable (OtherAdmin users id) :=
  decidable_of_iff _ otherAdmin_iff.symm

instance (users : Users) (id : String) : Decidable (Removable users id) :=
  decidable_of_iff (∃ r ∈ users.lookup id, r.admin = true → OtherAdmin users id) Iff.rfl

/-! ## Roles -/

/-- An account that exists and is no administrator, or one of several. -/
def Expendable (role : String → Option Bool) (id : String) : Prop :=
  role id = some false ∨ role id = some true ∧ ∃ other, other ≠ id ∧ role other = some true

/-- The flag of an account, if it exists. -/
def role (users : Users) (id : String) : Option Bool := (users.lookup id).map fun r => r.admin

section Roles

variable {f : String → Option Bool} {id t : String}

/-- Demoting an account is to the others as removing it. -/
theorem expendable_demote_iff :
    Expendable (Function.update f id (some false)) t ↔
      (t ≠ id → Expendable (Function.update f id none) t) := by
  by_cases ht : t = id
  · subst ht
    simp [Expendable]
  · have hother : ∀ other, Function.update f id (some false) other = some true ↔
        Function.update f id none other = some true := by
      intro other
      by_cases ho : other = id
      · subst ho
        simp
      · simp only [Function.update_of_ne ho]
    simp only [Expendable, Function.update_of_ne ht, hother, ne_eq, ht, not_false_eq_true,
      forall_const]

theorem expendable_promote_iff (h : Expendable f t) :
    Expendable (Function.update f id (some true)) t ↔
      (t = id → ∃ other, other ≠ t ∧ f other = some true) := by
  by_cases ht : t = id
  · subst ht
    simp only [Expendable, Function.update_self, forall_const]
    constructor
    · rintro (hfalse | ⟨-, other, hne, hother⟩)
      · cases hfalse
      · exact ⟨other, hne, by rwa [Function.update_of_ne hne] at hother⟩
    · rintro ⟨other, hne, hother⟩
      exact Or.inr ⟨trivial, other, hne, by rwa [Function.update_of_ne hne]⟩
  · refine iff_of_true ?_ (fun h => absurd h ht)
    rcases h with hfalse | ⟨htrue, other, hne, hother⟩
    · exact Or.inl (by rwa [Function.update_of_ne ht])
    refine Or.inr ⟨by rwa [Function.update_of_ne ht], other, hne, ?_⟩
    by_cases ho : other = id
    · rw [ho, Function.update_self]
    · rwa [Function.update_of_ne ho]

/-- An account that is no administrator, or the last one, is not needed to remove another. -/
theorem Expendable.without (h : Expendable f t) (ht : t ≠ id)
    (hid : f id ≠ some true ∨ ∀ other, other ≠ id → f other ≠ some true) :
    Expendable (Function.update f id none) t := by
  rcases h with hfalse | ⟨htrue, other, hne, hother⟩
  · exact Or.inl (by rwa [Function.update_of_ne ht])
  have ho : other ≠ id := by
    rintro rfl
    rcases hid with hid | hid
    · exact hid hother
    · exact hid t ht htrue
  exact Or.inr ⟨by rwa [Function.update_of_ne ht], other, hne, by rwa [Function.update_of_ne ho]⟩

end Roles

section Users

variable {users : Users} {id t : String}

theorem role_eq_some {admin : Bool} :
    role users id = some admin ↔ ∃ r, users.lookup id = some r ∧ r.admin = admin :=
  Option.map_eq_some_iff

theorem otherAdmin_iff_role :
    OtherAdmin users id ↔ ∃ other, other ≠ id ∧ role users other = some true := by
  simp only [OtherAdmin, role_eq_some, exists_and_left]

theorem removable_iff : Removable users id ↔ Expendable (role users) id := by
  rw [Removable, Expendable, ← otherAdmin_iff_role, role_eq_some, role_eq_some]
  constructor
  · rintro ⟨r, hr, hadmin⟩
    cases hflag : r.admin with
    | false => exact Or.inl ⟨r, hr, hflag⟩
    | true => exact Or.inr ⟨⟨r, hr, hflag⟩, hadmin hflag⟩
  · rintro (⟨r, hr, hflag⟩ | ⟨⟨r, hr, -⟩, hother⟩)
    · exact ⟨r, hr, fun htrue => by simp [hflag] at htrue⟩
    · exact ⟨r, hr, fun _ => hother⟩

theorem two_le_admins_iff {r : UserRecord} (hlook : users.lookup id = some r)
    (hadmin : r.admin = true) : 2 ≤ admins users ↔ OtherAdmin users id :=
  Table.two_le_census_iff hlook hadmin

theorem role_insert (r : UserRecord) :
    role (users.insert id r) = Function.update (role users) id (some r.admin) := by
  funext k
  by_cases hk : k = id
  · subst hk
    simp [role]
  · simp [role, hk]

theorem role_erase : role (users.erase id) = Function.update (role users) id none := by
  funext k
  by_cases hk : k = id
  · subst hk
    simp [role]
  · simp [role, hk]

theorem role_set_disabled (disabled : Bool) :
    role (set_disabled id disabled users).2 = role users := by
  rw [set_disabled]
  rcases updateCurrent_writes id _ users with h | ⟨r, result, row, hlook, hrow, h⟩
  · rw [h]
  have hadmin : some row.admin = role users (trim id) := by
    rw [role, hlook]
    split at hrow
    · cases hrow
    split at hrow
    · cases hrow
    · cases hrow
      rfl
  rw [h, role_insert, hadmin, Function.update_eq_self]

/-- A change of the flag is written, unless there is nothing to change or the account is the last
administrator. -/
theorem role_set_admin (users : Users) (id : String) (admin : Bool) :
    role (set_admin id admin users).2 = Function.update (role users) (trim id) (some admin) ∨
      role (set_admin id admin users).2 = role users ∧
        (role users (trim id) ≠ some (!admin) ∨
          admin = false ∧ ∀ other, other ≠ trim id → role users other ≠ some true) := by
  cases hlook : users.lookup (trim id) with
  | none =>
    refine Or.inr ⟨by rw [set_admin, updateCurrent_none hlook], Or.inl ?_⟩
    simp [role, hlook]
  | some r =>
    by_cases hsame : r.admin = admin
    · refine Or.inr ⟨?_, Or.inl ?_⟩
      · rw [set_admin, updateCurrent_keep hlook (if_pos hsame)]
      · simp [role, hlook, hsame]
    by_cases hlast : admin = false ∧ admins users ≤ 1
    · refine Or.inr ⟨?_, Or.inr ⟨hlast.1, ?_⟩⟩
      · rw [set_admin, updateCurrent_error hlook ((if_neg hsame).trans (if_pos hlast))]
      · have hadmin : r.admin = true := by
          rw [hlast.1] at hsame
          simpa using hsame
        intro other hne hother
        have htwo := (two_le_admins_iff hlook hadmin).mpr
          (otherAdmin_iff_role.mpr ⟨other, hne, hother⟩)
        exact absurd hlast.2 (by omega)
    · left
      rw [set_admin_effective hlook hsame (fun h => by
        by_contra hcount
        exact hlast ⟨h, by omega⟩), role_insert]

/-- An account that can go is deleted. -/
theorem delete_of_removable (h : Removable users (trim id)) :
    delete id false users = (.ok true, users.erase (trim id)) := by
  obtain ⟨r, hlook, hother⟩ := h
  have hgo : ¬ (r.admin = true ∧ admins users ≤ 1) := by
    rintro ⟨hadmin, hcount⟩
    have htwo := (two_le_admins_iff hlook hadmin).mpr (hother hadmin)
    omega
  simp [delete, rmw, hlook, hgo]

end Users

end UserStore
