import Picasu.Auth.UserStore
import Picasu.Framework.Run

/-! # Administrators That Can Sign In

The store refuses changes that would leave it without administrators, with two different censuses:
`set_disabled` counts the *enabled* administrators, `set_admin` and `delete` count all of them.
The property of interest is that some administrator can still sign in.

A disabled administrator keeps the second census above one, so demoting or deleting the only
enabled one goes through. `StrandsStore` describes exactly these calls by their arguments and the
store they run on, and `enabledAdmin_throughout_iff` shows that they are the only way to lose the
property: the histories that keep it are those without such a call.
-/

open Text LTS

namespace UserStore

/-- Some account is an administrator that is not disabled. -/
def HasEnabledAdmin (users : Users) : Prop :=
  ∃ id r, users.lookup id = some r ∧ r.admin = true ∧ r.disabled = false

/-- `id` is an enabled administrator, and no other account is one. -/
def OnlyEnabledAdmin (users : Users) (id : String) : Prop :=
  (∃ r, users.lookup id = some r ∧ r.admin = true ∧ r.disabled = false) ∧
    ∀ id' r', id' ≠ id → users.lookup id' = some r' → r'.admin = true → r'.disabled = true

/-- Some account other than `id` is an administrator, disabled or not. -/
def OtherAdmin (users : Users) (id : String) : Prop :=
  ∃ id' r', id' ≠ id ∧ users.lookup id' = some r' ∧ r'.admin = true

/-- The call demotes, or deletes without force, the only enabled administrator, while disabled
administrators keep the census of all administrators above one. -/
def StrandsStore (users : Users) : Op → Prop
  | .set_admin id false | .delete id false =>
    OnlyEnabledAdmin users (trim id) ∧ OtherAdmin users (trim id)
  | _ => False

theorem hasEnabledAdmin_iff_census (users : Users) :
    HasEnabledAdmin users ↔ 0 < enabled_admins users := by
  unfold HasEnabledAdmin enabled_admins
  rw [Table.census_pos_iff]
  simp [Bool.and_eq_true]

instance (users : Users) : Decidable (HasEnabledAdmin users) :=
  decidable_of_iff _ (hasEnabledAdmin_iff_census users).symm

/-! ## One call -/

variable {users : Users} {op : Op} {id : String}

/-- An enabled administrator that the call does not name survives it. -/
theorem hasEnabledAdmin_of_other (policy : Policy)
    {r : UserRecord} (hne : id ≠ op.target) (hlook : users.lookup id = some r)
    (hadmin : r.admin = true) (henabled : r.disabled = false) :
    HasEnabledAdmin (exec policy users op) :=
  ⟨id, r, by rw [exec_lookup_ne policy users hne, hlook], hadmin, henabled⟩

/-- With a second administrator in the store, a call that does not strand the store finds a second
*enabled* one. -/
theorem other_enabled_of_not_strands {r : UserRecord}
    (hlook : users.lookup id = some r) (hadmin : r.admin = true) (henabled : r.disabled = false)
    (hcensus : 2 ≤ admins users) (hsafe : ¬ (OnlyEnabledAdmin users id ∧ OtherAdmin users id)) :
    ∃ id' r', id' ≠ id ∧ users.lookup id' = some r' ∧ r'.admin = true ∧ r'.disabled = false := by
  have hother : OtherAdmin users id := (Table.two_le_census_iff hlook hadmin).mp hcensus
  by_contra hnone
  apply hsafe
  refine ⟨⟨⟨r, hlook, hadmin, henabled⟩, ?_⟩, hother⟩
  intro id' r' hne hlook' hadmin'
  by_contra henabled'
  exact hnone ⟨id', r', hne, hlook', hadmin', by simpa using henabled'⟩

/-- A call that neither forces a deletion nor strands the store leaves an enabled administrator. -/
theorem exec_keeps_enabledAdmin (policy : Policy)
    (hforce : ∀ id, op ≠ .delete id true) (hsafe : ¬ StrandsStore users op)
    (h : HasEnabledAdmin users) : HasEnabledAdmin (exec policy users op) := by
  obtain ⟨id, r, hlook, hadmin, henabled⟩ := h
  by_cases hid : id = op.target
  · -- the call names the administrator we know: follow its row
    subst hid
    have hrow := exec_row policy users op
    rw [hlook] at hrow
    generalize hafter : (exec policy users op).lookup op.target = after at hrow
    cases hrow with
    | unchanged => exact ⟨_, r, hafter, hadmin, henabled⟩
    | edited _ ha hd | bumped _ ha hd => exact ⟨_, _, hafter, ha.trans hadmin, hd.trans henabled⟩
    | enabled => exact ⟨_, _, hafter, hadmin, rfl⟩
    | @role id admin _ hne hcensus =>
      -- an administrator whose flag changes is being demoted
      have hdemote : admin = false := by
        cases admin with
        | false => rfl
        | true => exact absurd hadmin hne
      subst hdemote
      obtain ⟨id', r', hne', hlook', hadmin', henabled'⟩ :=
        other_enabled_of_not_strands hlook hadmin henabled (hcensus rfl) hsafe
      exact hasEnabledAdmin_of_other policy hne' hlook' hadmin' henabled'
    | disabled _ hcensus =>
      have hboth : (r.admin && !r.disabled) = true := by simp [hadmin, henabled]
      obtain ⟨id', r', hne', hlook', hp⟩ :=
        (Table.two_le_census_iff hlook hboth).mp (hcensus hadmin)
      have hp' : r'.admin = true ∧ r'.disabled = false := by simpa using hp
      exact hasEnabledAdmin_of_other policy hne' hlook' hp'.1 hp'.2
    | @removed id force _ hcensus =>
      have hunforced : force = false := by
        cases force with
        | false => rfl
        | true => exact absurd rfl (hforce id)
      subst hunforced
      obtain ⟨id', r', hne', hlook', hadmin', henabled'⟩ :=
        other_enabled_of_not_strands hlook hadmin henabled (hcensus hadmin rfl) hsafe
      exact hasEnabledAdmin_of_other policy hne' hlook' hadmin' henabled'
  · exact hasEnabledAdmin_of_other policy hid hlook hadmin henabled

/-- The census of all administrators that a stranding call finds. -/
private theorem two_le_admins_of_strands
    (hbad : OnlyEnabledAdmin users id ∧ OtherAdmin users id) :
    ∃ r, users.lookup id = some r ∧ r.admin = true ∧ 2 ≤ admins users := by
  obtain ⟨⟨⟨r, hlook, hadmin, -⟩, -⟩, hother⟩ := hbad
  exact ⟨r, hlook, hadmin, (Table.two_le_census_iff hlook hadmin).mpr hother⟩

/-- If the only enabled administrator no longer is one after the call, the store has none left. -/
private theorem not_hasEnabledAdmin_of_only (policy : Policy) (op : Op)
    (honly : OnlyEnabledAdmin users op.target)
    (hlost : ∀ r, (exec policy users op).lookup op.target = some r → r.admin = false) :
    ¬ HasEnabledAdmin (exec policy users op) := by
  intro h
  obtain ⟨id, r, hlook, hadmin, henabled⟩ := h
  by_cases hid : id = op.target
  · subst hid
    rw [hlost r hlook] at hadmin
    exact absurd hadmin (by simp)
  · rw [exec_lookup_ne policy users hid] at hlook
    have hdisabled := honly.2 id r hid hlook hadmin
    rw [henabled] at hdisabled
    exact absurd hdisabled (by simp)

/-- A stranding call succeeds and leaves no enabled administrator. -/
theorem exec_strands (policy : Policy)
    (hbad : StrandsStore users op) : ¬ HasEnabledAdmin (exec policy users op) := by
  match op, hbad with
  | .set_admin id false, hbad =>
    obtain ⟨r, hlook, hadmin, hcensus⟩ := two_le_admins_of_strands hbad
    have hwrite : exec policy users (.set_admin id false) =
        users.insert (trim id) { r with admin := false, ver := r.ver + 1 } := by
      show (set_admin id false users).2 = _
      rw [set_admin_effective hlook (by simp [hadmin]) (fun _ => hcensus)]
    apply not_hasEnabledAdmin_of_only policy (.set_admin id false) hbad.1
    intro r' hr'
    rw [hwrite] at hr'
    have hsame := (AList.lookup_insert users).symm.trans hr'
    cases hsame
    rfl
  | .delete id false, hbad =>
    obtain ⟨r, hlook, hadmin, hcensus⟩ := two_le_admins_of_strands hbad
    have hgo : ¬ (admins users ≤ 1) := by omega
    have hwrite : exec policy users (.delete id false) = users.erase (trim id) := by
      simp [exec, delete, rmw, hlook, hgo]
    apply not_hasEnabledAdmin_of_only policy (.delete id false) hbad.1
    intro r' hr'
    rw [hwrite] at hr'
    exact absurd ((AList.lookup_erase (trim id) users).symm.trans hr') (by simp)

/-! ## Whole histories -/

/-- From a store with an enabled administrator, a history without forced deletions keeps one
throughout exactly when none of its calls demotes or deletes the only enabled administrator next
to a disabled one. -/
theorem enabledAdmin_throughout_iff (policy : Policy) (users : Users) (ops : List Op)
    (hforce : ∀ id, Op.delete id true ∉ ops) (h0 : HasEnabledAdmin users) :
    (∀ pre, pre <+: ops → HasEnabledAdmin (run (exec policy) users pre)) ↔
      ∀ pre op, pre ++ [op] <+: ops → ¬ StrandsStore (run (exec policy) users pre) op := by
  refine run_invariant_iff (C := fun t op => ¬ StrandsStore t op) h0 ?_
  intro pre op hpre ht
  have hop : op ∈ ops := hpre.subset (by simp)
  constructor
  · intro hafter hbad
    exact exec_strands policy hbad hafter
  · intro hsafe
    refine exec_keeps_enabledAdmin policy ?_ hsafe ht
    intro id hop'
    subst hop'
    exact hforce id hop

/-! ### A store with two administrators -/

def adminRow (disabled : Bool) : UserRecord :=
  { hash := none, admin := true, home := none, ver := 0, disabled, shares_enabled := true }

/-- Disabling one of two enabled administrators and promoting the other again keeps the store
administrable. -/
theorem enabledAdmin_throughout_two :
    HasEnabledAdmin (run (exec .plain)
      ((AList.insert "bob" (adminRow false) ∅).insert "ann" (adminRow false))
      [.set_disabled "bob" true, .set_admin " ann" true]) := by
  refine (enabledAdmin_throughout_iff .plain _ _ (by simp) (by decide +kernel)).mpr ?_ _
    (List.prefix_refl _)
  intro pre op hpre hbad
  have hop := hpre.subset (List.mem_append_right pre (List.mem_singleton.mpr rfl))
  simp only [List.mem_cons, List.not_mem_nil, or_false] at hop
  rcases hop with rfl | rfl
  · exact hbad
  · exact hbad

/-- `ann` is the only enabled administrator, `bob` a disabled one: demoting `ann` goes through and
nobody is left to administer the server. -/
theorem enabledAdmin_lost_by_demotion :
    let users : Users := (AList.insert "bob" (adminRow true) ∅).insert "ann" (adminRow false)
    HasEnabledAdmin users ∧
      ¬ HasEnabledAdmin (run (exec .plain) users [.set_admin "ann" false]) := by
  decide +kernel

end UserStore
