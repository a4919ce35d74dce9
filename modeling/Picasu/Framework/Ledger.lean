import Mathlib.Data.List.Count
import Mathlib.Data.List.Perm.Basic
import Picasu.Framework.Eviction

/-! # Counting Holders

A ledger keeps, per key, a number that is meant to bound how many parties currently hold that key.
Whatever the numbers are stored in, and whatever else happens to the storage, one question
remains: does every key count for at least as many as hold it?

`Covers` says so. The rules follow the life of a holder: `acquire` and `release` for the counted
steps, and `drop_iff` for a step that forgets numbers altogether, which is harmless exactly for
the keys nobody holds.

`tally` reads the numbers out of the rows of a table, where a missing row counts for zero, and its
rules say what table operations do to them.
-/

namespace Ledger

variable {K : Type} [DecidableEq K] {count count' : K → Nat} {holders holders' : List K} {k : K}

/-- Every key counts for at least as many as hold it. -/
def Covers (count : K → Nat) (holders : List K) : Prop := ∀ k, holders.count k ≤ count k

section

variable (h : Covers count holders)

include h

theorem Covers.perm (hperm : holders.Perm holders') : Covers count holders' := by
  intro j
  rw [← hperm.count_eq j]
  exact h j

theorem Covers.mono (hle : ∀ j, count j ≤ count' j) : Covers count' holders :=
  fun j => Nat.le_trans (h j) (hle j)

/-- One more holder of `k`, and `k` counts for it too. -/
theorem Covers.acquire (hk : holders.count k < count' k)
    (hne : ∀ j, j ≠ k → count j ≤ count' j) : Covers count' (k :: holders) := by
  intro j
  have hj := h j
  by_cases hjk : j = k
  · subst hjk
    rw [List.count_cons_self]
    exact hk
  · rw [List.count_cons_of_ne (Ne.symm hjk)]
    exact Nat.le_trans hj (hne j hjk)

/-- A counter of limited width takes another holder exactly if it is not full. -/
theorem Covers.acquire_capped_iff {c : Nat}
    (hcount : ∀ j, count' j = if j = k then min (count k + 1) c else count j) :
    Covers count' (k :: holders) ↔ holders.count k < c := by
  have hk := h k
  constructor
  · intro hnew
    have hcovered := hnew k
    rw [hcount, if_pos rfl, List.count_cons_self] at hcovered
    omega
  · intro hroom
    refine h.acquire ?_ fun j hj => ?_
    · rw [hcount, if_pos rfl]
      omega
    · rw [hcount, if_neg hj]

end

/-- One holder of `k` fewer, and `k` counts for at most one less. -/
theorem Covers.release (h : Covers count (k :: holders)) (hk : count k ≤ count' k + 1)
    (hne : ∀ j, j ≠ k → count j ≤ count' j) : Covers count' holders := by
  intro j
  have hj := h j
  by_cases hjk : j = k
  · subst hjk
    rw [List.count_cons_self] at hj
    omega
  · rw [List.count_cons_of_ne (Ne.symm hjk)] at hj
    exact Nat.le_trans hj (hne j hjk)

theorem Covers.release_one (h : Covers count (k :: holders))
    (hcount : ∀ j, count' j = if j = k then count k - 1 else count j) : Covers count' holders := by
  refine h.release ?_ fun j hj => ?_
  · rw [hcount, if_pos rfl]
    omega
  · rw [hcount, if_neg hj]

/-- Forgetting the numbers of some keys is harmless exactly when nobody holds them. -/
theorem Covers.drop_iff (h : Covers count holders) (drop : K → Prop) [DecidablePred drop]
    (hcount : ∀ j ∈ holders, count' j = if drop j then 0 else count j) :
    Covers count' holders ↔ ∀ j ∈ holders, ¬ drop j := by
  constructor
  · intro hcovers j hj hdrop
    have hpos : 0 < holders.count j := List.count_pos_iff.mpr hj
    have hle := hcovers j
    rw [hcount j hj, if_pos hdrop] at hle
    omega
  · intro hkept j
    by_cases hj : j ∈ holders
    · rw [hcount j hj, if_neg (hkept j hj)]
      exact h j
    · rw [List.count_eq_zero_of_not_mem hj]
      exact Nat.zero_le _

/-! ## Numbers kept in the rows of a table -/

variable {V : Type} (number : V → Nat) {t : Table K V}

/-- The number in the row of `k`; a missing row counts for zero. -/
def tally (t : Table K V) (k : K) : Nat := ((t.lookup k).map number).getD 0

theorem tally_insert (t : Table K V) (k : K) (v : V) (j : K) :
    tally number (t.insert k v) j = if j = k then number v else tally number t j := by
  rw [tally, Table.lookup_insert]
  split <;> rfl

theorem tally_insert_same {v : V} (h : number v = tally number t k) (j : K) :
    tally number (t.insert k v) j = tally number t j := by
  rw [tally_insert]
  split
  · rename_i hjk
    rw [hjk, h]
  · rfl

/-- A row that is created on demand. -/
theorem number_getD {fresh : V} (h : number fresh = 0) (t : Table K V) (k : K) :
    number ((t.lookup k).getD fresh) = tally number t k := by
  unfold tally
  cases t.lookup k with
  | none => exact h
  | some v => rfl

theorem tally_erase (t : Table K V) (k j : K) :
    tally number (t.erase k) j = if j = k then 0 else tally number t j := by
  rw [tally, Table.lookup_erase]
  split <;> rfl

theorem tally_rewriteAt {f : V → V} {g : Nat → Nat} (hf : ∀ v, number (f v) = g (number v))
    (hg : g 0 = 0) (t : Table K V) (k j : K) :
    tally number (t.rewriteAt (fun v => some (f v)) k) j =
      if j = k then g (tally number t k) else tally number t j := by
  unfold tally
  split
  · rename_i hjk
    subst hjk
    rw [Table.lookup_rewriteAt_self]
    cases t.lookup j with
    | none => exact hg.symm
    | some v => exact hf v
  · rename_i hjk
    rw [Table.lookup_rewriteAt_ne _ _ hjk]

theorem tally_retain (p : K → V → Bool) (t : Table K V) (j : K) :
    tally number (t.retain p) j =
      if (t.lookup j).any (fun v => !p j v) then 0 else tally number t j := by
  rw [tally, tally, Table.lookup_retain_eq]
  cases t.lookup j with
  | none => rfl
  | some v =>
    cases hp : p j v with
    | true | false => simp [Option.filter, hp]

theorem tally_evict {used : V → Nat} {free : V → Bool} {cap : Nat} {order : List K}
    (hfree : ∀ v, free v = true → number v = 0) (t : Table K V) (j : K) :
    tally number (t.evict used free cap order) j = tally number t j := by
  unfold tally
  rcases Table.lookup_evict used free cap order t j with h | ⟨h, v, hv, hfreev⟩
  · rw [h]
  · rw [h, hv]
    exact (hfree v hfreev).symm

end Ledger
