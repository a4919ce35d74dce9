import Mathlib.Data.List.MinMax
import Picasu.Framework.Table

/-! # Bounded Tables

Keeping a table within a size: while it is too large, the row that was used longest ago goes,
unless it is protected. Ties fall to the order in which the table is iterated, which a hash map
does not promise, so it is an argument.

What matters to a user of the table: a protected row stays (`lookup_evict`), a table within its
size is left alone (`evict_of_le`), and so no row goes while one key alone comes and goes
(`RoomFor.evict_insert`). No more rows without protection remain than the table may hold
(`census_evict_le`).
-/

namespace Table

variable {K V : Type} [DecidableEq K]

/-- The row to go next: among the unprotected ones, the one used longest ago. -/
def oldest (used : V → Nat) (free : V → Bool) (order : List K) (t : Table K V) : Option K :=
  (order.filter fun k => (t.lookup k).any free).argmin fun k => ((t.lookup k).map used).getD 0

/-- Evict rows until the table is within `cap` or every row is protected. A turn removes one row, so
there are at most `fuel` turns for a table of that size. -/
def evictLoop (used : V → Nat) (free : V → Bool) (cap : Nat) (order : List K) :
    Nat → Table K V → Table K V
  | 0, t => t
  | fuel + 1, t =>
    if cap < t.entries.length then
      match oldest used free order t with
      | some k => evictLoop used free cap order fuel (t.erase k)
      | none => t
    else t

/-- Evict rows until the table is within `cap` or every row is protected. -/
def evict (used : V → Nat) (free : V → Bool) (cap : Nat) (order : List K) (t : Table K V) :
    Table K V :=
  evictLoop used free cap order t.entries.length t

variable {used : V → Nat} {free : V → Bool} {cap : Nat} {order : List K} {t : Table K V}

theorem free_of_oldest {k : K} (h : oldest used free order t = some k) :
    ∃ v, t.lookup k = some v ∧ free v = true := by
  have hmem : k ∈ order.filter fun k => (t.lookup k).any free := List.argmin_mem h
  exact (Option.any_eq_true _ _).mp (List.mem_filter.mp hmem).2

theorem evict_of_le (h : t.entries.length ≤ cap) : evict used free cap order t = t := by
  unfold evict
  cases t.entries.length with
  | zero => rfl
  | succ n =>
    unfold evictLoop
    rw [if_neg (by omega)]

/-- A row that is evicted was not protected; every other row stays. -/
theorem lookup_evictLoop (fuel : Nat) (k : K) :
    (evictLoop used free cap order fuel t).lookup k = t.lookup k ∨
      (evictLoop used free cap order fuel t).lookup k = none ∧
        ∃ v, t.lookup k = some v ∧ free v = true := by
  induction fuel generalizing t with
  | zero => exact Or.inl rfl
  | succ fuel ih =>
    unfold evictLoop
    split
    · split
      · rename_i k₀ hold
        obtain ⟨v, hv, hfree⟩ := free_of_oldest hold
        by_cases hk : k = k₀
        · -- the row that goes in this turn
          subst hk
          have hnone : (t.erase k).lookup k = none := AList.lookup_erase k t
          rcases ih (t := t.erase k) with h | ⟨-, w, hw, -⟩
          · exact Or.inr ⟨h.trans hnone, v, hv, hfree⟩
          · rw [hnone] at hw
            cases hw
        · have hsame : (t.erase k₀).lookup k = t.lookup k := AList.lookup_erase_ne hk
          rcases ih (t := t.erase k₀) with h | ⟨h, w, hw, hwfree⟩
          · exact Or.inl (h.trans hsame)
          · exact Or.inr ⟨h, w, hsame ▸ hw, hwfree⟩
      · exact Or.inl rfl
    · exact Or.inl rfl

theorem lookup_evict (used : V → Nat) (free : V → Bool) (cap : Nat) (order : List K)
    (t : Table K V) (k : K) :
    (evict used free cap order t).lookup k = t.lookup k ∨
      (evict used free cap order t).lookup k = none ∧ ∃ v, t.lookup k = some v ∧ free v = true :=
  lookup_evictLoop _ k

theorem Every.evict {P : V → Prop} (h : t.Every P) (used : V → Nat) (free : V → Bool) (cap : Nat)
    (order : List K) : Every P (t.evict used free cap order) := by
  intro k v hv
  rcases lookup_evict used free cap order t k with hsame | ⟨hnone, -⟩
  · exact h k v (hsame ▸ hv)
  · rw [hnone] at hv
    cases hv

/-- If the iteration visits every row, there is one to go as long as one is not protected. -/
theorem census_of_oldest_eq_none (horder : ∀ k ∈ t, k ∈ order)
    (h : oldest used free order t = none) : census free t = 0 := by
  have hnil : order.filter (fun k => (t.lookup k).any free) = [] := List.argmin_eq_none.mp h
  by_contra hpos
  obtain ⟨k, v, hv, hfree⟩ := census_pos_iff.mp (Nat.pos_of_ne_zero hpos)
  have hmem : k ∈ order := horder k (AList.lookup_isSome.mp (by rw [hv]; rfl))
  refine (List.filter_eq_nil_iff.mp hnil) k hmem ?_
  rw [hv]
  exact hfree

theorem census_evictLoop_le {fuel : Nat} (horder : ∀ k ∈ t, k ∈ order)
    (hfuel : t.entries.length ≤ fuel) :
    census free (evictLoop used free cap order fuel t) ≤ cap := by
  induction fuel generalizing t with
  | zero =>
    have hle := census_le_length free t
    unfold evictLoop
    omega
  | succ fuel ih =>
    unfold evictLoop
    split
    · split
      · rename_i k hold
        obtain ⟨v, hv, -⟩ := free_of_oldest hold
        have hlength := length_erase hv
        refine ih (fun k' hk' => horder k' (AList.mem_erase.mp hk').2) ?_
        omega
      · rename_i hold
        rw [census_of_oldest_eq_none horder hold]
        exact Nat.zero_le cap
    · have hle := census_le_length free t
      omega

/-- What remains is protected, but for so many rows. -/
theorem census_evict_le (horder : ∀ k ∈ t, k ∈ order) :
    census free (evict used free cap order t) ≤ cap :=
  census_evictLoop_le horder (Nat.le_refl _)

/-! ## Room for a key -/

/-- The rows of other keys leave room for one of `k`. -/
def RoomFor (cap : Nat) (t : Table K V) (k : K) : Prop := (t.erase k).entries.length < cap

theorem roomFor_of_lt (k : K) (h : t.entries.length < cap) : RoomFor cap t k :=
  Nat.lt_of_le_of_lt (List.Sublist.length_le (List.kerase_sublist k t.entries)) h

/-- Only the rows of other keys matter. -/
theorem roomFor_insert_iff (k : K) (v : V) : RoomFor cap (t.insert k v) k ↔ RoomFor cap t k := by
  unfold RoomFor
  rw [erase_insert]

theorem RoomFor.rewriteAt {k : K} (h : RoomFor cap t k) (f : V → Option V) :
    RoomFor cap (t.rewriteAt f k) k := by
  unfold Table.rewriteAt
  split
  · exact (roomFor_insert_iff k _).mpr h
  · exact h

/-- With room for `k`, inserting `k` evicts nothing. -/
theorem RoomFor.evict_insert {k : K} (h : RoomFor cap t k) (v : V) :
    evict used free cap order (t.insert k v) = t.insert k v := by
  apply evict_of_le
  rw [AList.entries_insert]
  exact h

end Table
