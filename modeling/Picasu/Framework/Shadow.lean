import Picasu.Framework.Table

/-! # Shadows of a Table

Two runs on one table differ, because one of them drops rows that the other keeps. A missing row
stands for a fresh one, so nobody need notice: it is enough that the rows of each key are *alike*,
where a missing row is replaced by the fresh one (`Shadows`).

What a dropped row may decide later is whether its counterpart is dropped too. For this the rows
are also compared by some order: each row is below its counterpart, and what is kept is kept
above. So the table with fewer rows remains the one with fewer rows.
-/

namespace Table

variable {K V : Type} [DecidableEq K]

/-- A row that is not there any more failed the test. -/
theorem dropped_of_retain_eq_none {p : K → V → Bool} {t : Table K V} {k : K} {v : V}
    (h : (t.retain p).lookup k = none) (hv : t.lookup k = some v) : p k v = false := by
  rw [lookup_retain_eq, hv] at h
  simpa [Option.filter] using h

theorem lookup_retain (p : K → V → Bool) (t : Table K V) (k : K) :
    (t.retain p).lookup k = t.lookup k ∨
      (t.retain p).lookup k = none ∧ ∃ v, t.lookup k = some v ∧ p k v = false := by
  rw [lookup_retain_eq]
  cases t.lookup k with
  | none => exact Or.inl rfl
  | some v => cases hp : p k v <;> simp [Option.filter, hp]

/-- The rows of the first table are alike to those of the second, a missing row being fresh, and
those it has are below their counterparts. -/
structure Shadows (fresh : V) (alike below : V → V → Prop) (t t' : Table K V) : Prop where
  alike : ∀ k, alike ((t.lookup k).getD fresh) ((t'.lookup k).getD fresh)
  below : ∀ k v, t.lookup k = some v → ∃ v', t'.lookup k = some v' ∧ below v v'

namespace Shadows

variable {fresh : V} {alike below : V → V → Prop} {t t' : Table K V}

/-- One key at a time. -/
theorem of_rows {alike' : V → V → Prop} {t₁ t₁' : Table K V}
    (h : ∀ k, alike' ((t₁.lookup k).getD fresh) ((t₁'.lookup k).getD fresh) ∧
      ∀ v, t₁.lookup k = some v → ∃ v', t₁'.lookup k = some v' ∧ below v v') :
    Shadows fresh alike' below t₁ t₁' :=
  ⟨fun k => (h k).1, fun k => (h k).2⟩

theorem refl (halike : ∀ v, alike v v) (hbelow : ∀ v, below v v) (t : Table K V) :
    Shadows fresh alike below t t :=
  ⟨fun _ => halike _, fun _ v hv => ⟨v, hv, hbelow v⟩⟩

variable (h : Shadows fresh alike below t t')

include h

theorem imp {alike' : V → V → Prop} (himp : ∀ v w, alike v w → alike' v w) :
    Shadows fresh alike' below t t' :=
  ⟨fun k => himp _ _ (h.alike k), h.below⟩

theorem below_getD (hfresh : ∀ v, below fresh v) (k : K) :
    below ((t.lookup k).getD fresh) ((t'.lookup k).getD fresh) := by
  cases hrow : t.lookup k with
  | none => exact hfresh _
  | some v =>
    obtain ⟨v', hv', hle⟩ := h.below k v hrow
    rw [hv']
    exact hle

/-- The table with fewer rows. -/
theorem length_le : t.entries.length ≤ t'.entries.length := by
  -- no row of the first is new, and keys are distinct
  have hsub : t.keys ⊆ t'.keys := by
    intro k hk
    obtain ⟨v, hv⟩ := Option.isSome_iff_exists.mp (AList.lookup_isSome.mpr hk)
    obtain ⟨v', hv', -⟩ := h.below k v hv
    exact AList.lookup_isSome.mp (Option.isSome_iff_exists.mpr ⟨v', hv'⟩)
  have hlength := (List.subperm_of_subset t.keys_nodup hsub).length_le
  simpa [AList.keys, List.keys] using hlength

theorem insert {v v' : V} (halike : alike v v') (hbelow : below v v') (k : K) :
    Shadows fresh alike below (AList.insert k v t) (AList.insert k v' t') := by
  refine .of_rows fun k' => ?_
  rw [lookup_insert, lookup_insert]
  split
  · refine ⟨halike, ?_⟩
    rintro w ⟨⟩
    exact ⟨v', rfl, hbelow⟩
  · exact ⟨h.alike k', h.below k'⟩

theorem erase (halike : alike fresh fresh) (k : K) :
    Shadows fresh alike below (t.erase k) (t'.erase k) := by
  refine .of_rows fun k' => ?_
  rw [lookup_erase, lookup_erase]
  split
  · exact ⟨halike, fun w hw => by cases hw⟩
  · exact ⟨h.alike k', h.below k'⟩

/-- Rewriting in place, where it does nothing to a fresh row. -/
theorem rewriteAt {f : V → V} (halike : ∀ v v', alike v v' → alike (f v) (f v'))
    (hfresh : ∀ v', alike fresh v' → alike fresh (f v'))
    (hbelow : ∀ v v', alike v v' → below v v' → below (f v) (f v')) (k : K) :
    Shadows fresh alike below (t.rewriteAt (fun v => some (f v)) k)
      (t'.rewriteAt (fun v => some (f v)) k) := by
  refine .of_rows fun k' => ?_
  have hrow := h.alike k'
  by_cases hk : k' = k
  · subst hk
    rw [lookup_rewriteAt_self, lookup_rewriteAt_self]
    cases hv : t.lookup k' with
    | none =>
      refine ⟨?_, fun w hw => by cases hw⟩
      rw [hv] at hrow
      cases hv' : t'.lookup k' with
      | none => rwa [hv'] at hrow
      | some v' =>
        -- the first table has dropped the row, which is like a fresh one
        rw [hv'] at hrow
        exact hfresh v' hrow
    | some v =>
      obtain ⟨v', hv', hle⟩ := h.below k' v hv
      rw [hv, hv'] at hrow
      rw [hv']
      refine ⟨halike v v' hrow, ?_⟩
      rintro w ⟨⟩
      exact ⟨f v', rfl, hbelow v v' hrow hle⟩
  · rw [lookup_rewriteAt_ne _ _ hk, lookup_rewriteAt_ne _ _ hk]
    exact ⟨hrow, h.below k'⟩

/-- A row that is like a fresh one can be dropped. -/
theorem retain_left {p : K → V → Bool}
    (hdrop : ∀ k v v', t.lookup k = some v → p k v = false → alike v v' → alike fresh v') :
    Shadows fresh alike below (t.retain p) t' := by
  refine ⟨fun k => ?_, fun k v hv => h.below k v (lookup_retain_eq_some.mp hv).1⟩
  have hrow := h.alike k
  rcases lookup_retain p t k with hsame | ⟨hnone, v, hv, hp⟩
  · rwa [hsame]
  · rw [hv] at hrow
    rw [hnone]
    exact hdrop k v _ hv hp hrow

/-- Such rows can be dropped from both, if what is kept of the first is kept of the second. -/
theorem retain {p : K → V → Bool}
    (hdrop : ∀ k v v', t.lookup k = some v → p k v = false → alike v v' → alike fresh v')
    (hdrop' : ∀ k v v', t'.lookup k = some v' → p k v' = false → alike v v' → alike v fresh)
    (hkeep : ∀ k v v', below v v' → p k v = true → p k v' = true) :
    Shadows fresh alike below (t.retain p) (t'.retain p) := by
  have hleft := h.retain_left hdrop
  refine ⟨fun k => ?_, fun k v hv => ?_⟩
  · have hrow := hleft.alike k
    -- what the second table drops is like a fresh row for the first
    rcases lookup_retain p t' k with hsame | ⟨hnone, v', hv', hp⟩
    · rwa [hsame]
    · rw [hv'] at hrow
      rw [hnone]
      exact hdrop' k _ v' hv' hp hrow
  · obtain ⟨v', hv', hle⟩ := hleft.below k v hv
    refine ⟨v', lookup_retain_eq_some.mpr ⟨hv', ?_⟩, hle⟩
    exact hkeep k v v' hle (lookup_retain_eq_some.mp hv).2

end Shadows

end Table
