import Mathlib.Data.List.AList

/-! # Keyed Tables

A finite table from keys to rows, as a hash map or a key-value store table holds it: at most one
row per key, iteration in some order. Tables are Mathlib's association lists, whose
no-duplicate-keys invariant is a field of the structure; lookup, insertion and erasure are
Mathlib's.

This module adds what iteration needs:

* `values` and `census`, the rows of a table and how many of them satisfy a test, with the rule
  that compares a census against one (is this row the only one of its kind?);
* `retain`, which drops the rows that fail a test, and its lookup rule;
* `rewriteEach`, a loop over the keys that rewrites some rows in place, and the rule that it acts
  on every row at once;
* `Every`, a property of all rows, and the operations that keep it.
-/

/-- A finite table from keys `K` to rows `V`. -/
abbrev Table (K V : Type) := AList (fun _ : K => V)

namespace Table

variable {K V : Type} [DecidableEq K]

/-! ## Rows and the census -/

/-- The rows of a table, in iteration order. -/
def values (t : Table K V) : List V := t.entries.map (fun e => e.2)

/-- How many rows satisfy `p`. -/
def census (p : V → Bool) (t : Table K V) : Nat := (t.values.filter p).length

variable {t : Table K V} {k : K} {v : V} {p : V → Bool}

theorem lookup_eq_some_iff :
    t.lookup k = some v ↔ (⟨k, v⟩ : Sigma fun _ : K => V) ∈ t.entries := by
  rw [← Option.mem_def]
  exact AList.mem_lookup_iff

theorem mem_values : v ∈ t.values ↔ ∃ k, t.lookup k = some v := by
  simp only [values, List.mem_map, lookup_eq_some_iff]
  constructor
  · rintro ⟨⟨k, w⟩, hmem, rfl⟩
    exact ⟨k, hmem⟩
  · rintro ⟨k, hmem⟩
    exact ⟨⟨k, v⟩, hmem, rfl⟩

/-- Rows that know their keys are all different. -/
theorem nodup_map_values {key : V → K}
    (h : ∀ k v, t.lookup k = some v → key v = k) : (t.values.map key).Nodup := by
  have hkeys : t.values.map key = t.entries.keys := by
    rw [values, List.map_map]
    apply List.map_congr_left
    intro e he
    exact h e.1 e.2 (lookup_eq_some_iff.mpr he)
  rw [hkeys]
  exact t.nodupKeys

theorem lookup_insert (t : Table K V) (k : K) (v : V) (j : K) :
    (AList.insert k v t).lookup j = if j = k then some v else t.lookup j := by
  split
  · rename_i hj
    rw [hj, AList.lookup_insert]
  · rename_i hj
    rw [AList.lookup_insert_ne hj]

theorem lookup_erase (t : Table K V) (k j : K) :
    (t.erase k).lookup j = if j = k then none else t.lookup j := by
  split
  · rename_i hj
    rw [hj, AList.lookup_erase]
  · rename_i hj
    rw [AList.lookup_erase_ne hj]

theorem lookup_insert_eq_some {k' : K} {w : V} :
    (AList.insert k v t).lookup k' = some w ↔
      k' = k ∧ w = v ∨ k' ≠ k ∧ t.lookup k' = some w := by
  rw [lookup_insert]
  split
  · simp [*, eq_comm]
  · simp [*]

theorem lookup_erase_eq_some {k' : K} :
    (t.erase k).lookup k' = some v ↔ k' ≠ k ∧ t.lookup k' = some v := by
  rw [lookup_erase]
  split <;> simp [*]

theorem census_pos_iff :
    0 < census p t ↔ ∃ k v, t.lookup k = some v ∧ p v = true := by
  simp only [census, List.length_pos_iff_exists_mem, List.mem_filter, mem_values]
  constructor
  · rintro ⟨v, ⟨k, hk⟩, hp⟩
    exact ⟨k, v, hk, hp⟩
  · rintro ⟨k, v, hk, hp⟩
    exact ⟨v, ⟨k, hk⟩, hp⟩

/-- Erasing a row takes it, and nothing else, out of the census. -/
theorem census_erase (h : t.lookup k = some v) :
    census p t = census p (t.erase k) + if p v then 1 else 0 := by
  have hkey : k ∈ t.entries.keys := List.mem_keys.mpr ⟨v, lookup_eq_some_iff.mp h⟩
  obtain ⟨w, l₁, l₂, -, hsplit, herase⟩ := List.exists_of_kerase hkey
  have hw : w = v := by
    have hmem : t.lookup k = some w := lookup_eq_some_iff.mpr (by rw [hsplit]; simp)
    rw [h] at hmem
    exact (Option.some.inj hmem).symm
  subst hw
  have hrest : (t.erase k).entries = l₁ ++ l₂ := herase
  simp only [census, values, hsplit, hrest, List.map_append, List.map_cons, List.filter_append,
    List.filter_cons, List.length_append]
  split
  · simp
    omega
  · simp

theorem erase_insert (t : Table K V) (k : K) (v : V) :
    (AList.insert k v t).erase k = t.erase k := by
  apply AList.ext
  show List.kerase k (⟨k, v⟩ :: List.kerase k t.entries) = List.kerase k t.entries
  exact List.kerase_cons_eq rfl

theorem erase_of_not_mem (h : k ∉ t) : t.erase k = t := by
  apply AList.ext
  exact List.kerase_of_notMem_keys h

theorem census_insert (p : V → Bool) (t : Table K V) (k : K) (v : V) :
    census p (AList.insert k v t) = census p (t.erase k) + if p v then 1 else 0 := by
  rw [census_erase (AList.lookup_insert t), erase_insert]

theorem length_erase (h : t.lookup k = some v) :
    t.entries.length = (t.erase k).entries.length + 1 := by
  simpa [census, values] using census_erase (p := fun _ => true) h

omit [DecidableEq K] in
theorem census_le_length (p : V → Bool) (t : Table K V) : census p t ≤ t.entries.length := by
  have hle := List.length_filter_le p t.values
  rwa [values, List.length_map] at hle

/-- Given one row that passes the test, the census is at least two exactly when another key holds a
row that passes it. -/
theorem two_le_census_iff (h : t.lookup k = some v) (hp : p v = true) :
    2 ≤ census p t ↔ ∃ k' v', k' ≠ k ∧ t.lookup k' = some v' ∧ p v' = true := by
  have hcount : census p t = census p (t.erase k) + 1 := by rw [census_erase h, if_pos hp]
  have hpos : 2 ≤ census p t ↔ 0 < census p (t.erase k) := by omega
  rw [hpos, census_pos_iff]
  constructor
  · rintro ⟨k', v', hlook, hp'⟩
    have hne : k' ≠ k := by
      rintro rfl
      simp [AList.lookup_erase] at hlook
    exact ⟨k', v', hne, by rwa [AList.lookup_erase_ne hne] at hlook, hp'⟩
  · rintro ⟨k', v', hne, hlook, hp'⟩
    exact ⟨k', v', by rwa [AList.lookup_erase_ne hne], hp'⟩

/-! ## Dropping rows -/

/-- Keep the rows that satisfy `p`, drop the others. -/
def retain (p : K → V → Bool) (t : Table K V) : Table K V :=
  ⟨t.entries.filter (fun e => p e.1 e.2), t.nodupKeys.sublist List.filter_sublist⟩

theorem lookup_retain_eq_some {p : K → V → Bool} :
    (t.retain p).lookup k = some v ↔ t.lookup k = some v ∧ p k v = true := by
  simp [lookup_eq_some_iff, retain, List.mem_filter]

theorem lookup_retain_eq (p : K → V → Bool) (t : Table K V) (k : K) :
    (t.retain p).lookup k = (t.lookup k).filter (p k) := by
  ext v
  rw [Option.filter_eq_some_iff]
  exact lookup_retain_eq_some

/-! ## Rewriting rows in place -/

variable (f : V → Option V)

/-- One turn of the loop: rewrite the row of `k` if there is one and `f` wants it changed. -/
def rewriteAt (t : Table K V) (k : K) : Table K V :=
  match (t.lookup k).bind f with
  | some v => t.insert k v
  | none => t

/-- Visit every key in turn and rewrite its row. -/
def rewriteEach (t : Table K V) : Table K V :=
  t.keys.foldl (rewriteAt f) t

theorem lookup_rewriteAt_self (t : Table K V) (k : K) :
    (rewriteAt f t k).lookup k = (t.lookup k).map fun v => (f v).getD v := by
  unfold rewriteAt
  cases hrow : t.lookup k with
  | none => simp [hrow]
  | some v =>
    cases hf : f v with
    | none => simp [hrow, hf]
    | some w => simp [hf]

theorem lookup_rewriteAt_ne (t : Table K V) {k' : K} (hne : k' ≠ k) :
    (rewriteAt f t k).lookup k' = t.lookup k' := by
  unfold rewriteAt
  split
  · exact AList.lookup_insert_ne hne
  · rfl

/-- Visiting distinct keys rewrites each visited row once, from its first value. -/
theorem lookup_foldl_rewriteAt (ks : List K) (hks : ks.Nodup) (t : Table K V) (k : K) :
    (ks.foldl (rewriteAt f) t).lookup k =
      if k ∈ ks then (t.lookup k).map fun v => (f v).getD v else t.lookup k := by
  induction ks generalizing t with
  | nil => rfl
  | cons k₀ ks ih =>
    have hnot : k₀ ∉ ks := (List.nodup_cons.mp hks).1
    rw [List.foldl_cons, ih (List.nodup_cons.mp hks).2]
    by_cases hk : k = k₀
    · subst hk
      simp [hnot, lookup_rewriteAt_self]
    · simp [hk, lookup_rewriteAt_ne f t hk]

/-- What no rewriting changes in a row, no loop of rewritings does. -/
theorem map_lookup_foldl_rewriteAt {W : Type} {f : V → Option V} {g : V → W}
    (hf : ∀ v w, f v = some w → g w = g v) (ks : List K) (t : Table K V) (k : K) :
    ((ks.foldl (rewriteAt f) t).lookup k).map g = (t.lookup k).map g := by
  induction ks generalizing t with
  | nil => rfl
  | cons k₀ ks ih =>
    rw [List.foldl_cons, ih]
    by_cases hk : k = k₀
    · subst hk
      rw [lookup_rewriteAt_self, Option.map_map]
      congr 1
      funext v
      cases hv : f v with
      | none => simp [hv]
      | some w => simp [hv, hf v w hv]
    · rw [lookup_rewriteAt_ne f t hk]

/-- The loop rewrites every row of the table. -/
theorem lookup_rewriteEach (t : Table K V) (k : K) :
    (rewriteEach f t).lookup k = (t.lookup k).map fun v => (f v).getD v := by
  unfold rewriteEach
  rw [lookup_foldl_rewriteAt f t.keys t.keys_nodup t k]
  split
  · rfl
  · rename_i hk
    have hnone : t.lookup k = none := AList.lookup_eq_none.mpr hk
    simp [hnone]

/-! ## Properties of every row -/

def Every (P : V → Prop) (t : Table K V) : Prop := ∀ k v, t.lookup k = some v → P v

section Every

variable {P Q : V → Prop} {t : Table K V}

theorem every_empty (P : V → Prop) : Every P (∅ : Table K V) := by
  intro k v h
  cases h

variable (h : t.Every P)

include h

theorem Every.imp (hPQ : ∀ v, P v → Q v) : t.Every Q :=
  fun k v hv => hPQ v (h k v hv)

theorem Every.getD {fresh : V} (hfresh : P fresh) (k : K) : P ((t.lookup k).getD fresh) := by
  cases hrow : t.lookup k with
  | none => exact hfresh
  | some v => exact h k v hrow

theorem Every.insert {v : V} (hv : P v) (k : K) : Every P (AList.insert k v t) := by
  intro k' w hw
  rcases lookup_insert_eq_some.mp hw with ⟨-, rfl⟩ | ⟨-, hw⟩
  · exact hv
  · exact h k' w hw

theorem Every.erase (k : K) : Every P (t.erase k) :=
  fun k' w hw => h k' w (lookup_erase_eq_some.mp hw).2

theorem Every.retain (p : K → V → Bool) : Every P (t.retain p) :=
  fun k' w hw => h k' w (lookup_retain_eq_some.mp hw).1

theorem Every.rewriteAt {f : V → V} (hf : ∀ v, P v → P (f v)) (k : K) :
    Every P (t.rewriteAt (fun v => some (f v)) k) := by
  unfold Table.rewriteAt
  split
  · rename_i v hv
    obtain ⟨w, hw, hfw⟩ := Option.bind_eq_some_iff.mp hv
    cases hfw
    exact h.insert (hf w (h k w hw)) k
  · exact h

end Every

end Table
