import Picasu.Framework.Table

/-! # Tables With a Secondary Index

A table of rows by key, where every row knows its own key, and an index from a second kind of
value to keys. The index is written beside the rows and may lag behind them: an entry may point at
a key without a row.

`Within` is what one keeps of such a pair about a selected set of keys: the selected rows satisfy
a condition, and so do the index values that point at selected keys. The second part is what makes
the first one survive: an index entry decides which key the next write goes to.

The rules say what each write needs: an insertion at a selected key has to satisfy the conditions,
and erasing needs nothing.

`Inverse` says that rows and index agree: the index points at a key exactly when the row of the
key has the value. Its rules are the pairs of writes that keep it.
-/

namespace Table

variable {K P V : Type} [DecidableEq K] [DecidableEq P]

/-- Rows lie under their own keys, and the rows and index entries of the keys in `S` satisfy `R` and
`Q`. -/
structure Within (key : V → K) (S : K → Prop) (R : V → Prop) (Q : P → Prop)
    (rows : Table K V) (index : Table P K) : Prop where
  keyed : ∀ k v, rows.lookup k = some v → key v = k
  rows : ∀ k v, S k → rows.lookup k = some v → R v
  entries : ∀ p k, S k → index.lookup p = some k → Q p

namespace Within

variable {key : V → K} {S : K → Prop} {R : V → Prop} {Q : P → Prop}
variable {rows : Table K V} {index : Table P K}

section

variable (h : Within key S R Q rows index)

include h

theorem lookup_of_mem {v : V} (hv : v ∈ rows.values) : rows.lookup (key v) = some v := by
  obtain ⟨k, hlook⟩ := mem_values.mp hv
  rwa [h.keyed k v hlook]

theorem insert {v : V} (hv : S (key v) → R v) : Within key S R Q (rows.insert (key v) v) index := by
  refine ⟨?_, ?_, h.entries⟩
  · intro k w hlook
    rcases lookup_insert_eq_some.mp hlook with ⟨rfl, rfl⟩ | ⟨-, hold⟩
    · rfl
    · exact h.keyed k w hold
  · intro k w hk hlook
    rcases lookup_insert_eq_some.mp hlook with ⟨rfl, rfl⟩ | ⟨-, hold⟩
    · exact hv hk
    · exact h.rows k w hk hold

theorem point {p : P} {k : K} (hp : S k → Q p) : Within key S R Q rows (index.insert p k) := by
  refine ⟨h.keyed, h.rows, fun p' k' hk' hlook => ?_⟩
  rcases lookup_insert_eq_some.mp hlook with ⟨rfl, rfl⟩ | ⟨-, hold⟩
  · exact hp hk'
  · exact h.entries p' k' hk' hold

theorem erase (k : K) : Within key S R Q (rows.erase k) index :=
  ⟨fun k' w hlook => h.keyed k' w (lookup_erase_eq_some.mp hlook).2,
    fun k' w hk' hlook => h.rows k' w hk' (lookup_erase_eq_some.mp hlook).2, h.entries⟩

theorem forget (p : P) : Within key S R Q rows (index.erase p) :=
  ⟨h.keyed, h.rows, fun p' k hk hlook => h.entries p' k hk (lookup_erase_eq_some.mp hlook).2⟩

/-- Rewrite rows in place, keeping their keys and the condition on them. -/
theorem foldl_rewriteAt {f : V → Option V}
    (hf : ∀ v v', f v = some v' → key v' = key v ∧ (R v → R v')) (ks : List K) :
    Within key S R Q (ks.foldl (rewriteAt f) rows) index := by
  induction ks generalizing rows with
  | nil => exact h
  | cons k ks ih =>
    apply ih
    unfold rewriteAt
    split
    · rename_i v' hsome
      obtain ⟨v, hlook, hv⟩ := Option.bind_eq_some_iff.mp hsome
      obtain ⟨hkey, hR⟩ := hf v v' hv
      have hk : key v' = k := hkey.trans (h.keyed k v hlook)
      have hins := h.insert (v := v') fun hS => hR (h.rows k v (hk ▸ hS) hlook)
      rwa [hk] at hins
    · exact h

end

end Within

/-! ## Agreement -/

/-- The index points at a key exactly when there is a row under the key that has the value. -/
def Inverse (value : V → P) (rows : Table K V) (index : Table P K) : Prop :=
  ∀ p k, index.lookup p = some k ↔ ∃ v, rows.lookup k = some v ∧ value v = p

namespace Inverse

variable {value : V → P} {rows : Table K V} {index : Table P K}

theorem empty : Inverse value (∅ : Table K V) (∅ : Table P K) := by
  intro p k
  simp

variable {k : K}

section

variable (h : Inverse value rows index)

include h

theorem unique {k' : K} {v v' : V} (hv : rows.lookup k = some v) (hv' : rows.lookup k' = some v')
    (hsame : value v = value v') : k = k' := by
  have hk := (h (value v) k).mpr ⟨v, hv, rfl⟩
  have hk' := (h (value v) k').mpr ⟨v', hv', hsame.symm⟩
  exact Option.mem_unique hk hk'

/-- Write a row under the key its value has, or under a new key if it has none. -/
theorem put {v : V} (hk : index.lookup (value v) = some k ∨
      index.lookup (value v) = none ∧ rows.lookup k = none) :
    Inverse value (rows.insert k v) (index.insert (value v) k) := by
  intro p k'
  rw [lookup_insert_eq_some]
  constructor
  · rintro (⟨rfl, rfl⟩ | ⟨hp, hlook⟩)
    · exact ⟨v, AList.lookup_insert _, rfl⟩
    · obtain ⟨w, hw, rfl⟩ := (h p k').mp hlook
      -- another value is not under the key
      have hne : k' ≠ k := by
        rintro rfl
        rcases hk with hk | ⟨-, hnone⟩
        · obtain ⟨w', hw', hvalue⟩ := (h (value v) k').mp hk
          obtain rfl : w = w' := Option.mem_unique hw hw'
          exact hp hvalue
        · cases hnone.symm.trans hw
      exact ⟨w, (AList.lookup_insert_ne hne).trans hw, rfl⟩
  · rintro ⟨w, hw, rfl⟩
    rcases lookup_insert_eq_some.mp hw with ⟨rfl, rfl⟩ | ⟨hne, hw⟩
    · exact Or.inl ⟨rfl, rfl⟩
    refine Or.inr ⟨fun hsame => ?_, (h (value w) k').mpr ⟨w, hw, rfl⟩⟩
    have hlook := (h (value v) k').mpr ⟨w, hw, hsame⟩
    rcases hk with hk | ⟨hnone, -⟩
    · exact hne (Option.mem_unique hlook hk)
    · cases hnone.symm.trans hlook

/-- Rewrite a row to a value that no other row has, and re-point the index. -/
theorem move {v v' : V} (hv : rows.lookup k = some v)
    (hfree : ∀ k' w, k' ≠ k → rows.lookup k' = some w → value w ≠ value v') :
    Inverse value (rows.insert k v') ((index.erase (value v)).insert (value v') k) := by
  intro p k'
  rw [lookup_insert_eq_some, lookup_erase_eq_some]
  constructor
  · rintro (⟨rfl, rfl⟩ | ⟨-, hp, hlook⟩)
    · exact ⟨v', AList.lookup_insert _, rfl⟩
    · obtain ⟨w, hw, rfl⟩ := (h p k').mp hlook
      -- the row of the key had the value that is erased
      have hne : k' ≠ k := by
        rintro rfl
        exact hp (congrArg value (Option.mem_unique hw hv))
      exact ⟨w, (AList.lookup_insert_ne hne).trans hw, rfl⟩
  · rintro ⟨w, hw, rfl⟩
    rcases lookup_insert_eq_some.mp hw with ⟨rfl, rfl⟩ | ⟨hne, hw⟩
    · exact Or.inl ⟨rfl, rfl⟩
    · exact Or.inr ⟨hfree k' w hne hw, fun hsame => hne (h.unique hw hv hsame),
        (h (value w) k').mpr ⟨w, hw, rfl⟩⟩

theorem drop {p : P} (hp : index.lookup p = some k) :
    Inverse value (rows.erase k) (index.erase p) := by
  obtain ⟨v, hv, rfl⟩ := (h p k).mp hp
  intro p' k'
  rw [lookup_erase_eq_some]
  constructor
  · rintro ⟨hne, hlook⟩
    obtain ⟨w, hw, rfl⟩ := (h p' k').mp hlook
    refine ⟨w, lookup_erase_eq_some.mpr ⟨?_, hw⟩, rfl⟩
    rintro rfl
    exact hne (congrArg value (Option.mem_unique hw hv))
  · rintro ⟨w, hw, rfl⟩
    obtain ⟨hne, hw⟩ := lookup_erase_eq_some.mp hw
    exact ⟨fun hsame => hne (h.unique hw hv hsame), (h (value w) k').mpr ⟨w, hw, rfl⟩⟩

end

end Inverse

end Table
