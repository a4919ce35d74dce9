import Picasu.Framework.Table

/-! # Two-Level Stores

A store with a memory level in front of a disk level: writes go to memory, reads prefer memory,
and a background task moves entries to disk one at a time. Moving an entry changes no read
(`get_flush`), so to a reader the store is a single table (`get_put_self`, `get_put_ne`).
-/

/-- A memory level and a disk level. -/
structure Tiered (K V : Type) where
  memory : Table K V
  disk : Table K V

namespace Tiered

variable {K V : Type} [DecidableEq K]

/-- Read from memory, else from disk. -/
def get (t : Tiered K V) (k : K) : Option V := (t.memory.lookup k).or (t.disk.lookup k)

/-- Write to memory. -/
def put (t : Tiered K V) (k : K) (v : V) : Tiered K V :=
  { t with memory := t.memory.insert k v }

/-- Move the entry of `k` to disk, if memory holds it. -/
def flush (t : Tiered K V) (k : K) : Tiered K V :=
  match t.memory.lookup k with
  | some v => { memory := t.memory.erase k, disk := t.disk.insert k v }
  | none => t

@[simp] theorem get_put_self (t : Tiered K V) (k : K) (v : V) : (t.put k v).get k = some v := by
  simp [get, put]

theorem get_put_ne (t : Tiered K V) {k k' : K} (v : V) (hne : k' ≠ k) :
    (t.put k v).get k' = t.get k' := by
  simp [get, put, AList.lookup_insert_ne hne]

@[simp] theorem get_flush (t : Tiered K V) (k k' : K) : (t.flush k).get k' = t.get k' := by
  unfold flush
  cases hrow : t.memory.lookup k with
  | none => rfl
  | some v =>
    simp only [get, Table.lookup_erase, Table.lookup_insert]
    split
    · rename_i hk
      rw [hk, hrow]
      rfl
    · rfl

end Tiered
