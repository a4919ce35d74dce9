import Mathlib.Data.List.Induction
import Mathlib.Data.List.Sort
import Picasu.Framework.Table

/-! # Lists Kept in Tables

A list is written into a table row by row, each under its index. Such a table has as many rows as
the list (`Stores.length_entries`), and read in the order of its keys it is the list again
(`Stores.inOrder`). Writing a list into a table that already has it changes nothing
(`stores_fill`).
-/

namespace Table

variable {V : Type}

/-- The rows of the table are the elements of the list, by index. -/
def Stores (t : Table Nat V) (rows : List V) : Prop := ∀ i, t.lookup i = rows[i]?

def fill (rows : List V) (t : Table Nat V) : Table Nat V :=
  rows.zipIdx.foldl (fun t e => t.insert e.2 e.1) t

/-- The values in the order of their keys. -/
def inOrder (t : Table Nat V) : List V :=
  (t.entries.mergeSort fun e e' => decide (e.1 ≤ e'.1)).map fun e => e.2

theorem lookup_fill (rows : List V) (t : Table Nat V) (i : Nat) :
    (fill rows t).lookup i = (rows[i]?).or (t.lookup i) := by
  induction rows using List.reverseRecOn with
  | nil => rfl
  | append_singleton rows v ih =>
    have hfill : fill (rows ++ [v]) t = (fill rows t).insert rows.length v := by
      simp [fill, List.zipIdx_append]
    rw [hfill]
    rw [lookup_insert, ih, List.getElem?_append]
    split
    · rename_i hi
      simp [hi]
    · rename_i hi
      split
      · rfl
      · rw [List.getElem?_eq_none (by omega), List.getElem?_eq_none (by simp; omega)]

variable {rows : List V} {t : Table Nat V}

/-- Filling an empty table, or one that has the list. -/
theorem stores_fill (h : t = ∅ ∨ t.Stores rows) :
    (fill rows t).Stores rows := by
  intro i
  rw [lookup_fill]
  rcases h with rfl | hstores
  · rw [AList.lookup_empty, Option.or_none]
  · rw [hstores i, Option.or_self]

theorem Stores.keys_perm (h : t.Stores rows) :
    t.keys.Perm (List.range rows.length) := by
  refine (List.perm_ext_iff_of_nodup t.keys_nodup List.nodup_range).mpr fun i => ?_
  rw [← AList.mem_keys, ← AList.lookup_isSome, h i, List.mem_range]
  simp

theorem Stores.length_entries (h : t.Stores rows) :
    t.entries.length = rows.length := by
  have hlength := h.keys_perm.length_eq
  rw [List.length_range] at hlength
  rw [← hlength, AList.keys, List.keys, List.length_map]

theorem Stores.inOrder_eq (h : t.Stores rows) :
    t.inOrder = rows := by
  unfold inOrder
  generalize hsorted : t.entries.mergeSort (fun e e' => decide (e.1 ≤ e'.1)) = sorted
  have hperm : sorted.Perm t.entries := hsorted ▸ List.mergeSort_perm _ _
  have hle : sorted.Pairwise fun e e' => e.1 ≤ e'.1 := by
    rw [← hsorted]
    refine (List.pairwise_mergeSort ?_ ?_ t.entries).imp fun hle => of_decide_eq_true hle
    · intro a b c hab hbc
      simp only [decide_eq_true_eq] at hab hbc ⊢
      omega
    · intro a b
      simp only [Bool.or_eq_true, decide_eq_true_eq]
      omega
  -- the keys in order are the indices
  have hkeys : sorted.map (fun e => e.1) = List.range rows.length :=
    ((hperm.map _).trans h.keys_perm).eq_of_pairwise'
      (List.pairwise_map.mpr hle) (List.pairwise_lt_range.imp Nat.le_of_lt)
  have hlength : sorted.length = rows.length := by
    rw [← List.length_map (f := fun e : Sigma fun _ : Nat => V => e.1), hkeys, List.length_range]
  refine List.ext_getElem (by rw [List.length_map, hlength]) fun i hi hi' => ?_
  have hlt : i < sorted.length := hlength ▸ hi'
  have hkey : (sorted[i]).1 = i := by
    have hget : (sorted.map fun e => e.1)[i]? = (List.range rows.length)[i]? := by rw [hkeys]
    rw [List.getElem?_map, List.getElem?_eq_getElem hlt, List.getElem?_range hi'] at hget
    exact Option.some.inj hget
  have hmem : sorted[i] ∈ t.entries := hperm.subset (List.getElem_mem hlt)
  have hlook : t.lookup (sorted[i]).1 = some (sorted[i]).2 := lookup_eq_some_iff.mpr hmem
  rw [hkey, h i, List.getElem?_eq_getElem hi'] at hlook
  rw [List.getElem_map]
  exact (Option.some.inj hlook).symm

end Table
