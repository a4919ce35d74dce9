import Mathlib.Data.List.Lattice
import Mathlib.Data.Int.Order.Basic
import Picasu.Framework.Table

/-! # Selections From a Table

What is computed over the rows of a table should not depend on the order in which they are stored.
`pick` takes from each row what a function selects. Two tables whose keys select the same give the
same list up to order (`pick_perm`); a table that selects less somewhere, and nothing else
anywhere, gives a shorter one (`length_pick_lt`).

The least and the greatest of a list of numbers do not depend on its order either, and stand at
the ends of a sorted one.
-/

namespace Table

variable {K V V' X : Type}

def pick (f : V → Option X) (t : Table K V) : List X := t.values.filterMap f

/-- What `f` selects from the rows, with their keys. -/
def tagged (f : V → Option X) (t : Table K V) : List (K × X) :=
  t.entries.filterMap fun e => (f e.2).map (Prod.mk e.1)

theorem pick_eq_map_tagged (f : V → Option X) (t : Table K V) :
    t.pick f = (t.tagged f).map Prod.snd := by
  unfold pick tagged values
  rw [List.filterMap_map, List.map_filterMap]
  congr 1
  funext e
  show f e.2 = ((f e.2).map (Prod.mk e.1)).map Prod.snd
  cases f e.2 <;> rfl

theorem nodup_tagged (f : V → Option X) (t : Table K V) : (t.tagged f).Nodup := by
  have hkeys : ((t.tagged f).map Prod.fst).Sublist t.entries.keys := by
    unfold tagged
    generalize t.entries = l
    induction l with
    | nil => exact List.Sublist.slnil
    | cons e l ih =>
      rw [List.filterMap_cons]
      cases f e.2 with
      | none => exact ih.cons _
      | some x => exact ih.cons_cons _
  exact List.Nodup.of_map Prod.fst (List.Nodup.sublist hkeys t.nodupKeys)

variable [DecidableEq K] {f : V → Option X} {t : Table K V}

theorem mem_tagged {k : K} {x : X} :
    (k, x) ∈ t.tagged f ↔ (t.lookup k).bind f = some x := by
  unfold tagged
  rw [List.mem_filterMap, Option.bind_eq_some_iff]
  constructor
  · rintro ⟨⟨k', v⟩, hmem, hx⟩
    obtain ⟨y, hy, heq⟩ := Option.map_eq_some_iff.mp hx
    cases heq
    exact ⟨v, lookup_eq_some_iff.mpr hmem, hy⟩
  · rintro ⟨v, hlook, hx⟩
    refine ⟨⟨k, v⟩, lookup_eq_some_iff.mp hlook, ?_⟩
    show (f v).map _ = _
    rw [hx]
    rfl

/-- Tables whose keys select the same give the same selection. -/
theorem pick_perm {f' : V' → Option X} {t' : Table K V'}
    (h : ∀ k, (t'.lookup k).bind f' = (t.lookup k).bind f) : (t'.pick f').Perm (t.pick f) := by
  rw [pick_eq_map_tagged, pick_eq_map_tagged]
  apply List.Perm.map
  rw [List.perm_ext_iff_of_nodup (nodup_tagged f' t') (nodup_tagged f t)]
  rintro ⟨k, x⟩
  rw [mem_tagged, mem_tagged, h]

/-- A table that selects less at some key, and nothing else at any, gives a shorter selection. -/
theorem length_pick_lt {f' : V' → Option X} {t' : Table K V'}
    (h : ∀ k, (t'.lookup k).bind f' = (t.lookup k).bind f ∨ (t'.lookup k).bind f' = none)
    {k : K} (hbefore : (t.lookup k).bind f ≠ none) (hafter : (t'.lookup k).bind f' = none) :
    (t'.pick f').length < (t.pick f).length := by
  rw [pick_eq_map_tagged, pick_eq_map_tagged, List.length_map, List.length_map]
  have hsub : t'.tagged f' ⊆ t.tagged f := by
    rintro ⟨k, x⟩ hmem
    rw [mem_tagged] at hmem ⊢
    rcases h k with hsame | hnone
    · rw [← hsame, hmem]
    · rw [hnone] at hmem
      cases hmem
  have hsubperm := List.subperm_of_subset (nodup_tagged f' t') hsub
  obtain ⟨x, hx⟩ := Option.ne_none_iff_exists'.mp hbefore
  apply lt_of_not_ge
  intro hle
  -- then nothing would be missing
  have hmem := (hsubperm.perm_of_length_le hle).mem_iff.mpr (mem_tagged.mpr hx)
  rw [mem_tagged, hafter] at hmem
  cases hmem

end Table

namespace List

variable {l : List Int}

theorem Perm.max?_eq {l' : List Int} (h : l.Perm l') : l.max? = l'.max? := by
  ext a
  rw [List.max?_eq_some_iff, List.max?_eq_some_iff]
  simp only [h.mem_iff]

theorem Perm.min?_eq {l' : List Int} (h : l.Perm l') : l.min? = l'.min? := by
  ext a
  rw [List.min?_eq_some_iff, List.min?_eq_some_iff]
  simp only [h.mem_iff]

theorem head?_eq_max? (h : l.Pairwise fun a b => b ≤ a) : l.head? = l.max? := by
  cases l with
  | nil => rfl
  | cons a l =>
    symm
    rw [List.head?_cons, List.max?_eq_some_iff]
    refine ⟨List.mem_cons_self, ?_⟩
    intro b hb
    rcases List.mem_cons.mp hb with rfl | hb
    · exact le_refl b
    · exact (List.pairwise_cons.mp h).1 b hb

theorem getLast?_eq_min? (h : l.Pairwise fun a b => b ≤ a) :
    l.getLast? = l.min? := by
  cases hlast : l.getLast? with
  | none =>
    rw [List.getLast?_eq_none_iff.mp hlast]
    rfl
  | some a =>
    symm
    obtain ⟨front, rfl⟩ := List.getLast?_eq_some_iff.mp hlast
    rw [List.min?_eq_some_iff]
    refine ⟨by simp, ?_⟩
    intro b hb
    rcases List.mem_append.mp hb with hb | hb
    · exact (List.pairwise_append.mp h).2.2 b hb a (by simp)
    · rw [List.mem_singleton.mp hb]

end List
