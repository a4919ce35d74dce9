import Mathlib.Data.List.Basic

/-! # Counting in a List

How many elements of a list pass a test, when the elements change one at a time: the states of the
threads of a system, the phases of its requests. A count changes by the element that changes
(`countP_set`), and a count that has caught up with another says that all elements have
(`imp_of_countP_le`).
-/

namespace Counting

variable {α : Type} {p q : α → Bool} {l : List α} {n : Nat} {x : α}

/-- When one element changes, a count changes by that element. -/
theorem countP_set (h : l[n]? = some x) (x' : α) :
    (l.set n x').countP p + (if p x then 1 else 0) = l.countP p + if p x' then 1 else 0 := by
  obtain ⟨hlt, hget⟩ := List.getElem?_eq_some_iff.mp h
  rw [List.countP_set hlt, hget]
  by_cases hp : p x = true
  · -- the difference does not go below zero
    have hpos : 0 < l.countP p := List.countP_pos_iff.mpr ⟨x, List.mem_of_getElem? h, hp⟩
    rw [if_pos hp]
    omega
  · rw [if_neg hp]
    omega

theorem countP_set_of_eq {x' : α} (h : l[n]? = some x) (hsame : p x' = p x) :
    (l.set n x').countP p = l.countP p := by
  have hset := countP_set (p := p) h x'
  rw [hsame] at hset
  omega

/-- Of two tests, one implies the other. If the counts are the same, so are the tests. -/
theorem imp_of_countP_le (himp : ∀ x, q x = true → p x = true) (hle : l.countP p ≤ l.countP q) :
    ∀ x ∈ l, p x = true → q x = true := by
  have hsub : (l.filter q).Sublist (l.filter p) := List.monotone_filter_right l himp
  rw [List.countP_eq_length_filter, List.countP_eq_length_filter] at hle
  intro x hx hp
  have hmem : x ∈ l.filter q := by
    rw [hsub.eq_of_length_le hle]
    exact List.mem_filter.mpr ⟨hx, hp⟩
  exact (List.mem_filter.mp hmem).2

theorem mem_set_of_ne {y : α} (h : l[n]? = some x) (hy : y ∈ l) (hne : y ≠ x) (x' : α) :
    y ∈ l.set n x' := by
  obtain ⟨m, hm⟩ := List.mem_iff_getElem?.mp hy
  have hmn : n ≠ m := by
    rintro rfl
    rw [h] at hm
    exact hne (Option.some.inj hm).symm
  refine List.mem_iff_getElem?.mpr ⟨m, ?_⟩
  rw [List.getElem?_set_ne hmn, hm]

theorem mem_set_self (h : l[n]? = some x) (x' : α) : x' ∈ l.set n x' :=
  List.mem_set (List.getElem?_eq_some_iff.mp h).1 x'

end Counting
