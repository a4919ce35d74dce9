import Mathlib.Data.List.Basic

/-! # Normal Forms and Deletion

A normal form of lists is computed, and afterwards some elements are deleted. The elements to be
deleted are inert: a list is normalized on both sides of one separately. So what is left is the
normal forms of the pieces between them (`filter_norm`), one after the other, and it need not be
normal: the pieces have never seen each other.

It is normal exactly if normalizing the list without these elements gives the same
(`norm_filter_norm_eq_iff`).
-/

/-- Normal forms, and the elements to keep. -/
structure Normalizer {α : Type} (keep : α → Bool) (norm : List α → List α) : Prop where
  nil : norm [] = []
  append : ∀ xs ys, norm (norm xs ++ norm ys) = norm (xs ++ ys)
  inert : ∀ xs x ys, keep x = false → norm (xs ++ x :: ys) = norm xs ++ x :: norm ys
  /-- No element to be deleted comes up. -/
  mem_of_mem : ∀ xs x, keep x = false → x ∈ norm xs → x ∈ xs

namespace Normalizer

variable {α : Type} {keep : α → Bool} {norm : List α → List α}

/-- The pieces between the elements to be deleted. -/
def pieces (keep : α → Bool) (xs : List α) : List (List α) := xs.splitOnP fun x => !keep x

/-- A list is one piece, or starts with a piece and an element to be deleted. -/
theorem all_kept_or_split (keep : α → Bool) (xs : List α) :
    (∀ x ∈ xs, keep x = true) ∨
      ∃ piece x rest, xs = piece ++ x :: rest ∧ (∀ y ∈ piece, keep y = true) ∧ keep x = false := by
  induction xs with
  | nil => exact .inl (by simp)
  | cons x xs ih =>
    cases hx : keep x with
    | false => exact .inr ⟨[], x, xs, rfl, by simp, hx⟩
    | true =>
      obtain hall | ⟨piece, y, rest, rfl, hpiece, hy⟩ := ih
      · exact .inl (List.forall_mem_cons.mpr ⟨hx, hall⟩)
      · exact .inr ⟨x :: piece, y, rest, rfl, List.forall_mem_cons.mpr ⟨hx, hpiece⟩, hy⟩

theorem pieces_induction {P : List α → List (List α) → Prop} (keep : α → Bool)
    (hone : ∀ xs, (∀ x ∈ xs, keep x = true) → P xs [xs])
    (hsplit : ∀ piece x rest, (∀ y ∈ piece, keep y = true) → keep x = false →
      P rest (pieces keep rest) → P (piece ++ x :: rest) (piece :: pieces keep rest))
    (xs : List α) : P xs (pieces keep xs) := by
  -- the rest after a piece is shorter
  induction hn : xs.length using Nat.strongRecOn generalizing xs with
  | _ n ih =>
    obtain hall | ⟨piece, x, rest, rfl, hpiece, hx⟩ := all_kept_or_split keep xs
    · have hpieces : pieces keep xs = [xs] := by
        apply List.splitOnP_eq_singleton
        simpa using hall
      rw [hpieces]
      exact hone xs hall
    · have hpieces : pieces keep (piece ++ x :: rest) = piece :: pieces keep rest := by
        apply List.splitOnP_append_cons_of_forall_mem
        · simpa using hpiece
        · simpa using hx
      have hlength : rest.length < n := by
        rw [← hn, List.length_append, List.length_cons]
        omega
      rw [hpieces]
      exact hsplit piece x rest hpiece hx (ih rest.length hlength rest rfl)

theorem flatten_pieces (keep : α → Bool) (xs : List α) :
    (pieces keep xs).flatten = xs.filter keep := by
  apply pieces_induction (P := fun xs parts => parts.flatten = xs.filter keep) keep
  · intro xs hall
    rw [List.flatten_singleton, List.filter_eq_self.mpr hall]
  · intro piece x rest hpiece hx ih
    rw [List.flatten_cons, ih, List.filter_append, List.filter_eq_self.mpr hpiece,
      List.filter_cons_of_neg (by simp [hx])]

section Laws

variable (h : Normalizer keep norm)
include h

variable (xs : List α)

theorem norm_norm : norm (norm xs) = norm xs := by
  have happend := h.append xs []
  rw [h.nil, List.append_nil, List.append_nil] at happend
  exact happend

theorem kept_norm {xs : List α} (hall : ∀ x ∈ xs, keep x = true) :
    (norm xs).filter keep = norm xs := by
  apply List.filter_eq_self.mpr
  intro x hx
  cases hkeep : keep x with
  | true => rfl
  | false =>
    have hmem := hall x (h.mem_of_mem xs x hkeep hx)
    rw [hkeep] at hmem
    exact hmem

/-- What is left is the normal forms of the pieces. -/
theorem filter_norm : (norm xs).filter keep = (pieces keep xs).flatMap norm := by
  apply pieces_induction (P := fun xs parts => (norm xs).filter keep = parts.flatMap norm) keep
  · intro xs hall
    rw [h.kept_norm hall]
    simp
  · intro piece x rest hpiece hx ih
    rw [h.inert piece x rest hx, List.filter_append, h.kept_norm hpiece,
      List.filter_cons_of_neg (by simp [hx]), ih, List.flatMap_cons]

/-- Normalizing the parts before the whole changes nothing. -/
theorem norm_flatMap_norm (parts : List (List α)) :
    norm (parts.flatMap norm) = norm parts.flatten := by
  induction parts with
  | nil => rfl
  | cons part parts ih =>
    rw [List.flatMap_cons, List.flatten_cons, ← h.append, h.norm_norm, ih, h.append]

/-- What is left is normal exactly if the pieces are normalized together as they are separately. -/
theorem norm_filter_norm_eq_iff :
    norm ((norm xs).filter keep) = (norm xs).filter keep ↔
      norm (xs.filter keep) = (pieces keep xs).flatMap norm := by
  rw [h.filter_norm, h.norm_flatMap_norm, flatten_pieces]

/-- A second run deletes nothing. -/
theorem filter_norm_filter_norm :
    (norm ((norm xs).filter keep)).filter keep = norm ((norm xs).filter keep) := by
  apply h.kept_norm
  intro x hx
  exact (List.mem_filter.mp hx).2

end Laws

end Normalizer
