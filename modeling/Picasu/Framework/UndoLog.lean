import Mathlib.Data.Set.Defs
import Mathlib.Logic.Function.Basic

/-! # Undo Logs

A sequence of writes to cells that may have to be taken back: before each write, an entry with the
old value of its cell is put on a log, and undoing means to restore the logged values, the last
one first. With cells written more than once, only that order gives the first state back.

How a value is restored is a parameter, `restore`; it may disturb cells that nobody counts, such
as scratch files. `S` is the set of cells that count.
-/

namespace UndoLog

variable {E K V : Type} [DecidableEq K]

/-- Restore the logged values, last first. -/
def undo (restore : E → (K → V) → K → V) (log : List E) (s : K → V) : K → V :=
  log.foldr restore s

/-- On the cells that count, restoring an entry puts the old value back into its cell and leaves the
other cells alone. -/
def Restores (S : Set K) (cell : E → K) (old : E → V) (restore : E → (K → V) → K → V) : Prop :=
  ∀ e s, ∀ j ∈ S, restore e s j = if j = cell e then old e else s j

variable {S : Set K} {cell : E → K} {old : E → V} {restore : E → (K → V) → K → V} {s s' : K → V}

theorem undo_congr (hrestore : Restores S cell old restore) (log : List E)
    (hagree : ∀ j ∈ S, s j = s' j) : ∀ j ∈ S, undo restore log s j = undo restore log s' j := by
  induction log with
  | nil => exact hagree
  | cons e log ih =>
    intro j hj
    show restore e (undo restore log s) j = restore e (undo restore log s') j
    rw [hrestore e _ j hj, hrestore e _ j hj, ih j hj]

/-- A write to one cell, logged before it happens, is taken back by undoing it first. -/
theorem undo_logged (hrestore : Restores S cell old restore) (log : List E) {e : E}
    (hold : old e = s (cell e)) (hother : ∀ j ∈ S, j ≠ cell e → s' j = s j) :
    ∀ j ∈ S, undo restore (log ++ [e]) s' j = undo restore log s j := by
  have hlast : undo restore (log ++ [e]) s' = undo restore log (restore e s') := by
    unfold undo
    rw [List.foldr_append]
    rfl
  rw [hlast]
  apply undo_congr hrestore
  intro j hj
  rw [hrestore _ _ j hj]
  by_cases hcell : j = cell e
  · rw [if_pos hcell, hcell, hold]
  · rw [if_neg hcell]
    exact hother j hj hcell

end UndoLog
