import Mathlib.Algebra.BigOperators.Ring.Finset
import Picasu.Frontend.RowCache

/-! # Row Offsets of the Virtual Scroll

Until a row is laid out it counts as `fixedBigRowHeight` high. The answer of the worker brings the
difference to its real height, by which all later rows move. `fetchRowReturn` records it by the
index of the row, gives the row the sum of those before it, shifts the later rows that are there,
and keeps the total height apart.

A stored row has its offset on record, so that the rows fit together after all answers, in
whatever order they arrive (`rows_aligned`).
-/

namespace Gallery

open LTS

/-! ## The stores -/

/-- The payload of a `fetchRowReturn` message. -/
structure RowReturn where
  timestamp : Nat
  rowWithOffset : RowWithOffset
  subRowHeightScale : ℚ

/-- What other parts of the page set as well. -/
structure View where
  windowWidth : ℚ
  timestamp : Option Nat
  subRowHeightScale : ℚ
  anchor : Option Nat
  pendingLocateTarget : Option Nat
  highlightedIndex : Option Nat
  scrollTop : ℚ
  updateFetchRowTrigger : Bool
  updateVisibleRowTrigger : Bool
  firstRowFetched : Bool

structure RowStores where
  view : View
  dataLength : Nat
  totalHeight : ℚ
  totalHeightOriginal : ℚ
  offset : Table Nat ℚ
  accumulatedAll : ℚ
  rowData : Table Nat Row

/-- What happens between two resets of the stores. -/
inductive PageEvent where
  | fetchRowReturn (payload : RowReturn)
  /-- Another part of the page sets what is its own. -/
  | setView (view : View)

/-- `accumulatedOffset` of the offset store. -/
def accumulatedOffset (offset : Table Nat ℚ) (currentRowIndex : Nat) : ℚ :=
  (offset.entries.map fun e => if e.1 < currentRowIndex then e.2 else 0).sum

/-- The second step of the jump to an item. -/
def View.locate (view : View) (row : Row) : View :=
  match view.pendingLocateTarget with
  | none => view
  | some pendingTarget =>
    if row.start ≤ pendingTarget ∧ pendingTarget ≤ row.end_ then
      let scrollTop := match row.displayElements[pendingTarget - row.start]? with
        | some displayElement =>
          row.topPixelAccumulated + row.offset + displayElement.displayTopPixelAccumulated
        | none => view.scrollTop
      { view with
        scrollTop, pendingLocateTarget := none, highlightedIndex := some pendingTarget }
    else view

namespace RowStores

/-- The three stores are reset together, as for a new window width. -/
def clearForResize (s : RowStores) : RowStores :=
  let totalHeight := ⌈(s.dataLength : ℚ) / 20⌉ * fixedBigRowHeight
  { s with
    totalHeight, totalHeightOriginal := totalHeight, offset := ∅, accumulatedAll := 0, rowData := ∅ }

/-- The offset of a row is recorded: the row as it is stored, and the stores. -/
def record (s : RowStores) (row : Row) (offset : ℚ) : Row × RowStores :=
  let index := row.rowIndex
  let offsets := s.offset.insert index offset
  let row := { row with offset := accumulatedOffset offsets index }
  let shifted := s.rowData.rewriteEach fun other =>
    if index < other.rowIndex then some { other with offset := other.offset + offset } else none
  (row, { s with
    offset := offsets
    rowData := shifted.insert index row
    totalHeight := s.totalHeight + offset
    accumulatedAll := s.accumulatedAll + offset })

def fetchRowReturn (s : RowStores) (payload : RowReturn) : RowStores :=
  let { row, offset, windowWidth } := payload.rowWithOffset
  -- the window has changed meanwhile
  if windowWidth ≠ s.view.windowWidth then s
  -- the view is locked to another row
  else if s.view.anchor ≠ none ∧ s.view.anchor ≠ some row.rowIndex then s
  else
    let timestampMatched := some payload.timestamp = s.view.timestamp
    let offsetNotComputed := row.rowIndex ∉ s.offset
    let subRowHeightScaleMatched := payload.subRowHeightScale = s.view.subRowHeightScale
    let (row, s) :=
      if timestampMatched ∧ offsetNotComputed ∧ subRowHeightScaleMatched then s.record row offset
      else (row, s)
    { s with view := { s.view.locate row with
      updateFetchRowTrigger := !s.view.updateFetchRowTrigger
      updateVisibleRowTrigger := !s.view.updateVisibleRowTrigger
      firstRowFetched := true } }

def next (s : RowStores) : PageEvent → RowStores
  | .fetchRowReturn payload => s.fetchRowReturn payload
  | .setView view => { s with view }

end RowStores

/-! ## Recorded offsets -/

/-- The recorded offsets of all rows with a smaller index. -/
def recordedBelow (offset : Table Nat ℚ) (index : Nat) : ℚ :=
  ∑ i ∈ Finset.range index, (offset.lookup i).getD 0

section Recorded

variable {offset : Table Nat ℚ} {k : Nat}

theorem sum_values_insert (h : k ∉ offset) (v : ℚ) :
    (Table.values (offset.insert k v)).sum = v + offset.values.sum := by
  rw [Table.values, AList.entries_insert_of_notMem h, List.map_cons, List.sum_cons]
  rfl

theorem recordedBelow_insert (h : k ∉ offset) (v : ℚ) (index : Nat) :
    recordedBelow (offset.insert k v) index =
      recordedBelow offset index + if k < index then v else 0 := by
  have hterm : ∀ i, ((offset.insert k v).lookup i).getD 0 =
      (offset.lookup i).getD 0 + if i = k then v else 0 := by
    intro i
    rw [Table.lookup_insert]
    split
    · rename_i hi
      rw [hi, AList.lookup_eq_none.mpr h]
      exact (zero_add v).symm
    · exact (add_zero _).symm
  simp only [recordedBelow, hterm, Finset.sum_add_distrib, Finset.sum_ite_eq', Finset.mem_range]

theorem accumulatedOffset_eq (offset : Table Nat ℚ) (index : Nat) :
    accumulatedOffset offset index = recordedBelow offset index := by
  induction offset using AList.insertRec with
  | H0 => simp [accumulatedOffset, recordedBelow]
  | IH k v offset hk ih =>
    rw [recordedBelow_insert hk, ← ih, accumulatedOffset, AList.entries_insert_of_notMem hk,
      List.map_cons, List.sum_cons, add_comm]
    rfl

end Recorded

/-! ## The rows fit together -/

/-- The payload is as `fetchRow` makes it. -/
def RowReturn.Laid (payload : RowReturn) : Prop :=
  let { row, offset, .. } := payload.rowWithOffset
  offset = row.rowHeight - fixedBigRowHeight ∧
    row.topPixelAccumulated = row.rowIndex * fixedBigRowHeight

/-- Rows and total height are where the recorded offsets put them. -/
structure RowStores.Aligned (s : RowStores) : Prop where
  offset : ∀ k row, s.rowData.lookup k = some row →
    row.offset = recordedBelow s.offset row.rowIndex
  total : s.totalHeight = s.totalHeightOriginal + s.offset.values.sum
  adjacent : ∀ k k' row row', s.rowData.lookup k = some row → s.rowData.lookup k' = some row' →
    row'.rowIndex = row.rowIndex + 1 →
      row.topPixelAccumulated + row.offset + row.rowHeight = row'.topPixelAccumulated + row'.offset

/-- A stored row has its height on record. -/
structure Placed (offset : Table Nat ℚ) (k : Nat) (row : Row) : Prop where
  rowIndex : row.rowIndex = k
  top : row.topPixelAccumulated = k * fixedBigRowHeight
  height : offset.lookup k = some (row.rowHeight - fixedBigRowHeight)
  offset : row.offset = recordedBelow offset k

/-- A row ends where the next one starts. -/
theorem Placed.bottom {offset : Table Nat ℚ} {k : Nat} {row : Row} (h : Placed offset k row) :
    row.topPixelAccumulated + row.offset + row.rowHeight =
      (k + 1 : Nat) * fixedBigRowHeight + recordedBelow offset (k + 1) := by
  rw [recordedBelow, Finset.sum_range_succ, ← recordedBelow, h.height, h.offset, h.top]
  push_cast
  simp only [Option.getD_some]
  ring

/-- A row stays placed when another one is recorded: if it is behind that one it moves. -/
theorem Placed.shift {offset : Table Nat ℚ} {k index : Nat} {other : Row}
    (h : Placed offset k other) (hnew : index ∉ offset) (hne : k ≠ index) {v : ℚ} :
    Placed (offset.insert index v) k
      ((if index < other.rowIndex then some { other with offset := other.offset + v }
        else none).getD other) := by
  obtain ⟨rfl, htop, hheight, hbefore⟩ := h
  have hrecorded := recordedBelow_insert hnew v other.rowIndex
  have hkept : (offset.insert index v).lookup other.rowIndex = _ :=
    (AList.lookup_insert_ne hne).trans hheight
  by_cases hlater : index < other.rowIndex
  · rw [if_pos hlater, ← hbefore] at hrecorded
    rw [if_pos hlater]
    exact ⟨rfl, htop, hkept, hrecorded.symm⟩
  · rw [if_neg hlater, add_zero] at hrecorded
    rw [if_neg hlater]
    exact ⟨rfl, htop, hkept, hbefore.trans hrecorded.symm⟩

namespace RowStores

variable {s : RowStores}

/-- Every stored row is placed, and the total height is up to date. -/
def Inv (s : RowStores) : Prop :=
  (∀ k row, s.rowData.lookup k = some row → Placed s.offset k row) ∧
    s.totalHeight = s.totalHeightOriginal + s.offset.values.sum

theorem Inv.aligned (h : s.Inv) : s.Aligned where
  offset k row hrow := by
    obtain ⟨rfl, -, -, hoffset⟩ := h.1 k row hrow
    exact hoffset
  total := h.2
  adjacent k k' row row' hrow hrow' hnext := by
    have hplaced := h.1 k row hrow
    have hplaced' := h.1 k' row' hrow'
    have hk : k' = k + 1 := by
      rw [← hplaced.rowIndex, ← hplaced'.rowIndex, hnext]
    rw [hplaced.bottom, hplaced'.top, hplaced'.offset, hk]

theorem Inv.record (h : s.Inv) {row : Row} {offset : ℚ} (hnew : row.rowIndex ∉ s.offset)
    (hoffset : offset = row.rowHeight - fixedBigRowHeight)
    (htop : row.topPixelAccumulated = row.rowIndex * fixedBigRowHeight) :
    (s.record row offset).2.Inv := by
  obtain ⟨hrows, htotal⟩ := h
  constructor
  · intro k found hfound
    rcases Table.lookup_insert_eq_some.mp hfound with ⟨rfl, rfl⟩ | ⟨hne, hshifted⟩
    · exact ⟨rfl, htop, hoffset ▸ AList.lookup_insert s.offset, accumulatedOffset_eq _ _⟩
    · rw [Table.lookup_rewriteEach] at hshifted
      obtain ⟨other, hother, rfl⟩ := Option.map_eq_some_iff.mp hshifted
      exact (hrows k other hother).shift hnew hne
  · show _ = s.totalHeightOriginal + (Table.values (s.offset.insert row.rowIndex offset)).sum
    rw [sum_values_insert hnew, add_left_comm, ← htotal, add_comm]
    rfl

theorem Inv.next (h : s.Inv) {event : PageEvent}
    (hlaid : ∀ payload, event = .fetchRowReturn payload → payload.Laid) : (s.next event).Inv := by
  cases event with
  | setView view => exact h
  | fetchRowReturn payload =>
    obtain ⟨hoffset, htop⟩ := hlaid payload rfl
    simp only [RowStores.next, fetchRowReturn]
    split
    · exact h
    · split
      · exact h
      · split
        next hnew => exact h.record hnew.2.1 hoffset htop
        · exact h

/-- After a reset, whatever messages arrive and whatever else is set, the rows are aligned. -/
theorem rows_aligned (s : RowStores) {events : List PageEvent}
    (hlaid : ∀ payload, .fetchRowReturn payload ∈ events → payload.Laid) :
    (run RowStores.next s.clearForResize events).Aligned := by
  refine Inv.aligned (run_induction (Q := fun _ s => Inv s) ?_ ?_)
  · refine ⟨fun k row hrow => ?_, ?_⟩
    · cases hrow
    · simp [clearForResize, Table.values]
  · intro pre event hpre h
    refine h.next ?_
    rintro payload rfl
    exact hlaid payload (hpre.subset (by simp))

def rowOfHeight (index : Nat) (rowHeight : ℚ) : PageEvent :=
  .fetchRowReturn ⟨0, ⟨⟨20 * index, 20 * index + 20, rowHeight, [], index * fixedBigRowHeight,
    index, 0⟩, rowHeight - fixedBigRowHeight, 1000⟩, 250⟩

/-- Two rows, of which the second one comes first and the first one twice. -/
def twoRows : RowStores :=
  run RowStores.next
    (clearForResize ⟨⟨1000, some 0, 250, none, none, none, 0, false, false, false⟩, 40, 0, 0, ∅, 0, ∅⟩)
    [rowOfHeight 1 2000, rowOfHeight 0 2500, rowOfHeight 0 2500]

theorem rows_aligned_two_rows :
    twoRows.totalHeight = 4500 ∧ (twoRows.rowData.lookup 1).map Row.offset = some 100 ∧
      twoRows.Aligned := by
  refine ⟨by decide +kernel, by decide +kernel, rows_aligned _ ?_⟩
  simp [rowOfHeight, RowReturn.Laid]

end RowStores

end Gallery
