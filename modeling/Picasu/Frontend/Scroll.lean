import Picasu.Frontend.RowCache

/-! # The Virtual Scroll Position

The page keeps its own scroll position. Three handlers change it: `throttledHandleScroll` takes
over what the browser has scrolled the container by, `onWheel` stops at the limits before the
browser scrolls, and `scrollTopOffsetFix` follows the visible rows when a row arrives that moves
them.

The position should stay between the top and the upper bound, which leaves four pixels. The first
handler sets it to the upper bound also if that is negative, and the last one has no limit at the
top. These are the steps that leave the range (`scroll_in_range_iff`).
-/

namespace Gallery

open LTS

def getScrollUpperBound (totalHeight windowHeight : ℚ) : ℚ := totalHeight - windowHeight - 4

structure Scroller where
  scrollTop : ℚ
  totalHeight : ℚ
  windowHeight : ℚ
  /-- The position that the container was last put to. -/
  lastScrollTop : ℚ
  mobile : Bool
  stopScroll : Bool
  locateTo : Option Nat
  lastVisibleRow : Table Nat Row

inductive ScrollEvent where
  /-- The browser has scrolled the container, if it is there. -/
  | scroll (container : Option ℚ)
  | wheel (deltaY : ℚ) (deltaMode : Nat)
  /-- A row has arrived. These are now the total height and the visible rows. -/
  | rowArrival (totalHeight : ℚ) (visibleRows : List Row)
  | resize (windowHeight : ℚ)
  | locate (locateTo : Option Nat)
  /-- The time for which a mobile device stops is over. -/
  | timeout

namespace Scroller

def upperBound (s : Scroller) : ℚ := getScrollUpperBound s.totalHeight s.windowHeight

def stopAt (s : Scroller) (limit : ℚ) : Scroller :=
  { s with scrollTop := limit, stopScroll := s.mobile || s.stopScroll }

def throttledHandleScroll (s : Scroller) (container : ℚ) : Scroller :=
  let difference := container - s.lastScrollTop
  let result := s.scrollTop + difference
  let moved :=
    if s.totalHeight - s.windowHeight < 0 then s.stopAt 0
    else if result < 0 then s.stopAt 0
    else if s.upperBound ≤ result then s.stopAt s.upperBound
    else { s with scrollTop := result }
  { moved with lastScrollTop := container - difference }

/-- The movement in pixels: lines and pages are other units. -/
def estimatedDelta (s : Scroller) (deltaY : ℚ) (deltaMode : Nat) : ℚ :=
  if deltaMode = 1 then deltaY * 16
  else if deltaMode = 2 then deltaY * s.windowHeight
  else deltaY

/-- `onWheel`, where the container is there; and whether the browser is kept from scrolling. -/
def onWheel (s : Scroller) (deltaY : ℚ) (deltaMode : Nat) : Bool × Scroller :=
  let estimatedDelta := s.estimatedDelta deltaY deltaMode
  if s.locateTo ≠ none then (false, s)
  else if s.totalHeight - s.windowHeight < 0 then (true, s)
  else if estimatedDelta < 0 ∧ s.scrollTop ≤ 1 then (true, s)
  else if 0 < estimatedDelta ∧ s.upperBound ≤ s.scrollTop then (true, s)
  else if estimatedDelta < 0 ∧ s.scrollTop + estimatedDelta < 0 then
    (true, { s with scrollTop := 0 })
  else if 0 < estimatedDelta ∧ s.upperBound ≤ s.scrollTop + estimatedDelta then
    (true, { s with scrollTop := s.upperBound })
  else (false, s)

/-- By how much the last of these rows that was visible before has moved. -/
def shift (s : Scroller) (visibleRows : List Row) : Option ℚ :=
  visibleRows.reverse.findSome? fun row =>
    (s.lastVisibleRow.lookup row.rowIndex).map fun lastKnownRow => row.offset - lastKnownRow.offset

def scrollTopOffsetFix (s : Scroller) (visibleRows : List Row) (scrollingBound : ℚ) : Scroller :=
  match s.shift visibleRows with
  | some shift => { s with scrollTop := min (s.scrollTop + shift) scrollingBound }
  | none => s

def updateLastVisibleRow (s : Scroller) (visibleRows : List Row) : Scroller :=
  { s with lastVisibleRow := visibleRows.foldl (fun rows row => rows.insert row.rowIndex row) ∅ }

def next (s : Scroller) : ScrollEvent → Scroller
  | .scroll none => s
  | .scroll (some container) => s.throttledHandleScroll container
  | .wheel deltaY deltaMode => (s.onWheel deltaY deltaMode).2
  | .rowArrival totalHeight visibleRows =>
    let s := { s with totalHeight }
    (s.scrollTopOffsetFix visibleRows (max s.upperBound 0)).updateLastVisibleRow visibleRows
  | .resize windowHeight => { s with windowHeight }
  | .locate locateTo => { s with locateTo }
  | .timeout => { s with stopScroll := false }

/-! ## The range -/

def InRange (s : Scroller) : Prop := 0 ≤ s.scrollTop ∧ s.scrollTop ≤ max 0 s.upperBound

/-- The steps that stay in range. -/
def Meets (s : Scroller) : ScrollEvent → Prop
  -- the content is not less than four pixels higher than the window, or this goes up
  | .scroll container => ∀ position ∈ container,
    s.totalHeight < s.windowHeight ∨ s.windowHeight + 4 ≤ s.totalHeight ∨
      s.scrollTop + (position - s.lastScrollTop) < 0
  | .wheel _ _ => True
  -- the rows do not move up by more than the position, and if there is none to
  -- follow, the position is in the new range
  | .rowArrival totalHeight visibleRows =>
    match s.shift visibleRows with
    | some shift => -shift ≤ s.scrollTop
    | none => s.scrollTop ≤ max 0 (getScrollUpperBound totalHeight s.windowHeight)
  | .resize windowHeight => s.scrollTop ≤ max 0 (getScrollUpperBound s.totalHeight windowHeight)
  | .locate _ => True
  | .timeout => True

variable {s : Scroller}

/-- Only a stop at a negative upper bound leaves the range. -/
theorem inRange_scroll_iff (container : ℚ) :
    (s.throttledHandleScroll container).InRange ↔
      s.totalHeight < s.windowHeight ∨ s.windowHeight + 4 ≤ s.totalHeight ∨
        s.scrollTop + (container - s.lastScrollTop) < 0 := by
  have hbound : s.upperBound = s.totalHeight - s.windowHeight - 4 := rfl
  unfold throttledHandleScroll
  by_cases hshort : s.totalHeight - s.windowHeight < 0
  · simp only [if_pos hshort]
    exact iff_of_true ⟨le_rfl, le_max_left _ _⟩ (.inl (sub_neg.mp hshort))
  by_cases hup : s.scrollTop + (container - s.lastScrollTop) < 0
  · simp only [if_neg hshort, if_pos hup]
    exact iff_of_true ⟨le_rfl, le_max_left _ _⟩ (.inr (.inr hup))
  by_cases hlimit : s.upperBound ≤ s.scrollTop + (container - s.lastScrollTop)
  · simp only [if_neg hshort, if_neg hup, if_pos hlimit]
    show 0 ≤ s.upperBound ∧ s.upperBound ≤ max 0 s.upperBound ↔ _
    rw [and_iff_left (le_max_right _ _), hbound, iff_false_intro hup, or_false,
      iff_false_intro (fun h => hshort (sub_neg.mpr h)), false_or]
    constructor <;> intro h <;> linarith
  · simp only [if_neg hshort, if_neg hup, if_neg hlimit]
    refine iff_of_true ⟨not_lt.mp hup, le_max_of_le_right (not_le.mp hlimit).le⟩ (.inr (.inl ?_))
    linarith

theorem InRange.wheel (h : s.InRange) (deltaY : ℚ) (deltaMode : Nat) :
    (s.onWheel deltaY deltaMode).2.InRange := by
  unfold onWheel
  dsimp only
  split_ifs with _ _ _ hlimit _ hdown
  · exact h
  · exact h
  · exact h
  · exact h
  · exact ⟨le_rfl, le_max_left _ _⟩
  · -- the position is below the upper bound, or it would have been left alone
    have hbelow : s.scrollTop < s.upperBound := by
      rw [not_and, not_le] at hlimit
      exact hlimit hdown.1
    exact ⟨h.1.trans hbelow.le, le_max_right _ _⟩
  · exact h

theorem inRange_fix_iff (position shift bound : ℚ) :
    0 ≤ min (position + shift) (max bound 0) ∧ min (position + shift) (max bound 0) ≤ max 0 bound ↔
      -shift ≤ position := by
  rw [max_comm 0, and_iff_left (min_le_right _ _), le_min_iff, and_iff_left (le_max_right _ _)]
  exact neg_le_iff_add_nonneg.symm

theorem inRange_rowArrival_iff (h : s.InRange) (totalHeight : ℚ) (visibleRows : List Row) :
    (s.next (.rowArrival totalHeight visibleRows)).InRange ↔
      s.Meets (.rowArrival totalHeight visibleRows) := by
  have hshift : Scroller.shift { s with totalHeight } visibleRows = s.shift visibleRows := rfl
  simp only [next, Meets, scrollTopOffsetFix, hshift]
  cases s.shift visibleRows with
  | none => exact and_iff_right h.1
  | some shift => exact inRange_fix_iff _ _ _

theorem inRange_next_iff (h : s.InRange) (event : ScrollEvent) :
    (s.next event).InRange ↔ s.Meets event := by
  cases event with
  | scroll container =>
    cases container with
    | none => exact iff_of_true h (by simp [Meets])
    | some container => exact (inRange_scroll_iff container).trans (by simp [Meets])
  | wheel deltaY deltaMode => exact iff_of_true (h.wheel deltaY deltaMode) trivial
  | rowArrival totalHeight visibleRows => exact inRange_rowArrival_iff h totalHeight visibleRows
  | resize windowHeight => exact and_iff_right h.1
  | locate locateTo | timeout => exact iff_of_true h trivial

/-- From the top, the position is in range after every step exactly if every step stays in range. -/
theorem scroll_in_range_iff (htop : s.scrollTop = 0) (events : List ScrollEvent) :
    (∀ pre, pre <+: events → (run Scroller.next s pre).InRange) ↔
      ∀ pre event, pre ++ [event] <+: events → (run Scroller.next s pre).Meets event := by
  refine run_invariant_iff ?_ fun pre event _ h => inRange_next_iff h event
  exact ⟨htop.ge, htop.le.trans (le_max_left _ _)⟩

/-- A page at its top, with one row of its total height in view. -/
def atTop (totalHeight : ℚ) : Scroller :=
  ⟨0, totalHeight, 1000, 0, false, false, none, ∅⟩

def rowAt (offset : ℚ) : Row := ⟨0, 0, 0, [], 0, 1, offset⟩

/-- A row moves down, and the page is scrolled. -/
theorem scroll_in_range_long_page :
    (atTop 4800).scrollTop = 0 ∧
    ∀ pre, pre <+: [.rowArrival 4800 [rowAt 0], .rowArrival 4850 [rowAt 50], .scroll (some 100),
      .wheel 3 1] → (run Scroller.next (atTop 4800) pre).InRange := by
  refine ⟨rfl, ?_⟩
  rw [scroll_in_range_iff rfl, forall_step_cons, forall_step_cons, forall_step_cons,
    forall_step_cons, forall_step_nil]
  refine ⟨?_, ?_, ?_, trivial, trivial⟩
  · exact le_max_left _ _
  · show (-(50 - 0) : ℚ) ≤ 0
    norm_num
  · rintro position -
    exact .inr (.inl (show (1000 + 4 : ℚ) ≤ 4850 by norm_num))

/-- A page that is as high as the window is scrolled by ten pixels. In a long page, a row above the
visible one arrives that is much lower than assumed. -/
theorem scroll_out_of_range :
    ((atTop 1000).InRange ∧ ¬ (run Scroller.next (atTop 1000) [.scroll (some 10)]).InRange) ∧
    let steps := [.scroll (some 100), .rowArrival 4800 [rowAt 0]]
    (run Scroller.next (atTop 4800) steps).InRange ∧
      ¬ (run Scroller.next (atTop 4800) (steps ++ [.rowArrival 3000 [rowAt (-1800)]])).InRange := by
  unfold InRange
  decide +kernel

end Scroller

end Gallery
