import Mathlib.Algebra.Order.Monoid.WithTop
import Mathlib.Data.Rat.Floor
import Picasu.Framework.Run
import Picasu.Framework.Table

/-! # Rows in the Data Worker

`fetchRow` keeps the rows it has fetched, by their index, and lays them out for the window: a row
is broken into sub-rows (`KnuthPlassLayout`), which are scaled to its width (`normalizeSubrows`).
The layout changes the elements of the row in place.

A row that comes from the server is stored as a clone and laid out afterwards, so what is stored
is as the server sent it. A row that comes from the store is laid out there: the store then holds
the sizes of that layout. It does not know the snapshot that a row is from either, and nothing
ever clears it. So a call is answered as by a new worker only if it is the first one to use the
stored row, and the row is the same in its snapshot (`answers_fresh`).

Numbers are exact rationals.
-/

namespace Gallery

open LTS

def paddingPixel : ℚ := 4

def fixedBigRowHeight : ℚ := 2400

/-- `Math.round`: halves are rounded up. -/
def mathRound (x : ℚ) : ℚ := ⌊x + 1 / 2⌋

def getArrayValue {α : Type} (array : List α) (index : Nat) : Except String α :=
  let length := array.length
  match array[index]? with
  | some value => .ok value
  | none => .error s!"Index {index} is out of bounds for array of length {length}"

/-! ## Breaking a row into lines -/

/-- The arrays of `lineWrap`; `⊤` is `Infinity`. -/
structure Wrap where
  minBadness : List (WithTop ℚ)
  breaks : List Nat

/-- The line with this start is the best so far. -/
def Wrap.record (s : Wrap) (i start : Nat) (badness : WithTop ℚ) : Wrap where
  minBadness := s.minBadness.set i badness
  breaks := s.breaks.set i start

/-- The inner loop: lines that end before `i`, from the start `j - 1` down. -/
def tryLines (displayElements : List ℚ) (windowWidth : ℚ) (i : Nat) :
    Nat → ℚ → Wrap → Except String (ℚ × Wrap)
  | 0, currentWidth, s => .ok (currentWidth, s)
  | j + 1, currentWidth, s => do
    let width ← getArrayValue displayElements j
    let currentWidth := currentWidth + (width + 2 * paddingPixel)
    if windowWidth < currentWidth then .ok (currentWidth, s)
    else do
      let badness : WithTop ℚ := ((windowWidth - currentWidth) ^ 2 : ℚ)
      let before ← getArrayValue s.minBadness j
      let best ← getArrayValue s.minBadness i
      tryLines displayElements windowWidth i j currentWidth
        (if before + badness < best then s.record i j (before + badness) else s)

/-- The body of the outer loop. -/
def wrapUpTo (displayElements : List ℚ) (windowWidth : ℚ) (s : Wrap) (i : Nat) :
    Except String Wrap := do
  let (currentWidth, s) ← tryLines displayElements windowWidth i i 0 s
  -- no line was found: the element is on a line of its own
  if s.minBadness[i]? = some ⊤ then do
    let before ← getArrayValue s.minBadness (i - 1)
    .ok (s.record i (i - 1) (before + ((windowWidth - currentWidth) ^ 2 : ℚ)))
  else .ok s

/-- The loop that reads the breaks, with at most `fuel` rounds. -/
def lineCounts (breaks : List Nat) : Nat → Nat → List Nat → Except String (List Nat)
  | _, 0, counts => .ok counts
  | 0, _ + 1, _ => .error "out of fuel"
  | fuel + 1, stop + 1, counts => do
    let start ← getArrayValue breaks (stop + 1)
    lineCounts breaks fuel start ((stop + 1 - start) :: counts)

/-- `lineWrap`. Each round of the last loop goes at least one element back. -/
def lineWrap (displayElements : List ℚ) (windowWidth : ℚ) : Except String (List Nat) := do
  let n := displayElements.length
  let s : Wrap := ⟨(List.replicate (n + 1) ⊤).set 0 0, List.replicate (n + 1) 0⟩
  let s ← (List.range' 1 n).foldlM (wrapUpTo displayElements windowWidth) s
  lineCounts s.breaks n n []

/-! ## Laying out a row -/

structure DisplayElement where
  displayWidth : ℚ
  displayHeight : ℚ
  displayTopPixelAccumulated : ℚ
  deriving DecidableEq, Repr

structure Row where
  start : Nat
  end_ : Nat
  rowHeight : ℚ
  displayElements : List DisplayElement
  topPixelAccumulated : ℚ
  rowIndex : Nat
  offset : ℚ
  deriving DecidableEq, Repr

structure RowWithOffset where
  row : Row
  offset : ℚ
  windowWidth : ℚ
  deriving DecidableEq, Repr

/-- The elements of each sub-row, given the counts. -/
def subArrays : List Nat → List DisplayElement → List (List DisplayElement)
  | [], _ => []
  | count :: counts, elements => elements.take count :: subArrays counts (elements.drop count)

def knuthPlassLayout (row : Row) (windowWidth subRowHeight : ℚ) :
    Except String (List (List DisplayElement)) := do
  let shrinkedWidthList := row.displayElements.map fun displayElement =>
    mathRound (displayElement.displayWidth * subRowHeight / displayElement.displayHeight)
  let lineWrapBatchResult ← lineWrap shrinkedWidthList windowWidth
  return subArrays lineWrapBatchResult row.displayElements

def DisplayElement.scaled (subRowHeight : ℚ) (displayElement : DisplayElement) : DisplayElement :=
  { displayElement with
    displayWidth := displayElement.displayWidth * subRowHeight / displayElement.displayHeight
    displayHeight := subRowHeight }

/-- The loop that sets the sizes. All elements but the last are rounded; the last one fills up the
window. -/
def fillWidths (windowWidth ratio scaledHeight top : ℚ) :
    ℚ → List DisplayElement → List DisplayElement
  | _, [] => []
  | widthSum, [_] => [⟨windowWidth - widthSum - paddingPixel, mathRound scaledHeight, top⟩]
  | widthSum, displayElement :: next :: rest =>
    let width := mathRound (displayElement.displayWidth * ratio)
    ⟨width, mathRound scaledHeight, top⟩ :: fillWidths windowWidth ratio scaledHeight top
      (widthSum + (width + 2 * paddingPixel)) (next :: rest)

/-- The turn of `normalizeSubrows` for a sub-row that is to fill the window: the sub-row, and by how
much it moves the next one down. -/
def normalizeSubrow (windowWidth subRowHeight top : ℚ) (subRow : List DisplayElement) :
    List DisplayElement × ℚ :=
  let scaled := subRow.map (·.scaled subRowHeight)
  let widthSum := (scaled.map (·.displayWidth)).sum
  let ratio := (windowWidth - scaled.length * 2 * paddingPixel) / widthSum
  let scaledHeight := subRowHeight * ratio
  (fillWidths windowWidth ratio scaledHeight top paddingPixel scaled,
    mathRound (scaledHeight + 2 * paddingPixel))

/-- The turn for a last sub-row that is padded. -/
def padSubrow (subRowHeight top : ℚ) (subRow : List DisplayElement) : List DisplayElement × ℚ :=
  (subRow.map fun displayElement =>
    { displayElement.scaled subRowHeight with displayTopPixelAccumulated := top },
    subRowHeight + 2 * paddingPixel)

/-- `normalizeSubrows`, from a sub-row on whose top is at `top`: the sub-rows, and the height of
all. The two sums that the source keeps are the same. -/
def normalizeSubrows (windowWidth : ℚ) (paddingLastSubrow : Bool) (subRowHeight : ℚ) :
    ℚ → List (List DisplayElement) → List (List DisplayElement) × ℚ
  | top, [] => ([], top)
  | top, subRow :: subRows =>
    let isLastSubrow := paddingLastSubrow && subRows.isEmpty
    let (subRow, height) :=
      if isLastSubrow then padSubrow subRowHeight top subRow
      else normalizeSubrow windowWidth subRowHeight top subRow
    let (subRows, scaledTotalHeight) :=
      normalizeSubrows windowWidth paddingLastSubrow subRowHeight (top + height) subRows
    (subRow :: subRows, scaledTotalHeight)

/-- The payload of a `fetchRow` message. -/
structure RowCall where
  index : Nat
  timestamp : Nat
  windowWidth : ℚ
  isLastRow : Bool
  subRowHeightScale : ℚ
  deriving DecidableEq, Repr

/-- The layout part of `fetchRow`: the row object as it is left behind, and the result. -/
def RowCall.layout (call : RowCall) (row : Row) : Row × Except String RowWithOffset :=
  let row := { row with topPixelAccumulated := row.rowIndex * fixedBigRowHeight }
  let subRowHeight := mathRound (min (call.windowWidth / 2) call.subRowHeightScale)
  match knuthPlassLayout row call.windowWidth subRowHeight with
  | .error message => (row, .error message)
  | .ok subRows =>
    let (subRows, scaledTotalHeight) :=
      normalizeSubrows call.windowWidth call.isLastRow subRowHeight 0 subRows
    -- the sub-rows hold the elements of the row
    let row := { row with displayElements := subRows.flatten, rowHeight := scaledTotalHeight }
    (row, .ok ⟨row, scaledTotalHeight - fixedBigRowHeight, call.windowWidth⟩)

/-! ## The worker -/

/-- The server: its answer is fixed for an index and a timestamp. -/
structure Server where
  row : Nat → Nat → Row
  rowIndex_row : ∀ index timestamp, (row index timestamp).rowIndex = index

/-- What a call has come to. Only `.ok` results are posted. -/
structure RowAnswer where
  call : RowCall
  /-- The row was found in the store. -/
  fromCache : Bool
  result : Except String RowWithOffset
  deriving DecidableEq

structure RowWorker where
  fetchedRowData : Table Nat Row
  /-- The calls that wait for the server. -/
  waiting : List RowCall
  /-- The answers so far, the latest first. -/
  answers : List RowAnswer

inductive RowEvent where
  /-- A message from the main thread. -/
  | fetchRow (call : RowCall)
  /-- The server answers one of the calls that wait. -/
  | response (k : Nat)
  /-- The request of one of them fails. -/
  | failure (k : Nat)
  deriving DecidableEq, Repr

namespace RowWorker

/-- A worker that has just been started. -/
def fresh : RowWorker := ⟨∅, [], []⟩

/-- A call is answered with the layout of a row, and a row is stored. -/
def answer (s : RowWorker) (call : RowCall) (fromCache : Bool) (row : Row) (index : Nat)
    (stored : Row) : RowWorker :=
  { s with
    fetchedRowData := s.fetchedRowData.insert index stored
    answers := ⟨call, fromCache, (call.layout row).2⟩ :: s.answers }

/-- A call whose row is in the store. The object in the store is laid out. -/
def answerFromCache (s : RowWorker) (call : RowCall) (row : Row) : RowWorker :=
  s.answer call true row call.index (call.layout row).1

/-- A call whose row has come from the server. The store gets a clone. -/
def answerFromServer (s : RowWorker) (call : RowCall) (row : Row) : RowWorker :=
  s.answer call false row row.rowIndex row

/-- `fetchRow` up to its end, or up to the `await`, and from there on. -/
def next (server : Server) (s : RowWorker) : RowEvent → RowWorker
  | .fetchRow call =>
    match s.fetchedRowData.lookup call.index with
    | some row => s.answerFromCache call row
    | none => { s with waiting := s.waiting ++ [call] }
  | .response k =>
    match s.waiting[k]? with
    | some call =>
      { s with waiting := s.waiting.eraseIdx k }.answerFromServer call
        (server.row call.index call.timestamp)
    | none => s
  | .failure k => { s with waiting := s.waiting.eraseIdx k }

def latest (s : RowWorker) (index : Nat) : Option RowAnswer :=
  s.answers.find? fun answer => answer.call.index = index

end RowWorker

variable (server : Server)

/-- The layout that a fresh worker computes for a call. -/
def Server.freshLayout (call : RowCall) : Except String RowWithOffset :=
  (call.layout (server.row call.index call.timestamp)).2

/-! ## What the store holds -/

/-- The stored row is still the one that the server sent: nobody has been answered from the store
since then, and the row is the same in the snapshot of the call. -/
def RowWorker.Untouched (s : RowWorker) (call : RowCall) : Prop :=
  ∃ answer, s.latest call.index = some answer ∧ answer.fromCache = false ∧
    server.row call.index answer.call.timestamp = server.row call.index call.timestamp

/-- A call that finds its row in the store finds it untouched. -/
def RowWorker.Meets (s : RowWorker) : RowEvent → Prop
  | .fetchRow call => s.fetchedRowData.lookup call.index ≠ none → s.Untouched server call
  | .response _ => True
  | .failure _ => True

namespace RowWorker

variable {server : Server} {s : RowWorker}

/-- A stored row whose latest answer came from the server is the server's. -/
def Kept (server : Server) (s : RowWorker) : Prop :=
  ∀ index row answer, s.fetchedRowData.lookup index = some row →
    s.latest index = some answer → answer.fromCache = false →
    row = server.row index answer.call.timestamp

/-- All answers are those of a fresh worker. -/
def AnswersFresh (server : Server) (s : RowWorker) : Prop :=
  ∀ answer ∈ s.answers, answer.result = server.freshLayout answer.call

/-- An answer keeps this if the server's row is stored, or the answer did not come from there. -/
theorem Kept.answer (h : Kept server s) {call : RowCall} {fromCache : Bool} (row : Row)
    {index : Nat} {stored : Row} (hindex : index = call.index)
    (hstored : fromCache = false → stored = server.row call.index call.timestamp) :
    Kept server (s.answer call fromCache row index stored) := by
  subst hindex
  intro index found answer hfound hlatest hserver
  by_cases heq : call.index = index
  · subst heq
    have hfirst : (s.answer call fromCache row call.index stored).latest call.index =
        some ⟨call, fromCache, (call.layout row).2⟩ := by
      simp [latest, RowWorker.answer]
    obtain rfl := Option.mem_unique hfirst hlatest
    rw [← hstored hserver]
    exact Option.some.inj (hfound.symm.trans (AList.lookup_insert _))
  · have hlater : (s.answer call fromCache row call.index stored).latest index = s.latest index := by
      simp [latest, RowWorker.answer, heq]
    have hother : s.fetchedRowData.lookup index = some found :=
      (AList.lookup_insert_ne (Ne.symm heq)).symm.trans hfound
    exact h index found answer hother (hlater.symm.trans hlatest) hserver

theorem next_fresh {event : RowEvent} (hmeets : s.Meets server event)
    (h : Kept server s ∧ AnswersFresh server s) :
    Kept server (next server s event) ∧ AnswersFresh server (next server s event) := by
  obtain ⟨hkept, hfresh⟩ := h
  cases event with
  | fetchRow call =>
    cases hlookup : s.fetchedRowData.lookup call.index with
    | none =>
      simp only [next, hlookup]
      exact ⟨hkept, hfresh⟩
    | some row =>
      simp only [next, hlookup]
      refine ⟨hkept.answer row rfl (by simp), List.forall_mem_cons.mpr ⟨?_, hfresh⟩⟩
      obtain ⟨answer, hlatest, hserver, hsame⟩ := hmeets (by simp [hlookup])
      have hrow := hkept call.index row answer hlookup hlatest hserver
      rw [hrow, hsame]
      rfl
  | response k =>
    cases hcall : s.waiting[k]? with
    | none =>
      simp only [next, hcall]
      exact ⟨hkept, hfresh⟩
    | some call =>
      simp only [next, hcall]
      have hrest : Kept server { s with waiting := s.waiting.eraseIdx k } := hkept
      exact ⟨hrest.answer _ (server.rowIndex_row _ _) fun _ => rfl,
        List.forall_mem_cons.mpr ⟨rfl, hfresh⟩⟩
  | failure k => exact ⟨hkept, hfresh⟩

/-- If every call that finds its row in the store finds it untouched, all answers are those of a
fresh worker, in every state of the run. -/
theorem answers_fresh (server : Server) {events : List RowEvent}
    (hmeets : ∀ pre event, pre ++ [event] <+: events →
      (run (next server) fresh pre).Meets server event)
    {pre : List RowEvent} (hpre : pre <+: events) :
    AnswersFresh server (run (next server) fresh pre) := by
  have hinit : Kept server fresh ∧ AnswersFresh server fresh := by
    constructor
    · intro index row answer hlookup
      simp [fresh] at hlookup
    · intro answer hanswer
      exact absurd hanswer List.not_mem_nil
  have hrun := run_induction (Q := fun _ s => Kept server s ∧ AnswersFresh server s) hinit
    fun before event hbefore hs => next_fresh (hmeets before event (hbefore.trans hpre)) hs
  exact hrun.2

/-- Two pictures, one of which is gone in the second snapshot. -/
def twoSnapshots : Server where
  row index timestamp :=
    let pictures : List DisplayElement :=
      if timestamp = 0 then [⟨4000, 3000, 0⟩, ⟨4000, 3000, 0⟩] else [⟨4000, 3000, 0⟩]
    ⟨0, pictures.length, 0, pictures, 0, index, 0⟩
  rowIndex_row _ _ := rfl

def firstRow (timestamp : Nat) (windowWidth : ℚ) : RowCall :=
  ⟨0, timestamp, windowWidth, false, 240⟩

/-- After a resize the row comes from the store. -/
theorem answers_fresh_resize :
    (run (next twoSnapshots) fresh
      [.fetchRow (firstRow 0 1001), .response 0, .fetchRow (firstRow 0 500)]).answers.length = 2 ∧
    AnswersFresh twoSnapshots (run (next twoSnapshots) fresh
      [.fetchRow (firstRow 0 1001), .response 0, .fetchRow (firstRow 0 500)]) := by
  refine ⟨by decide +kernel, answers_fresh twoSnapshots ?_ (List.prefix_refl _)⟩
  rw [forall_step_cons, forall_step_cons, forall_step_cons, forall_step_nil]
  refine ⟨fun h => absurd rfl h, trivial, fun _ => ?_, trivial⟩
  exact ⟨⟨firstRow 0 1001, false, twoSnapshots.freshLayout (firstRow 0 1001)⟩, rfl, rfl, rfl⟩

/-- A new snapshot is answered with the row of the old one, and a second resize with the sizes of
the first one. -/
theorem answers_stale :
    ¬ AnswersFresh twoSnapshots (run (next twoSnapshots) fresh
      [.fetchRow (firstRow 0 1001), .response 0, .fetchRow (firstRow 1 1001)]) ∧
    ¬ AnswersFresh twoSnapshots (run (next twoSnapshots) fresh
      [.fetchRow (firstRow 0 1001), .response 0, .fetchRow (firstRow 0 1001),
        .fetchRow (firstRow 0 2000)]) := by
  unfold AnswersFresh
  constructor
  · decide +kernel
  · decide +kernel

end RowWorker

end Gallery
