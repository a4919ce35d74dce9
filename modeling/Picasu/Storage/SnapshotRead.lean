import Picasu.Framework.Result
import Picasu.Framework.RowTable
import Picasu.Storage.Cache

/-! # Reading a Snapshot

A snapshot is read from memory, where it is a list of rows, or from disk, where it is a table of
the rows by their index. Whatever is asked of it, the answer is the same from both:
`Represents.gives`.
-/

def ROW_BATCH_NUMBER : Nat := 20

/-- `SnapshotReadError`, or a panic: `get_reduced` indexes the rows in memory without a check. -/
inductive SnapshotReadError where
  | notFound (timestamp : Int)
  | storage (message : String)
  | panicked
  deriving DecidableEq, Repr

structure DisplayElement where
  display_width : Nat
  display_height : Nat
  deriving DecidableEq, Repr

/-- `Row`: a batch of rows. -/
structure Row where
  start : Nat
  end_ : Nat
  display_elements : List DisplayElement
  row_index : Nat
  deriving DecidableEq, Repr

structure ScrollBarData where
  year : Nat
  month : Nat
  index : Nat
  deriving DecidableEq, Repr

inductive MyCow where
  | dashMap (rows : List ReducedData)
  | redb (table : Table Nat ReducedData)

namespace MyCow

def len : MyCow → Nat
  | dashMap rows => rows.length
  | redb table => table.entries.length

def get (cow : MyCow) (index : Nat) : Option ReducedData :=
  match cow with
  | dashMap rows => rows[index]?
  | redb table => table.lookup index

def get_width_height (cow : MyCow) (index : Nat) : Except SnapshotReadError (Nat × Nat) :=
  match cow.get index with
  | some data => .ok (data.width, data.height)
  | none => .error (.storage s!"Fail to find with and height in tree snapshots for index {index}")

def get_reduced (cow : MyCow) (index : Nat) : Except SnapshotReadError ReducedData :=
  match cow with
  | dashMap _ => Result.ok_or .panicked (cow.get index)
  | redb _ =>
    Result.ok_or (.storage s!"Fail to find snapshot entry for index {index}") (cow.get index)

def display_element (cow : MyCow) (index : Nat) : Except SnapshotReadError DisplayElement := do
  let (width, height) ← cow.get_width_height index
  pure ⟨width, height⟩

def chunk_count (data_length : Nat) : Nat := (data_length + ROW_BATCH_NUMBER - 1) / ROW_BATCH_NUMBER

/-- `read_row`, once the snapshot is opened. -/
def read_row (cow : MyCow) (row_index : Nat) : Except SnapshotReadError Row :=
  if chunk_count cow.len < row_index then .error (.storage "Row index out of bounds")
  else do
    let start := row_index * ROW_BATCH_NUMBER
    let number_vec := List.range' start (min (start + ROW_BATCH_NUMBER) cow.len - start)
    let display_elements ← number_vec.mapM cow.display_element
    pure ⟨start, start + ROW_BATCH_NUMBER - 1, display_elements, row_index⟩

section Scrollbar

-- the year and the month of a date, if it is in the range of `DateTime`
variable (to_year_month : Int → Option (Int × Nat))

/-- An entry of the scrollbar; `year as usize` wraps. -/
def scrollbar_data (year : Int) (month index : Nat) : ScrollBarData :=
  ⟨(year % 2 ^ 64).toNat, month, index⟩

/-- The loop of `read_scrollbar`, from the row with this index on. -/
def scrollbar_loop (last_year : Option Int) (last_month : Option Nat) (index : Nat) :
    List ReducedData → Except SnapshotReadError (List ScrollBarData)
  | [] => .ok []
  | data :: rest =>
    match to_year_month data.date with
    | none => .error (.storage s!"invalid timestamp {data.date} in tree snapshot data")
    | some (year, month) =>
      if last_year ≠ some year ∨ last_month ≠ some month then do
        let later ← scrollbar_loop (some year) (some month) (index + 1) rest
        pure (scrollbar_data year month index :: later)
      else scrollbar_loop last_year last_month (index + 1) rest

/-- `read_scrollbar`, once the snapshot is opened. -/
def read_scrollbar (cow : MyCow) : Except SnapshotReadError (List ScrollBarData) :=
  match cow with
  | dashMap rows => scrollbar_loop to_year_month none none 0 rows
  | redb table => scrollbar_loop to_year_month none none 0 table.inOrder

end Scrollbar

/-! ## What a reader should get -/

def month_at (to_year_month : Int → Option (Int × Nat)) (rows : List ReducedData) (index : Nat) :
    Option (Int × Nat) :=
  (rows[index]?).bind fun data => to_year_month data.date

/-- The rows whose month is not that of the row before. -/
def months (to_year_month : Int → Option (Int × Nat)) (rows : List ReducedData) :
    List ScrollBarData :=
  (List.range rows.length).filterMap fun index =>
    (month_at to_year_month rows index).bind fun m =>
      if index = 0 ∨ month_at to_year_month rows (index - 1) ≠ some m then
        some (scrollbar_data m.1 m.2 index)
      else none

/-- A batch of the rows, empty if its index is too large. -/
def batch (rows : List ReducedData) (row_index : Nat) : Row where
  start := row_index * ROW_BATCH_NUMBER
  end_ := row_index * ROW_BATCH_NUMBER + ROW_BATCH_NUMBER - 1
  display_elements := ((rows.drop (row_index * ROW_BATCH_NUMBER)).take ROW_BATCH_NUMBER).map
    fun data => ⟨data.width, data.height⟩
  row_index

/-- Whatever is asked, the answer is that of the rows. -/
structure Gives (cow : MyCow) (rows : List ReducedData) : Prop where
  len : cow.len = rows.length
  reduced : ∀ index (h : index < rows.length), cow.get_reduced index = .ok rows[index]
  width_height : ∀ index (h : index < rows.length),
    cow.get_width_height index = .ok (rows[index].width, rows[index].height)
  row : ∀ row_index, row_index < chunk_count rows.length →
    cow.read_row row_index = .ok (batch rows row_index)
  scrollbar : ∀ to_year_month : Int → Option (Int × Nat),
    (∀ data ∈ rows, to_year_month data.date ≠ none) →
      cow.read_scrollbar to_year_month = .ok (months to_year_month rows)

/-- The snapshot consists of these rows. -/
def Represents : MyCow → List ReducedData → Prop
  | dashMap rows', rows => rows' = rows
  | redb table, rows => table.Stores rows

variable {cow : MyCow} {rows : List ReducedData}

theorem Represents.len (h : cow.Represents rows) : cow.len = rows.length := by
  cases cow with
  | dashMap rows' => exact congrArg List.length h
  | redb table => exact Table.Stores.length_entries h

theorem Represents.get (h : cow.Represents rows) (index : Nat) : cow.get index = rows[index]? := by
  cases cow with
  | dashMap rows' =>
    obtain rfl : rows' = rows := h
    rfl
  | redb table => exact h index

variable {index : Nat}

theorem Represents.get_reduced (h : cow.Represents rows) (hindex : index < rows.length) :
    cow.get_reduced index = .ok rows[index] := by
  have hget := (h.get index).trans (List.getElem?_eq_getElem hindex)
  cases cow with
  | dashMap rows' | redb table => exact Result.ok_or_eq_ok.mpr hget

theorem Represents.get_width_height (h : cow.Represents rows) (hindex : index < rows.length) :
    cow.get_width_height index = .ok (rows[index].width, rows[index].height) := by
  unfold MyCow.get_width_height
  rw [h.get index, List.getElem?_eq_getElem hindex]

/-! ## Batches -/

theorem Represents.display_element (h : cow.Represents rows) (hindex : index < rows.length) :
    cow.display_element index = .ok ⟨rows[index].width, rows[index].height⟩ := by
  unfold MyCow.display_element
  rw [h.get_width_height hindex]
  rfl

theorem Represents.read_row (h : cow.Represents rows) {row_index : Nat}
    (hindex : row_index ≤ chunk_count rows.length) :
    cow.read_row row_index = .ok (batch rows row_index) := by
  unfold MyCow.read_row batch
  rw [h.len, if_neg (Nat.not_lt.mpr hindex)]
  generalize row_index * ROW_BATCH_NUMBER = start
  generalize hbatch : ((rows.drop start).take ROW_BATCH_NUMBER).map
    (fun data => (⟨data.width, data.height⟩ : DisplayElement)) = elements
  have hlength : min (start + ROW_BATCH_NUMBER) rows.length - start = elements.length := by
    rw [← hbatch, List.length_map, List.length_take, List.length_drop]
    omega
  have helements : (List.range' start elements.length).mapM cow.display_element = .ok elements := by
    refine Result.mapM_range'_eq_ok fun i hi => ?_
    have hrow : start + i < rows.length := by omega
    rw [h.display_element hrow]
    simp only [← hbatch, List.getElem_map, List.getElem_take, List.getElem_drop]
  simp only [hlength, helements]
  rfl

/-! ## Batches as a partition

`read_row` lets an index pass that is one past the last batch. -/

/-- The batches of a snapshot, one after the other, are its rows. -/
structure Partitions (cow : MyCow) (rows : List ReducedData) : Prop where
  concat : ∃ batches, (List.range (chunk_count rows.length)).mapM cow.read_row = .ok batches ∧
    batches.flatMap Row.display_elements = rows.map fun data => ⟨data.width, data.height⟩
  full : ∀ row_index, row_index + 1 < chunk_count rows.length →
    ∃ row, cow.read_row row_index = .ok row ∧ row.display_elements.length = ROW_BATCH_NUMBER

theorem length_le_chunk_count (n : Nat) : n ≤ chunk_count n * ROW_BATCH_NUMBER := by
  unfold chunk_count ROW_BATCH_NUMBER
  omega

theorem mul_lt_of_lt_chunk_count {row_index n : Nat} (h : row_index + 1 < chunk_count n) :
    row_index * ROW_BATCH_NUMBER + ROW_BATCH_NUMBER < n := by
  unfold chunk_count ROW_BATCH_NUMBER at *
  omega

theorem flatMap_slices {α : Type} (xs : List α) (size count : Nat) :
    (List.range count).flatMap (fun i => (xs.drop (i * size)).take size) =
      xs.take (count * size) := by
  induction count with
  | zero => simp
  | succ count ih =>
    rw [List.range_succ, List.flatMap_append, ih, Nat.succ_mul, List.take_add]
    simp

theorem Represents.partitions (h : cow.Represents rows) : cow.Partitions rows where
  concat := by
    refine ⟨(List.range (chunk_count rows.length)).map (batch rows), ?_, ?_⟩
    · refine Result.mapM_eq_ok_map fun row_index hmem => ?_
      exact h.read_row (Nat.le_of_lt (List.mem_range.mp hmem))
    · rw [List.flatMap_map]
      show (List.range (chunk_count rows.length)).flatMap (fun i =>
        ((rows.drop (i * ROW_BATCH_NUMBER)).take ROW_BATCH_NUMBER).map _) = _
      rw [← List.map_flatMap, flatMap_slices, List.take_of_length_le (length_le_chunk_count _)]
  full row_index hindex := by
    refine ⟨_, h.read_row (by omega), ?_⟩
    have hrows := mul_lt_of_lt_chunk_count hindex
    unfold batch
    rw [List.length_map, List.length_take, List.length_drop]
    omega

/-- The batches are the rows in order, and an index past the last batch is an error unless it is the
first such index. -/
theorem Represents.batches_iff (h : cow.Represents rows) (row_index : Nat) :
    (cow.Partitions rows ∧
      (chunk_count rows.length ≤ row_index → ∃ err, cow.read_row row_index = .error err)) ↔
    row_index ≠ chunk_count rows.length := by
  constructor
  · rintro ⟨-, herror⟩ heq
    obtain ⟨err, herr⟩ := herror (Nat.le_of_eq heq.symm)
    rw [h.read_row (Nat.le_of_eq heq)] at herr
    cases herr
  · intro hne
    refine ⟨h.partitions, fun hle => ⟨.storage "Row index out of bounds", ?_⟩⟩
    unfold MyCow.read_row
    rw [h.len, if_pos (Nat.lt_of_le_of_ne hle hne.symm)]

/-- Photos of different widths. -/
def photo_rows (n : Nat) : List ReducedData :=
  (List.range n).map fun i => ⟨"a", "h", 640 + i, 480, 0, 0, false⟩

/-- Two full batches and a third, on disk; the index 4 is refused. -/
theorem batches_on_disk :
    let cow := redb (Table.fill (photo_rows 45) ∅)
    cow.Represents (photo_rows 45) ∧ cow.Partitions (photo_rows 45) ∧
      ∃ err, cow.read_row 4 = .error err := by
  intro cow
  have h : cow.Represents (photo_rows 45) := Table.stores_fill (Or.inl rfl)
  obtain ⟨hparts, herror⟩ := (h.batches_iff 4).mpr (by decide)
  exact ⟨h, hparts, herror (by decide)⟩

/-- The second batch of a single row is not an error. -/
theorem second_batch_of_one_row : ¬ ((dashMap (photo_rows 1)).Partitions (photo_rows 1) ∧
    ∀ row_index, chunk_count (photo_rows 1).length ≤ row_index →
      ∃ err, (dashMap (photo_rows 1)).read_row row_index = .error err) := by
  rintro ⟨-, herror⟩
  obtain ⟨err, herr⟩ := herror 1 (by decide)
  cases herr

/-! ## The scrollbar -/

variable {to_year_month : Int → Option (Int × Nat)}

theorem map_ne_some_iff {last : Option (Int × Nat)} {m : Int × Nat} :
    last ≠ some m ↔ last.map Prod.fst ≠ some m.1 ∨ last.map Prod.snd ≠ some m.2 := by
  cases last with
  | none => simp
  | some last =>
    rw [← not_and_or, not_iff_not]
    simp [Prod.ext_iff]

/-- The loop from a row on finds the later rows that begin a month. It has kept the month of the row
before. -/
theorem scrollbar_loop_eq_ok (hdates : ∀ data ∈ rows, to_year_month data.date ≠ none)
    (rest : List ReducedData) : ∀ before, rows = before ++ rest → ∀ last,
      (before = [] ∧ last = none ∨
        before ≠ [] ∧ month_at to_year_month rows (before.length - 1) = last) →
      scrollbar_loop to_year_month (last.map Prod.fst) (last.map Prod.snd) before.length rest =
        .ok ((List.range' before.length rest.length).filterMap fun index =>
          (month_at to_year_month rows index).bind fun m =>
            if index = 0 ∨ month_at to_year_month rows (index - 1) ≠ some m then
              some (scrollbar_data m.1 m.2 index)
            else none) := by
  induction rest with
  | nil => exact fun _ _ _ _ => rfl
  | cons data rest ih =>
    intro before hrows last hlast
    have hmem : data ∈ rows := by rw [hrows]; simp
    obtain ⟨m, hm⟩ := Option.ne_none_iff_exists'.mp (hdates data hmem)
    have hhere : month_at to_year_month rows before.length = some m := by simp [month_at, hrows, hm]
    have hnext := ih (before ++ [data]) (by simp [hrows]) (some m)
      (Or.inr ⟨by simp, by simpa using hhere⟩)
    rw [List.length_append, List.length_singleton] at hnext
    -- the loop compares year and month one by one
    have hnew : (last.map Prod.fst ≠ some m.1 ∨ last.map Prod.snd ≠ some m.2) ↔
        (before.length = 0 ∨ month_at to_year_month rows (before.length - 1) ≠ some m) := by
      rw [← map_ne_some_iff]
      rcases hlast with ⟨rfl, rfl⟩ | ⟨hne, rfl⟩
      · simp
      · simp [List.length_eq_zero_iff, hne]
    rw [List.length_cons, List.range'_succ, List.filterMap_cons, hhere, Option.bind_some]
    obtain ⟨year, month⟩ := m
    simp only [scrollbar_loop, hm]
    by_cases hfirst : last.map Prod.fst ≠ some year ∨ last.map Prod.snd ≠ some month
    · rw [if_pos hfirst, if_pos (hnew.mp hfirst)]
      have hloop := hnext
      simp only [Option.map_some] at hloop
      rw [hloop]
      rfl
    · rw [if_neg hfirst, if_neg (hnew.not.mp hfirst)]
      have hsame : last = some (year, month) := by
        by_contra hne
        exact hfirst (map_ne_some_iff.mp hne)
      rw [hsame]
      exact hnext

theorem Represents.read_scrollbar (h : cow.Represents rows)
    (hdates : ∀ data ∈ rows, to_year_month data.date ≠ none) :
    cow.read_scrollbar to_year_month = .ok (months to_year_month rows) := by
  have hloop : scrollbar_loop to_year_month none none 0 rows =
      .ok (months to_year_month rows) := by
    rw [months, List.range_eq_range']
    exact scrollbar_loop_eq_ok hdates rows [] rfl none (Or.inl ⟨rfl, rfl⟩)
  cases cow with
  | dashMap rows' =>
    obtain rfl : rows' = rows := h
    exact hloop
  | redb table =>
    show scrollbar_loop to_year_month none none 0 table.inOrder = _
    rw [Table.Stores.inOrder_eq h]
    exact hloop

/-- Rows in memory and a table of them on disk give the same answers. -/
theorem Represents.gives (h : cow.Represents rows) : cow.Gives rows where
  len := h.len
  reduced _ hindex := h.get_reduced hindex
  width_height _ hindex := h.get_width_height hindex
  row _ hindex := h.read_row (Nat.le_of_lt hindex)
  scrollbar _ hdates := h.read_scrollbar hdates

end MyCow
