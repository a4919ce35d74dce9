import Picasu.Framework.Regex
import Picasu.Framework.Result
import Picasu.Tasks.Writer

/-! # Dating the Rows of the Tree

`compute_timestamp` goes through a list of fields and takes the first date it finds. EXIF data and
file names give wall-clock times. A time zone need not map one to an instant: it skips some and
repeats others.

The EXIF date is dropped when that happens. The date of a file name is not: the conversion is
expected to succeed, and the call panics (`compute_timestamp_returns_iff`). A refresh of the tree
dates every row, so one file name takes the refresh down (`refresh_returns_iff`).

`chrono` is a parameter as far as it converts and parses texts, and so are the Unicode classes of
the `regex` crate.
-/

namespace Chrono

/-- `NaiveDateTime`, ordered by its fields. -/
structure NaiveDateTime where
  year : Int
  month : Nat
  day : Nat
  hour : Nat
  minute : Nat
  second : Nat
  nanosecond : Nat
  deriving DecidableEq, Repr, Ord

structure DateTime where
  timestamp_millis : Int
  naive_local : NaiveDateTime
  deriving DecidableEq, Repr

/-- `LocalResult`: a wall-clock time is skipped, is one instant, or is repeated. -/
inductive LocalResult where
  | none
  | single (t : DateTime)
  | ambiguous (earliest latest : DateTime)
  deriving DecidableEq, Repr

/-- `LocalResult::single`. -/
def LocalResult.toOption : LocalResult → Option DateTime
  | single t => some t
  | _ => .none

def is_leap_year (year : Int) : Bool := year % 4 == 0 && (year % 100 != 0 || year % 400 == 0)

def days_in_month (year : Int) (month : Nat) : Nat :=
  if month = 2 then (if is_leap_year year then 29 else 28)
  else if [4, 6, 9, 11].contains month then 30
  else 31

/-- `NaiveDate::from_ymd_opt`: the date exists. -/
def from_ymd_opt (year : Int) (month day : Nat) : Bool :=
  -262143 ≤ year && year ≤ 262142 && 1 ≤ month && month ≤ 12 && 1 ≤ day &&
    day ≤ days_in_month year month

/-- `NaiveTime::from_hms_opt`: the time of day exists. -/
def from_hms_opt (hour minute second : Nat) : Bool := hour < 24 && minute < 60 && second < 60

end Chrono

open Chrono

/-! ## Reading a date -/

/-- What a date is computed with: the clock, the time zone, the parser of EXIF dates, the Unicode
classes `\d` and `\w`, and a random number. -/
structure DateEnv where
  now_time : NaiveDateTime
  from_local_datetime : NaiveDateTime → LocalResult
  /-- `NaiveDateTime::parse_from_str`, with the format `%Y-%m-%d %H:%M:%S`. -/
  parse_from_str : String → Option NaiveDateTime
  is_digit : Char → Bool
  is_word : Char → Bool
  random_number : Int

namespace DateEnv

variable (env : DateEnv)

/-- `\b`. -/
def word_boundary : Regex Char :=
  .look fun a b => a.any env.is_word != b.any env.is_word

/-- `(\d{n})`. -/
def digits (index n : Nat) : Regex Char := .group index (.times (.one env.is_digit) n)

/-- `[^a-zA-Z0-9]?`. -/
def separator : Regex Char := .opt (.one fun c => !c.isAlphanum)

def file_name_time_regex : Regex Char :=
  .seq env.word_boundary <| .seq (env.digits 1 4) <| .seq separator <| .seq (env.digits 2 2) <|
    .seq separator <| .seq (env.digits 3 2) <| .seq separator <| .seq (env.digits 4 2) <|
    .seq separator <| .seq (env.digits 5 2) <| .seq separator <| .seq (env.digits 6 2)
    env.word_boundary

/-- `caps[index]`; it panics if the group has not taken part. -/
def group_text (caps : Regex.Cursor Char) (index : Nat) : Except String String :=
  match caps.text index with
  | some text => .ok (String.ofList text)
  | none => .error s!"no group at index '{index}'"

/-- The time that six captured texts stand for, if they stand for one. -/
def read_time (year month day hour minute second : String) : Option NaiveDateTime := do
  let year ← Text.parse_i32 year
  let month ← Text.parse_u32 month
  let day ← Text.parse_u32 day
  let hour ← Text.parse_u32 hour
  let minute ← Text.parse_u32 minute
  let second ← Text.parse_u32 second
  if from_ymd_opt year month day && from_hms_opt hour minute second then
    some ⟨year, month, day, hour, minute, second, 0⟩
  else none

/-- The time in a file name, if it is not in the future. -/
def file_name_time (file_entry : Option FileEntry) : Except String (Option NaiveDateTime) :=
  match file_entry.bind fun entry => PathBuf.file_name (PathBuf.ofString entry.file) with
  | none => .ok none
  | some file_name =>
    match env.file_name_time_regex.search none file_name.toList with
    | none => .ok none
    | some caps => do
      let year ← group_text caps 1
      let month ← group_text caps 2
      let day ← group_text caps 3
      let hour ← group_text caps 4
      let minute ← group_text caps 5
      let second ← group_text caps 6
      return (read_time year month day hour minute second).filter fun datetime =>
        (compare datetime env.now_time).isLE

/-- The EXIF date, if it is an instant and not in the future. -/
def date_time_original (exif_vec : Option (Table String String)) : Option Int := do
  let exif ← exif_vec
  let value ← exif.lookup "DateTimeOriginal"
  let naive_dt ← env.parse_from_str value
  let local_dt ← (env.from_local_datetime naive_dt).toOption
  if (compare local_dt.naive_local env.now_time).isLE then some local_dt.timestamp_millis else none

/-! ## The timestamp -/

/-- The turn of the loop for one field: its date, if there is one. A panic is an error with its
message. -/
def field_date (data : AbstractData) (field : String) : Except String (Option Int) :=
  if field = "DateTimeOriginal" then .ok (env.date_time_original data.exif_vec)
  else if field = "filename" then do
    let max_time ← env.file_name_time data.path
    match max_time with
    | some datetime =>
      match (env.from_local_datetime datetime).toOption with
      | some t => .ok (some t.timestamp_millis)
      | none => .error "failed to convert datetime to local timezone"
    | none => .ok none
  else if field = "scan_time" then .ok (data.path.map fun entry => entry.scan_time)
  else if field = "modified" then .ok (data.path.map fun entry => entry.modified)
  else if field = "random" then .ok (some env.random_number)
  else .error s!"Unknown field type: {field}"

/-- The loop of `compute_timestamp`. -/
def first_date (data : AbstractData) : List String → Except String Int
  | [] => .ok 0
  | field :: fields => do
    match ← env.field_date data field with
    | some date => .ok date
    | none => first_date data fields

def compute_timestamp (priority_list : List String) (data : AbstractData) : Except String Int :=
  match data with
  | .album alb => .ok alb.metadata.created_time
  | data => env.first_date data priority_list

/-- The fields that `compute_timestamp` knows. -/
def known_fields : List String := ["DateTimeOriginal", "filename", "scan_time", "modified", "random"]

/-! ## When a date is found -/

variable {env}

theorem captured_file_name_time_regex :
    env.file_name_time_regex.captured = [1, 2, 3, 4, 5, 6] := rfl

theorem group_text_eq_ok {text : List Char} {caps : Regex.Cursor Char}
    (h : env.file_name_time_regex.search none text = some caps) (index : Nat)
    (hindex : index ∈ [1, 2, 3, 4, 5, 6]) : ∃ s, group_text caps index = .ok s := by
  rw [← captured_file_name_time_regex] at hindex
  obtain ⟨captured, htext⟩ := Regex.text_of_search h hindex
  refine ⟨String.ofList captured, ?_⟩
  unfold group_text
  rw [htext]

/-- All six groups of the pattern take part in a match. -/
theorem file_name_time_returns (env : DateEnv) (file_entry : Option FileEntry) :
    ∃ time, env.file_name_time file_entry = .ok time := by
  unfold file_name_time
  split
  · exact ⟨none, rfl⟩
  split
  · exact ⟨none, rfl⟩
  rename_i caps hcaps
  obtain ⟨year, hyear⟩ := group_text_eq_ok hcaps 1 (by decide)
  obtain ⟨month, hmonth⟩ := group_text_eq_ok hcaps 2 (by decide)
  obtain ⟨day, hday⟩ := group_text_eq_ok hcaps 3 (by decide)
  obtain ⟨hour, hhour⟩ := group_text_eq_ok hcaps 4 (by decide)
  obtain ⟨minute, hminute⟩ := group_text_eq_ok hcaps 5 (by decide)
  obtain ⟨second, hsecond⟩ := group_text_eq_ok hcaps 6 (by decide)
  rw [hyear, hmonth, hday, hhour, hminute, hsecond]
  exact ⟨_, rfl⟩

/-- The time of the file name, if there is one, is a single instant. -/
def NameDated (env : DateEnv) (data : AbstractData) : Prop :=
  ∀ datetime, env.file_name_time data.path = .ok (some datetime) →
    ∃ t, env.from_local_datetime datetime = .single t

/-- Only a file has a time in its name. -/
theorem nameDated_of_path_eq_none {data : AbstractData} (h : data.path = none) :
    env.NameDated data := by
  intro datetime htime
  rw [h] at htime
  cases htime

/-- The loop comes to the file name: before it there are no fields but `DateTimeOriginal`, and this
one gives no date. -/
def ReachesFileName (env : DateEnv) (data : AbstractData) (priority_list : List String) : Prop :=
  "filename" ∈ priority_list ∧
    ∀ field ∈ priority_list.takeWhile (· != "filename"),
      field = "DateTimeOriginal" ∧ env.date_time_original data.exif_vec = none

section Loop

variable {data : AbstractData} {fields : List String} {field : String}

/-- While the field gives no date, the loop goes on. -/
theorem first_date_cons_none (h : env.field_date data field = .ok none) :
    env.first_date data (field :: fields) = env.first_date data fields := by
  rw [first_date, h]
  rfl

theorem first_date_cons_some {date : Int} (h : env.field_date data field = .ok (some date)) :
    env.first_date data (field :: fields) = .ok date := by
  rw [first_date, h]
  rfl

theorem first_date_cons_error {message : String} (h : env.field_date data field = .error message) :
    env.first_date data (field :: fields) = .error message := by
  rw [first_date, h]
  rfl

/-- A field before the file name is passed only if it is `DateTimeOriginal` and gives no date. -/
theorem reachesFileName_cons (hne : field ≠ "filename") :
    env.ReachesFileName data (field :: fields) ↔
      (field = "DateTimeOriginal" ∧ env.date_time_original data.exif_vec = none) ∧
        env.ReachesFileName data fields := by
  have htake : (field :: fields).takeWhile (· != "filename") =
      field :: fields.takeWhile (· != "filename") := by
    rw [List.takeWhile_cons, if_pos (by simpa using hne)]
  unfold ReachesFileName
  rw [htake, List.forall_mem_cons, List.mem_cons]
  constructor
  · rintro ⟨hmem | hmem, hfirst, hrest⟩
    · exact absurd hmem.symm hne
    · exact ⟨hfirst, hmem, hrest⟩
  · rintro ⟨hfirst, hmem, hrest⟩
    exact ⟨Or.inr hmem, hfirst, hrest⟩

theorem first_date_filename_iff
    (hrest : env.NameDated data → ∃ t, env.first_date data fields = .ok t) :
    (∃ t, env.first_date data ("filename" :: fields) = .ok t) ↔ env.NameDated data := by
  obtain ⟨time, htime⟩ := file_name_time_returns env data.path
  cases time with
  | none =>
    have hdated : env.NameDated data := by
      intro datetime hdatetime
      cases htime.symm.trans hdatetime
    rw [first_date_cons_none (by simp [field_date, htime, bind, Except.bind])]
    exact iff_of_true (hrest hdated) hdated
  | some datetime =>
    have honly : env.NameDated data ↔ ∃ t, env.from_local_datetime datetime = .single t := by
      refine ⟨fun h => h datetime htime, fun h datetime' htime' => ?_⟩
      obtain rfl := Option.some.inj (Except.ok.inj (htime.symm.trans htime'))
      exact h
    rw [honly]
    cases hzone : env.from_local_datetime datetime with
    | single t =>
      have hdate : env.field_date data "filename" = .ok (some t.timestamp_millis) := by
        simp [field_date, htime, hzone, LocalResult.toOption, bind, Except.bind]
      exact iff_of_true ⟨_, first_date_cons_some hdate⟩ ⟨t, rfl⟩
    | _ =>
      have herror : env.field_date data "filename" =
          .error "failed to convert datetime to local timezone" := by
        simp [field_date, htime, hzone, LocalResult.toOption, bind, Except.bind]
      rw [first_date_cons_error herror]
      simp

/-- The loop returns unless it comes to a file name whose time is no single instant. -/
theorem first_date_returns_iff (hknown : ∀ field ∈ fields, field ∈ known_fields) :
    (∃ t, env.first_date data fields = .ok t) ↔
      (env.ReachesFileName data fields → env.NameDated data) := by
  induction fields with
  | nil => exact iff_of_true ⟨0, rfl⟩ fun h => absurd h.1 List.not_mem_nil
  | cons field fields ih =>
    have hrest := ih fun f hf => hknown f (List.mem_cons_of_mem _ hf)
    -- a date is found, or there is no file name
    have hother : ∀ date, env.field_date data field = .ok date → field ≠ "filename" →
        field ≠ "DateTimeOriginal" → (date = none → data.path = none) →
        ((∃ t, env.first_date data (field :: fields) = .ok t) ↔
          (env.ReachesFileName data (field :: fields) → env.NameDated data)) := by
      intro date hdate hname hexif hnone
      rw [reachesFileName_cons hname]
      refine iff_of_true ?_ fun h => absurd h.1.1 hexif
      cases date with
      | none =>
        rw [first_date_cons_none hdate]
        exact hrest.mpr fun _ => nameDated_of_path_eq_none (hnone rfl)
      | some date => exact ⟨date, first_date_cons_some hdate⟩
    have hcases : field = "DateTimeOriginal" ∨ field = "filename" ∨ field = "scan_time" ∨
        field = "modified" ∨ field = "random" := by
      simpa [known_fields] using hknown field List.mem_cons_self
    rcases hcases with rfl | rfl | rfl | rfl | rfl
    · have hdate : env.field_date data "DateTimeOriginal" =
          .ok (env.date_time_original data.exif_vec) := rfl
      rw [reachesFileName_cons (by decide)]
      cases hexif : env.date_time_original data.exif_vec with
      | none =>
        rw [hexif] at hdate
        rw [first_date_cons_none hdate, hrest]
        simp
      | some date =>
        rw [hexif] at hdate
        exact iff_of_true ⟨date, first_date_cons_some hdate⟩ (by simp)
    · have hreaches : env.ReachesFileName data ("filename" :: fields) :=
        ⟨List.mem_cons_self, by simp⟩
      rw [first_date_filename_iff fun hdated => hrest.mpr fun _ => hdated]
      simp only [hreaches, forall_const]
    · exact hother _ rfl (by decide) (by decide) Option.map_eq_none_iff.mp
    · exact hother _ rfl (by decide) (by decide) Option.map_eq_none_iff.mp
    · exact hother _ rfl (by decide) (by decide) (by simp)

end Loop

/-- `compute_timestamp` returns unless it comes to a file name whose time the time zone skips or
repeats. -/
theorem compute_timestamp_returns_iff (env : DateEnv) (data : AbstractData)
    {priority_list : List String} (hknown : ∀ field ∈ priority_list, field ∈ known_fields) :
    (∃ t, env.compute_timestamp priority_list data = .ok t) ↔
      (env.ReachesFileName data priority_list → env.NameDated data) := by
  cases data with
  | image img | video vid => exact first_date_returns_iff hknown
  | album alb => exact iff_of_true ⟨_, rfl⟩ fun _ => nameDated_of_path_eq_none rfl

/-! ## Refreshing the tree -/

section Refresh

variable (env : DateEnv) (now : Int)

/-- The priority list of `refresh_tree_cache`. -/
def tree_priority_list : List String := ["DateTimeOriginal", "filename", "modified", "scan_time"]

def tree_view (tables : Tables) (record : AssetRecord) : AbstractData :=
  compose_abstract_data now record (tables.metadata.lookup record.asset_id)

def tree_row (tables : Tables) (record : AssetRecord) : Except String DatabaseTimestamp := do
  let abstract_data := tree_view now tables record
  let timestamp ← env.compute_timestamp tree_priority_list abstract_data
  return { abstract_data, timestamp, asset_id := record.asset_id }

/-- `refresh_tree_cache`, with what dating a row can do. -/
def refresh_tree (tables : Tables) : Except String MemoryTree := do
  let rows ← tables.assets.values.mapM (env.tree_row now tables)
  return rows.mergeSort tree_order

variable {env now}

theorem reachesFileName_tree {data : AbstractData} :
    env.ReachesFileName data tree_priority_list ↔
      env.date_time_original data.exif_vec = none := by
  unfold tree_priority_list
  rw [reachesFileName_cons (by decide)]
  constructor
  · exact fun h => h.1.2
  · intro h
    refine ⟨⟨rfl, h⟩, List.mem_cons_self, ?_⟩
    simp

/-- Where every row has a date, the tree is the one of `refresh_tree_cache`. -/
theorem refresh_tree_of_dated {tables : Tables} {timestamp : AbstractData → Int}
    (h : ∀ record ∈ tables.assets.values,
      env.compute_timestamp tree_priority_list (tree_view now tables record) =
        .ok (timestamp (tree_view now tables record))) :
    env.refresh_tree now tables = .ok (refresh_tree_cache now timestamp tables) := by
  have hrow : ∀ record ∈ tables.assets.values, env.tree_row now tables record =
      .ok ⟨tree_view now tables record, timestamp (tree_view now tables record),
        record.asset_id⟩ := by
    intro record hrecord
    simp only [tree_row, h record hrecord]
    rfl
  exact Result.bind_eq_ok.mpr ⟨_, Result.mapM_eq_ok_map hrow, rfl⟩

/-- A refresh returns exactly if no row is dated by a file name whose time the time zone skips or
repeats. -/
theorem refresh_returns_iff {tables : Tables} :
    (∃ tree, env.refresh_tree now tables = .ok tree) ↔
      ∀ record ∈ tables.assets.values,
        env.date_time_original (tree_view now tables record).exif_vec = none →
          env.NameDated (tree_view now tables record) := by
  have hknown : ∀ field ∈ tree_priority_list, field ∈ known_fields := by decide
  have hrow : ∀ data, (∃ t, env.compute_timestamp tree_priority_list data = .ok t) ↔
      (env.date_time_original data.exif_vec = none → env.NameDated data) := by
    intro data
    rw [compute_timestamp_returns_iff env data hknown, reachesFileName_tree]
  simp only [← hrow]
  constructor
  · rintro ⟨tree, htree⟩ record hrecord
    obtain ⟨rows, hrows, -⟩ := Result.bind_eq_ok.mp htree
    obtain ⟨row, hrow⟩ := Result.forall_ok_of_mapM hrows record hrecord
    obtain ⟨t, ht, -⟩ := Result.bind_eq_ok.mp hrow
    exact ⟨t, ht⟩
  · intro hdated
    let timestamp (data : AbstractData) : Int :=
      ((env.compute_timestamp tree_priority_list data).toOption).getD 0
    have hsame : ∀ record ∈ tables.assets.values,
        env.compute_timestamp tree_priority_list (tree_view now tables record) =
          .ok (timestamp (tree_view now tables record)) := by
      intro record hrecord
      obtain ⟨t, ht⟩ := hdated record hrecord
      simp only [timestamp, ht]
      rfl
    exact ⟨_, refresh_tree_of_dated hsame⟩

end Refresh

/-- A timestamp is computed, and the tree is refreshed, unless a file name is come to whose time the
time zone skips or repeats. -/
theorem timestamps_computed_iff (env : DateEnv) {priority_list : List String}
    (hknown : ∀ field ∈ priority_list, field ∈ known_fields) :
    (∀ data, (∃ t, env.compute_timestamp priority_list data = .ok t) ↔
      ∀ datetime, env.file_name_time data.path = .ok (some datetime) →
        env.ReachesFileName data priority_list →
          ∃ t, env.from_local_datetime datetime = .single t) ∧
    ∀ now tables, (∃ tree, env.refresh_tree now tables = .ok tree) ↔
      ∀ record ∈ tables.assets.values, ∀ datetime,
        env.file_name_time (tree_view now tables record).path = .ok (some datetime) →
        env.date_time_original (tree_view now tables record).exif_vec = none →
          ∃ t, env.from_local_datetime datetime = .single t := by
  refine ⟨fun data => ?_, fun now tables => ?_⟩
  · rw [compute_timestamp_returns_iff env data hknown]
    exact ⟨fun h datetime htime hreaches => h hreaches datetime htime,
      fun h hreaches datetime htime => h datetime htime hreaches⟩
  · rw [refresh_returns_iff]
    exact ⟨fun h record hrecord datetime htime hexif => h record hrecord hexif datetime htime,
      fun h record hrecord hexif datetime htime => h record hrecord datetime htime hexif⟩

/-! ## In Central Europe -/

/-- Central European time, for two times: the clocks went from two to three on 31 March 2024. -/
def central_europe (t : NaiveDateTime) : LocalResult :=
  if t.year = 2024 ∧ t.month = 3 ∧ t.day = 31 ∧ t.hour = 2 then .none
  else .single ⟨1562247000000, t⟩

/-- A server in Central Europe at the end of the year 2024. -/
def berlin : DateEnv where
  now_time := ⟨2024, 12, 31, 12, 0, 0, 0⟩
  from_local_datetime := central_europe
  parse_from_str _ := none
  is_digit := Char.isDigit
  is_word c := c.isAlphanum || c == '_'
  random_number := 4

def photo (file : String) : AbstractData :=
  .image ⟨.new 0 "h" .image, { ImageMetadata.new 1 4 3 "jpg" with path := some ⟨file, 7, 9, false⟩ }⟩

theorem compute_timestamp_july :
    (∀ field ∈ ["DateTimeOriginal", "filename"], field ∈ known_fields) ∧
      ∃ t, berlin.compute_timestamp ["DateTimeOriginal", "filename"]
        (photo "/photos/20190704_153000.jpg") = .ok t := by
  have hknown : ∀ field ∈ ["DateTimeOriginal", "filename"], field ∈ known_fields := by decide
  refine ⟨hknown, ?_⟩
  rw [(timestamps_computed_iff berlin hknown).1]
  intro datetime htime _
  have heq : berlin.file_name_time (photo "/photos/20190704_153000.jpg").path =
      .ok (some ⟨2019, 7, 4, 15, 30, 0, 0⟩) := by decide +kernel
  obtain rfl := Option.some.inj (Except.ok.inj (heq.symm.trans htime))
  exact ⟨⟨1562247000000, ⟨2019, 7, 4, 15, 30, 0, 0⟩⟩, by decide⟩

/-- A photo whose name has a time that was skipped. -/
theorem compute_timestamp_skipped_hour :
    ¬ ∃ t, berlin.compute_timestamp ["DateTimeOriginal", "filename", "modified", "scan_time"]
      (photo "/photos/20240331_023000.jpg") = .ok t := by
  have herror : berlin.compute_timestamp ["DateTimeOriginal", "filename", "modified", "scan_time"]
      (photo "/photos/20240331_023000.jpg") =
        .error "failed to convert datetime to local timezone" := by decide +kernel
  rintro ⟨t, ht⟩
  rw [herror] at ht
  cases ht

end DateEnv
