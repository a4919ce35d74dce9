import Picasu.Process.Media
import Picasu.Process.Sanitize
import Picasu.Router.AssignAlbum

/-! # Storing an Upload

A client sends a file with a name of its choice. `resolve_filename` turns the name into a stem, or
refuses it, and `save_file` stores the file in the target directory under the stem and an
extension that does not come from the name: first as `{stem}-{uuid}.tmp`, then by a rename as
`{stem}.{ext}` or, if that exists, as `{stem}-001.{ext}` and so on.

The names are glued as text and joined to the directory as text, so that a separator in one of the
parts would lead elsewhere.

Arguments of the model: Unicode normalization and the `Debug` texts (`TextTables`), the drawn
UUID, and how the file operations end (`SaveIo`). A path is returned as a path, not as its text.
-/

open PathBuf

/-- What comes from the Unicode tables. -/
structure TextTables where
  nfc : String → String
  /-- `format!("{s:?}")`. -/
  debug : String → String
  /-- `format!("{c:?}")`. -/
  debug_char : Char → String

/-! ## The stem -/

def auto_rename_rejected_error (tables : TextTables) (raw_filename : String)
    (sanitize : FilenameSanitize) : AppError :=
  let reasons :=
    (if sanitize.stripped ≠ [] then
      ["forbidden characters " ++ ", ".intercalate (sanitize.stripped.map tables.debug_char)]
    else []) ++
    (if sanitize.reserved then ["a reserved Windows device name"] else []) ++
    (if sanitize.normalized then ["Unicode normalization required"] else [])
  .new .invalidInput
    ("Filename " ++ tables.debug raw_filename ++ " is not safe as-is (" ++
      "; ".intercalate reasons ++
      "). Set auto_rename=true to allow the server to rename it.")

def resolve_filename (tables : TextTables) (raw_filename : String)
    (auto_rename normalize_nfc : Bool) : Except AppError String :=
  let sanitize := sanitize_filename tables.nfc raw_filename normalize_nfc
  let stem :=
    if sanitize.name = "" then "" else (file_stem (ofString sanitize.name)).getD ""
  if auto_rename then
    if stem = "" then .ok "upload" else .ok stem
  else if sanitize.changed ∨ sanitize.name = "" then
    .error (auto_rename_rejected_error tables raw_filename sanitize)
  else .ok stem

theorem Allowed.sep_not_mem {s : String} (h : Allowed s) : '/' ∉ s.toList := by
  intro hmem
  exact absurd (h _ hmem) (by decide +kernel)

variable {name ext : String}

theorem ofString_normal (h : Plain (.normal name)) : ofString name = [.normal name] := by
  have hdisplay : display [.normal name] = name := by
    simp [display, Component.text, String.ofList_toList]
  have hread := ofString_display (wellFormed_of_plain (p := [.normal name]) (by simpa using h))
  rwa [hdisplay] at hread

theorem Allowed.plain (h : Allowed name) (hname : name ∉ ["", ".", ".."]) :
    Plain (.normal name) := by
  refine plain_normal ?_ h.sep_not_mem
  simp only [List.mem_cons, List.not_mem_nil, or_false, ← String.toList_inj] at hname ⊢
  exact hname

theorem Allowed.parts {p : PathBuf} (h : Allowed name) (hname : file_name p = some name) :
    (∀ stem ∈ file_stem p, Allowed stem) ∧ ∀ ext ∈ extension p, Allowed ext := by
  unfold file_stem extension
  rw [hname]
  cases hsplit : rsplit_at_dot name.toList with
  | none => exact ⟨by simpa [hsplit] using h, by simp [hsplit]⟩
  | some parts =>
    obtain ⟨before, after⟩ := parts
    obtain ⟨hbefore, hafter⟩ := mem_of_rsplit_at_dot hsplit
    constructor
    · intro stem hstem c hc
      obtain rfl : String.ofList before = stem := by simpa [hsplit] using hstem
      exact h c (hbefore c (by simpa using hc))
    · intro ext hext c hc
      obtain rfl : String.ofList after = ext := by simpa [hsplit] using hext
      exact h c (hafter c (by simpa using hc))

theorem allowed_getD {o : Option String} {default : String} (h : ∀ s ∈ o, Allowed s)
    (hdefault : Allowed default) : Allowed (o.getD default) := by
  cases o with
  | none => exact hdefault
  | some s => exact h s rfl

/-- An accepted stem has allowed characters only. -/
theorem allowed_resolve_filename {tables : TextTables} {raw_filename filename : String}
    {auto_rename normalize_nfc : Bool} (hnfc : ∀ s, Allowed s → Allowed (tables.nfc s))
    (h : resolve_filename tables raw_filename auto_rename normalize_nfc = .ok filename) :
    Allowed filename := by
  have hname := allowed_sanitize_filename hnfc raw_filename normalize_nfc
  have hdots := sanitize_filename_ne_dots tables.nfc raw_filename normalize_nfc
  simp only [resolve_filename] at h
  generalize sanitize_filename tables.nfc raw_filename normalize_nfc = sanitize at h hname hdots
  have hempty : Allowed "" := by decide +kernel
  have hstem : Allowed
      (if sanitize.name = "" then "" else (file_stem (ofString sanitize.name)).getD "") := by
    split
    · exact hempty
    rename_i hne
    have hplain := hname.plain (List.not_mem_cons_of_ne_of_not_mem hne hdots)
    rw [ofString_normal hplain]
    exact allowed_getD (hname.parts (file_name_append_normal [] _)).1 hempty
  generalize (if sanitize.name = "" then "" else (file_stem (ofString sanitize.name)).getD "") = stem
    at h hstem
  split at h
  · split at h
    · obtain rfl := Except.ok.inj h
      decide
    · obtain rfl := Except.ok.inj h
      exact hstem
  · split at h
    · cases h
    · obtain rfl := Except.ok.inj h
      exact hstem

/-! ## The file -/

/-- The hyphenated text of a UUID. -/
structure Uuid where
  text : String
  length_text : text.toList.length = 36
  hex : ∀ c ∈ text.toList, c ∈ "0123456789abcdef-".toList
  deriving DecidableEq

theorem hex_of_all {text : String}
    (h : (text.toList.all fun c => "0123456789abcdef-".toList.contains c) = true) :
    ∀ c ∈ text.toList, c ∈ "0123456789abcdef-".toList := by
  simpa only [List.all_eq_true, List.contains_iff_mem] using h

/-- What is stored under a path. -/
structure Stored (C : Type) where
  content : C
  mtime : Nat
  deriving DecidableEq, Repr

/-- The files, and the paths where a directory stands. -/
structure Volume (C : Type) where
  files : FileMap (Stored C)
  is_dir : PathBuf → Bool

/-- How the file operations of a call end. -/
structure SaveIo (C : Type) where
  /-- `TempFile::move_copy_to`; a failed copy can leave something behind. -/
  move_copy_to : Except (Option (Stored C)) Unit
  remove_file : Bool
  set_file_mtime : Bool
  rename : Bool

/-- The arguments of `save_file`. The caller has checked the extension. -/
structure SaveArgs (C : Type) where
  /-- The client's data, where the request left it. -/
  file : Stored C
  target_dir : PathBuf
  filename : String
  extension : String
  last_modified_ms : Nat
  on_conflict : OnConflict
  /-- `Uuid::new_v4`. -/
  uuid : Uuid
  supported : (kind_for_extension extension).isSome

namespace Volume

variable {C : Type} (v : Volume C)

def exists_ (p : PathBuf) : Bool := (v.files p).isSome || v.is_dir p

/-- The answers to the questions of `find_unique_path`. -/
def fs : Fs where
  canonicalize p := if v.exists_ p then some p else none
  exists_ := v.exists_

def write (p : PathBuf) (file : Stored C) : Volume C := { v with files := v.files.write p file }

def remove_file (p : PathBuf) : Volume C := { v with files := v.files.remove p }

def set_file_mtime (p : PathBuf) (mtime : Nat) : Volume C :=
  match v.files p with
  | some file => v.write p { file with mtime }
  | none => v

def rename (source dest : PathBuf) : Volume C := { v with files := v.files.rename source dest }

end Volume

namespace SaveArgs

variable {C : Type} (args : SaveArgs C)

/-- `tmp_path` in `save_file`. -/
def tmp_path : PathBuf :=
  join args.target_dir (ofString (args.filename ++ "-" ++ args.uuid.text ++ ".tmp"))

/-- `base_final` in `save_file`. -/
def base_final : PathBuf :=
  join args.target_dir (ofString (args.filename ++ "." ++ args.extension))

/-- What the call stores: the client's data with the modification time that was asked for. -/
def stored : Stored C := { args.file with mtime := args.last_modified_ms / 1000 }

/-- The last part of `save_file`: the temporary file gets its time and its final name. -/
def finish (io : SaveIo C) (final_path : PathBuf) (v : Volume C) :
    Except AppError (Option PathBuf) × Volume C :=
  if io.set_file_mtime then
    let v := v.set_file_mtime args.tmp_path (args.last_modified_ms / 1000)
    if io.rename then (.ok (some final_path), v.rename args.tmp_path final_path)
    else (.error (.new .io "Failed to rename file"), v)
  else (.error (.new .io "Failed to set file modification time"), v)

/-- The blocking part of `save_file`. -/
def place (io : SaveIo C) (v : Volume C) : Except AppError (Option PathBuf) × Volume C :=
  if v.exists_ args.base_final then
    match args.on_conflict with
    | .skip => (.ok none, if io.remove_file then v.remove_file args.tmp_path else v)
    | .rename =>
      match find_unique_path v.fs args.base_final with
      | .ok final_path => args.finish io final_path v
      | .error e => (.error e, v)
  else args.finish io args.base_final v

/-- `save_file`, run on its own. -/
def save_file (io : SaveIo C) (v : Volume C) : Except AppError (Option PathBuf) × Volume C :=
  match io.move_copy_to with
  | .error left =>
    (.error (.new .io "Failed to move temporary file"),
      (left.map fun file => v.write args.tmp_path file).getD v)
  | .ok () => args.place io (v.write args.tmp_path args.file)

end SaveArgs

/-! ## Where an upload lands -/

/-- A direct child of a directory: one name, not a special one, without forbidden characters. The
separators are among those. -/
def ChildOf (dir p : PathBuf) : Prop :=
  ∃ name, p = dir ++ [.normal name] ∧ name ∉ ["", ".", ".."] ∧ Allowed name

theorem ne_special_of_plain (h : Plain (.normal name)) : name ∉ ["", ".", ".."] := by
  intro hmem
  simp only [List.mem_cons, List.not_mem_nil, or_false] at hmem
  rcases hmem with rfl | rfl | rfl
  · exact absurd h.1 (by decide +kernel)
  · exact absurd h.1 (by decide +kernel)
  · exact absurd h.1 (by decide +kernel)

theorem ne_special_of_length (h : 2 < name.toList.length) :
    name ∉ ["", ".", ".."] := by
  intro hmem
  simp only [List.mem_cons, List.not_mem_nil, or_false] at hmem
  rcases hmem with rfl | rfl | rfl
  · exact absurd h (by decide +kernel)
  · exact absurd h (by decide +kernel)
  · exact absurd h (by decide +kernel)

/-- A text of allowed characters that is no special name, joined to a directory, names a child of
it. -/
theorem childOf_join (dir : PathBuf) (h : Allowed name)
    (hname : name ∉ ["", ".", ".."]) : ChildOf dir (join dir (ofString name)) := by
  have hplain := h.plain hname
  rw [ofString_normal hplain, join_of_plain dir (by simpa using hplain)]
  exact ⟨name, rfl, hname, h⟩

theorem mem_of_kind_for_extension (h : (kind_for_extension ext).isSome) :
    ext ∈ SUPPORTED_FORMATS.flatMap fun format => format.extensions := by
  rw [kind_for_extension, Option.isSome_map, List.find?_isSome] at h
  obtain ⟨format, hformat, hext⟩ := h
  exact List.mem_flatMap.mpr ⟨format, hformat, by simpa using hext⟩

theorem supported_extension (h : (kind_for_extension ext).isSome) :
    Allowed ext ∧ '.' ∉ ext.toList ∧ 2 < ext.toList.length ∧ ext ≠ "tmp" := by
  have hall : ∀ ext ∈ SUPPORTED_FORMATS.flatMap fun format => format.extensions,
      Allowed ext ∧ '.' ∉ ext.toList ∧ 2 < ext.toList.length ∧ ext ≠ "tmp" := by decide +kernel
  exact hall ext (mem_of_kind_for_extension h)

theorem Uuid.allowed (uuid : Uuid) : Allowed uuid.text := by
  have hall : Allowed "0123456789abcdef-" := by decide +kernel
  intro c hc
  exact hall c (uuid.hex c hc)

theorem allowed_digit {c : Char} (h : c.isDigit = true) : is_forbidden_filename_char c = false := by
  have hrange : c.toNat < 58 ∧ 48 ≤ c.toNat := by
    simp only [Char.isDigit, Bool.and_eq_true, decide_eq_true_eq, ge_iff_le,
      UInt32.le_iff_toNat_le] at h
    exact ⟨Nat.lt_succ_of_le h.2, h.1⟩
  have hall : ∀ n < 58, 48 ≤ n → is_forbidden_filename_char (Char.ofNat n) = false := by decide +kernel
  rw [← Char.ofNat_toNat c]
  exact hall c.toNat hrange.1 hrange.2

theorem isDigit_of_mem_pad3 {n : Nat} {c : Char} (h : c ∈ (pad3 n).toList) : c.isDigit = true := by
  rw [pad3, String.toList_append, List.mem_append] at h
  rcases h with hzero | hdigit
  · rw [String.toList_ofList] at hzero
    rw [List.eq_of_mem_replicate hzero]
    decide
  · have hmem : c ∈ Nat.toDigits 10 n := by simpa using hdigit
    exact Nat.isDigit_of_mem_toDigits (by decide) (by decide) hmem

theorem allowed_pad3 (n : Nat) :
    Allowed (pad3 n) := fun _ h => allowed_digit (isDigit_of_mem_pad3 h)

theorem allowed_unique_name {stem : String} (hstem : Allowed stem) (hext : Allowed ext) (n : Nat) :
    Allowed (unique_name stem ext n) := by
  unfold unique_name
  split
  · simp only [allowed_append]
    exact ⟨⟨hstem, allowed_dash⟩, allowed_pad3 n⟩
  · simp only [allowed_append]
    exact ⟨⟨⟨⟨hstem, allowed_dash⟩, allowed_pad3 n⟩, allowed_dot⟩, hext⟩

/-- A free sibling of a child is a child. -/
theorem ChildOf.find_unique_path {fs : Fs} {dir base dest : PathBuf} (hbase : ChildOf dir base)
    (h : find_unique_path fs base = .ok dest) : ChildOf dir dest := by
  obtain ⟨name, rfl, hname, hallowed⟩ := hbase
  have hparts := hallowed.parts (file_name_append_normal dir name)
  obtain ⟨name', rfl, hplain⟩ := find_unique_path_sibling (hallowed.plain hname) h
  obtain ⟨-, n, hunique⟩ := find_unique_path_free h
  rw [file_name_append_normal] at hunique
  obtain rfl := Option.some.inj hunique
  exact ⟨_, rfl, ne_special_of_plain hplain, allowed_unique_name
    (allowed_getD hparts.1 (by decide +kernel)) (allowed_getD hparts.2 (by decide +kernel)) n⟩

namespace Volume

variable {C : Type} {v : Volume C} {p q : PathBuf}

theorem files_eq_none_of_not_exists (h : v.exists_ p = false) : v.files p = none := by
  rw [exists_, Bool.or_eq_false_iff] at h
  exact Option.isSome_eq_false_iff.mp h.1 |> Option.isNone_iff_eq_none.mp

theorem files_write (v : Volume C) (p : PathBuf) (file : Stored C) (q : PathBuf) :
    (v.write p file).files q = if q = p then some file else v.files q :=
  FileMap.write_apply p file v.files q

theorem files_set_file_mtime (v : Volume C) (p : PathBuf) (mtime : Nat) (q : PathBuf) :
    (v.set_file_mtime p mtime).files q =
      if q = p then (v.files p).map fun file => { file with mtime } else v.files q := by
  unfold set_file_mtime
  split
  · rename_i file hfile
    rw [files_write, hfile, Option.map_some]
  · rename_i hfile
    by_cases hq : q = p
    · rw [if_pos hq, hq, hfile, Option.map_none]
    · rw [if_neg hq]

end Volume

namespace SaveArgs

variable {C : Type} {args : SaveArgs C} {io : SaveIo C} {v : Volume C} {final_path : PathBuf}

/-- The last part touches the temporary and the final path only. -/
theorem files_finish_of_ne {p : PathBuf} (htmp : p ≠ args.tmp_path) (hfinal : p ≠ final_path) :
    (args.finish io final_path v).2.files p = v.files p := by
  simp only [finish]
  split
  · split
    · show FileMap.rename _ _ _ p = _
      rw [FileMap.rename_of_ne _ htmp hfinal, Volume.files_set_file_mtime, if_neg htmp]
    · show (v.set_file_mtime _ _).files p = _
      rw [Volume.files_set_file_mtime, if_neg htmp]
  · rfl

theorem finish_ok {p : PathBuf} (htmp : v.files args.tmp_path = some args.file)
    (h : (args.finish io final_path v).1 = .ok (some p)) :
    p = final_path ∧ (args.finish io final_path v).2.files final_path = some args.stored := by
  simp only [finish] at h ⊢
  split at h
  · split at h
    · obtain rfl := Option.some.inj (Except.ok.inj h)
      refine ⟨rfl, ?_⟩
      rename_i htouch hrename
      rw [if_pos htouch, if_pos hrename]
      have htouched :=
        v.files_set_file_mtime args.tmp_path (args.last_modified_ms / 1000) args.tmp_path
      rw [if_pos rfl, htmp, Option.map_some] at htouched
      show FileMap.rename _ _ _ _ = _
      rw [FileMap.rename_apply htouched, if_pos rfl]
      rfl
    · cases h
  · cases h

variable (args io v)

/-- What the blocking part does: it stays at the temporary path and returns no path, or it settles
on a path where nothing is and goes on there. -/
theorem place_cases :
    ((∀ p, (args.place io v).1 ≠ .ok (some p)) ∧
      ∀ p, p ≠ args.tmp_path → (args.place io v).2.files p = v.files p) ∨
    ∃ final_path, (final_path = args.base_final ∨
        find_unique_path v.fs args.base_final = .ok final_path) ∧
      v.exists_ final_path = false ∧ args.place io v = args.finish io final_path v := by
  unfold place
  by_cases hexists : v.exists_ args.base_final = true
  · rw [if_pos hexists]
    cases hconflict : args.on_conflict with
    | skip =>
      refine Or.inl ⟨fun p h => (by cases h), fun p hp => ?_⟩
      by_cases hremove : io.remove_file = true
      · simp only [hremove, if_true]
        exact (FileMap.remove_apply _ _ p).trans (if_neg hp)
      · simp only [hremove]
        rfl
    | rename =>
      cases hunique : find_unique_path v.fs args.base_final with
      | ok final_path =>
        exact Or.inr ⟨final_path, Or.inr rfl, (find_unique_path_free hunique).1, rfl⟩
      | error e => exact Or.inl ⟨fun p h => (by cases h), fun p hp => rfl⟩
  · rw [if_neg hexists]
    exact Or.inr ⟨args.base_final, Or.inl rfl, Bool.eq_false_iff.mpr hexists, rfl⟩

/-- A call fails at once, or the blocking part runs. -/
theorem save_file_cases :
    ((∀ p, (args.save_file io v).1 ≠ .ok (some p)) ∧
      ∀ p, p ≠ args.tmp_path → (args.save_file io v).2.files p = v.files p) ∨
    args.save_file io v = args.place io (v.write args.tmp_path args.file) := by
  unfold save_file
  cases io.move_copy_to with
  | ok _ => exact Or.inr rfl
  | error left =>
    refine Or.inl ⟨fun p h => (by cases h), fun p hp => ?_⟩
    cases left with
    | none => rfl
    | some file => exact (Volume.files_write _ _ _ _).trans (if_neg hp)

variable {args io v}

theorem childOf_tmp_path (h : Allowed args.filename) : ChildOf args.target_dir args.tmp_path := by
  refine childOf_join _ ?_ (ne_special_of_length ?_)
  · simp only [allowed_append]
    exact ⟨⟨⟨h, allowed_dash⟩, args.uuid.allowed⟩, allowed_tmp⟩
  · simp only [String.toList_append, List.length_append, args.uuid.length_text]
    omega

theorem childOf_base_final (h : Allowed args.filename) :
    ChildOf args.target_dir args.base_final := by
  obtain ⟨hext, -, hlength, -⟩ := supported_extension args.supported
  refine childOf_join _ ?_ (ne_special_of_length ?_)
  · simp only [allowed_append]
    exact ⟨⟨h, allowed_dot⟩, hext⟩
  · simp only [String.toList_append, List.length_append]
    omega

/-- An accepted upload stays in its directory: the temporary file and the stored one are children of
it with allowed names, whatever the client called the file. A call on its own, however it ends,
leaves every file alone that was there before; the drawn UUID is one that names no file. -/
theorem uploads_stay_in_target_dir (args : SaveArgs C) (io : SaveIo C) (v : Volume C)
    {tables : TextTables} {raw_filename : String} {auto_rename normalize_nfc : Bool}
    (hnfc : ∀ s, Allowed s → Allowed (tables.nfc s))
    (hname : resolve_filename tables raw_filename auto_rename normalize_nfc = .ok args.filename)
    (huuid : v.files args.tmp_path = none) :
    ChildOf args.target_dir args.tmp_path ∧
      (∀ p, (args.save_file io v).1 = .ok (some p) →
        ChildOf args.target_dir p ∧ (args.save_file io v).2.files p = some args.stored) ∧
      ∀ p, (v.files p).isSome → (args.save_file io v).2.files p = v.files p := by
  have hallowed := allowed_resolve_filename hnfc hname
  have hbase := childOf_base_final hallowed
  refine ⟨childOf_tmp_path hallowed, ?_⟩
  have hne : ∀ p, (v.files p).isSome → p ≠ args.tmp_path := by
    rintro p hp rfl
    rw [huuid] at hp
    cases hp
  have hwrite : ∀ p, (v.files p).isSome →
      (v.write args.tmp_path args.file).files p = v.files p := by
    intro p hp
    rw [Volume.files_write, if_neg (hne p hp)]
  rcases save_file_cases args io v with ⟨hnone, hkept⟩ | hsave
  · exact ⟨fun p h => absurd h (hnone p), fun p hp => hkept p (hne p hp)⟩
  rw [hsave]
  rcases place_cases args io (v.write args.tmp_path args.file) with
    ⟨hnone, hkept⟩ | ⟨final_path, hfinal, hfree, hplace⟩
  · exact ⟨fun p h => absurd h (hnone p), fun p hp => (hkept p (hne p hp)).trans (hwrite p hp)⟩
  rw [hplace]
  constructor
  · intro p hp
    obtain ⟨rfl, hstored⟩ := finish_ok (by rw [Volume.files_write, if_pos rfl]) hp
    refine ⟨?_, hstored⟩
    rcases hfinal with rfl | hunique
    · exact hbase
    · exact hbase.find_unique_path hunique
  · intro p hp
    have hother : p ≠ final_path := by
      rintro rfl
      rw [← hwrite p hp, Volume.files_eq_none_of_not_exists hfree] at hp
      cases hp
    rw [files_finish_of_ne (hne p hp) hother, hwrite p hp]

def plain_tables : TextTables where
  nfc := id
  debug := id
  debug_char := fun c => String.ofList [c]

theorem jpg_supported : (kind_for_extension "jpg").isSome := by decide +kernel

/-- The upload of a picture that a client calls `../album/a.jpg`. -/
def dotted_upload : SaveArgs String where
  file := ⟨"new", 0⟩
  target_dir := ofString "/photos/album"
  filename := "..albuma"
  extension := "jpg"
  last_modified_ms := 5000
  on_conflict := .rename
  uuid := ⟨"00000000-0000-4000-8000-000000000000", by decide, hex_of_all (by decide)⟩
  supported := jpg_supported

/-- A volume with one file, where the upload would be stored. -/
def dotted_volume : Volume String where
  files p := if p = ofString "/photos/album/..albuma.jpg" then some ⟨"old", 1⟩ else none
  is_dir _ := false

/-- Every operation succeeds. -/
def all_well : SaveIo String := ⟨.ok (), true, true, true⟩

/-- The client's dots stay a part of one name, and the file that has it keeps it. -/
theorem dotted_upload_stays :
    resolve_filename plain_tables "../album/a.jpg" true true = .ok dotted_upload.filename ∧
    (dotted_upload.save_file all_well dotted_volume).1 =
      .ok (some (ofString "/photos/album/..albuma-001.jpg")) ∧
    ChildOf (ofString "/photos/album") (ofString "/photos/album/..albuma-001.jpg") ∧
    (dotted_upload.save_file all_well dotted_volume).2.files
      (ofString "/photos/album/..albuma.jpg") = some ⟨"old", 1⟩ := by
  have hname : resolve_filename plain_tables "../album/a.jpg" true true =
      .ok dotted_upload.filename := by decide +kernel
  have hsaved : (dotted_upload.save_file all_well dotted_volume).1 =
      .ok (some (ofString "/photos/album/..albuma-001.jpg")) := by decide +kernel
  obtain ⟨-, hstored, hkept⟩ := uploads_stay_in_target_dir dotted_upload all_well dotted_volume
    (fun _ h => h) hname (by decide +kernel)
  refine ⟨hname, hsaved, (hstored _ hsaved).1, ?_⟩
  rw [hkept _ (by decide +kernel)]
  decide +kernel

end SaveArgs
