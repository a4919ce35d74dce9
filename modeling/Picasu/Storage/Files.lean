import Mathlib.Algebra.Group.Nat.Defs
import Picasu.Error
import Picasu.Framework.Path

/-! # Public and Personal Areas

Two configured roots: the image home, which everybody sees, and the users home, whose first-level
directories belong to the users they are named after. `classify_path` decides from a path alone
which area it is in, and `visible_to` and `write_gate` decide who may read and write there.

Paths are compared after canonicalization, which asks the file system. The file system's answers
are the parameter `Fs`.
-/

open PathBuf

/-- What the code asks the file system. -/
structure Fs where
  /-- `std::fs::canonicalize`: fails when the path does not exist. -/
  canonicalize : PathBuf → Option PathBuf
  /-- `Path::exists`. -/
  exists_ : PathBuf → Bool

/-- The configured roots, with the file system they live in. -/
structure Roots where
  fs : Fs
  image_home : Option PathBuf
  /-- `None` when personal areas are disabled. -/
  users_home : Option PathBuf

inductive PathClassification where
  | isPublic
  | personal (owner : String)
  | usersRoot
  | outside
  deriving DecidableEq, Repr

/-- `PathBuf::pop`: the parent, if there is one. -/
def pop (p : PathBuf) : PathBuf := (parent p).getD p

/-- `clean_path`: resolve `.` and `..` on the text of the path. -/
def clean_path (p : PathBuf) : PathBuf :=
  p.foldl (fun out comp =>
    match comp with
    | .curDir => out
    | .parentDir => pop out
    | .rootDir => [.rootDir]
    | .normal name => out ++ [.normal name]) []

/-- The loop of `canonicalize_if_exists`, on the components last to first: drop trailing names until
what is left exists. -/
def longest_existing (fs : Fs) : List Component → List String → List Component × List String
  | [], tail => ([], tail)
  | comp :: rest, tail =>
    if fs.exists_ (comp :: rest).reverse then (comp :: rest, tail)
    else
      match comp with
      | .normal name => longest_existing fs rest (name :: tail)
      | _ => (comp :: rest, tail)

/-- `canonicalize_if_exists`: canonicalize the longest existing part and add the missing names. -/
def canonicalize_if_exists (fs : Fs) (p : PathBuf) : PathBuf :=
  match fs.canonicalize p with
  | some c => c
  | none =>
    let (rev, tail) := longest_existing fs p.reverse []
    let base := rev.reverse
    let out := (fs.canonicalize base).getD (clean_path base) ++ tail.map .normal
    if out.isEmpty then clean_path p else out

variable (roots : Roots)

def classify_path (path : PathBuf) : PathClassification :=
  let canonical := canonicalize_if_exists roots.fs path
  let users_root := roots.users_home.map (canonicalize_if_exists roots.fs)
  let image_root := roots.image_home.map (canonicalize_if_exists roots.fs)
  match users_root.bind (strip canonical) with
  | some (.normal seg :: _) => .personal seg
  | some _ => .usersRoot
  | none =>
    match image_root with
    | some image_root => if starts_with canonical image_root then .isPublic else .outside
    | none => .outside

/-- `visible_to`: public and outside paths are visible to everybody, personal ones to their owner,
the users root to nobody. -/
def visible_to (caller : String) (path : PathBuf) : Bool :=
  match classify_path roots path with
  | .isPublic | .outside => true
  | .personal owner => owner == caller
  | .usersRoot => false

inductive WriteDenial where
  | usersRoot
  | notOwner
  | crossOwner
  deriving DecidableEq, Repr

/-- The check of `write_gate` on one path. -/
def write_gate_path (caller : String) : Option PathBuf → Except WriteDenial Unit
  | none => .ok ()
  | some path =>
    match classify_path roots path with
    | .usersRoot => .error .usersRoot
    | .personal owner => if owner = caller then .ok () else .error .notOwner
    | _ => .ok ()

def write_gate (caller : String) (source dest : Option PathBuf) : Except WriteDenial Unit :=
  match source.map (classify_path roots), dest.map (classify_path roots) with
  | some (.personal so), some (.personal d) =>
    if so ≠ d then .error .crossOwner
    else (write_gate_path roots caller source).bind fun _ => write_gate_path roots caller dest
  | _, _ => (write_gate_path roots caller source).bind fun _ => write_gate_path roots caller dest

/-! ## Free names -/

/-- `{n:03}`. -/
def pad3 (n : Nat) : String :=
  String.ofList (List.replicate (3 - (toString n).length) '0') ++ toString n

/-- The `n`-th name `find_unique_path` tries. -/
def unique_name (stem ext : String) (n : Nat) : String :=
  if ext = "" then stem ++ "-" ++ pad3 n else stem ++ "-" ++ pad3 n ++ "." ++ ext

/-- The first of `fuel` numbers from `n` on that is free. -/
def first_free (free : Nat → Bool) : Nat → Nat → Option Nat
  | 0, _ => none
  | fuel + 1, n => if free n then some n else first_free free fuel (n + 1)

/-- `find_unique_path`: the first `-001`, `-002`, … sibling of `base` that does not exist. -/
def find_unique_path (fs : Fs) (base : PathBuf) : Except AppError PathBuf :=
  let stem := (file_stem base).getD "file"
  let ext := (extension base).getD ""
  let parent := (parent base).getD [.curDir]
  let candidate := fun n => join parent [.normal (unique_name stem ext n)]
  match first_free (fun n => !fs.exists_ (candidate n)) (2 ^ 32 - 2) 1 with
  | some n => .ok (candidate n)
  | none => .error (.new .io ("Could not find a free filename for " ++ display base))

theorem sep_not_mem_pad3 (n : Nat) : '/' ∉ (pad3 n).toList := by
  have hdigits : '/' ∉ Nat.toDigits 10 n := by
    intro hmem
    have hdigit := Nat.isDigit_of_mem_toDigits (by decide) (by decide) hmem
    exact absurd hdigit (by decide)
  simp [pad3, hdigits]

theorem plain_unique_name {stem ext : String} (hstem : '/' ∉ stem.toList)
    (hext : '/' ∉ ext.toList) (n : Nat) : Plain (.normal (unique_name stem ext n)) := by
  have hpad := sep_not_mem_pad3 n
  apply plain_normal
  · -- the name holds a dash
    have hdash : '-' ∈ (unique_name stem ext n).toList := by
      unfold unique_name
      split <;> simp
    intro hmem
    simp only [List.mem_cons, List.not_mem_nil, or_false] at hmem
    rcases hmem with h | h | h <;> simp [h] at hdash
  · unfold unique_name
    split
    · simp [hstem, hpad]
    · simp [hstem, hext, hpad]

variable {fs : Fs}

/-- The path found is a sibling of the one asked for. -/
theorem find_unique_path_sibling {dir dest : PathBuf} {name : String}
    (hname : Plain (.normal name)) (h : find_unique_path fs (dir ++ [.normal name]) = .ok dest) :
    ∃ name', dest = dir ++ [.normal name'] ∧ Plain (.normal name') := by
  simp only [find_unique_path] at h
  split at h
  · obtain rfl := Except.ok.inj h
    rename_i n _
    obtain ⟨hstem, hext⟩ := sep_not_mem_stem (file_name_append_normal dir name) hname.2
    have hplain := plain_unique_name hstem hext n
    refine ⟨_, ?_, hplain⟩
    rw [parent_append_normal, Option.getD_some]
    exact join_of_plain dir (by simpa using hplain)
  · cases h

theorem first_free_spec {free : Nat → Bool} {fuel n m : Nat} (h : first_free free fuel n = some m) :
    free m = true := by
  induction fuel generalizing n with
  | zero => cases h
  | succ fuel ih =>
    unfold first_free at h
    split at h
    · rename_i hfree
      rw [← Option.some.inj h]
      exact hfree
    · exact ih h

/-- The path found is one of those that were tried, and nothing is there. -/
theorem find_unique_path_free {base dest : PathBuf} (h : find_unique_path fs base = .ok dest) :
    fs.exists_ dest = false ∧ ∃ n,
      file_name dest = some (unique_name ((file_stem base).getD "file") ((extension base).getD "") n) := by
  simp only [find_unique_path] at h
  split at h
  · rename_i n hn
    obtain rfl := Except.ok.inj h
    have hfree := first_free_spec hn
    exact ⟨by simpa using hfree, n, file_name_join_normal _ _⟩
  · cases h

/-- A free sibling has the extension of the path asked for. -/
theorem extension_find_unique_path {base dest : PathBuf} {ext : String}
    (h : find_unique_path fs base = .ok dest) (hext : extension base = some ext) (hne : ext ≠ "") :
    extension dest = some ext := by
  obtain ⟨-, n, hname⟩ := find_unique_path_free h
  obtain ⟨stem, hstem, -, -, hdot⟩ := exists_stem_of_extension hext
  rw [hext, hstem, Option.getD_some, Option.getD_some, unique_name, if_neg hne] at hname
  refine extension_of_file_name hname ?_ hdot
  intro hempty
  have hdash : '-' ∈ (stem ++ "-" ++ pad3 n).toList := by simp
  rw [hempty] at hdash
  cases hdash
