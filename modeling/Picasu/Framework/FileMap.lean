import Mathlib.Logic.Function.Basic
import Picasu.Framework.Path

/-! # Files by Path

The regular files of a file system, as what their paths hold. Directories are not represented: an
operation that a file system refuses is one that the user of this module does not perform.

A path is a key here. Two paths that lead to one file through links or through `..` are two keys.
-/

/-- What stands at each path; nothing where there is no file. -/
abbrev FileMap (B : Type) := PathBuf → Option B

namespace FileMap

variable {B : Type}

def write (p : PathBuf) (bytes : B) (files : FileMap B) : FileMap B :=
  Function.update files p (some bytes)

/-- `fs::remove_file`; a missing file stays missing. -/
def remove (p : PathBuf) (files : FileMap B) : FileMap B := Function.update files p none

/-- `fs::rename`: what stood at the destination is gone. Nothing happens where there is no file to
rename. -/
def rename (source dest : PathBuf) (files : FileMap B) : FileMap B :=
  match files source with
  | some bytes => write dest bytes (remove source files)
  | none => files

theorem write_apply (p : PathBuf) (bytes : B) (files : FileMap B) (q : PathBuf) :
    write p bytes files q = if q = p then some bytes else files q :=
  Function.update_apply files p (some bytes) q

theorem remove_apply (p : PathBuf) (files : FileMap B) (q : PathBuf) :
    remove p files q = if q = p then none else files q :=
  Function.update_apply files p none q

theorem rename_apply {source dest : PathBuf} {files : FileMap B} {bytes : B}
    (h : files source = some bytes) (q : PathBuf) :
    rename source dest files q =
      if q = dest then some bytes else if q = source then none else files q := by
  unfold rename
  rw [h]
  show write dest bytes (remove source files) q = _
  rw [write_apply, remove_apply]

theorem rename_of_ne {source dest q : PathBuf} (files : FileMap B) (hsource : q ≠ source)
    (hdest : q ≠ dest) : rename source dest files q = files q := by
  cases h : files source with
  | some bytes => rw [rename_apply h, if_neg hdest, if_neg hsource]
  | none => simp [rename, h]

end FileMap
