import Picasu.Framework.FileMap
import Picasu.Storage.AssetStore

/-! # The Files of an Asset

A media file, its sidecar beside it, and the preview that was generated for its content. Previews
live in the server's own data directory, under their content hash, and are shared by the assets
with that content.

A file system may refuse to remove a file; the code then logs and goes on. `refuses` says for
which paths it does.
-/

open PathBuf

/-- The files the server works on: those of the libraries, and the previews in its own directory. -/
structure MediaDisk where
  files : FileMap ByteArray
  compressed : FileMap ByteArray

variable (refuses : PathBuf → Bool)

/-- `std::fs::remove_file`, where a failure is only logged. A missing file is no failure. -/
def remove_file (p : PathBuf) (files : FileMap ByteArray) : FileMap ByteArray :=
  if refuses p then files else files.remove p

/-- `remove_asset_file`: the file and the sidecar beside it. -/
def remove_asset_file (original : PathBuf) (files : FileMap ByteArray) : FileMap ByteArray :=
  remove_file refuses (with_extension original "xmp") (remove_file refuses original files)

/-- `compressed_path`, relative to the data directory; albums have none. -/
def compressed_path (data : AbstractData) : Option PathBuf :=
  let dir := [Component.normal "object", .normal "compressed",
    .normal (String.ofList (data.hash.toList.take 2))]
  match data with
  | .image _ => some (dir ++ [.normal (data.hash ++ ".jpg")])
  | .video _ => some (dir ++ [.normal (data.hash ++ ".mp4")])
  | .album _ => none

/-- `remove_compressed_thumbnail`: the preview stays while another asset has the content. -/
def remove_compressed_thumbnail (store : AssetStore) (data : AbstractData)
    (compressed : FileMap ByteArray) : FileMap ByteArray :=
  if 1 < (store.get_dupe_ids data.hash).length then compressed
  else
    match compressed_path data with
    | some thumb => remove_file refuses thumb compressed
    | none => compressed

/-- `prune_asset_path`: the record without its path, if that is the target, and whether it still has
one. The file at the target goes either way. -/
def prune_asset_path (store : AssetStore) (data : AbstractData) (target : String)
    (disk : MediaDisk) : Bool × AbstractData × MediaDisk :=
  -- first of all, and whether or not the record is at the target
  let disk := { disk with files := remove_asset_file refuses (ofString target) disk.files }
  match data with
  | .album alb => (false, .album alb, disk)
  | data =>
    let data := data.edit_path fun path_slot =>
      path_slot.filter fun a => ofString a.file != ofString target
    if data.path.isNone then
      (false, data,
        { disk with compressed := remove_compressed_thumbnail refuses store data disk.compressed })
    else (true, data, disk)

theorem remove_file_apply (p : PathBuf) (files : FileMap ByteArray) (q : PathBuf) :
    remove_file refuses p files q = if q = p ∧ refuses p = false then none else files q := by
  unfold remove_file
  by_cases hrefuses : refuses p
  · rw [if_pos hrefuses, if_neg (by simp [hrefuses])]
  · rw [if_neg hrefuses, FileMap.remove_apply]
    simp [Bool.eq_false_iff.mpr hrefuses]

theorem remove_asset_file_apply (original : PathBuf) (files : FileMap ByteArray) (q : PathBuf) :
    remove_asset_file refuses original files q =
      if q = with_extension original "xmp" ∧ refuses (with_extension original "xmp") = false then none
      else if q = original ∧ refuses original = false then none
      else files q := by
  unfold remove_asset_file
  rw [remove_file_apply, remove_file_apply]

/-- Removing an asset's files touches the file and its sidecar only. -/
theorem remove_asset_file_other {original q : PathBuf} (files : FileMap ByteArray)
    (hfile : q ≠ original) (hsidecar : q ≠ with_extension original "xmp") :
    remove_asset_file refuses original files q = files q := by
  rw [remove_asset_file_apply, if_neg fun h => hsidecar h.1, if_neg fun h => hfile h.1]

/-- Of a file that is there, the file and the sidecar stay exactly when the file system refuses to
remove them. -/
theorem remove_asset_file_keeps_iff {original : PathBuf} {files : FileMap ByteArray}
    (hthere : files original ≠ none) :
    let sidecar := with_extension original "xmp"
    (remove_asset_file refuses original files original = files original ∧
        remove_asset_file refuses original files sidecar = files sidecar) ↔
      refuses original = true ∧ (files sidecar = none ∨ refuses sidecar = true) := by
  intro sidecar
  have hcases : ∀ q, remove_asset_file refuses original files q =
      if q = sidecar ∧ refuses sidecar = false then none
      else if q = original ∧ refuses original = false then none else files q :=
    remove_asset_file_apply refuses original files
  constructor
  · rintro ⟨hfile, hsidecar⟩
    refine ⟨?_, ?_⟩
    · by_contra hremoved
      have hsecond : original = original ∧ refuses original = false :=
        ⟨rfl, Bool.eq_false_iff.mpr hremoved⟩
      rw [hcases original, if_pos hsecond, ite_self] at hfile
      exact hthere hfile.symm
    · by_cases hremoved : refuses sidecar = true
      · exact Or.inr hremoved
      · rw [hcases sidecar, if_pos ⟨rfl, Bool.eq_false_iff.mpr hremoved⟩] at hsidecar
        exact Or.inl hsidecar.symm
  · rintro ⟨hrefused, hsidecar⟩
    have hkept : ∀ q, remove_asset_file refuses original files q = files q := by
      intro q
      have hsecond : ¬ (q = original ∧ refuses original = false) := by simp [hrefused]
      rw [hcases q, if_neg hsecond]
      split
      · -- the sidecar is removed only if it is not there
        rename_i hremoved
        rcases hsidecar with habsent | hrefused'
        · rw [hremoved.1, habsent]
        · simp [hrefused'] at hremoved
      · rfl
    exact ⟨hkept original, hkept sidecar⟩

/-- Pruning removes the files at the target, whatever the record says. -/
theorem prune_asset_path_files (store : AssetStore) (data : AbstractData) (target : String)
    (disk : MediaDisk) :
    (prune_asset_path refuses store data target disk).2.2.files =
      remove_asset_file refuses (ofString target) disk.files := by
  unfold prune_asset_path
  cases data with
  | album alb => rfl
  | image img | video vid =>
    dsimp only
    split <;> rfl
