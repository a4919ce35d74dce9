import Picasu.Framework.FileMap
import Picasu.Router.AssignAlbum

/-! # The Files a Move Touches

`move_asset_into_album` on a media asset renames the file, and then the sidecar beside it if there
is one. The check that the destination is free is made for the file only: the sidecar is renamed
onto whatever stands at its new name, and a rename of the sidecar that fails is ignored.

Where the file goes is decided before the first rename, by `move_target`: to another directory, in
which nothing has its name (`move_target_free`).
-/

open PathBuf

/-- The two renames. `refused` says that the second one fails. -/
def rename_with_sidecar (refused : Bool) (source_path final_dest : PathBuf)
    (files : FileMap ByteArray) : FileMap ByteArray :=
  let files := files.rename source_path final_dest
  let sidecar := with_extension source_path "xmp"
  -- nothing asks whether the new name of the sidecar is free
  if (files sidecar).isSome && !refused then
    files.rename sidecar (with_extension final_dest "xmp")
  else files

/-- The files after `move_asset_into_album`, for the record of a file. -/
def move_file_on_disk (env : MoveEnv) (refused : Bool) (album_dir : PathBuf)
    (on_conflict : OnConflict) (caller : String) (record : AssetRecord)
    (files : FileMap ByteArray) : FileMap ByteArray :=
  match move_target env album_dir on_conflict caller record with
  | .ok (some final_dest, _) =>
    match env.rename (ofString record.path) final_dest with
    | .ok _ => rename_with_sidecar refused (ofString record.path) final_dest files
    | .error _ => files
  | _ => files

section Handler

variable {env : MoveEnv} {album_dir : PathBuf} {on_conflict : OnConflict} {caller : String}
  {record : AssetRecord}

/-- What is moved goes to a free name in another directory, and keeps its extension. -/
theorem move_target_free {final_dest : PathBuf} {outcome : AssignOutcome} {ext : String}
    (hext : extension (ofString record.path) = some ext) (hne : ext ≠ "")
    (h : move_target env album_dir on_conflict caller record = .ok (some final_dest, outcome)) :
    env.roots.fs.exists_ final_dest = false ∧
      final_dest.dropLast ≠ (ofString record.path).dropLast ∧ extension final_dest = some ext := by
  simp only [move_target, Result.bind_eq_ok, Result.guard_eq_ok, Result.ok_or_eq_ok] at h
  obtain ⟨hexists, -, -, name, hname, h⟩ := h
  -- the wanted destination is the album's directory with the file's name
  have hsource := exists_of_file_name hname
  have hplain := plain_of_file_name (wellFormed_ofString record.path) hname
  rw [join_of_plain album_dir (by simpa using hplain)] at h
  split at h
  · cases (Prod.mk.inj (Except.ok.inj h)).1
  rename_i hthere
  rw [Result.mapError_eq_ok] at h
  obtain ⟨name', hdest, -⟩ := landing_sibling hplain h
  have hbase : extension (album_dir ++ [.normal name]) = some ext := by
    unfold extension at hext ⊢
    rw [hname] at hext
    rw [file_name_append_normal]
    exact hext
  refine ⟨?_, ?_, ?_⟩
  · rcases landing_cases h with ⟨hfree, rfl⟩ | hunique
    · exact hfree
    · exact (find_unique_path_free hunique).1
  · -- in the directory of the file, the wanted name is the file itself
    intro hsame
    rw [hdest, List.dropLast_concat] at hsame
    rw [hsame, ← hsource] at hthere
    exact hthere ⟨by simpa using hexists, rfl⟩
  · rcases landing_cases h with ⟨-, rfl⟩ | hunique
    · exact hbase
    · exact extension_find_unique_path hunique hbase hne

end Handler
