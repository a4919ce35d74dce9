import Picasu.Framework.Table
import Picasu.Framework.Text
import Picasu.Storage.Files

/-! # Directory Albums

Every directory under the roots that holds media is an album. The server keeps the cache
`DIR_ALBUM_CACHE` from directories to album ids. Handlers read it in the three ways below;
indexing adds and evicts entries, and a move of a directory rewrites those below it.

The keys are paths, compared by components; where the code prints a key, it is printed in its
normal form.
-/

abbrev DirAlbumCache := Table PathBuf String

namespace DirAlbumCache

/-- `get_dir_path_for_album`: the first directory held under the id. -/
def get_dir_path_for_album (cache : DirAlbumCache) (album_id : String) : Option PathBuf :=
  (cache.entries.find? fun e => e.2 == album_id).map fun e => e.1

def get_parent_album_id (cache : DirAlbumCache) (dir_path : PathBuf) : Option String :=
  (PathBuf.parent dir_path).bind fun parent => cache.lookup parent

def get_album_id_for_dir (cache : DirAlbumCache) (dir_path : PathBuf) : Option String :=
  cache.lookup dir_path

end DirAlbumCache

/-- `rewrite_dir_album_cache_prefix`: the directory `old_dir` and what is below it now are at
`new_dir`. -/
def rewrite_dir_album_cache_prefix (old_dir new_dir : PathBuf) (cache : DirAlbumCache) :
    DirAlbumCache :=
  (cache.entries.filter fun e => PathBuf.starts_with e.1 old_dir).foldl (fun cache e =>
    let cache := cache.erase e.1
    match PathBuf.strip e.1 old_dir with
    | some rel => cache.insert (PathBuf.join new_dir rel) e.2
    | none => cache) cache

namespace DirAlbumCache

/-- Every cached directory is a path parsed from some text. -/
def WellFormed (cache : DirAlbumCache) : Prop :=
  ∀ dir album_id, cache.lookup dir = some album_id → PathBuf.WellFormed dir

variable {cache : DirAlbumCache}

theorem lookup_of_get_dir_path {album_id : String} {dir : PathBuf}
    (h : cache.get_dir_path_for_album album_id = some dir) : cache.lookup dir = some album_id := by
  obtain ⟨e, hfind, rfl⟩ := Option.map_eq_some_iff.mp h
  have hid : e.2 = album_id := by simpa using List.find?_some hfind
  rw [Table.lookup_eq_some_iff, ← hid]
  exact List.mem_of_find?_eq_some hfind

theorem WellFormed.erase (h : cache.WellFormed) (dir : PathBuf) :
    WellFormed (cache.erase dir) := by
  intro d album_id hlook
  have hne : d ≠ dir := by
    rintro rfl
    simp [AList.lookup_erase] at hlook
  rw [AList.lookup_erase_ne hne] at hlook
  exact h d album_id hlook

theorem WellFormed.insert (h : cache.WellFormed) {dir : PathBuf}
    (hdir : PathBuf.WellFormed dir) (album_id : String) :
    WellFormed (AList.insert dir album_id cache) := by
  intro d id hlook
  by_cases hd : d = dir
  · rwa [hd]
  · rw [AList.lookup_insert_ne hd] at hlook
    exact h d id hlook

/-- Rewriting keeps the cache well-formed, for a directory that is not the empty path. -/
theorem WellFormed.rewrite (h : cache.WellFormed)
    {old_dir new_dir : PathBuf} (hold : old_dir ≠ []) (hnew : PathBuf.WellFormed new_dir) :
    WellFormed <| rewrite_dir_album_cache_prefix old_dir new_dir cache := by
  unfold rewrite_dir_album_cache_prefix
  -- the entries rewritten are those of the cache before the loop
  have hentries : ∀ e ∈ cache.entries.filter (fun e => PathBuf.starts_with e.1 old_dir),
      PathBuf.WellFormed e.1 := by
    intro e he
    exact h e.1 e.2 (Table.lookup_eq_some_iff.mpr (List.mem_filter.mp he).1)
  generalize cache.entries.filter (fun e => PathBuf.starts_with e.1 old_dir) = entries at hentries
  induction entries generalizing cache with
  | nil => exact h
  | cons e entries ih =>
    rw [List.foldl_cons]
    refine ih ?_ fun e' he' => hentries e' (List.mem_cons_of_mem _ he')
    cases hstrip : PathBuf.strip e.1 old_dir with
    | none => exact h.erase e.1
    | some rel =>
      have hrel := PathBuf.plain_of_strip (hentries e List.mem_cons_self) hold hstrip
      refine (h.erase e.1).insert ?_ e.2
      rw [PathBuf.join_of_plain new_dir hrel]
      exact PathBuf.wellFormed_append hnew hrel

/-! ## Where the rewritten entries are -/

section Rewrite

variable {old_dir new_dir : PathBuf}

/-- One turn of the loop of `rewrite_dir_album_cache_prefix`. -/
def rewrite_entry (old_dir new_dir : PathBuf) (cache : DirAlbumCache)
    (e : Sigma fun _ : PathBuf => String) : DirAlbumCache :=
  match PathBuf.strip e.1 old_dir with
  | some rel => AList.insert (PathBuf.join new_dir rel) e.2 (AList.erase e.1 cache)
  | none => AList.erase e.1 cache

variable {cache : DirAlbumCache} {rel : PathBuf} {album_id : String}
  {entries : List (Sigma fun _ : PathBuf => String)}

theorem rewrite_entry_below (hrel : ∀ c ∈ rel, PathBuf.Plain c) :
    rewrite_entry old_dir new_dir cache ⟨old_dir ++ rel, album_id⟩ =
      AList.insert (new_dir ++ rel) album_id (AList.erase (old_dir ++ rel) cache) := by
  have hstrip : PathBuf.strip (old_dir ++ rel) old_dir = some rel := PathBuf.strip_append old_dir rel
  simp only [rewrite_entry, hstrip]
  rw [PathBuf.join_of_plain new_dir hrel]

/-- Entries below the directory, none of them at the path `dir` before or after, leave it alone. -/
theorem lookup_foldl_rewrite_entry_ne {dir : PathBuf}
    (hbelow : ∀ e ∈ entries, ∃ rel, e.1 = old_dir ++ rel ∧ (∀ c ∈ rel, PathBuf.Plain c) ∧
      old_dir ++ rel ≠ dir ∧ new_dir ++ rel ≠ dir) :
    (entries.foldl (rewrite_entry old_dir new_dir) cache).lookup dir = cache.lookup dir := by
  induction entries generalizing cache with
  | nil => rfl
  | cons e entries ih =>
    obtain ⟨rel, hdir, hrel, hold, hnew⟩ := hbelow e List.mem_cons_self
    obtain ⟨d, album_id⟩ := e
    subst hdir
    rw [List.foldl_cons, ih fun e' he' => hbelow e' (List.mem_cons_of_mem _ he'),
      rewrite_entry_below hrel, AList.lookup_insert_ne hnew.symm, AList.lookup_erase_ne hold.symm]

/-- Each entry is found at its new path, and no longer at its old one. -/
theorem lookup_foldl_rewrite_entry (hapart : ∀ rel rel', new_dir ++ rel ≠ old_dir ++ rel')
    (hnodup : entries.NodupKeys)
    (hbelow : ∀ e ∈ entries, ∃ rel, e.1 = old_dir ++ rel ∧ ∀ c ∈ rel, PathBuf.Plain c)
    (hmem : ⟨old_dir ++ rel, album_id⟩ ∈ entries) :
    (entries.foldl (rewrite_entry old_dir new_dir) cache).lookup (new_dir ++ rel) = some album_id ∧
      (entries.foldl (rewrite_entry old_dir new_dir) cache).lookup (old_dir ++ rel) = none := by
  induction entries generalizing cache with
  | nil => cases hmem
  | cons e entries ih =>
    obtain ⟨hfresh, hnodup⟩ := List.nodupKeys_cons.mp hnodup
    have hrest : ∀ e' ∈ entries, ∃ rel, e'.1 = old_dir ++ rel ∧ ∀ c ∈ rel, PathBuf.Plain c :=
      fun e' he' => hbelow e' (List.mem_cons_of_mem e he')
    rw [List.foldl_cons]
    rcases List.mem_cons.mp hmem with rfl | hmem
    · -- the later entries are other ones
      have hothers : ∀ e' ∈ entries, ∃ rel', e'.1 = old_dir ++ rel' ∧
          (∀ c ∈ rel', PathBuf.Plain c) ∧ rel' ≠ rel := by
        intro e' he'
        obtain ⟨rel', hdir, hrel'⟩ := hrest e' he'
        refine ⟨rel', hdir, hrel', ?_⟩
        rintro rfl
        apply hfresh
        rw [List.mem_keys]
        exact ⟨e'.2, by rw [← hdir]; exact he'⟩
      obtain ⟨rel₀, hdir, hrel⟩ := hbelow _ List.mem_cons_self
      obtain rfl : rel = rel₀ := List.append_cancel_left hdir
      rw [rewrite_entry_below hrel]
      constructor
      · rw [lookup_foldl_rewrite_entry_ne, AList.lookup_insert]
        intro e' he'
        obtain ⟨rel', hdir, hrel', hne⟩ := hothers e' he'
        exact ⟨rel', hdir, hrel', (hapart rel rel').symm, fun h => hne (List.append_cancel_left h)⟩
      · rw [lookup_foldl_rewrite_entry_ne, AList.lookup_insert_ne (hapart rel rel).symm,
          AList.lookup_erase]
        intro e' he'
        obtain ⟨rel', hdir, hrel', hne⟩ := hothers e' he'
        exact ⟨rel', hdir, hrel', fun h => hne (List.append_cancel_left h), hapart rel' rel⟩
    · exact ih hnodup hrest hmem

theorem below_of_mem_filter (h : cache.WellFormed) (hold : old_dir ≠ [])
    {e : Sigma fun _ : PathBuf => String}
    (he : e ∈ cache.entries.filter fun e => PathBuf.starts_with e.1 old_dir) :
    ∃ rel, e.1 = old_dir ++ rel ∧ ∀ c ∈ rel, PathBuf.Plain c := by
  obtain ⟨hentry, hstart⟩ := List.mem_filter.mp he
  obtain ⟨rel, hrel⟩ := PathBuf.starts_with_iff.mp hstart
  refine ⟨rel, hrel, ?_⟩
  have hwf := h e.1 e.2 (Table.lookup_eq_some_iff.mpr hentry)
  exact PathBuf.plain_of_strip hwf hold (PathBuf.strip_eq_some.mpr hrel)

variable {after : DirAlbumCache}

/-- A cached directory below the old one is cached at its new path under the same id, and no longer
at its old path, if the new directory is apart from the old one. -/
theorem lookup_rewrite (h : cache.WellFormed) (hold : old_dir ≠ [])
    (hapart : ∀ rel rel', new_dir ++ rel ≠ old_dir ++ rel')
    (hdir : cache.lookup (old_dir ++ rel) = some album_id)
    (hafter : rewrite_dir_album_cache_prefix old_dir new_dir cache = after) :
    after.lookup (new_dir ++ rel) = some album_id ∧ after.lookup (old_dir ++ rel) = none := by
  subst hafter
  apply lookup_foldl_rewrite_entry hapart
  · exact cache.nodupKeys.sublist List.filter_sublist
  · exact fun e he => below_of_mem_filter h hold he
  · exact List.mem_filter.mpr ⟨Table.lookup_eq_some_iff.mp hdir, PathBuf.starts_with_append old_dir rel⟩

/-- A directory that is below neither keeps its entry. -/
theorem lookup_rewrite_ne (h : cache.WellFormed) (hold : old_dir ≠ []) {dir : PathBuf}
    (hdir : ∀ rel, old_dir ++ rel ≠ dir ∧ new_dir ++ rel ≠ dir)
    (hafter : rewrite_dir_album_cache_prefix old_dir new_dir cache = after) :
    after.lookup dir = cache.lookup dir := by
  subst hafter
  apply lookup_foldl_rewrite_entry_ne
  intro e he
  obtain ⟨rel, hrel, hplain⟩ := below_of_mem_filter h hold he
  exact ⟨rel, hrel, hplain, hdir rel⟩

end Rewrite

end DirAlbumCache

/-- What decides where an album is and who sees it: the configured roots and the directory cache. -/
structure Layout where
  roots : Roots
  dirs : DirAlbumCache

/-- The check every share handler starts with: the album is known and its directory is visible to
the caller. -/
def Layout.check_album (layout : Layout) (caller album_id : String) : Except AppError Unit :=
  match layout.dirs.get_dir_path_for_album album_id with
  | none => .error (.new .notFound "Album not found")
  | some album_dir =>
    if visible_to layout.roots caller album_dir then .ok ()
    else .error (.new .notFound "Album not found")

/-- `prettify_dir_name`, over the Unicode upper-casing of a character. -/
def prettify_dir_name (to_uppercase : Char → String) (name : String) : String :=
  let spaced := name.toList.map fun c => if c = '_' ∨ c = '-' ∨ c = '.' then ' ' else c
  let words := (spaced.splitOnP Text.isWhitespace).filter fun w => !w.isEmpty
  " ".intercalate <| words.map fun
    | [] => ""
    | c :: rest => to_uppercase c ++ String.ofList rest

/-- `derive_default_title`: the prettified name of the directory. -/
def derive_default_title (to_uppercase : Char → String) (dir_path : String) : String :=
  prettify_dir_name to_uppercase ((PathBuf.file_name (PathBuf.ofString dir_path)).getD "Album")
