import Picasu.Process.Media
import Picasu.Process.ReadBack
import Picasu.Router.Delete
import Picasu.Router.MoveFiles

/-! # Files With One Sidecar

The sidecar of a media file has the name of the file with the extension replaced, so `a.jpg` and
`a.png` of one directory have the same sidecar. An edit of one is then an edit of the other, a
deletion of one deletes the metadata of the other, and a move takes it away. A move also renames
the sidecar onto the one that stands at the destination.

For each of the three operations on a file `p`, its effect on the files is stated path by path,
and from that when it leaves another file `q` and what an index of `q` reads alone (`Isolated`).
-/

open PathBuf

variable {kit : Xmpkit} {files after : FileMap ByteArray} {p q : PathBuf}

/-! ## Temporary files -/

theorem extension_temp_path (target : PathBuf) : extension (temp_path target) = some "tmp" := by
  have hname : file_name (temp_path target) =
      some (("." ++ (file_name target).getD "xmp") ++ "." ++ "tmp") := by
    have hdot : ∀ s : String, s ++ ".tmp" = s ++ "." ++ "tmp" := by
      intro s
      rw [String.append_assoc]
      rfl
    unfold temp_path
    rw [file_name_join_normal, hdot]
  refine extension_of_file_name hname ?_ (by decide)
  intro hempty
  simpa using congrArg String.toList hempty

/-- Media files and their sidecars are no temporary files. -/
theorem MediaPath.lasting (hp : MediaPath p) : Lasting p ∧ Lasting (sidecar_of p) := by
  constructor
  · rintro target rfl
    obtain ⟨ext, hext, hmem⟩ := hp
    rw [extension_temp_path] at hext
    obtain rfl := Option.some.inj hext
    simp at hmem
  · intro target heq
    have hext := extension_sidecar_of hp
    rw [heq, extension_temp_path] at hext
    exact absurd hext (by decide)

/-! ## Isolation -/

/-- The bytes of `q` and what an index of `q` reads are as before, and so is every file there was,
apart from `p` and its sidecar. -/
structure Isolated (kit : Xmpkit) (p q : PathBuf) (files after : FileMap ByteArray) : Prop where
  bytes : after q = files q
  fields : read_fields (extract_xmp_data_from_file kit after q) =
    read_fields (extract_xmp_data_from_file kit files q)
  others : ∀ r, files r ≠ none → r ≠ p → r ≠ sidecar_of p → after r = files r

theorem Isolated.refl : Isolated kit p q files files := ⟨rfl, rfl, fun _ _ _ _ => rfl⟩

/-! ## Edits -/

/-- An edit of `p` is none of `q`: the temporary file is free, and if the two have one sidecar, what
an index of `q` read is what the edit stores. -/
def EditApart (kit : Xmpkit) (data : AbstractData) (p q : PathBuf) (files : FileMap ByteArray) :
    Prop :=
  files (temp_path (sidecar_of p)) = none ∧
    (sidecar_of q = sidecar_of p →
      fields_back (stored_fields data) = read_fields (extract_xmp_data_from_file kit files q))

variable {data : AbstractData}

theorem sidecar_path_of_path {entry : FileEntry}
    (h : data.path = some entry) : sidecar_path data = some (sidecar_of (ofString entry.file)) := by
  cases data with
  | album alb => cases h
  | image img =>
    show (AbstractData.image img).path.map _ = _
    rw [h]
    rfl
  | video vid =>
    show (AbstractData.video vid).path.map _ = _
    rw [h]
    rfl

/-- The write phase of a request on one item: it fails before it touches a file, or with a temporary
file that remains, or it writes the sidecar. -/
theorem write_phase_single {σ : Type} (unreadable : Nat → Option String)
    (faults : Nat → SidecarFaults) {item : EditedItem} {target : PathBuf} (db : σ)
    (events : List CommitEvent) (hpath : sidecar_path item.data = some target) :
    let written := write_phase (SidecarIo.xmp kit unreadable faults) 0 [item] [] ⟨files, db, events⟩
    ((∃ err, written.1 = .error err) ∧ (written.2.files = files ∨
        ∃ content, written.2.files = files.write (temp_path target) content)) ∨
      (written.1 = .ok () ∧
        write_sidecar_for kit (faults 0) item.data files = (.ok (), written.2.files)) := by
  intro written
  have hwritten : written = write_phase (SidecarIo.xmp kit unreadable faults) 0 [item] []
    ⟨files, db, events⟩ := rfl
  unfold write_phase SidecarBackup.capture at hwritten
  rw [hpath] at hwritten
  cases hread : unreadable 0 with
  | some err =>
    simp only [SidecarIo.xmp, hread] at hwritten
    rw [hwritten]
    exact Or.inl ⟨⟨_, rfl⟩, Or.inl rfl⟩
  | none =>
    rcases hwrite : write_sidecar_for kit (faults 0) item.data files with ⟨result, after⟩
    simp only [SidecarIo.xmp, hread, hwrite] at hwritten
    cases result with
    | error err =>
      rw [hwritten]
      refine Or.inl ⟨⟨_, rfl⟩, ?_⟩
      -- there is nothing to roll back yet
      show after = files ∨ _
      rcases write_sidecar_for_error_cases hwrite with hsame | ⟨target', bytes, htarget, hafter⟩
      · exact Or.inl hsame
      · obtain rfl := Option.mem_unique hpath htarget
        exact Or.inr ⟨bytes, hafter⟩
    | ok _ =>
      rw [hwritten]
      exact Or.inr ⟨rfl, rfl⟩

/-- A request that fails in its write phase touches the temporary file at most. -/
theorem isolated_of_write {content : ByteArray} (hq : MediaPath q)
    (hfree : files (temp_path (sidecar_of p)) = none) :
    Isolated kit p q files (files.write (temp_path (sidecar_of p)) content) where
  bytes := by rw [FileMap.write_apply, if_neg (hq.lasting.1 _)]
  fields := by
    rw [extract_congr]
    · rw [FileMap.write_apply, if_neg (hq.lasting.1 _)]
    · rw [FileMap.write_apply]
      exact if_neg (hq.lasting.2 _)
  others r hr _ _ := by
    have hne : r ≠ temp_path (sidecar_of p) := by
      rintro rfl
      exact hr hfree
    rw [FileMap.write_apply, if_neg hne]

/-- A write leaves an item's sidecar and no temporary file. -/
theorem write_bytes_atomically_cases (target : PathBuf) (bytes : ByteArray)
    (files : FileMap ByteArray) (r : PathBuf) :
    write_bytes_atomically target bytes files r =
      if r = target then some bytes else if r = temp_path target then none else files r := by
  have hstaged : files.write (temp_path target) bytes (temp_path target) = some bytes := by
    rw [FileMap.write_apply, if_pos rfl]
  unfold write_bytes_atomically
  rw [FileMap.rename_apply hstaged, FileMap.write_apply]
  split
  · rfl
  · split <;> rfl

theorem edit_isolated_iff (hkit : sidecar_of q = sidecar_of p → kit.RoundTrips)
    (hp : MediaPath p) (hq : MediaPath q)
    {faults : SidecarFaults} (hpath : sidecar_path data = some (sidecar_of p))
    (h : write_sidecar_for kit faults data files = (.ok (), after)) :
    Isolated kit p q files after ↔ EditApart kit data p q files := by
  -- the sidecar holds the new packet and the temporary file is gone
  obtain ⟨title, htitle⟩ := exists_title_of_sidecar_path hpath
  obtain ⟨content, -, hafter⟩ := write_sidecar_for_ok htitle h
  have hcases := write_bytes_atomically_cases (sidecar_of p) content.toUTF8 files
  rw [← hafter] at hcases
  have hbytes : after q = files q := by
    rw [hcases, if_neg (ne_sidecar_of hp hq), if_neg (hq.lasting.1 _)]
  -- what an index of `q` reads if it has the sidecar that was written
  have hshared : sidecar_of q = sidecar_of p →
      read_fields (extract_xmp_data_from_file kit after q) = fields_back (stored_fields data) := by
    intro hsame
    have hthere : after (sidecar_of q) ≠ none := by
      rw [hsame, hcases, if_pos rfl]
      exact Option.some_ne_none _
    rw [extract_of_sidecar hthere]
    show read_fields (read_sidecar kit after (sidecar_of q)) = _
    rw [hsame, read_sidecar_write_sidecar_for (hkit hsame) hpath h]
    exact read_fields_written_view data _
  constructor
  · intro hiso
    refine ⟨?_, fun hsame => (hshared hsame).symm.trans hiso.fields⟩
    -- a temporary file that was there is gone
    by_contra htemp
    have hne : temp_path (sidecar_of p) ≠ sidecar_of p := fun heq => hp.lasting.2 _ heq.symm
    have hkept := hiso.others _ htemp (fun heq => hp.lasting.1 _ heq.symm) hne
    rw [hcases, if_neg hne, if_pos rfl] at hkept
    exact htemp hkept.symm
  · rintro ⟨hfree, hfields⟩
    refine ⟨hbytes, ?_, fun r hr _ hsidecar => ?_⟩
    · by_cases hsame : sidecar_of q = sidecar_of p
      · rw [hshared hsame, hfields hsame]
      · rw [extract_congr hbytes]
        show after (sidecar_of q) = files (sidecar_of q)
        rw [hcases, if_neg hsame, if_neg (hq.lasting.2 _)]
    · have hne : r ≠ temp_path (sidecar_of p) := by
        rintro rfl
        exact hr hfree
      rw [hcases, if_neg hsidecar, if_neg hne]

theorem commit_isolated_iff {σ : Type} (hp : MediaPath p) (hq : MediaPath q)
    (unreadable : Nat → Option String) (faults : Nat → SidecarFaults)
    (store : String → AbstractData → σ → Except AppError Unit × σ) {item : EditedItem} (db : σ)
    (events : List CommitEvent) (hpath : sidecar_path item.data = some (sidecar_of p)) :
    let written := write_phase (SidecarIo.xmp kit unreadable faults) 0 [item] [] ⟨files, db, events⟩
    let result := commit_metadata_edits kit unreadable faults store [item] ⟨files, db, events⟩
    (written.1 = .ok () → (sidecar_of q = sidecar_of p → kit.RoundTrips) →
      (Isolated kit p q files result.2.files ↔ EditApart kit item.data p q files)) ∧
    (∀ err, written.1 = .error err → files (temp_path (sidecar_of p)) = none →
      Isolated kit p q files result.2.files) := by
  intro written result
  have hfiles : result.2.files = written.2.files := commit_with_files _ store [item] _
  rw [hfiles]
  rcases write_phase_single unreadable faults db events hpath
    with ⟨⟨err, herr⟩, hafter⟩ | ⟨hok, hwrite⟩
  · refine ⟨fun hok => ?_, fun _ _ hfree => ?_⟩
    · cases herr.symm.trans hok
    · rcases hafter with hsame | ⟨content, hcontent⟩
      · rw [show written.2.files = files from hsame]
        exact Isolated.refl
      · rw [show written.2.files = _ from hcontent]
        exact isolated_of_write hq hfree
  · refine ⟨fun _ hkit => edit_isolated_iff hkit hp hq hpath hwrite, fun err herr => ?_⟩
    cases herr.symm.trans hok

/-! ## Deletions -/

/-- Deleting `p` deletes nothing of `q`: the two have two sidecars, or the sidecar is not there or
not removed, or the packet embedded in `q` says the same. -/
def DeleteApart (kit : Xmpkit) (refuses : PathBuf → Bool) (p q : PathBuf)
    (files : FileMap ByteArray) : Prop :=
  sidecar_of q = sidecar_of p → files (sidecar_of p) ≠ none → refuses (sidecar_of p) = false →
    read_fields (read_embedded kit files q) = read_fields (read_sidecar kit files (sidecar_of p))

theorem delete_isolated_iff (refuses : PathBuf → Bool) (hp : MediaPath p) (hq : MediaPath q)
    (hne : p ≠ q) :
    Isolated kit p q files (remove_asset_file refuses p files) ↔
      DeleteApart kit refuses p q files := by
  have hother : ∀ r, r ≠ p → r ≠ sidecar_of p → remove_asset_file refuses p files r = files r :=
    fun r hfile hsidecar => remove_asset_file_other refuses files hfile hsidecar
  have hbytes := hother q (Ne.symm hne) (ne_sidecar_of hp hq)
  have hsidecar : remove_asset_file refuses p files (sidecar_of p) =
      if refuses (sidecar_of p) = false then none else files (sidecar_of p) := by
    have hfirst : remove_file refuses p files (sidecar_of p) = files (sidecar_of p) := by
      rw [remove_file_apply, if_neg fun h => ne_sidecar_of hp hp h.1.symm]
    show remove_file refuses (sidecar_of p) (remove_file refuses p files) (sidecar_of p) = _
    rw [remove_file_apply, hfirst]
    simp
  constructor
  · intro hiso hsame hthere hremoved
    -- the index of `q` finds no sidecar any more
    have hgone : remove_asset_file refuses p files (sidecar_of q) = none := by
      rw [hsame, hsidecar, if_pos hremoved]
    have hfound : files (sidecar_of q) ≠ none := by rwa [hsame]
    have hfields := hiso.fields
    rw [extract_of_no_sidecar hgone, read_embedded_congr hbytes, extract_of_sidecar hfound] at hfields
    rw [← hsame]
    exact hfields
  · intro hapart
    refine ⟨hbytes, ?_, fun r _ hfile hother' => hother r hfile hother'⟩
    by_cases hsame : sidecar_of q = sidecar_of p
    · by_cases hremoved : files (sidecar_of p) ≠ none ∧ refuses (sidecar_of p) = false
      · have hgone : remove_asset_file refuses p files (sidecar_of q) = none := by
          rw [hsame, hsidecar, if_pos hremoved.2]
        have hfound : files (sidecar_of q) ≠ none := by
          rw [hsame]
          exact hremoved.1
        rw [extract_of_no_sidecar hgone, read_embedded_congr hbytes, extract_of_sidecar hfound,
          hapart hsame hremoved.1 hremoved.2, ← hsame]
        rfl
      · -- there is no sidecar to remove, or it stays
        rw [extract_congr hbytes]
        show remove_asset_file refuses p files (sidecar_of q) = files (sidecar_of q)
        rw [hsame, hsidecar]
        split
        · rename_i hfalse
          by_contra hthere
          exact hremoved ⟨fun habsent => hthere habsent.symm, hfalse⟩
        · rfl
    · rw [extract_congr hbytes]
      exact hother _ (fun heq => ne_sidecar_of hq hp heq.symm) hsame

theorem process_deletes_isolated_iff (hp : MediaPath p) (hq : MediaPath q) (hne : p ≠ q) {now : Int}
    {roots : Roots} (refuses : PathBuf → Bool) {caller asset_id : String} {lib : Library}
    (compressed : FileMap ByteArray) {entry : FileEntry}
    (hdata : compose_by_asset_id now lib.store.tables asset_id = some data)
    (hentry : data.path = some entry) (hfile : ofString entry.file = p) :
    Isolated kit p q files
        (process_deletes now roots refuses caller [asset_id] lib ⟨files, compressed⟩).2.2.files ↔
      ((resolve_delete now roots caller lib.store.tables asset_id).isOk →
        DeleteApart kit refuses p q files) := by
  cases hresolve : resolve_delete now roots caller lib.store.tables asset_id with
  | error err =>
    -- refused before any file is touched
    obtain ⟨_, hrefused⟩ := process_deletes_refused refuses ⟨files, compressed⟩
      ⟨asset_id, List.mem_singleton_self _, err, hresolve⟩
    rw [hrefused]
    exact ⟨fun _ hok => absurd hok (by simp [Except.isOk, Except.toBool]), fun _ => Isolated.refl⟩
  | ok view =>
    -- the view that is resolved is the composed one, with the path `p`
    obtain rfl := Option.some.inj (hdata.symm.trans (resolve_delete_eq_ok hresolve))
    have hfiles : (delete_from_disk refuses lib.store ⟨files, compressed⟩ data).files =
        remove_asset_file refuses p files := by
      unfold delete_from_disk
      rw [hentry, ← hfile]
    rw [process_deletes_single refuses _ hresolve, hfiles, delete_isolated_iff refuses hp hq hne]
    exact ⟨fun hapart _ => hapart, fun h => h rfl⟩

/-! ## Moves -/

/-- Moving `p` to `dest` takes nothing from `q` and gives it nothing: the sidecar is not there or
stays, or its new name is free and no sidecar of `q`, and its old name is not one either, unless
the packet embedded in `q` says the same. -/
def MoveApart (kit : Xmpkit) (refused : Bool) (p dest q : PathBuf) (files : FileMap ByteArray) :
    Prop :=
  files (sidecar_of p) ≠ none → refused = false →
    (files (sidecar_of dest) = none ∨ files (sidecar_of dest) = files (sidecar_of p)) ∧
    (sidecar_of q = sidecar_of p ∨ sidecar_of q = sidecar_of dest ∧ files (sidecar_of dest) = none →
      read_fields (read_embedded kit files q) = read_fields (read_sidecar kit files (sidecar_of p)))

section Rename

variable {refused : Bool} {dest : PathBuf}

/-- The paths of a move are four: it goes to another directory, and no media file is a sidecar. -/
theorem sidecar_of_ne_of_dropLast (h : dest.dropLast ≠ p.dropLast) :
    sidecar_of p ≠ dest ∧ sidecar_of dest ≠ p ∧ sidecar_of dest ≠ sidecar_of p ∧ dest ≠ p := by
  have hp : (sidecar_of p).dropLast = p.dropLast := dropLast_with_extension p "xmp"
  have hdest : (sidecar_of dest).dropLast = dest.dropLast := dropLast_with_extension dest "xmp"
  refine ⟨?_, ?_, ?_, ?_⟩
  · intro heq
    exact h (by rw [← heq, hp])
  · intro heq
    exact h (by rw [← hdest, heq])
  · intro heq
    exact h (by rw [← hdest, heq, hp])
  · intro heq
    exact h (by rw [heq])

theorem rename_with_sidecar_eq : rename_with_sidecar refused p dest files =
    if (files.rename p dest (sidecar_of p)).isSome && !refused then
      (files.rename p dest).rename (sidecar_of p) (sidecar_of dest)
    else files.rename p dest := rfl

variable {bytes : ByteArray}

theorem rename_sidecar_of (hp : MediaPath p) (hdirs : dest.dropLast ≠ p.dropLast)
    (hfile : files p = some bytes) : files.rename p dest (sidecar_of p) = files (sidecar_of p) := by
  rw [FileMap.rename_apply hfile, if_neg (sidecar_of_ne_of_dropLast hdirs).1,
    if_neg (Ne.symm (ne_sidecar_of hp hp))]

/-- A sidecar that is absent, or whose rename fails, stays. -/
theorem rename_with_sidecar_kept (hp : MediaPath p) (hdirs : dest.dropLast ≠ p.dropLast)
    (hfile : files p = some bytes) (h : files (sidecar_of p) = none ∨ refused = true)
    (r : PathBuf) : rename_with_sidecar refused p dest files r =
      if r = dest then some bytes else if r = p then none else files r := by
  rw [← FileMap.rename_apply hfile, rename_with_sidecar_eq, rename_sidecar_of hp hdirs hfile]
  rcases h with habsent | hrefused
  · rw [habsent]
    rfl
  · rw [hrefused, Bool.not_true, Bool.and_false]
    rfl

theorem rename_with_sidecar_moved (hp : MediaPath p) (hdirs : dest.dropLast ≠ p.dropLast)
    {packet : ByteArray} (hfile : files p = some bytes)
    (hthere : files (sidecar_of p) = some packet) (r : PathBuf) :
    rename_with_sidecar false p dest files r =
      if r = sidecar_of dest then some packet else if r = sidecar_of p then none
      else if r = dest then some bytes else if r = p then none else files r := by
  have hsidecar := (rename_sidecar_of hp hdirs hfile).trans hthere
  rw [← FileMap.rename_apply hfile, ← FileMap.rename_apply hsidecar, rename_with_sidecar_eq, hsidecar]
  rfl

/-- A move without the sidecar touches no sidecar and no other file. -/
theorem isolated_of_rename (hp : MediaPath p) (hq : MediaPath q) (hdest : MediaPath dest)
    (hne : p ≠ q) (hqfile : files q ≠ none) (hfree : files dest = none)
    (hafter : ∀ r, after r = if r = dest then some bytes else if r = p then none else files r) :
    Isolated kit p q files after := by
  -- the destination was free, so no file that was there is touched
  have hother : ∀ r, r ≠ dest → r ≠ p → after r = files r := by
    intro r hrdest hrp
    rw [hafter, if_neg hrdest, if_neg hrp]
  have hqdest : q ≠ dest := by
    rintro rfl
    exact hqfile hfree
  have hbytes := hother q hqdest (Ne.symm hne)
  refine ⟨hbytes, ?_, fun r hr hrp _ => hother r ?_ hrp⟩
  · rw [extract_congr hbytes]
    exact hother _ (Ne.symm (ne_sidecar_of hq hdest)) (Ne.symm (ne_sidecar_of hq hp))
  · rintro rfl
    exact hr hfree

/-- What a move with the sidecar does to the files there were. -/
structure SidecarMoved (p dest q : PathBuf) (files after : FileMap ByteArray) : Prop where
  bytes : after q = files q
  taken : after (sidecar_of p) = none
  given : after (sidecar_of dest) = files (sidecar_of p)
  sidecars : ∀ r, MediaPath r → sidecar_of r ≠ sidecar_of p → sidecar_of r ≠ sidecar_of dest →
    after (sidecar_of r) = files (sidecar_of r)
  others : ∀ r, files r ≠ none → r ≠ p → r ≠ sidecar_of p → r ≠ sidecar_of dest → after r = files r

theorem sidecarMoved_rename (hp : MediaPath p) (hq : MediaPath q) (hdest : MediaPath dest)
    (hne : p ≠ q) (hdirs : dest.dropLast ≠ p.dropLast) (hpfile : files p ≠ none)
    (hqfile : files q ≠ none) (hfree : files dest = none) (hthere : files (sidecar_of p) ≠ none) :
    SidecarMoved p dest q files (rename_with_sidecar false p dest files) := by
  obtain ⟨bytes, hfile⟩ := Option.ne_none_iff_exists'.mp hpfile
  obtain ⟨packet, hpacket⟩ := Option.ne_none_iff_exists'.mp hthere
  have hcases := rename_with_sidecar_moved hp hdirs hfile hpacket
  have hothers : ∀ r, files r ≠ none → r ≠ p → r ≠ sidecar_of p → r ≠ sidecar_of dest →
      rename_with_sidecar false p dest files r = files r := by
    intro r hr hrp hrsidecar hrdest
    have hrfree : r ≠ dest := by
      rintro rfl
      exact hr hfree
    rw [hcases, if_neg hrdest, if_neg hrsidecar, if_neg hrfree, if_neg hrp]
  refine ⟨?_, ?_, ?_, ?_, hothers⟩
  · exact hothers q hqfile (Ne.symm hne) (ne_sidecar_of hp hq) (ne_sidecar_of hdest hq)
  · rw [hcases, if_neg (Ne.symm (sidecar_of_ne_of_dropLast hdirs).2.2.1), if_pos rfl]
  · rw [hcases, if_pos rfl, hpacket]
  · intro r hr hrsidecar hrdest
    rw [hcases, if_neg hrdest, if_neg hrsidecar, if_neg (Ne.symm (ne_sidecar_of hr hdest)),
      if_neg (Ne.symm (ne_sidecar_of hr hp))]

section

variable (h : SidecarMoved p dest q files after)

include h

/-- An index of a file with the old sidecar finds none any more. -/
theorem SidecarMoved.index_taken (hthere : files (sidecar_of p) ≠ none)
    (hsame : sidecar_of q = sidecar_of p) :
    extract_xmp_data_from_file kit after q = read_embedded kit files q ∧
      extract_xmp_data_from_file kit files q = read_sidecar kit files (sidecar_of p) := by
  have hgone : after (sidecar_of q) = none := by rw [hsame, h.taken]
  have hfound : files (sidecar_of q) ≠ none := by rwa [hsame]
  rw [extract_of_no_sidecar hgone, extract_of_sidecar hfound, read_embedded_congr h.bytes, ← hsame]
  exact ⟨rfl, rfl⟩

theorem SidecarMoved.index_given (hthere : files (sidecar_of p) ≠ none)
    (hsame : sidecar_of q = sidecar_of dest) :
    extract_xmp_data_from_file kit after q = read_sidecar kit files (sidecar_of p) := by
  have hfound : after (sidecar_of q) ≠ none := by rwa [hsame, h.given]
  rw [extract_of_sidecar hfound]
  show read_sidecar kit after (sidecar_of q) = _
  unfold read_sidecar
  rw [hsame, h.given]

theorem SidecarMoved.isolated (hq : MediaPath q) (hthere : files (sidecar_of p) ≠ none)
    (hapart : MoveApart kit false p dest q files) : Isolated kit p q files after := by
  obtain ⟨hover, hfields⟩ := hapart hthere rfl
  refine ⟨h.bytes, ?_, ?_⟩
  · by_cases htaken : sidecar_of q = sidecar_of p
    · rw [(h.index_taken hthere htaken).1, (h.index_taken hthere htaken).2]
      exact hfields (Or.inl htaken)
    · by_cases hgiven : sidecar_of q = sidecar_of dest
      · rw [h.index_given hthere hgiven]
        rcases hover with habsent | hequal
        · have hbefore : files (sidecar_of q) = none := by rw [hgiven, habsent]
          rw [extract_of_no_sidecar hbefore]
          exact (hfields (Or.inr ⟨hgiven, habsent⟩)).symm
        · -- the packet is replaced by an equal one
          have hfound : files (sidecar_of q) ≠ none := by rwa [hgiven, hequal]
          rw [extract_of_sidecar hfound]
          show _ = read_fields (read_sidecar kit files (sidecar_of q))
          unfold read_sidecar
          rw [hgiven, hequal]
      · rw [extract_congr h.bytes]
        exact h.sidecars q hq htaken hgiven
  · intro r hr hrp hrsidecar
    by_cases hrdest : r = sidecar_of dest
    · subst hrdest
      rcases hover with habsent | hequal
      · exact absurd habsent hr
      · rw [h.given, hequal]
    · exact h.others r hr hrp hrsidecar hrdest

theorem SidecarMoved.apart (hdirs : dest.dropLast ≠ p.dropLast)
    (hiso : Isolated kit p q files after) : MoveApart kit false p dest q files := by
  intro hthere _
  obtain ⟨-, hdest_p, hdest_sidecar, -⟩ := sidecar_of_ne_of_dropLast hdirs
  have hfields := hiso.fields
  refine ⟨?_, ?_⟩
  · -- otherwise a sidecar of somebody else is overwritten
    by_contra hover
    obtain ⟨hfound, hdiffers⟩ := not_or.mp hover
    have hsame := hiso.others _ hfound hdest_p hdest_sidecar
    exact hdiffers (hsame.symm.trans h.given)
  · intro hmeet
    rcases hmeet with htaken | ⟨hgiven, habsent⟩
    · rw [(h.index_taken hthere htaken).1, (h.index_taken hthere htaken).2] at hfields
      exact hfields
    · have hbefore : files (sidecar_of q) = none := by rw [hgiven, habsent]
      rw [h.index_given hthere hgiven, extract_of_no_sidecar hbefore] at hfields
      exact hfields.symm

end

theorem move_isolated_iff (hp : MediaPath p) (hq : MediaPath q) (hdest : MediaPath dest)
    (hne : p ≠ q) (hdirs : dest.dropLast ≠ p.dropLast) (hpfile : files p ≠ none)
    (hqfile : files q ≠ none) (hfree : files dest = none) :
    Isolated kit p q files (rename_with_sidecar refused p dest files) ↔
      MoveApart kit refused p dest q files := by
  obtain ⟨bytes, hfile⟩ := Option.ne_none_iff_exists'.mp hpfile
  by_cases hkept : files (sidecar_of p) = none ∨ refused = true
  · -- the sidecar stays, and the condition is void
    have hiso : Isolated kit p q files (rename_with_sidecar refused p dest files) :=
      isolated_of_rename hp hq hdest hne hqfile hfree (rename_with_sidecar_kept hp hdirs hfile hkept)
    refine ⟨fun _ hthere hmoved => ?_, fun _ => hiso⟩
    rcases hkept with habsent | hrefused
    · exact absurd habsent hthere
    · rw [hrefused] at hmoved
      cases hmoved
  · obtain ⟨hthere, hmoved⟩ := not_or.mp hkept
    obtain rfl : refused = false := Bool.eq_false_iff.mpr hmoved
    have h := sidecarMoved_rename hp hq hdest hne hdirs hpfile hqfile hfree hthere
    exact ⟨h.apart hdirs, h.isolated hq hthere⟩

theorem move_file_isolated_iff (hp : MediaPath p) (hq : MediaPath q) (hne : p ≠ q)
    (hpfile : files p ≠ none) (hqfile : files q ≠ none) {env : MoveEnv} {album_dir : PathBuf}
    {on_conflict : OnConflict} {caller : String} {record : AssetRecord}
    (hfs : ∀ r, files r ≠ none → env.roots.fs.exists_ r = true) (hfile : ofString record.path = p) :
    Isolated kit p q files
        (move_file_on_disk env refused album_dir on_conflict caller record files) ↔
      ∀ dest outcome,
        move_target env album_dir on_conflict caller record = .ok (some dest, outcome) →
        env.rename p dest = .ok () → MoveApart kit refused p dest q files := by
  unfold move_file_on_disk
  rw [hfile]
  cases htarget : move_target env album_dir on_conflict caller record with
  | error err => exact ⟨fun _ dest outcome h => (by cases h), fun _ => Isolated.refl⟩
  | ok landed =>
    obtain ⟨dest, outcome⟩ := landed
    cases dest with
    | none => exact ⟨fun _ dest outcome h => (by cases h), fun _ => Isolated.refl⟩
    | some dest =>
      obtain ⟨ext, hext, hmem⟩ := id hp
      have hext_ne : ext ≠ "" := by
        rintro rfl
        simp at hmem
      rw [← hfile] at hext
      obtain ⟨hfree, hdirs, hdest⟩ := move_target_free hext hext_ne htarget
      rw [hfile] at hdirs
      -- what does not exist is no file
      have habsent : files dest = none := by
        by_contra hthere
        rw [hfs dest hthere] at hfree
        cases hfree
      have hmove : Isolated kit p q files (rename_with_sidecar refused p dest files) ↔
          MoveApart kit refused p dest q files :=
        move_isolated_iff hp hq ⟨ext, hdest, hmem⟩ hne hdirs hpfile hqfile habsent
      cases hrename : env.rename p dest with
      | error e =>
        dsimp only
        rw [hrename]
        refine ⟨fun _ dest' outcome' h hok => ?_, fun _ => Isolated.refl⟩
        obtain rfl := Option.some.inj (Prod.mk.inj (Except.ok.inj h)).1
        rw [hrename] at hok
        cases hok
      | ok _ =>
        dsimp only
        rw [hrename]
        dsimp only
        rw [hmove]
        constructor
        · intro hapart dest' outcome' h _
          obtain rfl := Option.some.inj (Prod.mk.inj (Except.ok.inj h)).1
          exact hapart
        · intro h
          exact h dest outcome rfl hrename

end Rename

/-! ## The three operations -/

/-- Committing an edit to `p`, deleting `p` and moving `p` leave another media
file `q`, what an index of `q` reads, and every other file that was there
alone exactly when `p` and `q` do not meet in a sidecar: neither in the
one beside `p` nor in the one at the destination of a move, unless what
is read there is the same. Only for the edit of a sidecar that `q` has too
is anything asked of the toolkit.

An edit that fails leaves them alone if the temporary file was free; a
deletion or move that fails touches no file. -/
theorem sidecar_isolation_iff (kit : Xmpkit) (files : FileMap ByteArray) (hp : MediaPath p)
    (hq : MediaPath q) (hne : p ≠ q) (hpfile : files p ≠ none) (hqfile : files q ≠ none) :
    (∀ (σ : Type) unreadable faults store item (db : σ) events entry,
      item.data.path = some entry → ofString entry.file = p →
      let written :=
        write_phase (SidecarIo.xmp kit unreadable faults) 0 [item] [] ⟨files, db, events⟩
      let result := commit_metadata_edits kit unreadable faults store [item] ⟨files, db, events⟩
      (written.1 = .ok () → (sidecar_of q = sidecar_of p → kit.RoundTrips) →
        (Isolated kit p q files result.2.files ↔ EditApart kit item.data p q files)) ∧
      (∀ err, written.1 = .error err → files (temp_path (sidecar_of p)) = none →
        Isolated kit p q files result.2.files)) ∧
    (∀ now roots refuses caller asset_id (lib : Library) compressed data entry,
      compose_by_asset_id now lib.store.tables asset_id = some data →
      data.path = some entry → ofString entry.file = p →
      let result := process_deletes now roots refuses caller [asset_id] lib ⟨files, compressed⟩
      (Isolated kit p q files result.2.2.files ↔
        ((resolve_delete now roots caller lib.store.tables asset_id).isOk →
          DeleteApart kit refuses p q files))) ∧
    (∀ (env : MoveEnv) refused album_dir on_conflict caller record,
      (∀ r, files r ≠ none → env.roots.fs.exists_ r = true) → ofString record.path = p →
      let after := move_file_on_disk env refused album_dir on_conflict caller record files
      (Isolated kit p q files after ↔
        ∀ dest outcome, move_target env album_dir on_conflict caller record = .ok (some dest, outcome) →
          env.rename p dest = .ok () → MoveApart kit refused p dest q files)) := by
  refine ⟨?_, ?_, ?_⟩
  · intro σ unreadable faults store item db events entry hentry hfile
    have hpath : sidecar_path item.data = some (sidecar_of p) := by
      rw [sidecar_path_of_path hentry, hfile]
    exact commit_isolated_iff hp hq unreadable faults store db events hpath
  · intro now roots refuses caller asset_id lib compressed data entry hdata hentry hfile
    exact process_deletes_isolated_iff hp hq hne refuses compressed hdata hentry hfile
  · intro env refused album_dir on_conflict caller record hfs hfile
    exact move_file_isolated_iff hp hq hne hpfile hqfile hfs hfile

/-- A packet with this description. -/
def descriptionPacket (text : String) : ByteArray :=
  (String.ofList (RowKit.print_row [NS_DC, "description", "*", text])).toUTF8

/-- A photo with its sidecar, another file, and a sidecar in another directory. -/
def tripFiles (other : String) : FileMap ByteArray := fun r =>
  if r = ofString "/photos/trip/sea.jpg" then some ⟨#[1]⟩
  else if r = ofString other then some ⟨#[2]⟩
  else if r = ofString "/photos/trip/sea.xmp" then some (descriptionPacket "sea")
  else if r = ofString "/photos/hill/sea.xmp" then some (descriptionPacket "hill")
  else none

/-- A file system that holds these files and lets everything be renamed. -/
def seaEnv (other : String) : MoveEnv where
  roots :=
    { fs := { canonicalize := fun p => some p, exists_ := fun r => (tripFiles other r).isSome }
      image_home := some (ofString "/photos")
      users_home := none }
  is_dir _ := true
  rename _ _ := .ok ()

/-- An edit with the description "waves" for the photo. -/
def editSea (other : String) : Except AppError Unit × CommitState ByteArray Nat :=
  commit_metadata_edits rowKit (fun _ => none) (fun _ => {}) (fun _ _ db => (.ok (), db))
    [describe "/photos/trip/sea.jpg" "waves"] ⟨tripFiles other, 0, []⟩

/-- Another file beside the photo, with another name. -/
theorem sidecar_isolation_other_stem :
    let other := "/photos/trip/lake.jpg"
    let p := ofString "/photos/trip/sea.jpg"
    Isolated rowKit p (ofString other) (tripFiles other) (editSea other).2.files ∧
      Isolated rowKit p (ofString other) (tripFiles other)
        (process_deletes 0 photosRoots (fun _ => false) "alice" ["sea"] tripLibrary
          ⟨tripFiles other, fun _ => none⟩).2.2.files ∧
      Isolated rowKit p (ofString other) (tripFiles other)
        (move_file_on_disk (seaEnv other) false (ofString "/photos/new") .skip "alice" seaImage
          (tripFiles other)) := by
  intro other p
  have hp : MediaPath p := ⟨"jpg", by decide +kernel, by decide⟩
  have hq : MediaPath (ofString other) := ⟨"jpg", by decide +kernel, by decide⟩
  have hapart : sidecar_of (ofString other) ≠ sidecar_of p := by decide +kernel
  obtain ⟨hedit, hdelete, hmove⟩ := sidecar_isolation_iff rowKit (tripFiles other) hp hq
    (by decide +kernel) (by decide +kernel) (by decide +kernel)
  refine ⟨?_, ?_, ?_⟩
  · have hcommitted := (hedit Nat (fun _ => none) (fun _ => {}) (fun _ _ db => (.ok (), db))
      (describe "/photos/trip/sea.jpg" "waves") 0 [] _ rfl (by decide +kernel)).1 (by decide +kernel)
    exact (hcommitted fun _ => rowKit_roundTrips).mpr
      ⟨by decide +kernel, fun hsame => absurd hsame hapart⟩
  · exact (hdelete 0 photosRoots (fun _ => false) "alice" "sea" tripLibrary (fun _ => none) _ _ rfl rfl
      (by decide +kernel)).mpr fun _ hsame => absurd hsame hapart
  · refine (hmove (seaEnv other) false (ofString "/photos/new") .skip "alice" seaImage
      (fun r hr => Option.isSome_iff_ne_none.mpr hr) rfl).mpr ?_
    intro dest outcome htarget _ _ _
    have hdest : move_target (seaEnv other) (ofString "/photos/new") .skip "alice" seaImage =
        .ok (some (ofString "/photos/new/sea.jpg"), .moved) := by decide +kernel
    rw [hdest] at htarget
    obtain rfl := Option.some.inj (Prod.mk.inj (Except.ok.inj htarget)).1
    refine ⟨Or.inl (by decide +kernel), ?_⟩
    rintro (hsame | ⟨hsame, -⟩)
    · exact absurd hsame hapart
    · exact absurd hsame (by decide +kernel)

/-- A file beside the photo with the same stem has the description "sea" until the photo is edited,
deleted or moved. The move also overwrites the sidecar at the destination. -/
theorem shared_sidecar_lost :
    let other := "/photos/trip/sea.png"
    let description := fun files =>
      (extract_xmp_data_from_file rowKit files (ofString other)).description
    let deleted := (process_deletes 0 photosRoots (fun _ => false) "alice" ["sea"] tripLibrary
      ⟨tripFiles other, fun _ => none⟩).2.2.files
    let moved := move_file_on_disk (seaEnv other) false (ofString "/photos/hill") .skip "alice"
      seaImage (tripFiles other)
    description (tripFiles other) = some "sea" ∧
      (editSea other).1 = .ok () ∧ description (editSea other).2.files = some "waves" ∧
      description deleted = none ∧ description moved = none ∧
      tripFiles other (ofString "/photos/hill/sea.xmp") = some (descriptionPacket "hill") ∧
      moved (ofString "/photos/hill/sea.xmp") = some (descriptionPacket "sea") := by
  decide +kernel
