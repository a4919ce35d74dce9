import Picasu.Router.AlbumStats
import Picasu.Router.Relocation

/-! # Album Statistics After a Move

After a move `assign_album` rebuilds the tree and refreshes the statistics of the album that was
entered. The move of an album marks the album it leaves for a refresh as well. The move of a file
marks none: the album it leaves keeps counting it, unless it happened to wait for a refresh.

* `onlyTakenMissing_assign`: in the directory that is left, what lay at the moved path is missing;
* `stats_exact_after_move_iff`: when the statistics at both ends are exact after a request.
-/

open PathBuf

/-! ## The request to its end -/

/-- The albums that a move marks for a refresh: the move of an album marks the one that is left,
looked up in the cache after the move, and the one that is entered. -/
def assign_marks (data : AssignAlbumData) (record : AssetRecord) (outcome : AssignOutcome)
    (dirs : DirAlbumCache) : List String :=
  if record.kind = .album ∧ outcome ≠ .skipped then
    (dirs.get_parent_album_id (ofString record.path)).toList ++ [data.album_id]
  else []

/-- `assign_album`, with what follows the move: the tree task, over the albums that wait already and
those that the move marks, and the refresh of the album that is entered. -/
def assign_album_request (env : MoveEnv) (caller : String) (now : Int) (stamp : Stamp)
    (pending : List String) (data : AssignAlbumData) (lib : Library) :
    Except AppError (AssignOutcome × Library) := do
  let (outcome, moved) ← assign_album env caller data lib
  let marks := (lib.store.get_asset_by_id data.asset_id).elim [] fun record =>
    assign_marks data record outcome moved.dirs
  let (tree, tables) := update_tree_task now (AbstractData.compute_timestamp stamp)
    (pending ++ marks) moved.store.tables
  let tables := album_task now tree data.album_id tables
  return (outcome, { moved with store := { moved.store with tables } })

section Request

variable {env : MoveEnv} {caller : String} {now : Int} {stamp : Stamp} {pending : List String}
  {data : AssignAlbumData} {lib moved lib' : Library} {outcome : AssignOutcome}
  {record : AssetRecord}

/-- A successful request moves, and then refreshes. -/
theorem assign_album_request_ok (hrecord : lib.store.get_asset_by_id data.asset_id = some record)
    (h : assign_album_request env caller now stamp pending data lib = .ok (outcome, lib')) :
    ∃ moved, assign_album env caller data lib = .ok (outcome, moved) ∧
      (moved.store.tables.Keyed → SameMedia moved.store.tables lib'.store.tables ∧
        ∀ k, lib'.store.tables.album_stats k =
          if k ∈ pending ++ assign_marks data record outcome moved.dirs ++ [data.album_id] then
            (moved.store.tables.album_stats k).map (refreshed_stats stamp moved.store.tables)
          else moved.store.tables.album_stats k) := by
  obtain ⟨⟨outcome', moved⟩, hmove, h⟩ := Result.bind_eq_ok.mp h
  rw [hrecord] at h
  obtain ⟨rfl, rfl⟩ := Prod.mk.inj (Result.pure_eq_ok.mp h)
  refine ⟨moved, hmove, ?_⟩
  intro hkeyed
  obtain ⟨hsame, htree, hstats⟩ := stats_update_tree_task now stamp
    (pending ++ assign_marks data record outcome' moved.dirs) hkeyed
  refine ⟨hsame.trans (sameMedia_album_task now _ data.album_id _), ?_⟩
  intro k
  have htask := stats_album_task now (update_tree_task now (AbstractData.compute_timestamp stamp)
    (pending ++ assign_marks data record outcome' moved.dirs) moved.store.tables).1 data.album_id
    (update_tree_task now (AbstractData.compute_timestamp stamp)
      (pending ++ assign_marks data record outcome' moved.dirs) moved.store.tables).2 k
  refine htask.trans ?_
  have hrefreshed : (fun entry : PathBuf × AlbumStats => (entry.1, tree_stats
      (update_tree_task now (AbstractData.compute_timestamp stamp)
        (pending ++ assign_marks data record outcome' moved.dirs) moved.store.tables).1 entry.1)) =
      refreshed_stats stamp moved.store.tables :=
    funext fun entry => congrArg (Prod.mk entry.1) (htree entry.1)
  rw [hrefreshed, hstats]
  simp only [List.mem_append, List.mem_singleton]
  by_cases hk : k = data.album_id
  · simp only [hk, if_true, or_true]
    split
    · -- refreshed before, from the same files
      rw [Option.map_map]
      rfl
    · rfl
  · simp only [hk, if_false, or_false]

end Request

/-! ## Where a request leaves the records -/

/-- The albums that a request refreshes: those that wait, the one that is entered, and the one that
a moved album leaves, if the cache knows the directory. -/
def refreshed_albums (env : MoveEnv) (pending : List String) (data : AssignAlbumData)
    (record : AssetRecord) (lib : Library) : List String :=
  pending ++ data.album_id ::
    if record.kind = .album ∧ destination env data record lib ≠ ofString record.path then
      (lib.dirs.get_parent_album_id (ofString record.path)).toList
    else []

/-- Every live media file that a request leaves directly in the directory counts there. -/
def AllCountAfter (env : MoveEnv) (data : AssignAlbumData) (record : AssetRecord) (lib : Library)
    (dir : PathBuf) : Prop :=
  ∀ id row, lib.store.get_asset_by_id id = some row → row.kind ≠ .album → row.is_trashed = false →
    let place := left_at env data record lib id (ofString row.path)
    parent place = some dir → (file_name place).any (· != ".__picasu_ph__.jpg") = true

theorem parent_append {p rel dir : PathBuf} (hrel : rel ≠ []) (h : parent (p ++ rel) = some dir) :
    dir = p ++ rel.dropLast := by
  unfold parent at h
  split at h
  · cases h
  · cases h
  · rw [List.dropLast_append_of_ne_nil hrel] at h
    exact (Option.some.inj h).symm

theorem exists_of_parent {p dir : PathBuf} (h : parent p = some dir) : ∃ c, p = dir ++ [c] := by
  unfold parent at h
  split at h
  · cases h
  · cases h
  · rename_i c _ hlast
    obtain rfl := Option.some.inj h
    exact ⟨c, (List.dropLast_append_getLast? c hlast).symm⟩

theorem ne_append_of_parent {p dir : PathBuf} (h : parent p = some dir) (rel : PathBuf) :
    dir ≠ p ++ rel := by
  obtain ⟨c, rfl⟩ := exists_of_parent h
  simp

section Moved

variable {env : MoveEnv} {caller : String} {stamp : Stamp} {pending : List String}
  {data : AssignAlbumData} {lib moved : Library} {outcome : AssignOutcome} {record : AssetRecord}
  {id : String}

section Assign

variable (hfs : env.Lawful) (hdirs : lib.dirs.WellFormed) (hkeyed : lib.store.Keyed)
  (hrecord : lib.store.get_asset_by_id data.asset_id = some record)
  (h : assign_album env caller data lib = .ok (outcome, moved))

include hfs hdirs hkeyed hrecord h

theorem keyed_assign : moved.store.tables.Keyed := by
  obtain ⟨-, hrows⟩ := movedRow_assign hfs hdirs hkeyed hrecord h
  intro id after hafter
  rcases hrows id with ⟨-, hnone⟩ | ⟨row, row', hrow, hrow', hmoved⟩
  · cases hnone.symm.trans hafter
  · obtain rfl := Option.mem_unique hrow' hafter
    rw [hmoved.rest]
    exact hkeyed id row hrow

/-- An album keeps its statistics, where it is left. -/
theorem album_stats_assign (id : String) : moved.store.tables.album_stats id =
    (lib.store.tables.album_stats id).map fun entry =>
      (left_at env data record lib id entry.1, entry.2) := by
  obtain ⟨hmetadata, hrows⟩ := movedRow_assign hfs hdirs hkeyed hrecord h
  unfold Tables.album_stats
  rw [hmetadata]
  rcases hrows id with ⟨hrow, hrow'⟩ | ⟨row, row', hrow, hrow', hmoved⟩
  · rw [show lib.store.tables.assets.lookup id = none from hrow,
      show moved.store.tables.assets.lookup id = none from hrow']
    rfl
  · have hkind : row'.kind = row.kind := by rw [hmoved.rest]
    rw [show lib.store.tables.assets.lookup id = some row from hrow,
      show moved.store.tables.assets.lookup id = some row' from hrow']
    cases lib.store.tables.metadata.lookup id with
    | none => rfl
    | some payload =>
      cases payload with
      | image payload | video payload => rfl
      | album payload =>
        dsimp only
        rw [hkind, hmoved.path]
        split
        · rfl
        · rfl

theorem allCount_assign_iff (dir : PathBuf) :
    AllCount moved.store.tables dir ↔ AllCountAfter env data record lib dir := by
  obtain ⟨-, hrows⟩ := movedRow_assign hfs hdirs hkeyed hrecord h
  constructor
  · intro hall id row hrow hkind hlive place hparent
    rcases hrows id with ⟨hnone, -⟩ | ⟨before, after, hbefore, hafter, hmoved⟩
    · cases hnone.symm.trans hrow
    · obtain rfl := Option.mem_unique hbefore hrow
      have hplace : place = ofString after.path := hmoved.path.symm
      rw [hplace] at hparent ⊢
      exact hall id after hafter (by rwa [hmoved.rest]) (by rwa [hmoved.rest]) hparent
  · intro hall id row hrow hkind hlive hparent
    rcases hrows id with ⟨-, hnone⟩ | ⟨before, after, hbefore, hafter, hmoved⟩
    · cases hnone.symm.trans hrow
    · obtain rfl := Option.mem_unique hafter hrow
      unfold counts
      rw [hmoved.rest] at hkind hlive
      rw [hmoved.path] at hparent ⊢
      exact hall id before hbefore hkind hlive hparent

/-- The cache after the request, and its outcome, are not needed to know what is refreshed. -/
theorem mem_refreshed_iff (id : String) :
    id ∈ pending ++ assign_marks data record outcome moved.dirs ++ [data.album_id] ↔
      id ∈ refreshed_albums env pending data record lib := by
  have hmarks : assign_marks data record outcome moved.dirs =
      if record.kind = .album ∧ destination env data record lib ≠ ofString record.path then
        (lib.dirs.get_parent_album_id (ofString record.path)).toList ++ [data.album_id]
      else [] := by
    unfold assign_marks
    obtain ⟨album_dir, -, hcases⟩ := assign_album_ok hfs hdirs hrecord h
    rcases hcases with ⟨hwhere, rfl, hskip⟩ |
      ⟨name, -, ⟨hkind, hland, hmoved, rfl⟩ | ⟨hkind, -⟩⟩
    · rw [if_neg fun hand => hand.2 (hskip hand.1), if_neg fun hand => hand.2 hwhere]
    · rw [if_pos ⟨hkind, hmoved⟩, if_pos ⟨hkind, fun heq => hland.apart [] [] (by rw [heq])⟩]
      congr 2
      unfold DirAlbumCache.get_parent_album_id
      cases hparent : parent (ofString record.path) with
      | none => rfl
      | some dir =>
        -- the directory that is left is neither moved nor entered
        obtain ⟨c, hsource⟩ := exists_of_parent hparent
        refine DirAlbumCache.lookup_rewrite_ne hdirs hland.source_ne_nil
          (fun rel => ⟨(ne_append_of_parent hparent rel).symm, fun heq => ?_⟩) rfl
        apply hland.apart (rel ++ [c]) []
        rw [← List.append_assoc, heq, List.append_nil, hsource]
    · rw [if_neg fun hand => hkind hand.1, if_neg fun hand => hkind hand.1]
  rw [hmarks]
  unfold refreshed_albums
  split
  · simp only [List.mem_append, List.mem_cons, List.not_mem_nil, or_false]
    tauto
  · simp

end Assign

end Moved

/-! ## In the directory that is left -/

section Left

variable {env : MoveEnv} {caller : String} {stamp : Stamp} {data : AssignAlbumData}
  {lib moved : Library} {outcome : AssignOutcome} {record : AssetRecord} {dir : PathBuf}

/-- What lay at the moved path, and is taken along. -/
def Taken (env : MoveEnv) (data : AssignAlbumData) (record : AssetRecord) (lib : Library)
    (id : String) (taken : AssetRecord) : Prop :=
  destination env data record lib ≠ ofString record.path ∧
    lib.store.get_asset_by_id id = some taken ∧ (record.kind = .album ∨ id = data.asset_id) ∧
    ofString taken.path = ofString record.path

theorem Taken.left_at {id : String} {taken : AssetRecord} (h : Taken env data record lib id taken) :
    left_at env data record lib id (ofString taken.path) = destination env data record lib := by
  obtain ⟨-, -, hwhich, hpath⟩ := h
  by_cases hkind : record.kind = .album
  · rw [left_at_of_strip hkind (hpath.trans (List.append_nil _).symm), List.append_nil]
  · obtain rfl := hwhich.resolve_left hkind
    exact left_at_self hkind

/-- What is moved and not taken lies deeper. -/
theorem exists_deeper {id : String} {row : AssetRecord}
    (hrecord : lib.store.get_asset_by_id data.asset_id = some record)
    (hrow : lib.store.get_asset_by_id id = some row) (hnot : ¬ Taken env data record lib id row)
    (hmoved : left_at env data record lib id (ofString row.path) ≠ ofString row.path) :
    record.kind = .album ∧ ∃ rel, rel ≠ [] ∧ ofString row.path = ofString record.path ++ rel ∧
      destination env data record lib ≠ ofString record.path := by
  by_cases hkind : record.kind = .album
  · have hstart : starts_with (ofString row.path) (ofString record.path) = true := by
      by_contra hout
      exact hmoved (left_at_of_outside hrecord hrow (Bool.of_not_eq_true hout))
    obtain ⟨rel, hrel⟩ := starts_with_iff.mp hstart
    have hne : destination env data record lib ≠ ofString record.path := by
      intro heq
      rw [left_at_of_strip hkind hrel, heq] at hmoved
      exact hmoved hrel.symm
    refine ⟨hkind, rel, ?_, hrel, hne⟩
    rintro rfl
    exact hnot ⟨hne, hrow, Or.inl hkind, hrel.trans (List.append_nil _)⟩
  · by_cases hid : id = data.asset_id
    · subst hid
      obtain rfl := Option.mem_unique hrecord hrow
      rw [left_at_self hkind] at hmoved
      exact absurd ⟨hmoved, hrow, Or.inr rfl, rfl⟩ hnot
    · exact absurd (left_at_other hkind hid) hmoved

/-- The request takes a live media file along from the moved path. -/
def TakesFile (env : MoveEnv) (data : AssignAlbumData) (record : AssetRecord) (lib : Library) :
    Prop :=
  ∃ id taken, Taken env data record lib id taken ∧ taken.kind ≠ .album ∧ taken.is_trashed = false

variable {tables : Tables}

theorem live_in_congr {tables' : Tables} (h : tables'.metadata = tables.metadata)
    (record : AssetRecord) :
    tables'.live_in stamp dir record = tables.live_in stamp dir record := by
  unfold Tables.live_in Tables.exif
  rw [h]

theorem live_in_elsewhere {record : AssetRecord}
    (h : parent (ofString record.path) ≠ some dir) : tables.live_in stamp dir record = none :=
  if_neg fun hlive => h hlive.2.2

/-- The live media files in the directory are those of before, without what was taken. -/
def OnlyTakenMissing (env : MoveEnv) (stamp : Stamp) (data : AssignAlbumData)
    (record : AssetRecord) (lib : Library) (dir : PathBuf) (tables : Tables) : Prop :=
  ∀ id, ((tables.assets.lookup id).bind (tables.live_in stamp dir) = none ∧
      ∃ taken, Taken env data record lib id taken) ∨
    ((tables.assets.lookup id).bind (tables.live_in stamp dir) =
        (lib.store.tables.assets.lookup id).bind (lib.store.tables.live_in stamp dir) ∧
      ∀ taken, ¬ Taken env data record lib id taken)

/-- The statistics of the directory are those of before exactly if no live media file was taken. -/
theorem OnlyTakenMissing.stats_eq_iff (h : OnlyTakenMissing env stamp data record lib dir tables)
    (hparent : parent (ofString record.path) = some dir) :
    stats_of (lib.store.tables.live_media stamp dir) = stats_of (tables.live_media stamp dir) ↔
      ¬ TakesFile env data record lib := by
  constructor
  · rintro hstats ⟨id, taken, htaken, hkind, hlive⟩
    obtain ⟨hafter, -⟩ | ⟨-, hnot⟩ := h id
    · have hless : (tables.live_media stamp dir).length <
          (lib.store.tables.live_media stamp dir).length := by
        apply Table.length_pick_lt (k := id)
        · intro k
          rcases h k with ⟨hnone, -⟩ | ⟨hsame, -⟩
          · exact Or.inr hnone
          · exact Or.inl hsame
        · rw [show lib.store.tables.assets.lookup id = some taken from htaken.2.1]
          exact live_in_ne_none.mpr ⟨hkind, hlive, htaken.2.2.2 ▸ hparent⟩
        · exact hafter
      exact absurd (congrArg AlbumStats.item_count hstats).symm (Nat.ne_of_lt hless)
    · exact hnot taken htaken
  · intro hnone
    apply stats_of_perm
    apply Table.pick_perm
    intro id
    rcases h id with ⟨hafter, taken, htaken⟩ | ⟨hsame, -⟩
    · -- taken, but neither before nor after a live media file of the directory
      rw [hafter, show lib.store.tables.assets.lookup id = some taken from htaken.2.1,
        Option.bind_some]
      by_contra hlive
      obtain ⟨hkind, hlive, -⟩ := live_in_ne_none.mp hlive
      exact hnone ⟨id, taken, htaken, hkind, hlive⟩
    · exact hsame.symm

end Left

/-! ## Both ends of a move -/

section Ends

variable {env : MoveEnv} {caller : String} {now : Int} {stamp : Stamp} {pending : List String}
  {data : AssignAlbumData} {lib moved lib' : Library} {outcome : AssignOutcome}
  {record : AssetRecord}

/-- A request takes what lies at the moved path, and nothing else, out of the directory above. -/
theorem onlyTakenMissing_assign (hfs : env.Lawful) (hdirs : lib.dirs.WellFormed)
    (hkeyed : lib.store.Keyed) (hrecord : lib.store.get_asset_by_id data.asset_id = some record)
    (h : assign_album env caller data lib = .ok (outcome, moved)) {dir : PathBuf}
    (hparent : parent (ofString record.path) = some dir)
    (hleft : lib.dirs.get_dir_path_for_album data.album_id ≠ some dir) :
    OnlyTakenMissing env stamp data record lib dir moved.store.tables := by
  obtain ⟨hmetadata, hrows⟩ := movedRow_assign hfs hdirs hkeyed hrecord h
  have hlands : destination env data record lib ≠ ofString record.path →
      parent (destination env data record lib) ≠ some dir ∧
        (record.kind = .album →
          DirsApart (ofString record.path) (destination env data record lib)) := by
    intro hne
    obtain ⟨album_dir, hdir, hcases⟩ := assign_album_ok hfs hdirs hrecord h
    rcases hcases with ⟨hwhere, -⟩ | ⟨name, hwhere, hcases⟩
    · exact absurd hwhere hne
    refine ⟨?_, fun hkind => ?_⟩
    · rw [hwhere, parent_append_normal, ← hdir]
      exact hleft
    · rcases hcases with ⟨-, hland, -⟩ | ⟨hfile, -⟩
      · exact hland.apart
      · exact absurd hkind hfile
  intro id
  rw [show moved.store.tables.live_in stamp dir = lib.store.tables.live_in stamp dir from
    funext (live_in_congr hmetadata)]
  rcases hrows id with ⟨hrow, hrow'⟩ | ⟨row, row', hrow, hrow', hmoved⟩
  · refine Or.inr ⟨?_, fun taken htaken => ?_⟩
    · rw [show lib.store.tables.assets.lookup id = none from hrow,
        show moved.store.tables.assets.lookup id = none from hrow']
    · cases hrow.symm.trans htaken.2.1
  rw [show lib.store.tables.assets.lookup id = some row from hrow,
    show moved.store.tables.assets.lookup id = some row' from hrow', Option.bind_some,
    Option.bind_some]
  by_cases htaken : Taken env data record lib id row
  · refine Or.inl ⟨live_in_elsewhere ?_, row, htaken⟩
    rw [hmoved.path, htaken.left_at]
    exact (hlands htaken.1).1
  · refine Or.inr ⟨?_, fun taken h => htaken (Option.some.inj (h.2.1.symm.trans hrow) ▸ h)⟩
    by_cases hstays : left_at env data record lib id (ofString row.path) = ofString row.path
    · rw [hmoved.stays hstays]
    -- what lies deeper is in other directories, before and after
    obtain ⟨hkind, rel, hnil, hrel, hne⟩ := exists_deeper hrecord hrow htaken hstays
    obtain ⟨c, hsource⟩ := exists_of_parent hparent
    rw [live_in_elsewhere, live_in_elsewhere]
    · intro h
      rw [hrel] at h
      exact ne_append_of_parent hparent _ (parent_append hnil h)
    · intro h
      rw [hmoved.path, left_at_of_strip hkind hrel] at h
      apply (hlands hne).2 hkind (rel.dropLast ++ [c]) []
      rw [List.append_nil, ← List.append_assoc, ← parent_append hnil h, ← hsource]

/-- The album of the directory that is left stays where it is. -/
theorem left_at_above (hrecord : lib.store.get_asset_by_id data.asset_id = some record)
    {dir : PathBuf} (hparent : parent (ofString record.path) = some dir) {id : String}
    {stats : AlbumStats} (hstats : lib.store.tables.album_stats id = some (dir, stats)) :
    left_at env data record lib id dir = dir := by
  by_cases hkind : record.kind = .album
  · exact left_at_outside hkind (ne_append_of_parent hparent)
  · apply left_at_other hkind
    rintro rfl
    -- what is moved is no album
    obtain ⟨album, -, halbum, hkind', -⟩ := album_stats_eq_some.mp hstats
    rw [Option.mem_unique hrecord halbum] at hkind
    exact hkind hkind'

theorem exactStats_iff {tables : Tables} {id : String} {entry : PathBuf × AlbumStats}
    (h : tables.album_stats id = some entry) :
    tables.ExactStats stamp id ↔ entry.2 = stats_of (tables.live_media stamp entry.1) := by
  constructor
  · exact fun hexact => hexact _ _ h
  · intro heq dir stats hstats
    obtain rfl := Option.mem_unique h hstats
    exact heq

/-- The albums at the two ends of a request: the one that is entered, and those of the directory
that the item leaves, if it is not the one entered. -/
def AtEnd (data : AssignAlbumData) (record : AssetRecord) (lib : Library) (id : String) : Prop :=
  id = data.album_id ∨ ∃ dir stats, lib.store.tables.album_stats id = some (dir, stats) ∧
    parent (ofString record.path) = some dir ∧
    lib.dirs.get_dir_path_for_album data.album_id ≠ some dir

/-- The statistics at both ends of a move are exact, if those of all albums
were exact before, exactly if every album at an end is refreshed and all
files count that are left in its directory, or is not refreshed and loses
no live media file.

The entered album is always refreshed. The album that is left is refreshed
if it waits for it, or if the item is an album and the cache knows the
directory. -/
theorem stats_exact_after_move_iff (hfs : env.Lawful) (hdirs : lib.dirs.WellFormed)
    (hkeyed : lib.store.Keyed) (hrecord : lib.store.get_asset_by_id data.asset_id = some record)
    (hexact : ∀ id, lib.store.tables.ExactStats stamp id)
    (h : assign_album_request env caller now stamp pending data lib = .ok (outcome, lib')) :
    (∀ id, AtEnd data record lib id → lib'.store.tables.ExactStats stamp id) ↔
      ∀ id dir stats, AtEnd data record lib id →
        lib.store.tables.album_stats id = some (dir, stats) →
          if id ∈ refreshed_albums env pending data record lib then
            AllCountAfter env data record lib (left_at env data record lib id dir)
          else ¬ TakesFile env data record lib := by
  obtain ⟨moved, hmove, hrefresh⟩ := assign_album_request_ok hrecord h
  have hkeyed' := keyed_assign hfs hdirs hkeyed hrecord hmove
  obtain ⟨hsame, hafter⟩ := hrefresh hkeyed'
  have hlive := fun dir => stats_of_perm (hsame.live_media_perm hkeyed' stamp dir)
  refine forall_congr' fun id => ?_
  -- what the album shows after the request
  have hshown : lib'.store.tables.album_stats id =
      (lib.store.tables.album_stats id).map fun entry =>
        (left_at env data record lib id entry.1,
          if id ∈ refreshed_albums env pending data record lib then
            stats_of (counted_media stamp moved.store.tables (left_at env data record lib id entry.1))
          else entry.2) := by
    rw [hafter, album_stats_assign hfs hdirs hkeyed hrecord hmove]
    simp only [mem_refreshed_iff hfs hdirs hkeyed hrecord hmove]
    split
    · rw [Option.map_map]
      rfl
    · rfl
  have halbum : ∀ dir stats, AtEnd data record lib id →
      lib.store.tables.album_stats id = some (dir, stats) →
        (lib'.store.tables.ExactStats stamp id ↔
          if id ∈ refreshed_albums env pending data record lib then
            AllCountAfter env data record lib (left_at env data record lib id dir)
          else ¬ TakesFile env data record lib) := by
    intro dir stats hend hbefore
    rw [hbefore, Option.map_some] at hshown
    rw [exactStats_iff hshown, hlive]
    split
    · rw [exact_refreshed_iff, allCount_assign_iff hfs hdirs hkeyed hrecord hmove]
    rename_i hout
    rcases hend with rfl | ⟨dir', stats', hbefore', hparent, hleft⟩
    · -- the entered album is refreshed
      exact absurd (List.mem_append_right _ List.mem_cons_self) hout
    · obtain ⟨rfl, rfl⟩ := Prod.mk.inj (Option.mem_unique hbefore hbefore')
      dsimp only
      rw [left_at_above hrecord hparent hbefore, hexact id dir stats hbefore]
      exact (onlyTakenMissing_assign hfs hdirs hkeyed hrecord hmove hparent hleft).stats_eq_iff
        hparent
  constructor
  · intro hall dir stats hend hbefore
    exact (halbum dir stats hend hbefore).mp (hall hend)
  · intro hall hend dir stats hafter
    obtain ⟨entry, hbefore, -⟩ := Option.map_eq_some_iff.mp (hshown.symm.trans hafter)
    exact (halbum entry.1 entry.2 hend hbefore).mpr (hall _ _ hend hbefore) dir stats hafter

end Ends

/-! ## A photo that leaves an album -/

def sea_photo : AssetRecord :=
  ⟨"sea", .image, "/photos/trips/sea.jpg", some "5ea", 7, "jpg", 0, 0, false, some "trips"⟩

/-- The album `trips` with a photo in it, the empty album `best`, and their statistics. -/
def sea_library : Library where
  store :=
    ((shelve [.new_album 0 "trips" "/photos/trips", .new_album 0 "best" "/photos/best",
      sea_photo]).put_metadata "trips" (to_metadata_record (.album
          { object := ObjectSchema.new 0 "trips" .album
            metadata :=
              { item_count := 1, item_size := 7, start_time := some 0, end_time := some 0 } }))
      ).put_metadata "best" (to_metadata_record (.album
        { object := ObjectSchema.new 0 "best" .album, metadata := {} }))
  dirs :=
    AList.insert (ofString "/photos/trips") "trips"
      (AList.insert (ofString "/photos/best") "best" ∅)

def one_date : Stamp := fun _ _ => 0

def sea_disk : MoveEnv := small_disk ["/photos/trips", "/photos/best"] ["/photos/trips/sea.jpg"]

/-- Alice moves the photo to `best`, while these albums wait for a refresh. -/
def sea_moved (pending : List String) : Except AppError (AssignOutcome × Library) :=
  assign_album_request sea_disk "alice" 0 one_date pending ⟨"sea", "best", .skip⟩ sea_library

theorem keyed_sea_library : sea_library.store.Keyed :=
  (shelve_agrees (by decide) (by decide)).1

theorem wellFormed_sea_dirs : sea_library.dirs.WellFormed :=
  DirAlbumCache.WellFormed.insert (DirAlbumCache.WellFormed.insert (fun _ _ h => by cases h)
    (wellFormed_ofString _) _) (wellFormed_ofString _) _

theorem album_stats_sea_library {id : String} {entry : PathBuf × AlbumStats}
    (h : sea_library.store.tables.album_stats id = some entry) :
    id = "trips" ∧ entry = (ofString "/photos/trips", ⟨1, 7, some 0, some 0⟩) ∨
      id = "best" ∧ entry = (ofString "/photos/best", ⟨0, 0, none, none⟩) := by
  by_cases hbest : id = "best"
  · subst hbest
    exact Or.inr ⟨rfl, (Option.some.inj h).symm⟩
  · by_cases htrips : id = "trips"
    · subst htrips
      exact Or.inl ⟨rfl, (Option.some.inj h).symm⟩
    · obtain ⟨-, payload, -, -, hpayload, -⟩ := album_stats_eq_some.mp h
      have hnone : sea_library.store.tables.metadata.lookup id = none :=
        (AList.lookup_insert_ne hbest).trans (AList.lookup_insert_ne htrips)
      cases hnone.symm.trans hpayload

theorem exact_sea_library (id : String) : sea_library.store.tables.ExactStats one_date id := by
  intro dir stats h
  rcases album_stats_sea_library h with ⟨-, hentry⟩ | ⟨-, hentry⟩
  · obtain ⟨rfl, rfl⟩ := Prod.mk.inj hentry
    decide +kernel
  · obtain ⟨rfl, rfl⟩ := Prod.mk.inj hentry
    decide +kernel

/-- The photo is moved, whichever albums wait. -/
theorem sea_moved_ok (pending : List String) :
    ∃ lib', sea_moved pending = .ok (.moved, lib') := by
  obtain ⟨moved, hmoved⟩ := ok_of_outcome (by decide +kernel :
    (assign_album sea_disk "alice" ⟨"sea", "best", .skip⟩ sea_library).map Prod.fst = .ok .moved)
  unfold sea_moved assign_album_request
  rw [hmoved]
  exact ⟨_, rfl⟩

/-- After the move no media file is left in `trips`, and the album's statistics are as they were. -/
theorem sea_moved_after {lib' : Library} (h : sea_moved [] = .ok (.moved, lib')) :
    lib'.store.tables.live_media one_date (ofString "/photos/trips") = [] ∧
      lib'.store.tables.album_stats "trips" =
        some (ofString "/photos/trips", ⟨1, 7, some 0, some 0⟩) := by
  have hrecord : sea_library.store.get_asset_by_id "sea" = some sea_photo := rfl
  obtain ⟨moved, hmove, hrefresh⟩ := assign_album_request_ok hrecord h
  have hkeyed := keyed_assign (lawful_small_disk _ _) wellFormed_sea_dirs keyed_sea_library rfl hmove
  obtain ⟨hsame, hstats⟩ := hrefresh hkeyed
  have hfacts : (assign_album sea_disk "alice" ⟨"sea", "best", .skip⟩ sea_library).map (fun r =>
        (r.2.store.tables.live_media one_date (ofString "/photos/trips"),
          r.2.store.tables.album_stats "trips")) =
      .ok ([], some (ofString "/photos/trips", ⟨1, 7, some 0, some 0⟩)) := by decide +kernel
  rw [hmove] at hfacts
  obtain ⟨hlive, htrips⟩ := Prod.mk.inj (Except.ok.inj hfacts)
  constructor
  · have hperm := hsame.live_media_perm hkeyed one_date (ofString "/photos/trips")
    rw [hlive] at hperm
    exact hperm.eq_nil
  · rw [hstats, if_neg, htrips]
    unfold assign_marks
    simp [sea_photo]

/-- If `trips` waits for a refresh, both albums count right. -/
theorem stats_exact_while_waiting :
    ∃ lib', sea_moved ["trips"] = .ok (.moved, lib') ∧
      lib'.store.tables.ExactStats one_date "trips" ∧
      lib'.store.tables.ExactStats one_date "best" := by
  obtain ⟨lib', hmoved⟩ := sea_moved_ok ["trips"]
  have hrecord : sea_library.store.get_asset_by_id "sea" = some sea_photo := rfl
  have hcounts : ∀ row ∈ sea_library.store.get_all_assets, row.kind ≠ .album →
      (file_name (left_at sea_disk ⟨"sea", "best", .skip⟩ sea_photo sea_library row.asset_id
        (ofString row.path))).any (· != ".__picasu_ph__.jpg") = true := by decide +kernel
  have hends := (stats_exact_after_move_iff (lawful_small_disk _ _) wellFormed_sea_dirs
    keyed_sea_library hrecord exact_sea_library hmoved).mpr (by
      intro id dir stats hend hstats
      rw [if_pos]
      · intro id row hrow hkind _ place _
        have hcount := hcounts row (Table.mem_values.mpr ⟨id, hrow⟩) hkind
        rwa [keyed_sea_library id row hrow] at hcount
      · rcases album_stats_sea_library hstats with ⟨rfl, -⟩ | ⟨rfl, -⟩
        · exact List.mem_cons_self
        · exact List.mem_append_right _ List.mem_cons_self)
  refine ⟨lib', hmoved, hends "trips" (Or.inr ?_), hends "best" (Or.inl rfl)⟩
  exact ⟨_, _, rfl, by decide +kernel, by decide +kernel⟩

/-- The photo leaves `trips`, which counts it all the same. -/
theorem left_album_keeps_counting :
    (∀ id, sea_library.store.tables.ExactStats one_date id) ∧
      ∃ lib', sea_moved [] = .ok (.moved, lib') ∧
        lib'.store.tables.album_stats "trips" =
          some (ofString "/photos/trips", ⟨1, 7, some 0, some 0⟩) ∧
        lib'.store.tables.live_media one_date (ofString "/photos/trips") = [] ∧
        ¬ lib'.store.tables.ExactStats one_date "trips" := by
  obtain ⟨lib', hmoved⟩ := sea_moved_ok []
  obtain ⟨hlive, htrips⟩ := sea_moved_after hmoved
  refine ⟨exact_sea_library, lib', hmoved, htrips, hlive, ?_⟩
  intro hexact
  have hcount := hexact _ _ htrips
  rw [hlive] at hcount
  exact absurd hcount (by decide)
