import Picasu.Router.Relocation

/-! # Shares That Move Along

An album moves with the albums below it, and their shares move with them. `move_album_into_album`
refuses to move an album that somebody else has shared. It looks at the moved album only: the
albums below it move unchecked.
-/

open PathBuf

section Shares

variable {env : MoveEnv} {album_id caller : String} {target_dir : PathBuf}
  {on_conflict : OnConflict} {lib lib' : Library} {outcome : AssignOutcome} {record : AssetRecord}

/-- The album is in another directory than before. -/
def AlbumMoved (lib lib' : Library) (id : String) : Prop :=
  ∃ before after, lib.store.get_asset_by_id id = some before ∧ before.kind = .album ∧
    lib'.store.get_asset_by_id id = some after ∧ ofString after.path ≠ ofString before.path

/-- An album is moved exactly if it lies at or below the directory. -/
theorem albumMoved_relocate_dir_iff {source_dir dest_dir : PathBuf}
    (hland : Landing source_dir dest_dir) (hkeyed : lib.store.Keyed) {id : String} :
    AlbumMoved lib (relocate_dir source_dir dest_dir lib) id ↔
      ∃ before, lib.store.get_asset_by_id id = some before ∧ before.kind = .album ∧
        starts_with (ofString before.path) source_dir = true := by
  have hrows := get_asset_after_dir_move source_dir dest_dir hkeyed id
  constructor
  · rintro ⟨before, after, hbefore, hkind, hafter, hne⟩
    refine ⟨before, hbefore, hkind, ?_⟩
    rw [← strip_text_isSome]
    cases htext : strip_text before.path source_dir with
    | some text => rfl
    | none =>
      exfalso
      apply hne
      rw [show lib.store.get_asset_by_id id = some before from hbefore] at hrows
      have hmoved : moved_record source_dir dest_dir before = before :=
        (relocate_below_of_none source_dir dest_dir (s := lib.store) htext).2
      rw [Option.map_some, hmoved] at hrows
      rw [Option.mem_unique hafter hrows]
  · rintro ⟨before, hbefore, hkind, hstart⟩
    obtain ⟨rel, hrel⟩ := starts_with_iff.mp hstart
    obtain ⟨text, htext⟩ := exists_strip_text hrel
    rw [hbefore] at hrows
    refine ⟨before, _, hbefore, hkind, hrows, ?_⟩
    rw [path_moved_record dest_dir htext, hland.ofString_join_text htext hrel, hrel]
    exact hland.apart rel rel

/-- A move is skipped exactly if the destination is there and conflicts are skipped. -/
theorem landing_eq_none_iff {fs : Fs} {base_dest : PathBuf} {dest : Option PathBuf}
    (h : landing fs on_conflict base_dest = .ok (dest, outcome)) :
    dest = none ↔ on_conflict = .skip ∧ fs.exists_ base_dest = true := by
  rcases landing_eq_ok h with ⟨rfl, -, hskip⟩ | ⟨-, hnot, found, rfl, -⟩
  · exact iff_of_true rfl hskip
  · exact iff_of_false nofun hnot

/-- A move takes along nobody else's shares exactly if it is skipped, for a destination that is
there, or no album at or below the moved directory has a share that somebody else created. The
handler checks the moved album only. -/
theorem foreign_shares_stay_iff (hfs : env.Lawful) (htarget : WellFormed target_dir)
    (hkeyed : lib.store.Keyed) (hrecord : lib.store.get_asset_by_id album_id = some record)
    (h : move_album_into_album env album_id target_dir on_conflict caller lib =
      .ok (outcome, lib')) :
    (∀ id, AlbumMoved lib lib' id →
      has_foreign_share caller id lib'.store.tables.metadata = false) ↔
    (on_conflict = .skip ∧ ∃ name, file_name (ofString record.path) = some name ∧
      env.roots.fs.exists_ (target_dir ++ [.normal name]) = true) ∨
    ∀ id below, lib.store.get_asset_by_id id = some below →
      below.kind = .album → starts_with (ofString below.path) (ofString record.path) = true →
        has_foreign_share caller id lib.store.tables.metadata = false := by
  obtain ⟨-, -, name, dest, hname, -, hlanding, hdest⟩ := move_album_into_album_ok hrecord h
  cases dest with
  | none =>
    obtain rfl : lib' = lib := hdest
    obtain ⟨hskip, hexists⟩ := (landing_eq_none_iff hlanding).mp rfl
    refine iff_of_true ?_ (Or.inl ⟨hskip, name, hname, hexists⟩)
    rintro id ⟨before, after, hbefore, -, hafter, hne⟩
    rw [Option.mem_unique hafter hbefore] at hne
    exact absurd rfl hne
  | some dest_dir =>
    obtain rfl : lib' = relocate_dir (ofString record.path) dest_dir lib := hdest
    have hland := landing_of_move hfs htarget hrecord h hname hlanding
    have hmetadata : (relocate_dir (ofString record.path) dest_dir lib).store.tables.metadata =
        lib.store.tables.metadata := metadata_after_dir_move
    have hnot : ¬ (on_conflict = .skip ∧ ∃ name, file_name (ofString record.path) = some name ∧
        env.roots.fs.exists_ (target_dir ++ [.normal name]) = true) := by
      rintro ⟨hskip, name', hname', hexists⟩
      obtain rfl := Option.mem_unique hname hname'
      cases (landing_eq_none_iff hlanding).mpr ⟨hskip, hexists⟩
    simp only [albumMoved_relocate_dir_iff hland hkeyed, hmetadata, or_iff_right hnot]
    constructor
    · intro hsafe id below hbelow hkind hstart
      exact hsafe id ⟨below, hbelow, hkind, hstart⟩
    · rintro hsafe id ⟨below, hbelow, hkind, hstart⟩
      exact hsafe id below hbelow hkind hstart

end Shares

/-! ## A nested album -/

def trips_moved (user : String) : Except AppError (AssignOutcome × Library) :=
  move_album_into_album (small_disk ["/photos/trips/rome", "/photos/best"] []) "trips"
    (ofString "/photos/best") .skip "alice" (trips_library user)

/-- Alice's own share moves along with her album. -/
theorem foreign_shares_stay_own :
    ∃ lib', trips_moved "alice" = .ok (.moved, lib') ∧
      ∀ id, AlbumMoved (trips_library "alice") lib' id →
        has_foreign_share "alice" id lib'.store.tables.metadata = false := by
  obtain ⟨lib', hmoved⟩ := ok_of_outcome
    (by decide +kernel : (trips_moved "alice").map Prod.fst = .ok .moved)
  refine ⟨lib', hmoved, (foreign_shares_stay_iff (lawful_small_disk _ _) (wellFormed_ofString _)
    (keyed_trips_library "alice") rfl hmoved).mpr (Or.inr ?_)⟩
  intro id _ _ _ _
  by_cases hid : id = "rome"
  · subst hid
    decide +kernel
  · unfold has_foreign_share
    rw [show (trips_library "alice").store.tables.metadata.lookup id = none from
      AList.lookup_insert_ne hid]

/-- Bob shares `rome`, and it moves along with `trips`. -/
theorem nested_share_moved :
    ∃ lib', trips_moved "bob" = .ok (.moved, lib') ∧
      AlbumMoved (trips_library "bob") lib' "rome" ∧
      has_foreign_share "alice" "rome" lib'.store.tables.metadata = true := by
  obtain ⟨lib', hmoved⟩ := ok_of_outcome
    (by decide +kernel : (trips_moved "bob").map Prod.fst = .ok .moved)
  have hrome : (trips_moved "bob").map (fun r =>
      ((r.2.store.get_asset_by_id "rome").map AssetRecord.path,
        has_foreign_share "alice" "rome" r.2.store.tables.metadata)) =
      .ok (some "/photos/best/trips/rome", true) := by decide +kernel
  rw [hmoved] at hrome
  obtain ⟨hpath, hshare⟩ := Prod.mk.inj (Except.ok.inj hrome)
  obtain ⟨after, hafter, hpath⟩ := Option.map_eq_some_iff.mp hpath
  refine ⟨lib', hmoved, ⟨_, after, rfl, rfl, hafter, ?_⟩, hshare⟩
  rw [hpath]
  decide +kernel
