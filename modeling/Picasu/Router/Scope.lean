import Picasu.Framework.Run
import Picasu.Router.Albums
import Picasu.Router.AssignAlbum
import Picasu.Router.GetData
import Picasu.Router.Visibility

/-! # Listed Rows and Their Scope

A snapshot is filtered for its presenter when it is taken. Its rows are composed later, from the
records as they are then, and between the two any number of moves and index updates may change
paths and albums.

`listed_rows_in_scope` says which of them keep the listed rows in the scope of the token: a user's
listing stays in scope as long as nothing listed is moved to where the user does not see, and a
share's as long as nothing listed leaves the shared album. The index updates by themselves are
harmless to a user: an asset that is indexed again keeps its path.

`get_data` does not check the scope. `listed_row_moved_out_of_sight` is the run in which a listed
picture is moved into a personal area and is still served, while `get_metadata` refuses it.
-/

open LTS PathBuf

namespace Scope

/-! ## Steps -/

/-- One atomic step: a request, or one write of an indexing task. -/
inductive Label where
  | assign_album (env : MoveEnv) (caller : String) (data : AssignAlbumData)
  | flush_insert (now : Int) (random_hash : String) (data : AbstractData)
  | flush_remove (fs : Fs) (data : AbstractData)
  | sweep_dir_album (dir_path : PathBuf) (album_id : String)
  | prune_users_root (users_root : PathBuf)
  | get_or_create_dir_album (to_uppercase : Char → String) (now : Int) (info : AlbumInfo)
      (random_hash dir_path : String)
  | album_task (now : Int) (tree : MemoryTree) (album_id : String)

/-- The transition function. A refused request changes nothing. -/
def step (lib : Library) : Label → Library
  | .assign_album env caller data =>
    match assign_album env caller data lib with
    | .ok (_, lib') => lib'
    | .error _ => lib
  | .flush_insert now random_hash data =>
    { lib with store := flush_insert now random_hash data lib.store }
  | .flush_remove fs data => { lib with store := flush_remove fs data lib.store }
  | .sweep_dir_album dir_path album_id => sweep_dir_album dir_path album_id lib
  | .prune_users_root users_root => handle_prune_users_root users_root lib
  | .get_or_create_dir_album to_uppercase now info random_hash dir_path =>
    (get_or_create_dir_album to_uppercase now info random_hash dir_path lib).2
  | .album_task now tree album_id =>
    { lib with store := { lib.store with tables := album_task now tree album_id lib.store.tables } }

/-- The steps of one `flush_tables`. -/
def flush_labels (now : Int) (fs : Fs) (insert_list : List (String × AbstractData))
    (remove_list : List AbstractData) : List Label :=
  insert_list.map (fun (random_hash, data) => .flush_insert now random_hash data) ++
    remove_list.map (.flush_remove fs)

/-- A flush is the run of its steps. -/
theorem run_flush_labels (now : Int) (fs : Fs) (insert_list : List (String × AbstractData))
    (remove_list : List AbstractData) (lib : Library) :
    run step lib (flush_labels now fs insert_list remove_list) =
      { lib with store := flush_tables now fs insert_list remove_list lib.store } := by
  -- a step that works on the store alone, folded over a list
  have hloop : ∀ {α : Type} (label : α → Label) (write : AssetStore → α → AssetStore),
      (∀ lib x, step lib (label x) = { lib with store := write lib.store x }) →
      ∀ (xs : List α) (lib : Library),
        run step lib (xs.map label) = { lib with store := xs.foldl write lib.store } := by
    intro α label write hstep xs
    induction xs with
    | nil => exact fun _ => rfl
    | cons x xs ih =>
      intro lib
      rw [List.map_cons, run_cons, hstep, ih]
      rfl
  rw [flush_labels, run_append]
  rw [hloop _ (fun s data => flush_remove fs data s) fun _ _ => rfl]
  rw [hloop _ (fun s (random_hash, data) => flush_insert now random_hash data s) fun _ _ => rfl]
  rfl

/-- A sweep is the run of its steps. -/
theorem run_sweep_labels (entries : List (PathBuf × String)) (lib : Library) :
    run step lib (entries.map fun (dir_path, album_id) => .sweep_dir_album dir_path album_id) =
      handle_sweep_dir_albums entries lib := by
  induction entries generalizing lib with
  | nil => rfl
  | cons x xs ih => exact ih _

/-! ## Scope, on records -/

section Conditions

variable (roots : Roots) (claims : ClaimsSnapshot)

/-- A record in the token's scope: a file of the shared album, or a path that the caller sees. -/
def RecordInScope (record : AssetRecord) : Prop :=
  match claims.resolved_share_opt with
  | some resolved => record.kind ≠ .album ∧ record.album_id = some resolved.album_id
  | none => visible_to roots claims.caller (ofString record.path) = true

/-- A path that an asset in the token's scope may be found under. A share is not about paths. -/
def PathInScope (path : String) : Prop :=
  match claims.resolved_share_opt with
  | some _ => True
  | none => visible_to roots claims.caller (ofString path) = true

/-- Everything below the directory is visible to the token's caller. -/
def VisibleBelow (dir : PathBuf) : Prop :=
  ∀ p, starts_with p dir = true → visible_to roots claims.caller p = true

/-- The scope test on a composed view is the one on its record. -/
theorem in_scope_compose (now : Int) (record : AssetRecord) (payload : Option MetadataRecord) :
    in_scope roots claims (compose_abstract_data now record payload) = true ↔
      RecordInScope roots claims record := by
  unfold in_scope RecordInScope
  rw [visibility_path_compose, inAlbum_compose]
  cases claims.resolved_share_opt with
  | none => simp
  | some resolved =>
    by_cases hkind : record.kind = .album
    · simp [hkind]
    · simp [hkind]

/-- Moving the asset takes `id` along: it is the asset itself, or it lies in the directory that
moves. -/
def Takes (s : AssetStore) (asset_id id : String) : Prop :=
  id = asset_id ∨ ∃ record taken, s.get_asset_by_id asset_id = some record ∧
    record.kind = .album ∧ s.get_asset_by_id id = some taken ∧
    starts_with (ofString taken.path) (ofString record.path) = true

def AlbumStored (tables : Tables) (album_id : String) : Prop :=
  ∃ record payload, tables.assets.lookup album_id = some record ∧ record.kind = .album ∧
    tables.metadata.lookup album_id = some (.album payload)

/-- What a step has to respect, for the listed assets to stay in scope.

Without a share, a move that takes a listed asset along lands where the
caller sees everything. With one, a listed asset is only moved into the
shared album, and only indexed again as its member, and the shared album
is not cleaned up after as a deleted one. New ids are new. -/
def KeepsScope (listed : List String) (lib : Library) : Label → Prop
  | .assign_album _ _ data =>
    match claims.resolved_share_opt with
    | none => ∀ dir, lib.dirs.get_dir_path_for_album data.album_id = some dir →
        (∃ id ∈ listed, Takes lib.store data.asset_id id) → VisibleBelow roots claims dir
    | some resolved => data.asset_id ∈ listed → data.album_id = resolved.album_id
  | .flush_insert _ random_hash data =>
    random_hash ∉ listed ∧
    match claims.resolved_share_opt with
    | none => True
    | some resolved => ∀ id ∈ listed, lib.store.get_asset_id_by_path (flush_path data) = some id →
        data.inAlbum = some resolved.album_id
  | .get_or_create_dir_album _ _ _ random_hash _ => random_hash ∉ listed
  | .album_task _ _ album_id =>
    match claims.resolved_share_opt with
    | none => True
    | some resolved => album_id = resolved.album_id → AlbumStored lib.store.tables album_id
  | .flush_remove _ _ | .sweep_dir_album _ _ | .prune_users_root _ => True

/-- The listed assets are in scope, and so are the paths they are found under. -/
structure Scoped (listed : List String) (lib : Library) : Prop where
  within : lib.store.Within (· ∈ listed) (RecordInScope roots claims) (PathInScope roots claims)
  dirs : lib.dirs.WellFormed

end Conditions

/-! ## Every step keeps the scope -/

section Steps

variable {roots : Roots} {claims : ClaimsSnapshot} {listed : List String} {lib : Library}

variable {dir : PathBuf} {data : AssignAlbumData} {env : MoveEnv} {caller : String}

/-- A file that lands below a directory the caller sees is in scope. -/
theorem visible_of_visibleBelow (hbelow : VisibleBelow roots claims dir)
    (rel : PathBuf) : visible_to roots claims.caller (dir ++ rel) = true :=
  hbelow _ (starts_with_append dir rel)

section

variable (h : Scoped roots claims listed lib) {record : AssetRecord} {name : String}

include h

theorem scoped_relocate_asset
    (hdir : lib.dirs.get_dir_path_for_album data.album_id = some dir)
    (hrecord : lib.store.get_asset_by_id data.asset_id = some record) (hkind : record.kind ≠ .album)
    (hname : Plain (.normal name))
    (hkeep : KeepsScope roots claims listed lib (.assign_album env caller data)) :
    Scoped roots claims listed { lib with
      store := relocate_asset data.asset_id data.album_id record
        (display (dir ++ [.normal name])) lib.store } := by
  refine ⟨within_relocate_asset h.within hrecord fun hlisted => ?_, h.dirs⟩
  have hwf : WellFormed dir := h.dirs dir _ (DirAlbumCache.lookup_of_get_dir_path hdir)
  have htext : ofString (display (dir ++ [.normal name])) = dir ++ [.normal name] :=
    ofString_display (wellFormed_append hwf (by simpa using hname))
  cases hshare : claims.resolved_share_opt with
  | none =>
    simp only [KeepsScope, hshare] at hkeep
    have hsee := visible_of_visibleBelow
      (hkeep dir hdir ⟨data.asset_id, hlisted, Or.inl rfl⟩) [.normal name]
    simp only [RecordInScope, PathInScope, hshare, htext]
    exact ⟨hsee, hsee⟩
  | some resolved =>
    simp only [KeepsScope, hshare] at hkeep
    simp only [RecordInScope, PathInScope, hshare, hkeep hlisted]
    exact ⟨⟨hkind, trivial⟩, trivial⟩

theorem scoped_relocate_dir
    (hdir : lib.dirs.get_dir_path_for_album data.album_id = some dir)
    (hrecord : lib.store.get_asset_by_id data.asset_id = some record) (hkind : record.kind = .album)
    (hname : Plain (.normal name)) (hsource : ofString record.path ≠ [])
    (hkeep : KeepsScope roots claims listed lib (.assign_album env caller data)) :
    Scoped roots claims listed
      (relocate_dir (ofString record.path) (dir ++ [.normal name]) lib) := by
  have hwf : WellFormed dir := h.dirs dir _ (DirAlbumCache.lookup_of_get_dir_path hdir)
  have hdest : WellFormed (dir ++ [.normal name]) := wellFormed_append hwf (by simpa using hname)
  refine ⟨within_relocate_below h.within _ ?_, h.dirs.rewrite hsource hdest⟩
  intro moved hmoved hlisted text htext
  have hlook := Table.Within.lookup_of_mem h.within hmoved
  cases hshare : claims.resolved_share_opt with
  | none =>
    simp only [KeepsScope, hshare] at hkeep
    -- what is stripped of the source directory lies below it
    have hbelow : starts_with (ofString moved.path) (ofString record.path) = true := by
      rw [← strip_text_isSome, htext]
      rfl
    have hsee := visible_of_visibleBelow (hkeep dir hdir
      ⟨moved.asset_id, hlisted, Or.inr ⟨record, moved, hrecord, hkind, hlook, hbelow⟩⟩)
      ([.normal name] ++ (text.toList.splitOn '/').filterMap piece)
    have hread := ofString_join_text hdest (by simp) (append_normal_ne_root dir name) hsource htext
      (strip_text_eq_some hsource htext)
    simp only [RecordInScope, PathInScope, hshare, hread, List.append_assoc]
    exact ⟨hsee, hsee⟩
  | some resolved =>
    -- the album of a file that moves with its directory stays
    have hin := h.within.rows _ _ hlisted hlook
    simp only [RecordInScope, hshare] at hin
    simp only [RecordInScope, PathInScope, hshare]
    exact ⟨hin, trivial⟩

theorem scoped_assign_album
    (hkeep : KeepsScope roots claims listed lib (.assign_album env caller data)) :
    Scoped roots claims listed (step lib (.assign_album env caller data)) := by
  show Scoped roots claims listed (match assign_album env caller data lib with
    | .ok (_, lib') => lib'
    | .error _ => lib)
  split
  · rename_i outcome lib' hok
    obtain ⟨dir, record, hdir, hrecord, hcases⟩ := assign_album_cases hok
    rcases hcases with rfl | ⟨hkind, name, hname, rfl⟩ | ⟨hkind, name, hname, hsource, rfl⟩
    · exact h
    · exact scoped_relocate_asset h hdir hrecord hkind hname hkeep
    · exact scoped_relocate_dir h hdir hrecord hkind hname hsource hkeep
  · exact h

theorem scoped_flush_insert {now : Int} {random_hash : String} {data : AbstractData}
    (hkeep : KeepsScope roots claims listed lib (.flush_insert now random_hash data)) :
    Scoped roots claims listed (step lib (.flush_insert now random_hash data)) := by
  refine ⟨within_flush_insert h.within now hkeep.1 ?_, h.dirs⟩
  intro id hid hlisted hpath
  cases hshare : claims.resolved_share_opt with
  | none =>
    -- the record is filed under the path it was found by
    simp only [PathInScope, hshare] at hpath
    simp only [RecordInScope, hshare]
    exact hpath
  | some resolved =>
    have halbum : data.inAlbum = some resolved.album_id := by
      have hkeep := hkeep.2
      simp only [hshare] at hkeep
      exact hkeep id hlisted hid
    simp only [RecordInScope, hshare]
    refine ⟨?_, halbum⟩
    -- a view with an album is a file's
    show data.kind ≠ .album
    intro hkind
    cases data with
    | image img | video vid => cases hkind
    | album alb => cases halbum

end

/-- A refresh leaves the records alone, unless it finds no album: then it ends the membership of the
album's files. -/
theorem assets_album_task (now : Int) (tree : MemoryTree) (album_id : String) (tables : Tables) :
    (album_task now tree album_id tables).assets = tables.assets ∨
      ¬ AlbumStored tables album_id ∧ (album_task now tree album_id tables).assets =
        clear_membership album_id tree tables.assets := by
  by_cases hstored : AlbumStored tables album_id
  · obtain ⟨record, payload, hrecord, hkind, hpayload⟩ := hstored
    left
    simp only [album_task, hrecord, hpayload, compose_abstract_data, hkind]
    rfl
  · simp only [album_task]
    split
    · split
      · exact Or.inl rfl
      · exact Or.inr ⟨hstored, rfl⟩
    · exact Or.inr ⟨hstored, rfl⟩

theorem scoped_album_task (h : Scoped roots claims listed lib) {now : Int} {tree : MemoryTree}
    {album_id : String}
    (hkeep : KeepsScope roots claims listed lib (.album_task now tree album_id)) :
    Scoped roots claims listed (step lib (.album_task now tree album_id)) := by
  refine ⟨?_, h.dirs⟩
  show Table.Within _ _ _ _ (album_task now tree album_id lib.store.tables).assets _
  rcases assets_album_task now tree album_id lib.store.tables with hsame | ⟨hgone, hcleared⟩
  · rw [hsame]
    exact h.within
  · rw [hcleared]
    refine Table.Within.foldl_rewriteAt h.within ?_ _
    intro record record' hrewrite
    split at hrewrite
    · rename_i hmember
      obtain rfl := Option.some.inj hrewrite
      refine ⟨rfl, fun hin => ?_⟩
      cases hshare : claims.resolved_share_opt with
      | none => simpa only [RecordInScope, hshare] using hin
      | some resolved =>
        -- a record in scope is in the shared album, which is not the one cleaned up
        simp only [RecordInScope, hshare] at hin
        simp only [KeepsScope, hshare] at hkeep
        have hshared : album_id = resolved.album_id := Option.some.inj (hmember.symm.trans hin.2)
        exact absurd (hkeep hshared) hgone
    · cases hrewrite

theorem step_scoped (h : Scoped roots claims listed lib) {l : Label}
    (hkeep : KeepsScope roots claims listed lib l) : Scoped roots claims listed (step lib l) := by
  cases l with
  | assign_album env caller data => exact scoped_assign_album h hkeep
  | flush_insert now random_hash data => exact scoped_flush_insert h hkeep
  | flush_remove fs data => exact ⟨within_flush_remove h.within fs data, h.dirs⟩
  | sweep_dir_album dir_path album_id =>
    exact ⟨within_sweep_dir_album h.within dir_path album_id, h.dirs.erase dir_path⟩
  | prune_users_root users_root =>
    refine ⟨within_handle_prune_users_root h.within users_root, ?_⟩
    show (handle_prune_users_root users_root lib).dirs.WellFormed
    unfold handle_prune_users_root
    split
    · exact h.dirs
    · exact h.dirs.erase users_root
  | get_or_create_dir_album to_uppercase now info random_hash dir_path =>
    refine ⟨within_get_or_create_dir_album h.within to_uppercase now info hkeep dir_path, ?_⟩
    simp only [step, get_or_create_dir_album]
    split
    · exact h.dirs
    · exact h.dirs.insert (wellFormed_ofString dir_path) random_hash
  | album_task now tree album_id => exact scoped_album_task h hkeep

end Steps

/-! ## Every listing starts in scope -/

/-- The token belongs to the presenter of the request, and its snapshot holds the rows that the
request selects from the tree. -/
structure TokenFor (layout : Layout) (tree : MemoryTree) (req : PrefetchRequest) (caches : Caches)
    (claims : ClaimsSnapshot) : Prop where
  rows : caches.read_tree_snapshot claims.timestamp = some (req.select layout tree)
  caller : claims.caller = req.presenter.caller_id
  share : claims.resolved_share_opt = req.presenter.get_share

/-- A prefetch that is not answered from the query cache gives such a token. -/
theorem tokenFor_execute_prefetch_logic {hasher : QueryKey → UInt64} {version : Int}
    {req : PrefetchRequest} {caches : Caches} (layout : Layout) (tree : MemoryTree) (now : Nat)
    (hmiss : caches.read_query_snapshot (hasher (req.cache_key version)) = none) :
    TokenFor layout tree req
      (execute_prefetch_logic hasher version layout tree now req caches).2
      (execute_prefetch_logic hasher version layout tree now req caches).1.token := by
  simp only [execute_prefetch_logic, hmiss]
  exact ⟨Tiered.get_put_self _ _ _, rfl, rfl⟩

/-- The ids of the rows that the request selects. -/
def listed (layout : Layout) (tree : MemoryTree) (req : PrefetchRequest) : List String :=
  (req.select layout tree).map fun reduced => reduced.asset_id

/-- The recorded album of a file agrees with its directory, for the album the token shares. -/
def MembersAgree (layout : Layout) (claims : ClaimsSnapshot) (tables : Tables) : Prop :=
  ∀ resolved, claims.resolved_share_opt = some resolved →
    ∀ id record dir, tables.assets.lookup id = some record → record.kind ≠ .album →
      layout.dirs.get_dir_path_for_album resolved.album_id = some dir →
      Expression.normalize_parent layout.roots record.path = some dir →
      record.album_id = some resolved.album_id

/-- The store and the cache are in order: records lie under their own ids, an indexed path is the
path of the record it points at, and cached directories are paths. -/
structure InOrder (lib : Library) : Prop where
  keyed : ∀ id record, lib.store.get_asset_by_id id = some record → record.asset_id = id
  paths : ∀ path id record, lib.store.get_asset_id_by_path path = some id →
    lib.store.get_asset_by_id id = some record → record.path = path
  dirs : lib.dirs.WellFormed

section Listing

variable {layout : Layout} {claims : ClaimsSnapshot} {req : PrefetchRequest}

/-- The expression of a share's request implies its album condition. -/
theorem album_filter_of_share_filter {resolved : ResolvedShare} {e : Expression}
    {data : AbstractData} (hreq : req.presenter = .share resolved) (he : req.expression = some e)
    (h : share_filter layout resolved e data = true) :
    share_filter layout resolved (.album (.value resolved.album_id)) data = true := by
  simp only [PrefetchRequest.expression, hreq] at he
  cases hquery : req.query with
  | none =>
    rw [hquery] at he
    obtain rfl := Option.some.inj he
    exact h
  | some client =>
    rw [hquery] at he
    obtain rfl := Option.some.inj he
    -- both compilers answer a conjunction by its parts
    unfold share_filter at h ⊢
    split
    · rename_i hshow
      rw [if_pos hshow, Expression.generate_filter, Expression.eval_and] at h
      exact List.all_eq_true.mp h _ (by simp)
    · rename_i hhide
      rw [if_neg hhide, Expression.generate_filter_hide_metadata, Expression.eval_and] at h
      exact List.all_eq_true.mp h _ (by simp)

variable {now : Int} {payload : Option MetadataRecord}

/-- A file that the album condition selects is in the album by its record or by its directory; an
album never is. -/
theorem member_of_album_filter {resolved : ResolvedShare} {record : AssetRecord}
    (h : share_filter layout resolved (.album (.value resolved.album_id))
      (compose_abstract_data now record payload) = true) :
    record.kind ≠ .album ∧ (record.album_id = some resolved.album_id ∨
      ∃ dir, layout.dirs.get_dir_path_for_album resolved.album_id = some dir ∧
        Expression.normalize_parent layout.roots record.path = some dir) := by
  unfold share_filter at h
  split at h
  · -- by directory
    simp only [Expression.generate_filter, Expression.eval, Expression.leaf_filter,
      path_compose] at h
    split at h
    · rename_i dir hdir
      by_cases hkind : record.kind = .album
      · simp [hkind] at h
      · simp only [hkind, if_false, Option.any_some, beq_iff_eq] at h
        exact ⟨hkind, Or.inr ⟨dir, hdir, h⟩⟩
    · cases h
  · -- by record
    simp only [Expression.generate_filter_hide_metadata, Expression.eval,
      Expression.leaf_filter_hide_metadata, if_true, inAlbum_compose] at h
    by_cases hkind : record.kind = .album
    · simp [hkind] at h
    · simp only [hkind, if_false, beq_iff_eq] at h
      exact ⟨hkind, Or.inl h⟩

/-- A record whose row the request selects is in the scope of its token. -/
theorem recordInScope_of_selects {tables : Tables} {id : String} {record : AssetRecord}
    {row : DatabaseTimestamp} (hcaller : claims.caller = req.presenter.caller_id)
    (hshare : claims.resolved_share_opt = req.presenter.get_share)
    (hmembers : MembersAgree layout claims tables) (hrecord : tables.assets.lookup id = some record)
    (hrow : row.abstract_data = compose_abstract_data now record payload)
    (hsel : selects layout req.expression req.presenter.get_share req.presenter.caller_id
      req.include_personal req.personal_only_roots row = true) :
    RecordInScope layout.roots claims record := by
  cases hpresenter : req.presenter with
  | user u =>
    rw [hpresenter] at hsel hcaller hshare
    have hsees := sees_of_selects hsel
    unfold sees at hsees
    rw [hrow, visibility_path_compose, Option.all_some] at hsees
    unfold RecordInScope
    rw [hshare, hcaller]
    exact hsees
  | share resolved =>
    obtain ⟨e, he⟩ : ∃ e, req.expression = some e := by
      unfold PrefetchRequest.expression
      rw [hpresenter]
      cases req.query with
      | none | some client => exact ⟨_, rfl⟩
    rw [hpresenter] at hsel hshare
    simp only [he, Presenter.get_share, selects] at hsel
    split at hsel
    · cases hsel
    rw [hrow] at hsel
    obtain ⟨hkind, hmember⟩ :=
      member_of_album_filter (album_filter_of_share_filter hpresenter he hsel)
    unfold RecordInScope
    rw [hshare]
    refine ⟨hkind, ?_⟩
    rcases hmember with halbum | ⟨dir, hdir, hparent⟩
    · exact halbum
    · exact hmembers resolved hshare id record dir hrecord hkind hdir hparent

/-- The listed assets are in scope in the library that the tree was built from. -/
theorem scoped_of_refresh {lib : Library} {timestamp : AbstractData → Int}
    (horder : InOrder lib) (hmembers : MembersAgree layout claims lib.store.tables)
    (hcaller : claims.caller = req.presenter.caller_id)
    (hshare : claims.resolved_share_opt = req.presenter.get_share) :
    Scoped layout.roots claims
      (listed layout (refresh_tree_cache now timestamp lib.store.tables) req) lib := by
  -- a listed id has a record, and the record is in scope
  have hlisted : ∀ id ∈ listed layout (refresh_tree_cache now timestamp lib.store.tables) req,
      ∃ record, lib.store.get_asset_by_id id = some record ∧
        RecordInScope layout.roots claims record := by
    intro id hid
    obtain ⟨reduced, hreduced, rfl⟩ := List.mem_map.mp hid
    obtain ⟨row, hrow, rfl⟩ := List.mem_map.mp hreduced
    obtain ⟨hmem, hsel⟩ := List.mem_filter.mp hrow
    obtain ⟨record, hrecord, hid, hdata⟩ := mem_refresh_tree_cache hmem
    obtain ⟨k, hlook⟩ := Table.mem_values.mp hrecord
    have hk : row.asset_id = k := hid.trans (horder.keyed k record hlook)
    refine ⟨record, ?_, recordInScope_of_selects hcaller hshare hmembers hlook hdata hsel⟩
    show lib.store.get_asset_by_id row.asset_id = some record
    rw [hk]
    exact hlook
  refine ⟨⟨horder.keyed, ?_, ?_⟩, horder.dirs⟩
  · intro id record hid hlook
    obtain ⟨record', hlook', hin⟩ := hlisted id hid
    obtain rfl : record' = record := Option.mem_unique hlook' hlook
    exact hin
  · intro path id hid hpath
    obtain ⟨record, hlook, hin⟩ := hlisted id hid
    obtain rfl := horder.paths path id record hpath hlook
    unfold PathInScope
    unfold RecordInScope at hin
    split
    · trivial
    · rename_i hnone
      simpa only [hnone] using hin

end Listing

/-! ## The rows of a listing -/

/-- A row that `get_data` returns is one of the snapshot's, for an asset that has a record; its
image token is for the same asset. -/
theorem get_data_row {now : Nat} {claims : ClaimsSnapshot} {timestamp : Int} {start stop : Nat}
    {caches : Caches} {tables : Tables} {snapshot : List ReducedData}
    {rows : List DataBaseTimestampReturn}
    (hsnapshot : caches.read_tree_snapshot timestamp = some snapshot)
    (h : get_data now claims timestamp start stop caches tables = .ok rows) :
    ∀ row ∈ rows, row.asset_id ∈ snapshot.map (fun reduced => reduced.asset_id) ∧
      row.token.asset_id = row.asset_id ∧
      ∃ record, tables.assets.lookup row.asset_id = some record := by
  intro row hrow
  simp only [get_data, hsnapshot] at h
  obtain ⟨reduced, hreduced, hget⟩ := Result.mem_of_mapM_eq_ok h row hrow
  have hmem : reduced ∈ snapshot := List.mem_of_mem_take (List.mem_of_mem_drop hreduced)
  have hid : row.asset_id = reduced.asset_id ∧ row.token.asset_id = reduced.asset_id ∧
      ∃ record, tables.assets.lookup reduced.asset_id = some record := by
    unfold get_row at hget
    cases hrecord : tables.assets.lookup reduced.asset_id with
    | none =>
      rw [hrecord] at hget
      cases hget
    | some record =>
      rw [hrecord] at hget
      simp only at hget
      -- whichever way the row is composed, it is made by the same function
      obtain ⟨data, cover, hmade⟩ : ∃ data cover,
          abstract_data_to_timestamp_return now claims timestamp data reduced cover = row := by
        split at hget
        · split at hget
          · cases hget
          · exact ⟨_, _, Except.ok.inj hget⟩
        · exact ⟨_, _, Except.ok.inj hget⟩
      subst hmade
      refine ⟨rfl, ?_, record, rfl⟩
      simp only [abstract_data_to_timestamp_return]
      split <;> rfl
  obtain ⟨hrow_id, htoken, hrecord⟩ := hid
  rw [hrow_id]
  exact ⟨List.mem_map_of_mem hmem, htoken, hrecord⟩

/-- In every run of moves and index updates from the tree's last refresh to the request, whose steps
all keep the listed assets in scope, each row that `get_data` returns, and the image token in
it, is for an asset that is in the scope of the presenter's token when the request is made. -/
theorem listed_rows_in_scope (layout : Layout) (lib : Library) (built : Int)
    (timestamp : AbstractData → Int) (req : PrefetchRequest) (caches : Caches)
    (claims : ClaimsSnapshot)
    (htoken : TokenFor layout (refresh_tree_cache built timestamp lib.store.tables) req caches
      claims) (horder : InOrder lib) (hmembers : MembersAgree layout claims lib.store.tables)
    (labels : List Label) (hkeeps : ∀ done l, done ++ [l] <+: labels →
      KeepsScope layout.roots claims
        (listed layout (refresh_tree_cache built timestamp lib.store.tables) req)
        (run step lib done) l) (now start stop : Nat) (rows : List DataBaseTimestampReturn)
    (hrows : get_data now claims claims.timestamp start stop caches
      (run step lib labels).store.tables = .ok rows) :
    ∀ row ∈ rows, row.token.asset_id = row.asset_id ∧
      ∃ data, compose_by_asset_id now (run step lib labels).store.tables row.asset_id = some data ∧
        in_scope layout.roots claims data = true := by
  have hscoped : Scoped layout.roots claims
      (listed layout (refresh_tree_cache built timestamp lib.store.tables) req)
      (run step lib labels) :=
    run_induction (Q := fun _ lib' => Scoped layout.roots claims _ lib')
      (scoped_of_refresh horder hmembers htoken.caller htoken.share)
      fun done l hpre hinv => step_scoped hinv (hkeeps done l hpre)
  intro row hrow
  obtain ⟨hlisted, hsame, record, hrecord⟩ := get_data_row htoken.rows hrows row hrow
  have hin := hscoped.within.rows row.asset_id record hlisted hrecord
  refine ⟨hsame, _, ?_, (in_scope_compose layout.roots claims now record
    ((run step lib labels).store.tables.metadata.lookup row.asset_id)).mpr hin⟩
  unfold compose_by_asset_id
  rw [hrecord]
  rfl

/-! ## A picture that moves -/

/-- A public picture. -/
def seaRecord : AssetRecord where
  asset_id := "sea"
  kind := .image
  path := "/photos/sea.jpg"
  content_hash := some "hash"
  file_size := 10
  ext := "jpg"
  modified := 0
  scan_time := 0
  is_trashed := false
  album_id := some "photos"

/-- The library with the picture, a public album `trip` and `bob`'s personal album. -/
def seaLibrary : Library where
  store :=
    { tables := { assets := (∅ : Table String AssetRecord).insert "sea" seaRecord, metadata := ∅ }
      by_path := (∅ : Table String String).insert "/photos/sea.jpg" "sea"
      dupes := ∅ }
  dirs := ((∅ : Table PathBuf String).insert (ofString "/photos/trip") "trip").insert
    (ofString "/users/bob") "bob-album"

/-- Everybody's pictures are listed for `alice`. -/
def seaPrefetch : PrefetchReturn × Caches :=
  execute_prefetch_logic (fun _ => 0) 0 homesLayout
    (refresh_tree_cache 0 (fun _ => 0) seaLibrary.store.tables) 1000
    ⟨.user "alice", none, none, false⟩ ⟨⟨∅, ∅⟩, ⟨∅, ∅⟩, 0⟩

/-- `bob` moves the picture into an album. Nothing is in the way there. -/
def bobMovesSea (album_id : String) : Label :=
  .assign_album
    { roots := { homesLayout.roots with
        fs := { canonicalize := some, exists_ := fun p => p == ofString "/photos/sea.jpg" } }
      is_dir := fun _ => true
      rename := fun _ _ => .ok () }
    "bob" ⟨"sea", album_id, .skip⟩

def seaMoved (album_id : String) : Library := step seaLibrary (bobMovesSea album_id)

/-- `alice` lists a public picture, and `bob` moves it into a personal album. `get_data` still
answers with its row, its new path and a token for its image, while it is out of the scope of
`alice`'s token and `get_metadata` does not find it. -/
theorem listed_row_moved_out_of_sight :
    (get_data 2000 seaPrefetch.1.token seaPrefetch.1.token.timestamp 0 1 seaPrefetch.2
        (seaMoved "bob-album").store.tables).map
      (List.map fun row => (row.asset_id, row.token.asset_id,
        row.abstract_data.path.map fun entry => entry.file)) =
      .ok [("sea", "sea", some "/users/bob/sea.jpg")] ∧
    (compose_by_asset_id 2000 (seaMoved "bob-album").store.tables "sea").map
      (in_scope homesLayout.roots seaPrefetch.1.token) = some false ∧
    get_metadata 2000 homesLayout.roots seaPrefetch.1.token "sea"
      (seaMoved "bob-album").store.tables = .error (.new .notFound "Record not found") := by
  refine ⟨?_, ?_, ?_⟩
  · decide +kernel
  · decide +kernel
  · decide +kernel

/-- Everybody sees what is below the image home. -/
theorem visibleBelow_photos (claims : ClaimsSnapshot) (rel : PathBuf) :
    VisibleBelow homesLayout.roots claims (ofString "/photos" ++ rel) := by
  intro p hp
  obtain ⟨rest, rfl⟩ := List.isPrefixOf_iff_prefix.mp hp
  have hphotos : ofString "/photos" = [.rootDir, .normal "photos"] := by decide +kernel
  have husers : ofString "/users" = [.rootDir, .normal "users"] := by decide +kernel
  simp [visible_to, classify_path, canonicalize_if_exists, homesLayout, hphotos, husers, strip,
    starts_with]

theorem inOrder_seaLibrary : InOrder seaLibrary := by
  have hassets : ∀ id record, seaLibrary.store.get_asset_by_id id = some record →
      id = "sea" ∧ record = seaRecord := by
    intro id record hlook
    rcases Table.lookup_insert_eq_some.mp hlook with hsea | ⟨-, hnone⟩
    · exact hsea
    · cases hnone
  refine ⟨?_, ?_, ?_⟩
  · intro id record hlook
    obtain ⟨rfl, rfl⟩ := hassets id record hlook
    rfl
  · intro path id record hpath hlook
    obtain ⟨-, rfl⟩ := hassets id record hlook
    rcases Table.lookup_insert_eq_some.mp hpath with ⟨rfl, -⟩ | ⟨-, hnone⟩
    · rfl
    · cases hnone
  · have hempty : DirAlbumCache.WellFormed ∅ := fun dir album_id hlook => by simp at hlook
    exact (hempty.insert (wellFormed_ofString "/photos/trip") "trip").insert
      (wellFormed_ofString "/users/bob") "bob-album"

/-- Moved into a public album instead, the row stays in scope. -/
theorem listed_row_moved_in_sight :
    (get_data 2000 seaPrefetch.1.token seaPrefetch.1.token.timestamp 0 1 seaPrefetch.2
        (seaMoved "trip").store.tables).map (List.map fun row => row.asset_id) = .ok ["sea"] ∧
    ∀ rows, get_data 2000 seaPrefetch.1.token seaPrefetch.1.token.timestamp 0 1 seaPrefetch.2
        (seaMoved "trip").store.tables = .ok rows →
      ∀ row ∈ rows, row.token.asset_id = row.asset_id ∧
        ∃ data, compose_by_asset_id 2000 (seaMoved "trip").store.tables row.asset_id = some data ∧
          in_scope homesLayout.roots seaPrefetch.1.token data = true := by
  refine ⟨by decide +kernel, fun rows hrows => ?_⟩
  refine listed_rows_in_scope homesLayout seaLibrary 0 (fun _ => 0)
    ⟨.user "alice", none, none, false⟩ seaPrefetch.2 seaPrefetch.1.token
    (tokenFor_execute_prefetch_logic homesLayout _ 1000 rfl) inOrder_seaLibrary ?_
    [bobMovesSea "trip"] ?_ 2000 0 1 rows hrows
  · intro resolved hshare
    cases hshare
  · intro done l hpre
    have hlen : done = [] := by simpa using hpre.length_le
    subst hlen
    obtain ⟨rfl, -⟩ := List.cons_prefix_cons.mp hpre
    -- the destination is public
    intro dir hdir _
    have hdir' : seaLibrary.dirs.get_dir_path_for_album "trip" =
        some (ofString "/photos" ++ [.normal "trip"]) := by decide +kernel
    obtain rfl := Option.mem_unique hdir hdir'
    exact visibleBelow_photos _ _

end Scope
