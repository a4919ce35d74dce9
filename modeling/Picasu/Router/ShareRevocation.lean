import Picasu.Framework.Result
import Picasu.Framework.Run
import Picasu.Router.Albums
import Picasu.Router.Edits

/-! # Revoked Shares

All the writers of an album's payload, side by side. The share and album handlers are one
transaction each. A metadata edit is two, and what its second half stores is the whole payload as
its first half read it, share list included.

A share id enters an album's list in two ways only: `create_share` generates it, or an edit writes
back a payload that still lists it (`step_adds_share`). So a share that was removed stays removed
exactly while no edit that read the album before the removal commits after it
(`revoked_share_stays_revoked_iff`).
-/

open LTS Result

/-! ## Which shares an album lists -/

/-- The payload is an album's and lists the share. -/
def MetadataRecord.Lists (s : String) : MetadataRecord → Prop
  | album payload => s ∈ payload.share_list
  | _ => False

instance (s : String) (row : MetadataRecord) : Decidable (row.Lists s) := by
  cases row <;> unfold MetadataRecord.Lists <;> infer_instance

/-- The share list stored for album `a` holds share `s`. -/
def HoldsShare (metadata : Metadata) (a s : String) : Prop :=
  ∃ row, metadata.lookup a = some row ∧ row.Lists s

instance (metadata : Metadata) (a s : String) : Decidable (HoldsShare metadata a s) :=
  match h : metadata.lookup a with
  | none => .isFalse (by simp [HoldsShare, h])
  | some row => decidable_of_iff (row.Lists s) (by simp [HoldsShare, h])

variable {metadata : Metadata} {k caller album_id : String} {fingerprint : String → String}
  {layout : Layout} {now : Int} {record : AssetRecord} {album : AlbumCombined} {tables : Tables}

theorem holdsShare_insert {row : MetadataRecord} {a s : String} :
    HoldsShare (metadata.insert k row) a s ↔
      if a = k then row.Lists s else HoldsShare metadata a s := by
  unfold HoldsShare
  rw [Table.lookup_insert]
  split <;> simp

/-- Every share listed afterwards was listed before. -/
def AddsNoShare (before after : Metadata) : Prop :=
  ∀ a s, HoldsShare after a s → HoldsShare before a s

/-- Writing a row whose shares the old row lists adds no share. -/
theorem addsNoShare_insert {row : MetadataRecord}
    (hrow : ∀ s, row.Lists s → HoldsShare metadata k s) :
    AddsNoShare metadata (metadata.insert k row) := by
  intro a s hheld
  rw [holdsShare_insert] at hheld
  by_cases ha : a = k
  · rw [if_pos ha] at hheld
    rw [ha]
    exact hrow s hheld
  · rwa [if_neg ha] at hheld

/-! ## The single transactions -/

theorem create_share_adds {hash : String → String} {users : Users}
    {creator link : String} {req : CreateShare} {metadata' : Metadata}
    {response : CreateShareResponse}
    (hok : create_share fingerprint hash users layout creator link req metadata =
      .ok (response, metadata')) {a s : String} (hheld : HoldsShare metadata' a s) :
    HoldsShare metadata a s ∨ s = link := by
  simp only [create_share, guard_eq_ok, bind_eq_ok] at hok
  obtain ⟨-, -, -, hok⟩ := hok
  unfold create_and_insert_share at hok
  split at hok
  · rename_i album hrow
    split at hok
    · cases hok
    simp only [Except.ok.injEq, Prod.mk.injEq] at hok
    rw [← hok.2, holdsShare_insert] at hheld
    by_cases ha : a = req.album_id
    · rw [if_pos ha] at hheld
      have hcases : s = link ∨ s ∈ album.share_list := by
        simpa [MetadataRecord.Lists, AList.mem_insert] using hheld
      rcases hcases with hs | hs
      · exact Or.inr hs
      · exact Or.inl ⟨.album album, by rw [ha]; exact hrow, hs⟩
    · rw [if_neg ha] at hheld
      exact Or.inl hheld
  · cases hok

theorem mem_of_find_share {target key : String} {share : Share}
    {list : Table String Share} (hfind : find_share fingerprint target list = some (key, share)) :
    key ∈ list := by
  unfold find_share at hfind
  obtain ⟨e, hfound, he⟩ := Option.map_eq_some_iff.mp hfind
  have hmem : e ∈ list.entries := List.mem_of_find?_eq_some hfound
  rw [← (Prod.mk.inj he).1]
  exact List.mem_keys_of_mem hmem

theorem edit_share_adds {hash : String → String} {submitted : Share} {metadata' : Metadata}
    (hok : edit_share fingerprint hash layout caller album_id submitted metadata = .ok metadata') :
    AddsNoShare metadata metadata' := by
  simp only [edit_share, bind_eq_ok] at hok
  obtain ⟨-, -, hok⟩ := hok
  split at hok
  · rename_i album hrow
    split at hok
    · rename_i stored_url existing hfind
      simp only [guard_eq_ok, pure_eq_ok] at hok
      rw [← hok.2]
      apply addsNoShare_insert
      intro s hs
      -- the edited entry keeps its key
      have hcases : s = stored_url ∨ s ∈ album.share_list := by
        simpa [MetadataRecord.Lists, AList.mem_insert] using hs
      have hmem : s ∈ album.share_list := by
        rcases hcases with rfl | hs
        · exact mem_of_find_share hfind
        · exact hs
      exact ⟨.album album, hrow, hmem⟩
    · rw [pure_eq_ok] at hok
      rw [← hok]
      exact fun _ _ h => h
  · rw [pure_eq_ok] at hok
    rw [← hok]
    exact fun _ _ h => h

theorem delete_share_adds {caller_is_admin : Bool} {share_id : String} {metadata' : Metadata}
    (hok : delete_share fingerprint layout caller caller_is_admin album_id share_id metadata =
      .ok metadata') : AddsNoShare metadata metadata' := by
  simp only [delete_share, bind_eq_ok] at hok
  obtain ⟨-, -, hok⟩ := hok
  split at hok
  · rename_i album hrow
    split at hok
    · simp only [guard_eq_ok, pure_eq_ok] at hok
      rw [← hok.2]
      apply addsNoShare_insert
      intro s hs
      have hmem : s ∈ album.share_list := (AList.mem_erase.mp hs).2
      exact ⟨.album album, hrow, hmem⟩
    · rw [pure_eq_ok] at hok
      rw [← hok]
      exact addsNoShare_insert fun s hs => ⟨.album album, hrow, hs⟩
  · rw [pure_eq_ok] at hok
    rw [← hok]
    exact fun _ _ h => h

theorem cascade_owned_shares_adds (target : String) (metadata : Metadata) :
    AddsNoShare metadata (cascade_owned_shares target metadata) := by
  intro a s hheld
  obtain ⟨row', hrow', hlists⟩ := hheld
  unfold cascade_owned_shares at hrow'
  rw [Table.lookup_rewriteEach] at hrow'
  obtain ⟨row, hrow, rfl⟩ := Option.map_eq_some_iff.mp hrow'
  refine ⟨row, hrow, ?_⟩
  cases row with
  | album album =>
    simp only [drop_owned_shares] at hlists
    split at hlists
    · -- the rewritten list is a part of the old one
      have hmem : s ∈ album.share_list.retain fun _ share => share.created_by != target := hlists
      obtain ⟨share, hlook⟩ := Option.isSome_iff_exists.mp (AList.lookup_isSome.mpr hmem)
      exact AList.lookup_isSome.mp (by rw [(Table.lookup_retain_eq_some.mp hlook).1]; rfl)
    · exact hlists
  | image payload | video payload => exact hlists

theorem holdsShare_of_compose
    (hcompose : compose_abstract_data now record (metadata.lookup k) = .album album) {s : String}
    (hs : s ∈ album.metadata.share_list) : HoldsShare metadata k s := by
  unfold compose_abstract_data at hcompose
  split at hcompose
  · cases hcompose
  · cases hcompose
  · injection hcompose with halbum
    rw [← halbum] at hs
    -- without an album payload the composed list is empty
    cases hrow : metadata.lookup k with
    | none =>
      rw [hrow] at hs
      exact absurd hs (AList.notMem_empty s)
    | some row =>
      rw [hrow] at hs
      cases row with
      | album payload => exact ⟨.album payload, hrow, hs⟩
      | image payload | video payload => exact absurd hs (AList.notMem_empty s)

/-- Writing back a composed album adds no share, whatever else was edited. -/
theorem put_album_adds {edited : AlbumCombined}
    (hcompose : compose_abstract_data now record (tables.metadata.lookup album_id) = .album album)
    (hshares : edited.metadata.share_list = album.metadata.share_list) :
    AddsNoShare tables.metadata (put_album album_id edited tables).metadata := by
  apply addsNoShare_insert
  intro s hs
  have hmem : s ∈ album.metadata.share_list := by rw [← hshares]; exact hs
  exact holdsShare_of_compose hcompose hmem

theorem load_album_ok (hok : load_album now tables album_id = .ok (record, album)) :
    compose_abstract_data now record (tables.metadata.lookup album_id) = .album album := by
  unfold load_album at hok
  split at hok
  · cases hok
  split at hok
  · rename_i hcompose
    cases hok
    exact hcompose
  · cases hok

theorem set_album_title_adds {to_uppercase : Char → String} {roots : Roots} {title : Option String}
    {tables' : Tables}
    (hok : set_album_title to_uppercase now roots caller album_id title tables = .ok tables') :
    AddsNoShare tables.metadata tables'.metadata := by
  -- past the gate, the handler is one `update_album`
  have hupdate : update_album now album_id (title_edit to_uppercase title) tables = .ok tables' := by
    simp only [set_album_title, bind_eq_ok] at hok
    obtain ⟨⟨record, album⟩, -, hok⟩ := hok
    dsimp only at hok
    split at hok
    · split at hok
      · simp only [bind_eq_ok] at hok
        obtain ⟨_, hthrow, -⟩ := hok
        cases hthrow
      · exact hok
    · exact hok
  simp only [update_album, bind_eq_ok, pure_eq_ok] at hupdate
  obtain ⟨⟨record, album⟩, hload, rfl⟩ := hupdate
  exact put_album_adds (load_album_ok hload) rfl

theorem set_album_cover_adds {roots : Roots} {cover_asset_id : String} {tables' : Tables}
    (hok : set_album_cover now roots caller album_id cover_asset_id tables = .ok tables') :
    AddsNoShare tables.metadata tables'.metadata := by
  simp only [set_album_cover, bind_eq_ok] at hok
  obtain ⟨⟨record, album⟩, hload, hok⟩ := hok
  dsimp only at hok
  split at hok
  · split at hok
    · cases hok
    · rw [pure_eq_ok] at hok
      rw [← hok]
      exact put_album_adds (load_album_ok hload) rfl
  · cases hok

theorem album_task_adds (now : Int) (tree : MemoryTree) (album_id : String) (tables : Tables) :
    AddsNoShare tables.metadata (album_task now tree album_id tables).metadata := by
  simp only [album_task]
  split
  · rename_i record payload hrecord hpayload
    split
    · rename_i album hcompose
      rw [← hpayload] at hcompose
      exact put_album_adds hcompose (AlbumCombined.share_list_self_update _ _ _)
    · exact fun _ _ h => h
  · exact fun _ _ h => h

/-! ## All writers together -/

namespace ShareRevocation

/-- Third-party functions the writers call. -/
structure Primitives where
  /-- `Share::fingerprint`, a truncated blake3 hash of the bearer id. -/
  fingerprint : String → String
  /-- Unicode normalization form C. -/
  nfc : String → String
  /-- Unicode upper-casing of a character. -/
  to_uppercase : Char → String

/-- The stored tables, and the edits that have begun and not committed, by request. -/
structure State where
  tables : Tables
  calls : Table Nat EditedItem

/-- One transaction, with what the environment chooses for it: the request, the clock, the layout
and users the handler saw, generated ids and salted hashes. -/
inductive Label where
  | create_share (users : Users) (layout : Layout) (creator link : String) (req : CreateShare)
      (hash_share_password : String → String)
  | edit_share (layout : Layout) (caller album_id : String) (share : Share)
      (hash_share_password : String → String)
  | delete_share (layout : Layout) (caller : String) (caller_is_admin : Bool)
      (album_id share_id : String)
  | cascade_owned_shares (target : String)
  /-- `set_album_title`, the one caller of `update_album`. -/
  | set_album_title (now : Int) (roots : Roots) (caller album_id : String) (title : Option String)
  | set_album_cover (now : Int) (roots : Roots) (caller album_id cover_asset_id : String)
  | album_task (now : Int) (tree : MemoryTree) (album_id : String)
  /-- The first half of a metadata edit, by request `call`. -/
  | compose (call : Nat) (now : Int) (roots : Roots) (caller : String) (edit : MetadataEdit)
      (asset_id : String)
  /-- The second half of the edit of request `call`. -/
  | store (call : Nat)

/-- The share id the step generates, if it is a `create_share`. -/
def Label.generated : Label → Option String
  | create_share _ _ _ link _ _ => some link
  | _ => none

/-- The state after a transaction on the payloads; a failed one changes nothing. -/
def State.putMetadata (st : State) : Except AppError Metadata → State
  | .ok metadata => { st with tables := { st.tables with metadata } }
  | .error _ => st

/-- The state after a transaction on both tables. -/
def State.putTables (st : State) : Except AppError Tables → State
  | .ok tables => { st with tables }
  | .error _ => st

/-- The transition function. -/
def step (prim : Primitives) (st : State) : Label → State
  | .create_share users layout creator link req hash =>
    st.putMetadata ((create_share prim.fingerprint hash users layout creator link req
      st.tables.metadata).map fun r => r.2)
  | .edit_share layout caller album_id share hash =>
    st.putMetadata (edit_share prim.fingerprint hash layout caller album_id share
      st.tables.metadata)
  | .delete_share layout caller caller_is_admin album_id share_id =>
    st.putMetadata (delete_share prim.fingerprint layout caller caller_is_admin album_id share_id
      st.tables.metadata)
  | .cascade_owned_shares target =>
    st.putMetadata (.ok (cascade_owned_shares target st.tables.metadata))
  | .set_album_title now roots caller album_id title =>
    st.putTables (set_album_title prim.to_uppercase now roots caller album_id title st.tables)
  | .set_album_cover now roots caller album_id cover_asset_id =>
    st.putTables (set_album_cover now roots caller album_id cover_asset_id st.tables)
  | .album_task now tree album_id => st.putTables (.ok (album_task now tree album_id st.tables))
  | .compose call now roots caller edit asset_id =>
    match begin_edit prim.nfc now roots caller edit asset_id st.tables with
    | .ok (some item) => { st with calls := st.calls.insert call item }
    | _ => st
  | .store call =>
    match st.calls.lookup call with
    | some item => { tables := commit_edit item st.tables, calls := st.calls.erase call }
    | none => st

/-- The step commits an edit of album `a` whose payload, as it was read, still lists share `s`. -/
def WritesBack (st : State) (a s : String) : Label → Prop
  | .store call => ∃ item, st.calls.lookup call = some item ∧ item.asset_id = a ∧
      (to_metadata_record item.data).Lists s
  | _ => False

variable {st : State} {a s : String}

theorem addsNoShare_putMetadata {result : Except AppError Metadata}
    (h : ∀ metadata, result = .ok metadata → AddsNoShare st.tables.metadata metadata) :
    AddsNoShare st.tables.metadata (st.putMetadata result).tables.metadata := by
  cases result with
  | error e => exact fun _ _ h => h
  | ok metadata => exact h metadata rfl

theorem addsNoShare_putTables {result : Except AppError Tables}
    (h : ∀ tables, result = .ok tables → AddsNoShare st.tables.metadata tables.metadata) :
    AddsNoShare st.tables.metadata (st.putTables result).tables.metadata := by
  cases result with
  | error e => exact fun _ _ h => h
  | ok tables => exact h tables rfl

/-- The two ways a share id gets into a list: it is generated, or an edit writes it back. -/
theorem step_adds_share {prim : Primitives} {l : Label}
    (hheld : HoldsShare (step prim st l).tables.metadata a s) :
    HoldsShare st.tables.metadata a s ∨ l.generated = some s ∨ WritesBack st a s l := by
  cases l with
  | create_share users layout creator link req hash =>
    simp only [step] at hheld
    cases hres : create_share prim.fingerprint hash users layout creator link req
        st.tables.metadata with
    | error e =>
      rw [hres] at hheld
      exact Or.inl hheld
    | ok r =>
      rw [hres] at hheld
      rcases create_share_adds hres hheld with h | rfl
      · exact Or.inl h
      · exact Or.inr (Or.inl rfl)
  | edit_share layout caller album_id share hash =>
    exact Or.inl (addsNoShare_putMetadata (fun _ hok => edit_share_adds hok) a s hheld)
  | delete_share layout caller caller_is_admin album_id share_id =>
    exact Or.inl (addsNoShare_putMetadata (fun _ hok => delete_share_adds hok) a s hheld)
  | cascade_owned_shares target =>
    exact Or.inl (cascade_owned_shares_adds target st.tables.metadata a s hheld)
  | set_album_title now roots caller album_id title =>
    exact Or.inl (addsNoShare_putTables (fun _ hok => set_album_title_adds hok) a s hheld)
  | set_album_cover now roots caller album_id cover_asset_id =>
    exact Or.inl (addsNoShare_putTables (fun _ hok => set_album_cover_adds hok) a s hheld)
  | album_task now tree album_id =>
    exact Or.inl (album_task_adds now tree album_id st.tables a s hheld)
  | compose call now roots caller edit asset_id =>
    simp only [step] at hheld
    split at hheld
    · exact Or.inl hheld
    · exact Or.inl hheld
  | store call =>
    simp only [step] at hheld
    split at hheld
    · rename_i item hcall
      simp only [commit_edit, store_metadata_record, holdsShare_insert] at hheld
      by_cases ha : a = item.asset_id
      · rw [if_pos ha] at hheld
        exact Or.inr (Or.inr ⟨item, hcall, ha.symm, hheld⟩)
      · rw [if_neg ha] at hheld
        exact Or.inl hheld
    · exact Or.inl hheld

/-- What is written back is held afterwards. -/
theorem holdsShare_of_writesBack {prim : Primitives} {l : Label}
    (h : WritesBack st a s l) : HoldsShare (step prim st l).tables.metadata a s := by
  cases l with
  | store call =>
    obtain ⟨item, hcall, ha, hlists⟩ := h
    simp only [step, hcall, commit_edit, store_metadata_record, holdsShare_insert]
    rwa [if_pos ha.symm]
  | _ => cases h

/-! ## Resolving a removed share -/

/-- No request resolves share `s` of album `a`, whatever the clock, the password header, the users
and the password verifier say. -/
def Refused (metadata : Metadata) (a s : String) : Prop :=
  ∀ argon2 users req jti, ∃ e, resolve_share_internal argon2 users metadata a s req jti = .error e

theorem refused_of_not_holdsShare (h : ¬ HoldsShare metadata a s) : Refused metadata a s := by
  intro argon2 users req jti
  unfold resolve_share_internal
  split
  · exact ⟨_, rfl⟩
  · rename_i album hrow
    have hnone : album.share_list.lookup s = none := by
      apply AList.lookup_eq_none.mpr
      intro hs
      exact h ⟨.album album, hrow, hs⟩
    simp only [hnone]
    exact ⟨_, rfl⟩
  · exact ⟨_, rfl⟩

/-- A share that is held resolves for someone: early enough, with the right password, while its
creator may share. -/
theorem not_refused_of_holdsShare (ha : a.utf8ByteSize ≤ 64) (h : HoldsShare metadata a s) :
    ¬ Refused metadata a s := by
  obtain ⟨row, hrow, hlists⟩ := h
  cases row with
  | image payload | video payload => exact hlists.elim
  | album album =>
    obtain ⟨share, hshare⟩ := Option.isSome_iff_exists.mp (AList.lookup_isSome.mpr hlists)
    intro hrefused
    obtain ⟨e, he⟩ := hrefused (fun _ _ => true) ∅ ⟨0, share.password⟩ ""
    have hvalid : validate_share_access (fun _ _ => true) share ⟨0, share.password⟩ = .ok () := by
      have hexp : ¬ (share.exp > 0 ∧ ((0 : Nat) : Int) > share.exp) := by omega
      unfold validate_share_access
      rw [if_neg hexp]
      cases hpw : share.password with
      | none => rfl
      | some pwd =>
        have hverify : verify_share_password (fun _ _ => true) pwd pwd = true := by
          unfold verify_share_password
          split
          · rfl
          · exact beq_self_eq_true pwd
        simp only [Option.any_some, hverify, if_true]
    have hlen : ¬ 64 < a.utf8ByteSize := by omega
    simp only [resolve_share_internal, hrow, hshare, hvalid, hlen] at he
    simp [UserStore.read, bind, Except.bind, pure, Except.pure] at he

/-- The step is a `delete_share` or `cascade_owned_shares` that takes share `s` out of album `a`. -/
def RemovesShare (prim : Primitives) (st : State) (a s : String) (l : Label) : Prop :=
  (match l with
    | .delete_share .. | .cascade_owned_shares _ => True
    | _ => False) ∧
  HoldsShare st.tables.metadata a s ∧ ¬ HoldsShare (step prim st l).tables.metadata a s

/-- Share `s` is removed from album `a` by the step `l`, and the steps `post` follow, none of which
generates the id `s` anew. The share is refused throughout if and only if no edit commits, among
them, a payload of `a` that was read while `s` was still listed. -/
theorem revoked_share_stays_revoked_iff (prim : Primitives) (st : State) (l : Label)
    (post : List Label) (a s : String) (ha : a.utf8ByteSize ≤ 64)
    (hremoved : RemovesShare prim st a s l) (hfresh : ∀ l' ∈ post, l'.generated ≠ some s) :
    (∀ done, done <+: post → Refused (run (step prim) (step prim st l) done).tables.metadata a s) ↔
    ∀ done l', done ++ [l'] <+: post →
      ¬ WritesBack (run (step prim) (step prim st l) done) a s l' := by
  have hrefused : ∀ t : State, Refused t.tables.metadata a s ↔ ¬ HoldsShare t.tables.metadata a s :=
    fun t => ⟨fun h hheld => not_refused_of_holdsShare ha hheld h, refused_of_not_holdsShare⟩
  simp only [hrefused]
  -- absence is an invariant, and the steps that break it are the write-backs
  apply run_invariant_iff (I := fun t : State => ¬ HoldsShare t.tables.metadata a s)
    (C := fun t l' => ¬ WritesBack t a s l')
  · exact hremoved.2.2
  · intro done l' hdone habsent
    have hmem : l' ∈ post := hdone.subset (by simp)
    constructor
    · intro hstill hback
      exact hstill (holdsShare_of_writesBack hback)
    · intro hnot hheld
      rcases step_adds_share hheld with h | h | h
      · exact habsent h
      · exact hfresh l' hmem h
      · exact hnot h

/-! ## An edit in flight -/

instance (st : State) (a s : String) (l : Label) : Decidable (WritesBack st a s l) :=
  match l with
  | .store call =>
    match h : st.calls.lookup call with
    | none => .isFalse (by simp [WritesBack, h])
    | some item =>
      decidable_of_iff (item.asset_id = a ∧ (to_metadata_record item.data).Lists s)
        (by simp [WritesBack, h])
  | .create_share .. | .edit_share .. | .delete_share .. | .cascade_owned_shares _
  | .set_album_title .. | .set_album_cover .. | .album_task .. | .compose .. =>
    .isFalse (fun h => h)

/-- Identity functions in place of the third-party ones. -/
def plainPrimitives : Primitives := ⟨id, id, fun c => String.ofList [c]⟩

/-- One public album, `/photos/trip`. -/
def tripLayout : Layout where
  roots :=
    { fs := { canonicalize := some, exists_ := fun _ => true }
      image_home := some (PathBuf.ofString "/photos")
      users_home := none }
  dirs := (∅ : DirAlbumCache).insert (PathBuf.ofString "/photos/trip") "trip"

/-- The album has one share, created by `alice`, and nothing is pending. -/
def tripShared : State where
  tables :=
    { assets := (∅ : Table String AssetRecord).insert "trip"
        { asset_id := "trip", kind := .album, path := "/photos/trip", content_hash := none,
          file_size := 0, ext := "", modified := 0, scan_time := 0, is_trashed := false,
          album_id := none }
      metadata := (∅ : Metadata).insert "trip" (.album
        { tags := ∅, description := none, rating := none, update_at := 0, pending := false,
          thumbhash := none, title := some "Trip", created_time := 0, start_time := none,
          end_time := none, last_modified_time := 0, cover := none, item_count := 0,
          item_size := 0, custom_title := none,
          share_list := (∅ : Table String Share).insert "link"
            { url := "link", description := "", password := none, show_metadata := true,
              show_download := true, show_upload := false, exp := 0, created_by := "alice" } }) }
  calls := ∅

/-- `alice` tags the album, as request `call`. -/
def tagTrip (call : Nat) : Label :=
  .compose call 0 tripLayout.roots "alice" (.tags ["sea"] []) "trip"

def deleteLink : Label := .delete_share tripLayout "alice" false "trip" "link"

/-- An edit that reads the album after the removal may commit. -/
theorem revoked_share_stays_revoked_later_edit :
    RemovesShare plainPrimitives tripShared "trip" "link" deleteLink ∧
    ∀ done, done <+: [tagTrip 0, .store 0] →
      Refused (run (step plainPrimitives) (step plainPrimitives tripShared deleteLink)
        done).tables.metadata "trip" "link" := by
  have hremoved : RemovesShare plainPrimitives tripShared "trip" "link" deleteLink :=
    ⟨trivial, by decide +kernel, by decide +kernel⟩
  refine ⟨hremoved, (revoked_share_stays_revoked_iff plainPrimitives tripShared deleteLink
    [tagTrip 0, .store 0] "trip" "link" (by decide +kernel) hremoved ?_).mpr ?_⟩
  · intro l' hmem
    rcases List.mem_cons.mp hmem with rfl | hmem
    · exact fun h => nomatch h
    · rw [List.mem_singleton.mp hmem]
      exact fun h => nomatch h
  · intro done l' hpre
    have hlen := hpre.length_le
    match done, hpre, hlen with
    | [], hpre, _ =>
      obtain ⟨rfl, -⟩ := List.cons_prefix_cons.mp hpre
      exact fun h => h
    | [x], hpre, _ =>
      obtain ⟨rfl, hrest⟩ := List.cons_prefix_cons.mp hpre
      obtain ⟨rfl, -⟩ := List.cons_prefix_cons.mp hrest
      decide +kernel
    | _ :: _ :: _, _, hlen => simp at hlen

/-- `alice`'s tag edit has read the album when `alice` deletes the share. The edit commits, and the
deleted share lets requests in again. -/
theorem revoked_share_revived_by_edit :
    RemovesShare plainPrimitives (step plainPrimitives tripShared (tagTrip 0)) "trip" "link"
      deleteLink ∧
    ∃ claims, resolve_share_internal (fun _ _ => false) ∅
      (run (step plainPrimitives) tripShared [tagTrip 0, deleteLink, .store 0]).tables.metadata
      "trip" "link" ⟨1, none⟩ "jti" = .ok claims := by
  refine ⟨⟨trivial, by decide +kernel, by decide +kernel⟩, ?_⟩
  exact ⟨_, rfl⟩

end ShareRevocation
