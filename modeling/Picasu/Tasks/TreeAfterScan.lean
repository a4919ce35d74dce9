import Picasu.Tasks.FlushAgreement
import Picasu.Tasks.IndexJob

/-! # The Tree After a Scan

When the last barrier of a job returns, every flush has been followed by a rebuild of the tree. A
sweep of albums and the pruning of the users root are followed by none: they take records away,
and the barriers behind them rebuild nothing. So the tree lists what they removed, unless a flush
was still to come.

* `move_next` says once what a step of the job can do, and `Base` what holds in every state: in
  particular, when the job is done, no rebuild is to come (`Base.none_ahead_of_done`);
* `Base.latest_cases`: which steps change the tree;
* `Settled`: the tree has the ids of the tables, or a rebuild is still to read them.
  `settled_next_iff` says exactly which steps keep it;
* `tree_matches_after_scan_iff` puts them together.
-/

open PathBuf

/-! ## Ids -/

/-- The tree lists exactly the assets that have a record. -/
def TreeMatches (tree : MemoryTree) (tables : Tables) : Prop :=
  ∀ id, (∃ row ∈ tree, row.asset_id = id) ↔ (tables.assets.lookup id).isSome = true

/-- The same assets have a record. -/
def SameIds (tables tables' : Tables) : Prop :=
  ∀ id, (tables'.assets.lookup id).isSome = (tables.assets.lookup id).isSome

section Ids

variable {tables tables' : Tables} {tree : MemoryTree}

theorem TreeMatches.congr (h : TreeMatches tree tables) (hsame : SameIds tables tables') :
    TreeMatches tree tables' := by
  intro id
  rw [hsame id]
  exact h id

/-- Other tables have the ids of the tree exactly if they have the same ids. -/
theorem TreeMatches.iff_sameIds (h : TreeMatches tree tables) :
    TreeMatches tree tables' ↔ SameIds tables tables' := by
  refine ⟨fun h' id => ?_, h.congr⟩
  rw [Bool.eq_iff_iff, ← h id, ← h' id]

theorem sameIds_iff_of_taken {ids : List String} (h : ∀ id, tables'.assets.lookup id =
    if id ∈ ids then none else tables.assets.lookup id) :
    SameIds tables tables' ↔ ∀ id ∈ ids, tables.assets.lookup id = none := by
  constructor
  · intro hsame id hid
    have htaken := hsame id
    rw [h id, if_pos hid] at htaken
    simpa using htaken.symm
  · intro hnone id
    rw [h id]
    split
    · rename_i hid
      rw [hnone id hid]
    · rfl

theorem treeMatches_build (hkeyed : tables.Keyed) (now : Int) (timestamp : AbstractData → Int) :
    TreeMatches (build_from_asset_tables now timestamp tables) tables := by
  intro id
  constructor
  · rintro ⟨row, hrow, rfl⟩
    obtain ⟨record, hrecord, rfl⟩ := List.mem_map.mp hrow
    obtain ⟨k, hlook⟩ := Table.mem_values.mp hrecord
    show (tables.assets.lookup record.asset_id).isSome = true
    rw [hkeyed k record hlook, hlook]
    rfl
  · intro hsome
    obtain ⟨record, hlook⟩ := Option.isSome_iff_exists.mp hsome
    have hmem : record ∈ tables.assets.values := Table.mem_values.mpr ⟨id, hlook⟩
    exact ⟨_, List.mem_map_of_mem hmem, hkeyed id record hlook⟩

theorem treeMatches_refresh (hkeyed : tables.Keyed) (now : Int) (timestamp : AbstractData → Int) :
    TreeMatches (refresh_tree_cache now timestamp tables) tables := by
  intro id
  rw [← treeMatches_build hkeyed now timestamp id]
  simp only [refresh_tree_cache, List.mem_mergeSort]

end Ids

/-! ## Records stay under their ids -/

section Keyed

variable {s : AssetStore} {lib : Library}

/-- Rows under their own ids: the conditions for no asset at all. -/
theorem keyed_iff_within : s.tables.Keyed ↔
    s.Within (fun _ => False) (fun _ => True) fun _ => True :=
  ⟨fun h => ⟨h, fun _ _ hS => hS.elim, fun _ _ hS => hS.elim⟩, fun h => h.keyed⟩

theorem keyed_flush_tables (now : Int) (fs : Fs) (inserts : List (String × AbstractData))
    (removes : List AbstractData) (h : s.tables.Keyed) :
    (flush_tables now fs inserts removes s).tables.Keyed := by
  have hrun := Flush.write_eq_run s ⟨now, fs, inserts, removes⟩
  rw [Flush.write] at hrun
  rw [hrun]
  refine LTS.run_invariant (I := fun s : AssetStore => s.tables.Keyed) h ?_
  intro s item _ hkeyed
  rw [keyed_iff_within] at hkeyed ⊢
  cases item with
  | insert now random_hash data =>
    exact within_flush_insert hkeyed now (fun hS => hS) fun _ _ hS => hS.elim
  | remove fs data => exact within_flush_remove hkeyed fs data

theorem keyed_handle_op (now : Int) (fs : Fs) (op : WriteOp) (h : lib.store.tables.Keyed) :
    (handle_op now fs op lib).2.store.tables.Keyed := by
  cases op with
  | flush inserts removes => exact keyed_flush_tables now fs inserts removes h
  | updateTree | expireCheck | barrier => exact h
  | sweepDirAlbums entries =>
    rw [keyed_iff_within] at h ⊢
    simp only [handle_op, handle_sweep_dir_albums]
    induction entries generalizing lib with
    | nil => exact h
    | cons e entries ih => exact ih (within_sweep_dir_album h e.1 e.2)
  | pruneUsersRoot users_root =>
    rw [keyed_iff_within] at h ⊢
    exact within_handle_prune_users_root h users_root

theorem keyed_get_or_create_dir_album (to_uppercase : Char → String) (now : Int) (info : AlbumInfo)
    (random_hash dir_path : String) (h : lib.store.tables.Keyed) :
    (get_or_create_dir_album to_uppercase now info random_hash dir_path
      lib).2.store.tables.Keyed := by
  simp only [get_or_create_dir_album]
  split
  · exact h
  intro id record hlook
  rcases Table.lookup_insert_eq_some.mp hlook with ⟨rfl, rfl⟩ | ⟨-, hlook⟩
  · rfl
  · exact h id record hlook

theorem keyed_album_task (now : Int) (tree : MemoryTree) (album_id : String) {tables : Tables}
    (h : tables.Keyed) : (album_task now tree album_id tables).Keyed := by
  intro id record' hlook
  obtain ⟨record, hrow, album_id', rfl⟩ :=
    (sameMedia_album_task now tree album_id tables).exists_row hlook
  exact h id record hrow

theorem keyed_writer_next {w : SerialWriter} (l : SerialWriter.Label)
    (h : w.lib.store.tables.Keyed) : (w.next l).lib.store.tables.Keyed := by
  rcases SerialWriter.lib_next (s := w) l with hsame | ⟨now, fs, op, hop⟩
  · rw [hsame]
    exact h
  · rw [hop]
    exact keyed_handle_op now fs op h

end Keyed

/-! ## What is taken without a rebuild -/

/-- The records that an operation without a rebuild takes away. -/
def WriteOp.sweeps (lib : Library) : WriteOp → List String
  | sweepDirAlbums entries => entries.map Prod.snd
  | pruneUsersRoot users_root => (lib.store.get_asset_id_by_path users_root.display).toList
  | _ => []

section Sweeps

variable {lib : Library}

theorem lookup_handle_sweep_dir_albums (entries : List (PathBuf × String)) (lib : Library)
    (id : String) : (handle_sweep_dir_albums entries lib).store.tables.assets.lookup id =
      if id ∈ entries.map Prod.snd then none else lib.store.tables.assets.lookup id := by
  unfold handle_sweep_dir_albums
  induction entries generalizing lib with
  | nil => rfl
  | cons e entries ih =>
    obtain ⟨dir_path, album_id⟩ := e
    have herase : (sweep_dir_album dir_path album_id lib).store.tables.assets.lookup id =
        (lib.store.tables.assets.erase album_id).lookup id := rfl
    rw [List.foldl_cons, ih, herase]
    by_cases hid : id = album_id
    · subst hid
      rw [AList.lookup_erase, ite_self, List.map_cons, if_pos List.mem_cons_self]
    · rw [AList.lookup_erase_ne hid]
      simp only [List.map_cons, List.mem_cons, hid, false_or]

theorem lookup_handle_op {op : WriteOp} (hop : op.refreshes = false) (now : Int) (fs : Fs)
    (id : String) : (handle_op now fs op lib).2.store.tables.assets.lookup id =
      if id ∈ op.sweeps lib then none else lib.store.tables.assets.lookup id := by
  cases op with
  | flush | updateTree => cases hop
  | expireCheck | barrier => rfl
  | sweepDirAlbums entries => exact lookup_handle_sweep_dir_albums entries lib id
  | pruneUsersRoot users_root =>
    simp only [handle_op, handle_prune_users_root]
    split
    · rename_i hroot
      have hnone : (WriteOp.pruneUsersRoot users_root).sweeps lib = [] := by
        rw [WriteOp.sweeps, hroot]
        rfl
      rw [hnone]
      rfl
    · rename_i album_id hroot
      have hone : (WriteOp.pruneUsersRoot users_root).sweeps lib = [album_id] := by
        rw [WriteOp.sweeps, hroot]
        rfl
      rw [hone]
      exact lookup_handle_sweep_dir_albums [(users_root, album_id)] lib id

end Sweeps

/-- The records that the writer takes away next, if no rebuild is in line. -/
def SerialWriter.sweeping (s : SerialWriter) : List String :=
  match s.writer, s.pending with
  | .single, m :: _ => m.op.sweeps s.lib
  | _, _ => []

theorem SerialWriter.lookup_writer {s : SerialWriter} (hline : ¬ s.RefreshInLine) (now : Int)
    (fs : Fs) (id : String) : (s.next (.writer now fs)).lib.store.tables.assets.lookup id =
      if id ∈ s.sweeping then none else s.lib.store.tables.assets.lookup id := by
  have hqueue : ∀ m ∈ s.pending, m.op.refreshes = false := by
    intro m hm
    by_contra hop
    exact hline (Or.inl ⟨m, List.mem_append_left _ hm, by simpa using hop⟩)
  show (s.writer_step now fs).lib.store.tables.assets.lookup id = _
  rcases lib_writer_step (s := s) now fs with
    ⟨hsame, hidle⟩ | ⟨-, -, ⟨m, hm, hop⟩, -⟩ | ⟨m, pending, hwriter, hpending, hlib⟩
  · have hnone : s.sweeping = [] := by
      unfold sweeping
      split
      · rename_i hwriter hpending
        exact absurd hpending (hidle _ _ hwriter)
      · rfl
    rw [hsame, hnone]
    rfl
  · -- a flush is followed by a rebuild
    rw [hqueue m hm] at hop
    cases hop
  · have hnext : s.sweeping = m.op.sweeps s.lib := by
      unfold sweeping
      rw [hwriter, hpending]
    have hm : m ∈ s.pending := by
      rw [hpending]
      exact List.mem_cons_self
    rw [hlib, hnext]
    exact lookup_handle_op (hqueue m hm) now fs id

/-! ## What a step can do -/

/-- The job has called its last barrier. -/
def JobPoint.is_ending : JobPoint → Bool
  | updateTree _ | done => true
  | _ => false

namespace IndexJob

variable {env : ScanEnv} {s s' : IndexJob} {l : Label}

inductive Move (s : IndexJob) : Label → IndexJob → Prop where
  /-- There is nothing to do. -/
  | stay (l : Label) : Move s l s
  /-- An album is made, or refreshed. -/
  | write {l : Label} {lib : Library} {batches : List (Option MemoryTree)}
    (hkeyed : s.tables.Keyed → lib.store.tables.Keyed) : Move s l { s.with_lib lib with batches }
  | call {l : Label} {kind : CallKind} {job : JobPoint} (hjob : job.is_ending = false) :
    Move s l { s with writer := s.writer.next (.call kind), job }
  | lastBarrier {l : Label} (hsent : s.all_sent = true) :
    Move s l { s with
      writer := s.writer.next (.call .barrier), job := .updateTree s.writer.calls.length }
  | advance {l : Label} {job : JobPoint} (hjob : job.is_ending = false) : Move s l { s with job }
  | finish {l : Label} {n : Nat} (hjob : s.job = .updateTree n)
    (hreturned : s.has_returned n = true) : Move s l { s with job := .done }
  | step {l : SerialWriter.Label} (hcall : l.is_call = false) (hcascade : l.is_cascade = false) :
    Move s (.step l) { s with writer := s.writer.next l }
  | cascade (hdone : s.chain_done = true) :
    Move s (.step .cascade) { s with writer := s.writer.next .cascade, chain := .begun }
  | build {now : Int} {timestamp : AbstractData → Int} {entry : CascadeEntry}
    (hcascade : s.writer.cascade = .running entry) (hop : entry.op = .updateTreeChain) :
    Move s (.build now timestamp)
      { s with chain := .built (refresh_tree_cache now timestamp s.tables) }
  | install {tree : MemoryTree} (hchain : s.chain = .built tree) :
    Move s .install { s with tree, chain := .installed }
  | batchBuild {l : Label} {batches : List (Option MemoryTree)} : Move s l { s with batches }
  | batchInstall {n : Nat} {tree : MemoryTree} {batches : List (Option MemoryTree)}
    (hbatch : s.batches[n]? = some (some tree)) :
    Move s (.batchInstall n) { s with tree, batches }

theorem move_job_step (exists_ : PathBuf → Bool) :
    Move s (.job exists_) (s.job_step env exists_) := by
  unfold job_step
  split
  · exact .stay _
  rename_i hsent
  have hsent : s.all_sent = true := by simpa using hsent
  split
  · exact .call rfl
  · split
    · exact .advance rfl
    · exact .stay _
  · exact .advance rfl
  · split
    · exact .advance rfl
    · exact .call rfl
  · exact .advance rfl
  · exact .call rfl
  · split
    · exact .advance rfl
    · exact .call rfl
  · exact .call rfl
  · split
    · exact .lastBarrier hsent
    · exact .stay _
  · rename_i n hjob
    split
    · rename_i hreturned
      exact .finish hjob hreturned
    · exact .stay _
  · exact .stay _

theorem move_next (env : ScanEnv) (l : Label) : Move s l (next env s l) := by
  cases l with
  | create to_uppercase now info random_hash dir_path =>
    simp only [next]
    split
    · exact .write (keyed_get_or_create_dir_album to_uppercase now info random_hash dir_path)
    · exact .stay _
  | index random_hash data =>
    simp only [next]
    split
    · rename_i hjob
      exact .call (by rw [hjob]; rfl)
    · exact .stay _
  | job exists_ => exact move_job_step exists_
  | step l =>
    cases l with
    | call kind => exact .stay _
    | cascade =>
      simp only [next]
      split
      · rename_i hdone
        exact .cascade hdone
      · exact .stay _
    | _ => exact .step rfl rfl
  | build now timestamp =>
    simp only [next]
    split
    · rename_i hcascade hchain
      exact .build hcascade rfl
    · rename_i hcascade hchain
      exact .build hcascade rfl
    · exact .stay _
  | install =>
    simp only [next]
    split
    · rename_i tree hchain
      exact .install hchain
    · exact .stay _
  | album now album_id => exact .write (keyed_album_task now s.tree album_id)
  | batchBuild n now timestamp =>
    simp only [next]
    split
    · exact .batchBuild
    · exact .stay _
  | batchInstall n =>
    simp only [next]
    split
    · rename_i tree hbatch
      exact .batchInstall hbatch
    · exact .stay _

/-! ## What holds in every state -/

theorem keyed_next (l : Label) (h : s.tables.Keyed) : (next env s l).tables.Keyed := by
  have hmove := move_next env (s := s) l
  generalize next env s l = s' at hmove
  cases hmove with
  | write hkeyed => exact hkeyed h
  | step | cascade => exact keyed_writer_next _ h
  | _ => exact h

/-- What the job knows of the calls before its last barrier. -/
def Awaits (s : IndexJob) : Prop :=
  match s.job with
  | .updateTree n => s.writer.LastBarrier n ∧
    ∃ bound, 0 < bound ∧ ∀ k < n, SerialWriter.Late k bound n s.writer
  | .done => ∃ n, s.writer.LastBarrier n ∧ ∀ k < n, s.writer.Cascaded k
  | _ => True

structure Base (s : IndexJob) : Prop where
  writer : s.writer.Covering
  /-- A tree that is read and not installed belongs to the entry in hand. -/
  chain : ∀ tree, s.chain = .built tree →
    ∃ entry, s.writer.cascade = .running entry ∧ entry.op = .updateTreeChain
  job : s.Awaits

theorem awaits_of_not_ending (h : s.job.is_ending = false) : s.Awaits := by
  unfold Awaits
  split
  · rename_i hjob
    rw [hjob] at h
    cases h
  · rename_i hjob
    rw [hjob] at h
    cases h
  · trivial

theorem Awaits.of_writer (h : s.Awaits) (hjob : s'.job = s.job)
    (hlast : ∀ n, s.writer.LastBarrier n → s'.writer.LastBarrier n)
    (hlate : ∀ k bound n, 0 < bound → SerialWriter.Late k bound n s.writer →
      SerialWriter.Late k bound n s'.writer)
    (hcascaded : ∀ k, s.writer.Cascaded k → s'.writer.Cascaded k) : s'.Awaits := by
  unfold Awaits at h ⊢
  rw [hjob]
  cases hpoint : s.job with
  | updateTree n =>
    rw [hpoint] at h
    obtain ⟨hbarrier, bound, hpos, hall⟩ := h
    exact ⟨hlast n hbarrier, bound, hpos, fun k hk => hlate k bound n hpos (hall k hk)⟩
  | done =>
    rw [hpoint] at h
    obtain ⟨n, hbarrier, hall⟩ := h
    exact ⟨n, hlast n hbarrier, fun k hk => hcascaded k (hall k hk)⟩
  | _ => trivial

theorem Awaits.next_writer (h : s.Awaits) (hjob : s'.job = s.job) {l : SerialWriter.Label}
    (hcall : l.is_call = false) (hwriter : s'.writer = s.writer.next l) : s'.Awaits := by
  apply h.of_writer hjob
  · rw [hwriter]
    exact fun n hlast => hlast.next hcall
  · rw [hwriter]
    exact fun k bound n hpos hlate => hlate.move hpos (SerialWriter.move_next l)
  · rw [hwriter]
    exact fun k hcascaded => hcascaded.move (SerialWriter.move_next l)

theorem returned_of_has_returned {n : Nat} (h : s.has_returned n = true) :
    ∃ c seq, s.writer.calls[n]? = some c ∧ c.point = .returned seq := by
  obtain ⟨c, hc, hpoint⟩ := (Option.any_eq_true _ _).mp h
  split at hpoint
  · rename_i seq hreturned
    exact ⟨c, seq, hc, hreturned⟩
  · cases hpoint

/-- All submits have returned when the last barrier is called. -/
theorem awaits_lastBarrier (hbase : s.writer.Covering) (hsent : s.all_sent = true) :
    Awaits { s with
      writer := s.writer.next (.call .barrier), job := .updateTree s.writer.calls.length } := by
  have hmove := SerialWriter.move_next (s := s.writer) (.call .barrier)
  refine ⟨⟨?_, ⟨⟨.barrier, .called⟩, ?_, rfl⟩⟩, s.writer.next_seq, hbase.numbered.pos, ?_⟩
  · exact List.length_append
  · exact List.getElem?_concat_length
  · intro k hk
    have hc := List.getElem?_eq_getElem hk
    have hpoint := List.all_eq_true.mp hsent _ (List.getElem_mem hk)
    exact (hbase.covered.late hc hpoint).move hbase.numbered.pos hmove

theorem Base.next (h : s.Base) (l : Label) : (IndexJob.next env s l).Base := by
  have hmove := move_next env (s := s) l
  generalize IndexJob.next env s l = s' at hmove
  cases hmove with
  | stay => exact h
  | @write l lib batches hkeyed =>
    refine ⟨h.writer.with_lib lib, h.chain, h.job.of_writer rfl ?_ ?_ ?_⟩
    · exact fun n hlast => ⟨hlast.last, hlast.barrier⟩
    · exact fun k bound n hpos hlate => hlate.with_lib lib
    · exact fun k hcascaded => hcascaded
  | @call l kind job hjob => exact ⟨h.writer.next (.call kind), h.chain, awaits_of_not_ending hjob⟩
  | lastBarrier hsent =>
    exact ⟨h.writer.next (.call .barrier), h.chain, awaits_lastBarrier h.writer hsent⟩
  | advance hjob => exact ⟨h.writer, h.chain, awaits_of_not_ending hjob⟩
  | @finish l n hjob hreturned =>
    refine ⟨h.writer, h.chain, ?_⟩
    have hawaits := h.job
    unfold Awaits at hawaits
    rw [hjob] at hawaits
    obtain ⟨hlast, bound, hpos, hlate⟩ := hawaits
    obtain ⟨c, seq, hc, hpoint⟩ := returned_of_has_returned hreturned
    refine ⟨n, hlast, fun k hk => ?_⟩
    have hknows := (hlate k hk).knows n c (Nat.le_refl n) hc
    rw [hpoint] at hknows
    exact hknows.2
  | step hcall hcascade =>
    refine ⟨h.writer.next _, ?_, h.job.next_writer rfl hcall rfl⟩
    intro tree hchain
    simp only [SerialWriter.cascade_next hcascade]
    exact h.chain tree hchain
  | cascade hdone =>
    exact ⟨h.writer.next .cascade, (fun tree hchain => by cases hchain),
      h.job.next_writer (l := .cascade) rfl rfl rfl⟩
  | @build now timestamp entry hcascade hop =>
    exact ⟨h.writer, fun _ _ => ⟨entry, hcascade, hop⟩, h.job⟩
  | install hchain => exact ⟨h.writer, (fun tree hnone => by cases hnone), h.job⟩
  | batchBuild | batchInstall hbatch => exact ⟨h.writer, h.chain, h.job⟩

theorem base_run (env : ScanEnv) (earlier : List SerialWriter.Label) (lib : Library)
    (tree : MemoryTree) (labels : List Label) :
    (LTS.run (IndexJob.next env) (start earlier lib tree) labels).Base := by
  have hstart : (start earlier lib tree).Base :=
    ⟨(SerialWriter.covering_run lib earlier).with_lib lib,
      (fun read hchain => by cases hchain), trivial⟩
  exact LTS.run_invariant hstart fun _ l _ h => h.next l

/-! ## The tree and the tables -/

/-- A rebuild is to come that has not read the tables yet. -/
def RebuildToCome (s : IndexJob) : Prop :=
  s.writer.RefreshInLine ∨ ∃ entry, s.writer.cascade = .running entry ∧
    entry.op = .updateTreeChain ∧ s.chain = .begun

/-- The tree, or the one that the cascade task is about to install. -/
def latest (s : IndexJob) : MemoryTree :=
  match s.chain with
  | .built tree => tree
  | _ => s.tree

/-- The tree has the ids of the tables, or a rebuild is still to read them. -/
def Settled (s : IndexJob) : Prop := s.RebuildToCome ∨ TreeMatches s.latest s.tables

/-- The steps that keep it: while no rebuild is to come, no album is made, the writer takes no
record away, and no tree task installs an old tree. -/
def StepOk (s : IndexJob) (l : Label) : Prop :=
  s.RebuildToCome ∨
    match l with
    | .create _ _ _ random_hash dir_path => s.job = .walking →
      s.writer.lib.dirs.get_album_id_for_dir (ofString dir_path) = none →
      (s.tables.assets.lookup random_hash).isSome = true
    | .step (.writer _ _) => ∀ id ∈ s.writer.sweeping, s.tables.assets.lookup id = none
    | .batchInstall n => ∀ tree, s.batches[n]? = some (some tree) →
      -- the tree that the cascade task has read is installed later
      (∀ read, s.chain ≠ .built read) → TreeMatches tree s.tables
    | _ => True

theorem Base.none_ahead_of_done (h : s.Base) (hdone : s.job = .done) :
    ¬ s.RebuildToCome ∧ s.latest = s.tree := by
  have hawaits := h.job
  unfold Awaits at hawaits
  rw [hdone] at hawaits
  obtain ⟨n, hlast, hall⟩ := hawaits
  obtain ⟨hline, hhand⟩ := h.writer.none_refreshes hlast hall
  constructor
  · rintro (hrefresh | ⟨entry, hcascade, hop, -⟩)
    · exact hline hrefresh
    · exact hhand entry hcascade hop
  · unfold latest
    split
    · rename_i tree hchain
      obtain ⟨entry, hcascade, hop⟩ := h.chain tree hchain
      exact absurd hop (hhand entry hcascade)
    · rfl

theorem chain_done_of_rebuilding {entry : CascadeEntry}
    (hcascade : s.writer.cascade = .running entry) (hop : entry.op = .updateTreeChain)
    (hchain : s.chain ≠ .installed) : s.chain_done = false := by
  obtain ⟨seq, op, members⟩ := entry
  obtain rfl : op = .updateTreeChain := hop
  unfold chain_done
  rw [hcascade]
  cases h : s.chain with
  | installed => exact absurd h hchain
  | _ => rfl

/-- A rebuild that is to come stays so, until it reads the tables. -/
theorem RebuildToCome.next (h : s.RebuildToCome) (hkeyed : s.tables.Keyed) (l : Label) :
    (IndexJob.next env s l).Settled := by
  have hmove := move_next env (s := s) l
  generalize IndexJob.next env s l = s' at hmove
  have hwriter : ∀ l', l'.is_cascade = false → ∀ s' : IndexJob, s'.writer = s.writer.next l' →
      s'.chain = s.chain → s'.RebuildToCome := by
    intro l' hl' s' hnext hchain
    unfold RebuildToCome
    rw [hnext, hchain, SerialWriter.cascade_next hl']
    exact h.imp_left fun hrefresh => hrefresh.next hl'
  cases hmove with
  | stay | write | advance | finish | batchBuild | batchInstall => exact Or.inl h
  | @call l kind job hjob => exact Or.inl (hwriter (.call kind) rfl _ rfl rfl)
  | lastBarrier hsent => exact Or.inl (hwriter (.call .barrier) rfl _ rfl rfl)
  | step hcall hcascade => exact Or.inl (hwriter _ hcascade _ rfl rfl)
  | cascade hdone =>
    rcases h with hrefresh | ⟨entry, hcascade, hop, hchain⟩
    · rcases hrefresh.cascade with hline | ⟨entry, hcascade, hop⟩
      · exact Or.inl (Or.inl hline)
      · exact Or.inl (Or.inr ⟨entry, hcascade, hop, rfl⟩)
    · -- the cascade task is not done with the entry
      have hnot := chain_done_of_rebuilding hcascade hop (by simp [hchain])
      rw [hdone] at hnot
      cases hnot
  | build => exact Or.inr (treeMatches_refresh hkeyed _ _)
  | install hchain =>
    rcases h with hrefresh | ⟨entry, hcascade, hop, hbegun⟩
    · exact Or.inl (Or.inl hrefresh)
    · rw [hbegun] at hchain
      cases hchain

theorem latest_of_built {tree : MemoryTree} (h : s.chain = .built tree) : s.latest = tree := by
  unfold latest
  rw [h]

theorem latest_of_not_built (h : ∀ tree, s.chain ≠ .built tree) : s.latest = s.tree := by
  unfold latest
  split
  · rename_i tree hchain
    exact absurd hchain (h tree)
  · rfl

/-- The latest tree stays, or the tables are read anew, or a tree task installs what it has read. -/
theorem Base.latest_cases (h : s.Base) (env : ScanEnv) (l : Label) :
    (IndexJob.next env s l).latest = s.latest ∨
      (∃ now timestamp, l = .build now timestamp ∧
        (IndexJob.next env s l).latest = refresh_tree_cache now timestamp s.tables) ∨
      ∃ n tree, l = .batchInstall n ∧ s.batches[n]? = some (some tree) ∧
        (IndexJob.next env s l).latest = tree := by
  have hmove := move_next env (s := s) l
  generalize IndexJob.next env s l = s' at hmove
  cases hmove with
  | stay | write | call | lastBarrier | advance | finish | step | batchBuild => exact Or.inl rfl
  | cascade hdone =>
    have hnot : ∀ tree, s.chain ≠ .built tree := by
      intro tree hchain
      obtain ⟨entry, hcascade, hop⟩ := h.chain tree hchain
      have hnot := chain_done_of_rebuilding hcascade hop (by simp [hchain])
      rw [hdone] at hnot
      cases hnot
    rw [latest_of_not_built hnot]
    exact Or.inl rfl
  | @build now timestamp entry hcascade hop => exact Or.inr (Or.inl ⟨now, timestamp, rfl, rfl⟩)
  | install hchain =>
    rw [latest_of_built hchain]
    exact Or.inl rfl
  | @batchInstall n tree batches hbatch =>
    by_cases hbuilt : ∃ tree, s.chain = .built tree
    · -- the tree of the cascade task comes later
      obtain ⟨tree', hchain⟩ := hbuilt
      rw [latest_of_built hchain]
      exact Or.inl (latest_of_built hchain)
    · refine Or.inr (Or.inr ⟨n, tree, rfl, hbatch, ?_⟩)
      exact latest_of_not_built fun tree hchain => hbuilt ⟨tree, hchain⟩

/-- The steps that may part the tree from the tables. -/
def Label.may_part : Label → Bool
  | create _ _ _ _ _ | step (.writer _ _) | batchInstall _ => true
  | _ => false

theorem lib_job_step (exists_ : PathBuf → Bool) :
    (s.job_step env exists_).writer.lib = s.writer.lib := by
  unfold job_step
  split
  · rfl
  · split
    all_goals try split
    all_goals rfl

/-- The other steps leave the ids as they are. -/
theorem sameIds_next (hl : l.may_part = false) : SameIds s.tables (next env s l).tables := by
  have hlib : ∀ s' : IndexJob, s'.writer.lib = s.writer.lib → SameIds s.tables s'.tables := by
    intro s' hsame id
    rw [tables, hsame]
    rfl
  cases l with
  | create | batchInstall => cases hl
  | index random_hash data =>
    apply hlib
    simp only [next]
    split
    · rfl
    · rfl
  | job exists_ => exact hlib _ (lib_job_step exists_)
  | step l =>
    apply hlib
    cases l with
    | writer now fs => cases hl
    | call kind => rfl
    | cascade =>
      simp only [next]
      split
      · exact (SerialWriter.next_of_not_writer rfl).1
      · rfl
    | _ => exact (SerialWriter.next_of_not_writer rfl).1
  | album now album_id =>
    -- a refresh changes payloads, and where records are filed
    intro id
    have hrows := (sameMedia_album_task now s.tree album_id s.tables).rows id
    have hsome := congrArg Option.isSome hrows
    rwa [Option.isSome_map, Option.isSome_map] at hsome
  | build | install | batchBuild =>
    apply hlib
    simp only [next]
    split
    all_goals rfl

/-- They keep a tree that is up to date, or read the tables anew. -/
theorem settled_of_not_may_part (h : TreeMatches s.latest s.tables) (hbase : s.Base)
    (hkeyed : s.tables.Keyed) (hl : l.may_part = false) : (next env s l).Settled := by
  have hsame : SameIds s.tables (next env s l).tables := sameIds_next hl
  apply Or.inr
  rcases hbase.latest_cases env l with hlatest | ⟨now, timestamp, rfl, hread⟩ | ⟨n, -, rfl, -⟩
  · rw [hlatest]
    exact h.congr hsame
  · rw [hread]
    exact (treeMatches_refresh hkeyed now timestamp).congr hsame
  · cases hl

theorem settled_iff_sameIds (h : TreeMatches s.latest s.tables) (hcome : ¬ s'.RebuildToCome)
    (hlatest : s'.latest = s.latest) : s'.Settled ↔ SameIds s.tables s'.tables := by
  unfold Settled
  rw [or_iff_right hcome, hlatest, h.iff_sameIds]

theorem sameIds_write_album_iff (to_uppercase : Char → String) (now : Int) (info : AlbumInfo)
    (album_id dir_path : String) (store : AssetStore) :
    SameIds store.tables
        (write_album_to_db to_uppercase now info album_id dir_path store).tables ↔
      (store.tables.assets.lookup album_id).isSome = true := by
  have hrows : ∀ id, ((write_album_to_db to_uppercase now info album_id dir_path
      store).tables.assets.lookup id).isSome =
      if id = album_id then true else (store.tables.assets.lookup id).isSome := by
    intro id
    have hrow := Table.lookup_insert store.tables.assets album_id (.new_album now album_id dir_path) id
    exact (congrArg Option.isSome hrow).trans (apply_ite Option.isSome _ _ _)
  constructor
  · intro hsame
    rw [← hsame album_id, hrows, if_pos rfl]
  · intro hsome id
    rw [hrows]
    split
    · rename_i hid
      rw [hid, hsome]
    · rfl

section

variable (h : TreeMatches s.latest s.tables)

include h

variable (hcome : ¬ s.RebuildToCome)

include hcome

theorem settled_create_iff (to_uppercase : Char → String) (now : Int) (info : AlbumInfo)
    (random_hash dir_path : String) :
    (next env s (.create to_uppercase now info random_hash dir_path)).Settled ↔
      (s.job = .walking → s.writer.lib.dirs.get_album_id_for_dir (ofString dir_path) = none →
        (s.tables.assets.lookup random_hash).isSome = true) := by
  by_cases hjob : s.job = .walking
  · have hmade : (next env s (.create to_uppercase now info random_hash dir_path)).Settled ↔
        SameIds s.tables (get_or_create_dir_album to_uppercase now info random_hash dir_path
          s.writer.lib).2.store.tables := by
      simp only [next, hjob]
      exact settled_iff_sameIds h hcome rfl
    rw [hmade]
    simp only [hjob, forall_const, get_or_create_dir_album]
    split
    · rename_i album_id hdir
      simp only [hdir]
      exact iff_of_true (fun id => rfl) fun hnone => by cases hnone
    · rename_i hdir
      simp only [hdir, forall_const]
      exact sameIds_write_album_iff to_uppercase now info random_hash dir_path s.writer.lib.store
  · have hstays : next env s (.create to_uppercase now info random_hash dir_path) = s := by
      simp only [next]
    rw [hstays]
    exact iff_of_true (Or.inr h) fun hwalking => absurd hwalking hjob

theorem settled_writer_iff (now : Int) (fs : Fs) : (next env s (.step (.writer now fs))).Settled ↔
      ∀ id ∈ s.writer.sweeping, s.tables.assets.lookup id = none := by
  have hcome' : ¬ (next env s (.step (.writer now fs))).RebuildToCome := by
    rintro (hline | ⟨entry, hcascade, hrest⟩)
    · exact hcome (Or.inl ((SerialWriter.refreshInLine_writer now fs).mp hline))
    · have hsame := SerialWriter.cascade_next (s := s.writer) (l := .writer now fs) rfl
      exact hcome (Or.inr ⟨entry, hsame.symm.trans hcascade, hrest⟩)
  rw [settled_iff_sameIds h hcome' rfl]
  apply sameIds_iff_of_taken
  exact SerialWriter.lookup_writer (fun hline => hcome (Or.inl hline)) now fs

theorem settled_batchInstall_iff (n : Nat) : (next env s (.batchInstall n)).Settled ↔
      ∀ tree, s.batches[n]? = some (some tree) → (∀ read, s.chain ≠ .built read) →
        TreeMatches tree s.tables := by
  simp only [next]
  split
  · rename_i tree hbatch
    have hcome' : ¬ RebuildToCome { s with tree, batches := s.batches.set n none } := hcome
    by_cases hbuilt : ∃ read, s.chain = .built read
    · obtain ⟨read, hchain⟩ := hbuilt
      rw [latest_of_built hchain] at h
      refine iff_of_true (Or.inr ?_) fun _ _ hnot => absurd hchain (hnot read)
      have hlatest : latest { s with tree, batches := s.batches.set n none } = read :=
        latest_of_built hchain
      rw [hlatest]
      exact h
    · have hnot : ∀ read, s.chain ≠ .built read := fun read hchain => hbuilt ⟨read, hchain⟩
      have hlatest : latest { s with tree, batches := s.batches.set n none } = tree :=
        latest_of_not_built hnot
      rw [Settled, or_iff_right hcome', hlatest]
      constructor
      · intro hmatches tree' hbatch' _
        obtain rfl : tree = tree' := Option.some.inj (Option.mem_unique hbatch hbatch')
        exact hmatches
      · exact fun hall => hall tree hbatch hnot
  · rename_i hother
    exact iff_of_true (Or.inr h) fun tree hbatch => absurd hbatch (hother tree)

end

/-- The tree stays up to date, or a rebuild is to come, over a step exactly if the step meets the
condition. -/
theorem settled_next_iff (h : s.Settled) (hbase : s.Base) (hkeyed : s.tables.Keyed)
    (env : ScanEnv) (l : Label) : (next env s l).Settled ↔ s.StepOk l := by
  by_cases hcome : s.RebuildToCome
  · -- a rebuild that is to come makes up for everything
    exact iff_of_true (hcome.next hkeyed l) (Or.inl hcome)
  have hmatches := h.resolve_left hcome
  have hkept : l.may_part = false → (next env s l).Settled :=
    settled_of_not_may_part hmatches hbase hkeyed
  unfold StepOk
  rw [or_iff_right hcome]
  cases l with
  | create to_uppercase now info random_hash dir_path =>
    exact settled_create_iff hmatches hcome to_uppercase now info random_hash dir_path
  | batchInstall n => exact settled_batchInstall_iff hmatches hcome n
  | step l =>
    cases l with
    | writer now fs => exact settled_writer_iff hmatches hcome now fs
    | _ => exact iff_of_true (hkept rfl) trivial
  | _ => exact iff_of_true (hkept rfl) trivial

/-! ## After the scan -/

theorem keyed_run (env : ScanEnv) (earlier : List SerialWriter.Label) {lib : Library}
    (tree : MemoryTree) (hkeyed : lib.store.tables.Keyed) (labels : List Label) :
    (LTS.run (next env) (start earlier lib tree) labels).tables.Keyed :=
  LTS.run_invariant (I := fun s : IndexJob => s.tables.Keyed) hkeyed fun _ l _ h => keyed_next l h

/-- Take a point of the run at which the tree is up to date, or a rebuild is to come. From there on
this stays so exactly if every step meets the condition; and then the tree lists exactly the assets
that have a record when the last barrier of the job has returned. Otherwise it lists them only if it
has become so again. -/
theorem tree_matches_after_scan_iff (env : ScanEnv) (earlier : List SerialWriter.Label)
    {lib : Library} (tree : MemoryTree) (hkeyed : lib.store.tables.Keyed)
    (before after : List Label)
    (hsettled : (LTS.run (next env) (start earlier lib tree) before).Settled) :
    let s := LTS.run (next env) (start earlier lib tree) before
    ((∀ done, done <+: after → (LTS.run (next env) s done).Settled) ↔
      ∀ done l, done ++ [l] <+: after → (LTS.run (next env) s done).StepOk l) ∧
    ((∀ done l, done ++ [l] <+: after → (LTS.run (next env) s done).StepOk l) →
      ∀ done, done <+: after → (LTS.run (next env) s done).job = .done →
        TreeMatches (LTS.run (next env) s done).tree (LTS.run (next env) s done).tables) ∧
    ∀ done, (LTS.run (next env) s done).job = .done →
      (TreeMatches (LTS.run (next env) s done).tree (LTS.run (next env) s done).tables ↔
        (LTS.run (next env) s done).Settled) := by
  intro s
  have hbase : ∀ done, (LTS.run (next env) s done).Base := by
    intro done
    rw [← LTS.run_append]
    exact base_run env earlier lib tree (before ++ done)
  have hsteps : (∀ done, done <+: after → (LTS.run (next env) s done).Settled) ↔
      ∀ done l, done ++ [l] <+: after → (LTS.run (next env) s done).StepOk l := by
    refine LTS.run_invariant_iff hsettled fun done l _ h => ?_
    refine settled_next_iff h (hbase done) ?_ env l
    rw [← LTS.run_append]
    exact keyed_run env earlier tree hkeyed (before ++ done)
  have hend : ∀ done, (LTS.run (next env) s done).job = .done →
      (TreeMatches (LTS.run (next env) s done).tree (LTS.run (next env) s done).tables ↔
        (LTS.run (next env) s done).Settled) := by
    intro done hdone
    obtain ⟨hnone, hlatest⟩ := (hbase done).none_ahead_of_done hdone
    rw [Settled, or_iff_right hnone, hlatest]
  refine ⟨hsteps, ?_, hend⟩
  intro hok done hpre hdone
  exact (hend done hdone).mpr (hsteps.mpr hok done hpre)

/-! ## A directory is gone -/

/-- The root and one directory have albums; these files were indexed. -/
def trip_library (files : List (String × AbstractData)) : Library :=
  let create := fun id dir lib => (get_or_create_dir_album Char.toString 0 {} id dir lib).2
  let lib := create "trip" "/photos/trip" (create "home" "/photos" SerialWriter.no_library)
  { lib with store := flush_tables 0 ⟨fun _ => none, fun _ => false⟩ files [] lib.store }

def trip_tree (lib : Library) : MemoryTree :=
  build_from_asset_tables 0 (fun _ => 0) lib.store.tables

/-- The root is scanned. -/
def trip_env : ScanEnv := ⟨[ofString "/photos"], none, none⟩

/-- The job goes on; only the root is left on the disk. -/
def go : Label := .job fun p => p == ofString "/photos"

def sends (n : Nat) : List Label := [.step (.fetchAdd n), .step (.send n)]

def writes (n : Nat) : List Label :=
  List.replicate n (.step (.writer 0 ⟨fun _ => none, fun _ => false⟩))

def cascades (n : Nat) : List Label := List.replicate n (.step .cascade)

/-- The `n`-th call, a barrier, finds the watermarks where they have to be. -/
def returns (n : Nat) : List Label := [.step (.loadCompleted n), .step (.loadCascadeCompleted n)]

def barrier_returns (n : Nat) : List Label :=
  sends n ++ [.step (.loadNext n)] ++ writes 13 ++ cascades 6 ++ returns n

/-- The job up to the sweep, which finds that the directory is gone. -/
def sweep_begins : List Label := [go] ++ barrier_returns 0 ++ [go, go, go] ++ sends 1

theorem keyed_trip_library (files : List (String × AbstractData)) :
    (trip_library files).store.tables.Keyed := by
  have hempty : SerialWriter.no_library.store.tables.Keyed := fun id record hlook => by cases hlook
  apply keyed_flush_tables
  apply keyed_get_or_create_dir_album
  exact keyed_get_or_create_dir_album _ _ _ _ _ hempty

/-- A file is gone with the directory: its removal is behind that of the album, and the cascade task
begins with the tree. -/
def removes_written : List Label :=
  sweep_begins ++ [go] ++ sends 2 ++ [go, go] ++ sends 3 ++ [.step (.loadNext 3)] ++ writes 16 ++
    cascades 4

def tree_rebuilt : List Label :=
  [.build 0 fun _ => 0, .install] ++ cascades 5 ++ returns 3 ++ [go] ++ barrier_returns 4 ++ [go]

theorem tree_matches_after_removes :
    let lib := trip_library [("sea", photo "/photos/trip/sea.jpg" "5ea")]
    let s := LTS.run (next trip_env)
      (LTS.run (next trip_env) (start [] lib (trip_tree lib)) removes_written) tree_rebuilt
    s.job = .done ∧ s.tables.assets.keys = ["home"] ∧ TreeMatches s.tree s.tables := by
  intro lib s
  have hdone : s.job = .done := by decide +kernel
  have hquiet : ∀ done ∈ tree_rebuilt.inits,
      let t := LTS.run (next trip_env)
        (LTS.run (next trip_env) (start [] lib (trip_tree lib)) removes_written) done
      t.job ≠ .walking ∧ t.writer.sweeping = [] ∧ t.batches.isEmpty = true := by decide +kernel
  have hsettled :
      (LTS.run (next trip_env) (start [] lib (trip_tree lib)) removes_written).Settled :=
    Or.inl (Or.inr ⟨⟨3, .updateTreeChain, [2]⟩, by decide +kernel, rfl, by decide +kernel⟩)
  refine ⟨hdone, by decide +kernel, ?_⟩
  refine (tree_matches_after_scan_iff trip_env [] (trip_tree lib) (keyed_trip_library _)
    removes_written tree_rebuilt hsettled).2.1 ?_ tree_rebuilt (List.prefix_refl _) hdone
  intro done l hpre
  apply Or.inr
  obtain ⟨hjob, hsweeping, hbatches⟩ :=
    hquiet done ((List.mem_inits _ _).mpr ((List.prefix_append done [l]).trans hpre))
  split
  · exact fun hwalking => absurd hwalking hjob
  · rw [hsweeping]
    exact fun id hid => by cases hid
  · rw [List.isEmpty_iff.mp hbatches]
    exact fun tree hbatch => by cases hbatch
  · trivial

/-- The album of a directory that is gone is removed, and the job ends. The tree has been up to
date, and lists the album. -/
theorem swept_album_still_listed :
    let lib := trip_library []
    let s := LTS.run (next trip_env) (start [] lib (trip_tree lib))
      (sweep_begins ++ [go, go, go] ++ barrier_returns 2 ++ [go] ++ barrier_returns 3 ++ [go])
    TreeMatches (trip_tree lib) lib.store.tables ∧ s.job = .done ∧
      s.tables.assets.lookup "trip" = none ∧ (∃ row ∈ s.tree, row.asset_id = "trip") ∧
      ¬ TreeMatches s.tree s.tables := by
  intro lib s
  have hgone : s.tables.assets.lookup "trip" = none := by decide +kernel
  have hlisted : ∃ row ∈ s.tree, row.asset_id = "trip" := by decide +kernel
  refine ⟨treeMatches_build (keyed_trip_library []) _ _, by decide +kernel, hgone, hlisted, ?_⟩
  intro hmatches
  have hsome := (hmatches "trip").mp hlisted
  rw [hgone] at hsome
  cases hsome

end IndexJob
