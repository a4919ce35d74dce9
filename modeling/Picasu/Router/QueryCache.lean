import Picasu.Framework.Run
import Picasu.Router.Prefetch

/-! # Answers from the Query Cache

Under one tree version, layout and tree, a query asked again is answered with the snapshot of the
first time. The cache key says everything the selection of rows depends on, except which of the
two filter compilers a share's request goes through.

`cached_prefetch_fresh` shows that this is the only gap: in every run of prefetches and cache
flushes in which share requests with one key agree on `show_metadata`, each answer names a
snapshot with exactly the rows the request itself selects. `hidden_share_served_shown_rows` is the
run that falls into the gap.
-/

open LTS

namespace QueryCache

/-- One step: a request at clock reading `now`, or a turn of a flush task. -/
inductive Label where
  | prefetch (now : Nat) (req : PrefetchRequest)
  | flush_tree_snapshot (timestamp : Int)
  | flush_query_snapshot (query_hash : UInt64)

section

variable (hasher : QueryKey → UInt64) (version : Int) (layout : Layout) (tree : MemoryTree)

/-- The transition function. -/
def step (caches : Caches) : Label → Caches
  | .prefetch now req => (execute_prefetch_logic hasher version layout tree now req caches).2
  | .flush_tree_snapshot timestamp => caches.flush_tree_snapshot timestamp
  | .flush_query_snapshot query_hash => caches.flush_query_snapshot query_hash

/-- The answer is what the request would compute afresh: the rows of the snapshot it names, their
number, and the position of the located row. -/
structure Answers (req : PrefetchRequest) (caches : Caches) (prefetch : Prefetch) : Prop where
  rows : caches.read_tree_snapshot prefetch.timestamp = some (req.select layout tree)
  locate_to : prefetch.locate_to = compute_locate (req.select layout tree) req.locate
  data_length : prefetch.data_length = (req.select layout tree).length

/-! ## What the key determines -/

/-- The requests go through the same filter compiler, if both are made by shares. -/
def SameFlag (req₁ req₂ : PrefetchRequest) : Prop :=
  ∀ s₁ s₂, req₁.presenter = .share s₁ → req₂.presenter = .share s₂ →
    s₁.share.show_metadata = s₂.share.show_metadata

/-- The expression of a share's request gives its album away. -/
theorem album_of_expression {req₁ req₂ : PrefetchRequest} {s₁ s₂ : ResolvedShare}
    (h₁ : req₁.presenter = .share s₁) (h₂ : req₂.presenter = .share s₂)
    (h : req₁.expression = req₂.expression) : s₁.album_id = s₂.album_id := by
  simp only [PrefetchRequest.expression, h₁, h₂] at h
  cases hq₁ : req₁.query with
  | none =>
    cases hq₂ : req₂.query with
    | none => simpa [hq₁, hq₂] using h
    | some e₂ => simp [hq₁, hq₂] at h
  | some e₁ =>
    cases hq₂ : req₂.query with
    | none => simp [hq₁, hq₂] at h
    | some e₂ =>
      have hparts : s₁.album_id = s₂.album_id ∧ e₁ = e₂ := by simpa [hq₁, hq₂] using h
      exact hparts.1

/-- Under equal keys, two presenters are the same user or shares of one album; shares that agree on
the flag filter alike. -/
theorem select_eq_of_key_eq {req₁ req₂ : PrefetchRequest}
    (hkey : req₁.cache_key version = req₂.cache_key version)
    (huser₁ : req₁.presenter ≠ .user "") (huser₂ : req₂.presenter ≠ .user "")
    (hflag : SameFlag req₁ req₂) : req₁.select layout tree = req₂.select layout tree := by
  have hexpr : req₁.expression = req₂.expression := congrArg QueryKey.expression hkey
  have hcaller : req₁.presenter.caller_id = req₂.presenter.caller_id :=
    congrArg QueryKey.caller_id hkey
  have hpersonal : req₁.include_personal = req₂.include_personal :=
    congrArg QueryKey.include_personal hkey
  have hroots : req₁.personal_only_roots = req₂.personal_only_roots :=
    congrArg QueryKey.personal_only_roots hkey
  unfold PrefetchRequest.select
  rw [hexpr, hcaller, hpersonal, hroots]
  cases hp₁ : req₁.presenter with
  | user id₁ =>
    cases hp₂ : req₂.presenter with
    | user id₂ => rfl
    | share s₂ =>
      -- a share's caller id is empty, a user's is not
      rw [hp₁, hp₂] at hcaller
      have hid : id₁ = "" := hcaller
      rw [hp₁, hid] at huser₁
      exact absurd rfl huser₁
  | share s₁ =>
    cases hp₂ : req₂.presenter with
    | user id₂ =>
      rw [hp₁, hp₂] at hcaller
      have hid : id₂ = "" := hcaller.symm
      rw [hp₂, hid] at huser₂
      exact absurd rfl huser₂
    | share s₂ =>
      have halbum := album_of_expression hp₁ hp₂ hexpr
      have hshow := hflag s₁ s₂ hp₁ hp₂
      have hfilter : share_filter layout s₁ = share_filter layout s₂ := by
        funext e data
        unfold share_filter
        rw [halbum, hshow]
      have hselects : ∀ e, selects layout e (some s₁) = selects layout e (some s₂) := by
        intro e
        cases e with
        | none => rfl
        | some e =>
          funext caller personal only row
          simp only [selects, hfilter]
      unfold filter_items
      simp only [Presenter.get_share, hselects]

/-! ## The two ways to answer -/

variable {hasher version layout tree}

variable {now : Nat} {req : PrefetchRequest} {caches : Caches} {prefetch : Prefetch} {h : UInt64}
  {bound : Int} {pre : List Label}

theorem execute_hit
    (h : caches.read_query_snapshot (hasher (req.cache_key version)) = some prefetch) :
    (execute_prefetch_logic hasher version layout tree now req caches).1.prefetch = prefetch ∧
      (execute_prefetch_logic hasher version layout tree now req caches).2 = caches := by
  simp [execute_prefetch_logic, h]

def computed (layout : Layout) (tree : MemoryTree) (now : Nat) (req : PrefetchRequest)
    (caches : Caches) : Prefetch where
  timestamp := Caches.next_snapshot_id now caches.last_snapshot_id
  locate_to := compute_locate (req.select layout tree) req.locate
  data_length := (req.select layout tree).length

/-- The caches with that answer, and with the snapshot it names. -/
def stored (layout : Layout) (tree : MemoryTree) (now : Nat) (req : PrefetchRequest)
    (caches : Caches) (h : UInt64) : Caches where
  tree_snapshot := caches.tree_snapshot.put (computed layout tree now req caches).timestamp
    (req.select layout tree)
  query_snapshot := caches.query_snapshot.put h (computed layout tree now req caches)
  last_snapshot_id := (computed layout tree now req caches).timestamp

theorem execute_miss (h : caches.read_query_snapshot (hasher (req.cache_key version)) = none) :
    (execute_prefetch_logic hasher version layout tree now req caches).1.prefetch =
        computed layout tree now req caches ∧
      (execute_prefetch_logic hasher version layout tree now req caches).2 =
        stored layout tree now req caches (hasher (req.cache_key version)) := by
  simp [execute_prefetch_logic, h, computed, stored, Caches.insert_tree_snapshot]

theorem answers_stored : Answers layout tree req (stored layout tree now req caches h)
    (computed layout tree now req caches) :=
  ⟨Tiered.get_put_self _ _ _, rfl, rfl⟩

/-! ## The invariant of a run -/

/-- Answers stay answers while no snapshot is lost or changed. -/
theorem Answers.mono {caches' : Caches}
    (hkeep : ∀ id rows, caches.read_tree_snapshot id = some rows →
      caches'.read_tree_snapshot id = some rows)
    (h : Answers layout tree req caches prefetch) : Answers layout tree req caches' prefetch :=
  ⟨hkeep _ _ h.rows, h.locate_to, h.data_length⟩

variable (hasher version layout tree) in
/-- After the steps `pre`: snapshot ids are bounded by the last one given out, which is bounded by
the clock and the number of steps, and every cached answer answers some request of `pre` with
that hash. -/
structure Inv (bound : Int) (pre : List Label) (caches : Caches) : Prop where
  ids : ∀ id rows, caches.read_tree_snapshot id = some rows → id ≤ caches.last_snapshot_id
  last : caches.last_snapshot_id ≤ bound + pre.length
  cached : ∀ h prefetch, caches.read_query_snapshot h = some prefetch →
    ∃ now req, Label.prefetch now req ∈ pre ∧ hasher (req.cache_key version) = h ∧
      Answers layout tree req caches prefetch

/-- The requests of a run that may share a cached answer: no two different keys collide, users have
ids, and shares with one key agree on the flag. -/
structure Compatible (hasher : QueryKey → UInt64) (version : Int) (labels : List Label) : Prop where
  noCollision : ∀ now₁ req₁ now₂ req₂, Label.prefetch now₁ req₁ ∈ labels →
    Label.prefetch now₂ req₂ ∈ labels →
    hasher (req₁.cache_key version) = hasher (req₂.cache_key version) →
    req₁.cache_key version = req₂.cache_key version
  userIds : ∀ now req, Label.prefetch now req ∈ labels → req.presenter ≠ .user ""
  sameFlag : ∀ now₁ req₁ now₂ req₂, Label.prefetch now₁ req₁ ∈ labels →
    Label.prefetch now₂ req₂ ∈ labels →
    req₁.cache_key version = req₂.cache_key version → SameFlag req₁ req₂

/-- From a good state, a request is answered with its own rows. -/
theorem answers_execute {labels : List Label} (now : Nat)
    (hinv : Inv hasher version layout tree bound pre caches)
    (hcompat : Compatible hasher version labels) (hpre : ∀ l ∈ pre, l ∈ labels)
    (hreq : Label.prefetch now req ∈ labels) :
    Answers layout tree req (execute_prefetch_logic hasher version layout tree now req caches).2
      (execute_prefetch_logic hasher version layout tree now req caches).1.prefetch := by
  cases hread : caches.read_query_snapshot (hasher (req.cache_key version)) with
  | some prefetch =>
    obtain ⟨now', req', hmem, hhash, hans⟩ := hinv.cached _ _ hread
    rw [(execute_hit hread).1, (execute_hit hread).2]
    -- the cached answer belongs to a request with this very key
    have hkey := hcompat.noCollision now' req' now req (hpre _ hmem) hreq hhash
    have hselect := select_eq_of_key_eq version layout tree hkey
      (hcompat.userIds now' req' (hpre _ hmem)) (hcompat.userIds now req hreq)
      (hcompat.sameFlag now' req' now req (hpre _ hmem) hreq hkey)
    have hlocate : req'.locate = req.locate := congrArg QueryKey.locate hkey
    obtain ⟨hrows, hloc, hlen⟩ := hans
    rw [hselect] at hrows hloc hlen
    rw [hlocate] at hloc
    exact ⟨hrows, hloc, hlen⟩
  | none =>
    rw [(execute_miss hread).1, (execute_miss hread).2]
    exact answers_stored

/-- A step that leaves every read alone keeps the invariant. -/
theorem inv_of_reads_eq {l : Label} {caches' : Caches}
    (htree : ∀ id, caches'.read_tree_snapshot id = caches.read_tree_snapshot id)
    (hquery : ∀ h, caches'.read_query_snapshot h = caches.read_query_snapshot h)
    (hid : caches'.last_snapshot_id = caches.last_snapshot_id)
    (hinv : Inv hasher version layout tree bound pre caches) :
    Inv hasher version layout tree bound (pre ++ [l]) caches' where
  ids id rows hread := by
    rw [htree] at hread
    rw [hid]
    exact hinv.ids id rows hread
  last := by
    have hlast := hinv.last
    rw [hid, List.length_append, List.length_singleton]
    omega
  cached h prefetch hread := by
    rw [hquery] at hread
    obtain ⟨now, req, hmem, hhash, hans⟩ := hinv.cached h prefetch hread
    exact ⟨now, req, List.mem_append_left _ hmem, hhash,
      hans.mono fun id rows hrows => by rw [htree]; exact hrows⟩

variable (hinv : Inv hasher version layout tree bound pre caches)

include hinv

/-- A request that is not answered from the cache keeps the invariant: its snapshot has a new id,
and its entry answers it. -/
theorem inv_stored (hroom : bound + pre.length < i64Max) (hclock : (now : Int) ≤ bound) :
    Inv hasher version layout tree bound (pre ++ [.prefetch now req])
      (stored layout tree now req caches (hasher (req.cache_key version))) := by
  have hlast := hinv.last
  have hnew : caches.last_snapshot_id < (computed layout tree now req caches).timestamp :=
    Caches.last_lt_next_snapshot_id now (by omega)
  constructor
  · intro id rows hread
    show id ≤ (computed layout tree now req caches).timestamp
    by_cases hts : id = (computed layout tree now req caches).timestamp
    · exact le_of_eq hts
    have hold := hinv.ids id rows ((Tiered.get_put_ne _ _ hts).symm.trans hread)
    omega
  · rw [List.length_append, List.length_singleton]
    show Caches.next_snapshot_id now caches.last_snapshot_id ≤ _
    unfold Caches.next_snapshot_id
    omega
  · intro h prefetch hquery
    by_cases hh : h = hasher (req.cache_key version)
    · -- the entry just written
      subst hh
      have hput := (Tiered.get_put_self _ _ _).symm.trans hquery
      rw [← Option.some.inj hput]
      exact ⟨now, req, by simp, rfl, answers_stored⟩
    · obtain ⟨now', req', hmem, hhash, hans⟩ :=
        hinv.cached h prefetch ((Tiered.get_put_ne _ _ hh).symm.trans hquery)
      refine ⟨now', req', List.mem_append_left _ hmem, hhash, hans.mono fun id rows hread => ?_⟩
      have hid := hinv.ids id rows hread
      exact (Tiered.get_put_ne _ _ (by omega)).trans hread

theorem inv_step {l : Label} (hroom : bound + pre.length < i64Max)
    (hnow : ∀ now req, l = .prefetch now req → (now : Int) ≤ bound) :
    Inv hasher version layout tree bound (pre ++ [l])
      (step hasher version layout tree caches l) := by
  cases l with
  | flush_tree_snapshot timestamp =>
    exact inv_of_reads_eq (Tiered.get_flush caches.tree_snapshot timestamp) (fun _ => rfl) rfl hinv
  | flush_query_snapshot query_hash =>
    refine inv_of_reads_eq ?_ (Tiered.get_flush caches.query_snapshot query_hash) rfl hinv
    exact fun _ => rfl
  | prefetch now req =>
    show Inv _ _ _ _ _ _ (execute_prefetch_logic hasher version layout tree now req caches).2
    cases hread : caches.read_query_snapshot (hasher (req.cache_key version)) with
    | some prefetch =>
      rw [(execute_hit hread).2]
      exact inv_of_reads_eq (fun _ => rfl) (fun _ => rfl) rfl hinv
    | none =>
      rw [(execute_miss hread).2]
      exact inv_stored hinv hroom (hnow now req rfl)

end

/-! ## Every answer of a run -/

/-- In every run of requests and flushes from an empty query cache, each request is answered with
exactly the rows it selects, provided shares with one key agree on `show_metadata`. The clock
stays below `bound` and leaves room for the snapshot ids. -/
theorem cached_prefetch_fresh (hasher : QueryKey → UInt64) (version : Int) (layout : Layout)
    (tree : MemoryTree) (init : Caches) (labels : List Label) (bound : Int)
    (hquery : ∀ h, init.read_query_snapshot h = none)
    (hids : ∀ id rows, init.read_tree_snapshot id = some rows → id ≤ init.last_snapshot_id)
    (hlast : init.last_snapshot_id ≤ bound)
    (hclock : ∀ now req, Label.prefetch now req ∈ labels → (now : Int) ≤ bound)
    (hroom : bound + labels.length < i64Max) (hcompat : Compatible hasher version labels) :
    ∀ pre now req, pre ++ [Label.prefetch now req] <+: labels →
      Answers layout tree req
        (execute_prefetch_logic hasher version layout tree now req
          (run (step hasher version layout tree) init pre)).2
        (execute_prefetch_logic hasher version layout tree now req
          (run (step hasher version layout tree) init pre)).1.prefetch := by
  intro pre now req hpre
  have hsub : ∀ l ∈ pre, l ∈ labels := fun l hl => hpre.subset (List.mem_append_left _ hl)
  have hlen := hpre.length_le
  rw [List.length_append, List.length_singleton] at hlen
  have hinv : Inv hasher version layout tree bound pre
      (run (step hasher version layout tree) init pre) := by
    apply run_induction (Q := fun done caches => Inv hasher version layout tree bound done caches)
    · refine ⟨hids, ?_, ?_⟩
      · simpa using hlast
      · intro h prefetch hread
        rw [hquery h] at hread
        cases hread
    · intro done l hdone hinv
      have hdoneLen := hdone.length_le
      rw [List.length_append, List.length_singleton] at hdoneLen
      apply inv_step hinv (by omega)
      intro now' req' heq
      exact hclock now' req' (hsub _ (hdone.subset (by simp [heq])))
  exact answers_execute now hinv hcompat hsub (hpre.subset (by simp))

/-! ## Two shares of one album -/

def tripLayout : Layout where
  roots :=
    { fs := { canonicalize := some, exists_ := fun _ => true }
      image_home := some (PathBuf.ofString "/photos")
      users_home := none }
  dirs := (∅ : DirAlbumCache).insert (PathBuf.ofString "/photos/trip") "trip"

def secretRow : DatabaseTimestamp where
  abstract_data := .image
    { object := { ObjectSchema.new 0 "hash" .image with tags := {"secret"} }
      metadata := { ImageMetadata.new 10 4 3 "jpg" with
        album := some "trip"
        path := some ⟨"/photos/trip/a.jpg", 0, 0, false⟩ } }
  timestamp := 0
  asset_id := "a"

/-- A share of the album asks for the rows tagged `secret`. -/
def secretRequest (show_metadata : Bool) : PrefetchRequest where
  presenter := .share
    { share :=
        { url := "link", description := "", password := none, show_metadata,
          show_download := false, show_upload := false, exp := 0, created_by := "alice" }
      album_id := "trip"
      album_title := none }
  query := some (.tag (.value "secret"))
  locate := none
  include_personal := false

def noCaches : Caches := ⟨⟨∅, ∅⟩, ⟨∅, ∅⟩, 0⟩

/-- The share asks twice, with a flush in between, and the cache answers the second time. -/
theorem cached_prefetch_fresh_twice :
    Answers tripLayout [secretRow] (secretRequest true)
      (execute_prefetch_logic (fun _ => 0) 0 tripLayout [secretRow] 2 (secretRequest true)
        (run (step (fun _ => 0) 0 tripLayout [secretRow]) noCaches
          [.prefetch 1 (secretRequest true), .flush_query_snapshot 0])).2
      (execute_prefetch_logic (fun _ => 0) 0 tripLayout [secretRow] 2 (secretRequest true)
        (run (step (fun _ => 0) 0 tripLayout [secretRow]) noCaches
          [.prefetch 1 (secretRequest true), .flush_query_snapshot 0])).1.prefetch := by
  have hreq : ∀ now req, Label.prefetch now req ∈
      [Label.prefetch 1 (secretRequest true), .flush_query_snapshot 0,
        .prefetch 2 (secretRequest true)] → now ≤ 2 ∧ req = secretRequest true := by
    intro now req hmem
    simp only [List.mem_cons, List.not_mem_nil, or_false, Label.prefetch.injEq, reduceCtorEq,
      false_or] at hmem
    rcases hmem with ⟨rfl, rfl⟩ | ⟨rfl, rfl⟩
    · exact ⟨by omega, rfl⟩
    · exact ⟨by omega, rfl⟩
  apply cached_prefetch_fresh (fun _ => 0) 0 tripLayout [secretRow] noCaches
    [.prefetch 1 (secretRequest true), .flush_query_snapshot 0, .prefetch 2 (secretRequest true)] 2
  · exact fun _ => rfl
  · exact fun _ _ h => nomatch h
  · decide
  · intro now req hmem
    have hle := (hreq now req hmem).1
    omega
  · decide
  · refine ⟨?_, ?_, ?_⟩
    · intro now₁ req₁ now₂ req₂ h₁ h₂ _
      rw [(hreq now₁ req₁ h₁).2, (hreq now₂ req₂ h₂).2]
    · intro now req hmem
      rw [(hreq now req hmem).2]
      exact fun h => nomatch h
    · intro now₁ req₁ now₂ req₂ h₁ h₂ _ s₁ s₂ hs₁ hs₂
      rw [(hreq now₁ req₁ h₁).2] at hs₁
      rw [(hreq now₂ req₂ h₂).2] at hs₂
      rw [← Presenter.share.inj hs₁, ← Presenter.share.inj hs₂]
  · exact List.prefix_refl _

/-- A share that shows metadata asks first; then one that hides it sends the same query. The second
selects nothing, and is handed the rows of the first. -/
theorem hidden_share_served_shown_rows :
    (secretRequest true).cache_key 0 = (secretRequest false).cache_key 0 ∧
    (secretRequest false).select tripLayout [secretRow] = [] ∧
    (execute_prefetch_logic (fun _ => 0) 0 tripLayout [secretRow] 2 (secretRequest false)
      (run (step (fun _ => 0) 0 tripLayout [secretRow]) noCaches
        [.prefetch 1 (secretRequest true)])).2.read_tree_snapshot
      (execute_prefetch_logic (fun _ => 0) 0 tripLayout [secretRow] 2 (secretRequest false)
        (run (step (fun _ => 0) 0 tripLayout [secretRow]) noCaches
          [.prefetch 1 (secretRequest true)])).1.prefetch.timestamp = some [secretRow.reduce] := by
  refine ⟨rfl, ?_, ?_⟩
  · decide +kernel
  · decide +kernel

end QueryCache
