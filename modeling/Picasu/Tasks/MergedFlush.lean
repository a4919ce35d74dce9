import Picasu.Tasks.FlushAgreement
import Picasu.Tasks.SerialWriter
import Picasu.Tasks.TableMap

/-! # Merging Flushes

The writer takes the flushes at the front of its channel as one: first the inserts of all of them,
and then the removes of all of them. Against taking them one by one, every insert has overtaken
the removes of the flushes before its own.

It may do so if it and the remove are about different assets. A remove with a path is about the
asset the path leads to. A remove without one looks through the group of its hash, for assets whose
file is gone, and so it is about an inserted path only if an asset of that group, before the insert
or after it, is gone there. Where every insert may overtake, the merged run writes the same tables
(`merged_tables_eq`). Of paths that are not overtaken nothing is asked.

A path that is removed and then inserted again is the case in which it may not: the remove comes
last, and the asset is lost.
-/

def FlushItem.drawn : FlushItem → Option String
  | .insert _ random_hash _ => some random_hash
  | .remove _ _ => none

/-- What an item that names its path makes of the entry of a path. -/
def FlushItem.entry (path : String) (old : Option String) : FlushItem → Option String
  | .insert _ random_hash data =>
    if path = flush_path data then some (old.getD random_hash) else old
  | .remove _ data => if path = flush_path data then none else old

/-- There is a file at the path. -/
def has_file (fs : Fs) (path : String) : Prop := fs.exists_ (PathBuf.ofString path)

namespace TableMap

variable {m : TableMap}

/-- No group lists the id, and no path leads to it. -/
structure Unused (m : TableMap) (id : String) : Prop where
  ids : ∀ hash, id ∉ m.ids hash
  by_path : ∀ path, m.by_path path ≠ some id

/-- No asset is at both paths. -/
def Split (m : TableMap) (p q : String) : Prop :=
  ∀ id, m.by_path p = some id → m.by_path q ≠ some id

/-- A remove of what is gone from the group leaves alone what is at the path: the path and the asset
it leads to have their files, or the asset is in another group. -/
def Spared (m : TableMap) (fs : Fs) (path hash : String) : Prop :=
  ∀ id ∈ m.ids hash,
    (m.by_path path = some id → has_file fs path ∧
      ∀ record, m.assets id = some record → has_file fs record.path) ∧
    ∀ record, m.assets id = some record → record.path = path → has_file fs path

/-- The insert of `data` may overtake the remove of `removed`, whichever of `others` are inserted
before. -/
def MayOvertake (others : List AbstractData) (m : TableMap) (fs : Fs)
    (removed data : AbstractData) : Prop :=
  if flush_path removed = "" then
    m.Spared fs (flush_path data) removed.hash ∧ ∀ other ∈ others,
      (flush_path other = flush_path data →
        has_file fs (flush_path data) ∨ other.hash ≠ removed.hash) ∧
      (flush_path other ≠ flush_path data → m.Split (flush_path data) (flush_path other) ∨
        (has_file fs (flush_path data) ∧ has_file fs (flush_path other)))
  else flush_path data ≠ flush_path removed ∧ m.Split (flush_path data) (flush_path removed)

/-- What an insert may rely on, whichever items have been written before it: the ids that are still
to be drawn are fresh. -/
structure Ready (others : List AbstractData) (items : List FlushItem) (m : TableMap) : Prop where
  nodup : (items.filterMap FlushItem.drawn).Nodup
  unused : ∀ id ∈ items.filterMap FlushItem.drawn, m.Unused id
  inserts : ∀ now random_hash data, FlushItem.insert now random_hash data ∈ items → data ∈ others

/-! ## Writing an item keeps it -/

variable {others : List AbstractData} {items : List FlushItem} {fs : Fs} {now : Int}
  {random_hash : String} {data removed : AbstractData} {id path : String} {x : FlushItem}

/-- The insert is written under the id of its path, or under the id drawn. -/
theorem insert_id_cases (m : TableMap) (random_hash : String) (data : AbstractData) :
    m.by_path (flush_path data) = some (m.insert_id random_hash data) ∨
      m.insert_id random_hash data = random_hash := by
  unfold insert_id
  cases m.by_path (flush_path data) with
  | none => exact Or.inr rfl
  | some id => exact Or.inl rfl

theorem assets_of_insert {record : AssetRecord}
    (hrow : (m.insert now random_hash data).assets id = some record) :
    (id = m.insert_id random_hash data ∧ record.path = flush_path data) ∨
      (id ≠ m.insert_id random_hash data ∧ m.assets id = some record) :=
  (ite_eq_iff.mp hrow).imp_left fun ⟨heq, hnew⟩ => ⟨heq, by rw [← Option.some.inj hnew]; rfl⟩

theorem path_of_insert {record : AssetRecord} (hid : id = m.insert_id random_hash data)
    (hrow : (m.insert now random_hash data).assets id = some record) :
    record.path = flush_path data :=
  ((assets_of_insert hrow).resolve_right fun h => h.1 hid).2

theorem by_path_of_insert (hentry : (m.insert now random_hash data).by_path path = some id) :
    (path = flush_path data ∧ id = m.insert_id random_hash data) ∨
      (path ≠ flush_path data ∧ m.by_path path = some id) :=
  (ite_eq_iff.mp hentry).imp_left fun ⟨heq, hnew⟩ => ⟨heq, (Option.some.inj hnew).symm⟩

theorem Unused.ne_insert_id (hid : m.Unused id) (hne : id ≠ random_hash) :
    id ≠ m.insert_id random_hash data := by
  rintro rfl
  rcases insert_id_cases m random_hash data with hentry | heq
  · exact hid.by_path _ hentry
  · exact hne heq

theorem Unused.insert (hid : m.Unused id) (hne : id ≠ random_hash) :
    (m.insert now random_hash data).Unused id := by
  have hid' : id ≠ m.insert_id random_hash data := hid.ne_insert_id hne
  constructor
  · intro hash hmem
    rcases mem_ids_of_insert hmem with hold | ⟨-, heq⟩
    · exact hid.ids hash hold
    · exact hid' heq
  · intro path hentry
    rcases by_path_of_insert hentry with ⟨-, heq⟩ | ⟨-, hold⟩
    · exact hid' heq
    · exact hid.by_path path hold

theorem Split.insert {p q : String} (h : m.Split p q) (hdrawn : m.Unused random_hash)
    (hne : p ≠ q) : (m.insert now random_hash data).Split p q := by
  intro id hp hq
  rcases by_path_of_insert hp with ⟨rfl, rfl⟩ | ⟨-, hp⟩
  · rcases by_path_of_insert hq with ⟨heq, -⟩ | ⟨-, hq⟩
    · exact hne heq.symm
    rcases insert_id_cases m random_hash data with hentry | heq
    · exact h _ hentry hq
    · exact hdrawn.by_path q (heq ▸ hq)
  · rcases by_path_of_insert hq with ⟨rfl, rfl⟩ | ⟨-, hq⟩
    · rcases insert_id_cases m random_hash data with hentry | heq
      · exact h _ hp hentry
      · exact hdrawn.by_path p (heq ▸ hp)
    · exact h id hp hq

theorem Spared.insert {hash : String} (h : m.Spared fs path hash)
    (hdrawn : m.Unused random_hash)
    (hsame : flush_path data = path → has_file fs path ∨ data.hash ≠ hash)
    (hother : flush_path data ≠ path →
      m.Split path (flush_path data) ∨ (has_file fs path ∧ has_file fs (flush_path data))) :
    (m.insert now random_hash data).Spared fs path hash := by
  intro id hid
  have hmem := mem_ids_of_insert hid
  have hcases := insert_id_cases m random_hash data
  -- an insert of the path itself into the group has its file
  have hfile : path = flush_path data → id = m.insert_id random_hash data → has_file fs path := by
    rintro rfl rfl
    rcases hmem with hold | ⟨hhash, -⟩
    · refine ((h _ hold).1 (hcases.resolve_right fun heq => ?_)).1
      exact hdrawn.ids hash (heq ▸ hold)
    · exact (hsame rfl).resolve_right fun hne => hne hhash.symm
  refine ⟨fun hentry => ?_, fun record hrow hrecord => ?_⟩
  · rcases by_path_of_insert hentry with ⟨heq, hid'⟩ | ⟨hne, hold⟩
    · refine ⟨hfile heq hid', fun record hrow => ?_⟩
      rw [path_of_insert hid' hrow, ← heq]
      exact hfile heq hid'
    by_cases hid' : id = m.insert_id random_hash data
    · -- the two paths lead to one asset
      have hentry' := hcases.resolve_right fun heq =>
        hdrawn.by_path path (hold.trans (by rw [hid', heq]))
      obtain ⟨hthere, hthere'⟩ := (hother (Ne.symm hne)).resolve_left fun hsplit =>
        hsplit id hold (hid' ▸ hentry')
      exact ⟨hthere, fun record hrow => path_of_insert hid' hrow ▸ hthere'⟩
    · obtain ⟨hthere, hassets⟩ := (h id (hmem.resolve_right fun h => hid' h.2)).1 hold
      exact ⟨hthere, fun record hrow =>
        hassets record ((assets_of_insert hrow).resolve_left fun h => hid' h.1).2⟩
  · rcases assets_of_insert hrow with ⟨hid', hpath⟩ | ⟨hne, hold⟩
    · exact hfile (hrecord.symm.trans hpath) hid'
    · exact (h id (hmem.resolve_right fun h => hne h.2)).2 record hold hrecord

theorem MayOvertake.insert {other : AbstractData} (h : MayOvertake others m fs removed data)
    (hdrawn : m.Unused random_hash) (hother : other ∈ others) :
    MayOvertake others (m.insert now random_hash other) fs removed data := by
  unfold MayOvertake at h ⊢
  split at h
  · rename_i hpath
    rw [if_pos hpath]
    exact ⟨h.1.insert hdrawn (h.2 other hother).1 (h.2 other hother).2, fun o ho =>
      ⟨(h.2 o ho).1, fun hne => ((h.2 o ho).2 hne).imp (·.insert hdrawn (Ne.symm hne)) id⟩⟩
  · rename_i hpath
    rw [if_neg hpath]
    exact ⟨h.1, h.2.insert hdrawn h.1⟩

/-- What is left is what was there. -/
structure Below (m' m : TableMap) : Prop where
  assets : ∀ id record, m'.assets id = some record → m.assets id = some record
  by_path : ∀ path id, m'.by_path path = some id → m.by_path path = some id
  ids : ∀ hash id, id ∈ m'.ids hash → id ∈ m.ids hash

theorem below_remove (m : TableMap) (fs : Fs) (data : AbstractData) :
    (m.remove fs data).Below m := by
  have hasset : ∀ (m : TableMap) a p h, (m.remove_asset a p h).Below m := fun m a p h =>
    ⟨fun _ _ hrow => (Option.ite_none_left_eq_some.mp hrow).2,
      fun _ _ hentry => (Option.ite_none_left_eq_some.mp hentry).2,
      fun _ _ hid => mem_ids_of_remove_asset hid⟩
  have hself : ∀ m : TableMap, m.Below m := fun m =>
    ⟨fun _ _ => id, fun _ _ => id, fun _ _ => id⟩
  unfold TableMap.remove
  split
  · generalize m.ids data.hash = ids
    induction ids generalizing m with
    | nil => exact hself m
    | cons x ids ih =>
      have hrest := ih (remove_vanished fs data.hash m x)
      rcases remove_vanished_cases fs data.hash m x with heq | ⟨record, -, -, heq⟩
      · rw [List.foldl_cons]
        rwa [heq] at hrest ⊢
      · have hfirst := hasset m x record.path data.hash
        rw [← heq] at hfirst
        exact ⟨fun id r h => hfirst.assets id r (hrest.assets id r h),
          fun p id h => hfirst.by_path p id (hrest.by_path p id h),
          fun hash id h => hfirst.ids hash id (hrest.ids hash id h)⟩
  · split
    · exact hasset m _ _ _
    · exact hself m

theorem Ready.below {m' : TableMap} (h : Ready others items m) (hb : m'.Below m) :
    Ready others items m' :=
  ⟨h.nodup, fun id hid => ⟨fun hash hmem => (h.unused id hid).ids hash (hb.ids hash id hmem),
    fun path hentry => (h.unused id hid).by_path path (hb.by_path path id hentry)⟩, h.inserts⟩

theorem MayOvertake.below {m' : TableMap} (h : MayOvertake others m fs removed data)
    (hb : m'.Below m) : MayOvertake others m' fs removed data := by
  have hsplit : ∀ {p q}, m.Split p q → m'.Split p q := fun h id hp hq =>
    h id (hb.by_path _ id hp) (hb.by_path _ id hq)
  unfold MayOvertake at h ⊢
  split at h
  · rename_i hpath
    rw [if_pos hpath]
    refine ⟨fun id hid => ?_, fun other hother =>
      ⟨(h.2 other hother).1, fun hne => ((h.2 other hother).2 hne).imp hsplit id⟩⟩
    obtain ⟨hentry, hrow⟩ := h.1 id (hb.ids _ id hid)
    refine ⟨fun hpath => ?_, fun record hrecord => hrow record (hb.assets id record hrecord)⟩
    obtain ⟨hfile, hassets⟩ := hentry (hb.by_path _ id hpath)
    exact ⟨hfile, fun record hrecord => hassets record (hb.assets id record hrecord)⟩
  · rename_i hpath
    rw [if_neg hpath]
    exact ⟨h.1, hsplit h.2⟩

theorem Ready.perm {items' : List FlushItem} (h : Ready others items m)
    (hperm : items.Perm items') : Ready others items' m where
  nodup := (hperm.filterMap FlushItem.drawn).nodup_iff.mp h.nodup
  unused id hid := h.unused id ((hperm.filterMap FlushItem.drawn).mem_iff.mpr hid)
  inserts now random_hash data hmem := h.inserts now random_hash data (hperm.mem_iff.mpr hmem)

/-- Writing an item leaves the tables ready for the others. -/
theorem Ready.flush (h : Ready others (x :: items) m) : Ready others items (m.flush x) := by
  have hinserts : ∀ now random_hash data, FlushItem.insert now random_hash data ∈ items →
      data ∈ others := fun now random_hash data hmem =>
    h.inserts now random_hash data (List.mem_cons_of_mem x hmem)
  cases x with
  | remove fs data => exact Ready.below ⟨h.nodup, h.unused, hinserts⟩ (below_remove m fs data)
  | insert now random_hash data =>
    have hnodup := List.nodup_cons.mp h.nodup
    refine ⟨hnodup.2, fun id hid => ?_, hinserts⟩
    apply (h.unused id (List.mem_cons_of_mem random_hash hid)).insert
    rintro rfl
    exact hnodup.1 hid

theorem MayOvertake.flush (hready : Ready others (x :: items) m)
    (h : MayOvertake others m fs removed data) :
    MayOvertake others (m.flush x) fs removed data := by
  cases x with
  | remove fs data => exact h.below (below_remove m fs data)
  | insert now random_hash other =>
    exact h.insert (hready.unused random_hash List.mem_cons_self)
      (hready.inserts now random_hash other List.mem_cons_self)

theorem Ready.run {done : List FlushItem} (h : Ready others (done ++ items) m) :
    Ready others items (LTS.run TableMap.flush m done) := by
  induction done generalizing m with
  | nil => exact h
  | cons x done ih => exact ih h.flush

theorem MayOvertake.run {done : List FlushItem} (hready : Ready others (done ++ items) m)
    (h : MayOvertake others m fs removed data) :
    MayOvertake others (LTS.run TableMap.flush m done) fs removed data := by
  induction done generalizing m with
  | nil => exact h
  | cons x done ih => exact ih hready.flush (h.flush hready)

/-! ## Overtaking -/

/-- An insert that may overtake the remove before it writes the same. -/
theorem Ready.overtake (h : Ready others (.insert now random_hash data :: items) m)
    (hover : MayOvertake others m fs removed data) :
    (m.remove fs removed).insert now random_hash data =
      (m.insert now random_hash data).remove fs removed := by
  have hdrawn : m.Unused random_hash := h.unused random_hash List.mem_cons_self
  have hself := h.inserts now random_hash data List.mem_cons_self
  have hcases := insert_id_cases m random_hash data
  unfold MayOvertake at hover
  unfold TableMap.remove
  split at hover
  · rename_i hpath
    obtain ⟨hspared, hothers⟩ := hover
    -- the asset of the insert is passed over, before the insert and after it
    have hentry : m.insert_id random_hash data ∈ m.ids removed.hash →
        m.by_path (flush_path data) = some (m.insert_id random_hash data) := fun hid =>
      hcases.resolve_right fun heq => hdrawn.ids removed.hash (heq ▸ hid)
    have hafter : m.insert_id random_hash data ∈ (m.insert now random_hash data).ids removed.hash →
        ∀ record, (m.insert now random_hash data).assets (m.insert_id random_hash data) =
          some record → has_file fs record.path := by
      intro hid record hrow
      rw [path_of_insert rfl hrow]
      rcases mem_ids_of_insert hid with hold | ⟨hhash, -⟩
      · exact ((hspared _ hold).1 (hentry hold)).1
      · exact ((hothers data hself).1 rfl).resolve_right fun hne => hne hhash.symm
    rw [if_pos hpath, if_pos hpath, foldl_remove_vanished_skip hafter, filter_ids_insert,
      foldl_remove_vanished_skip fun hid => ((hspared _ hid).1 (hentry hid)).2]
    apply insert_foldl_remove_vanished
    · intro id hid
      simpa using (List.mem_filter.mp hid).2
    · intro id hid record hrow hrecord
      rw [hrecord]
      exact (hspared id (List.mem_filter.mp hid).1).2 record hrow hrecord
  · rename_i hpath
    obtain ⟨hne, hsplit⟩ := hover
    have hentry : (m.insert now random_hash data).by_path (flush_path removed) =
        m.by_path (flush_path removed) := if_neg hne.symm
    rw [if_neg hpath, if_neg hpath, hentry]
    cases hid : m.by_path (flush_path removed) with
    | none => rfl
    | some id =>
      apply insert_remove_asset hne
      rintro rfl
      rcases hcases with hentry | heq
      · exact hsplit _ hentry hid
      · exact hdrawn.by_path _ (heq ▸ hid)

/-! ## The merged run -/

/-- An insert overtakes the removes before it. -/
theorem run_overtake {removes : List AbstractData}
    (h : Ready others (.insert now random_hash data :: items) m)
    (hover : ∀ removed ∈ removes, MayOvertake others m fs removed data) :
    (LTS.run flush m (removes.map (.remove fs))).insert now random_hash data =
      LTS.run flush (m.insert now random_hash data) (removes.map (.remove fs)) := by
  induction removes generalizing m with
  | nil => rfl
  | cons removed removes ih =>
    have hbelow := below_remove m fs removed
    have hrest : ∀ d ∈ removes, MayOvertake others (m.remove fs removed) fs d data := fun d hd =>
      (hover d (List.mem_cons_of_mem removed hd)).below hbelow
    calc (LTS.run flush (m.remove fs removed) (removes.map (.remove fs))).insert now random_hash data
        = LTS.run flush ((m.remove fs removed).insert now random_hash data)
            (removes.map (.remove fs)) := ih (h.below hbelow) hrest
      _ = LTS.run flush ((m.insert now random_hash data).remove fs removed)
            (removes.map (.remove fs)) := by rw [h.overtake (hover removed List.mem_cons_self)]

/-- So do several, one after the other. -/
theorem run_overtake_all {inserts : List (String × AbstractData)} (fs : Fs)
    (removes : List AbstractData)
    (h : Ready others (inserts.map (fun i => FlushItem.insert now i.1 i.2) ++ items) m)
    (hover : ∀ removed ∈ removes, ∀ i ∈ inserts, MayOvertake others m fs removed i.2) :
    LTS.run flush (LTS.run flush m (removes.map (.remove fs)))
        (inserts.map fun i => FlushItem.insert now i.1 i.2) =
      LTS.run flush (LTS.run flush m (inserts.map fun i => FlushItem.insert now i.1 i.2))
        (removes.map (.remove fs)) := by
  induction inserts generalizing m with
  | nil => rfl
  | cons i inserts ih =>
    have hfirst := run_overtake h fun removed hd => hover removed hd i List.mem_cons_self
    rw [List.map_cons, LTS.run_cons, LTS.run_cons]
    show LTS.run flush ((LTS.run flush m _).insert now i.1 i.2) _ = _
    rw [hfirst]
    exact ih h.flush fun removed hd i' hi' =>
      (hover removed hd i' (List.mem_cons_of_mem i hi')).flush h

/-! ## The entry of a path -/

theorem by_path_remove_self (fs : Fs) (hpath : flush_path data = path)
    (hne : path ≠ "") : (m.remove fs data).by_path path = none := by
  subst hpath
  unfold TableMap.remove
  rw [if_neg hne]
  cases hold : m.by_path (flush_path data) with
  | none => exact hold
  | some a => exact if_pos rfl

/-- The removes after it give it none. -/
theorem by_path_run_removes {removes : List AbstractData} (hne : path ≠ "")
    (hpath : ∃ data ∈ removes, flush_path data = path) :
    (LTS.run flush m (removes.map (.remove fs))).by_path path = none := by
  obtain ⟨data, hmem, hdata⟩ := hpath
  obtain ⟨before, after, rfl⟩ := List.append_of_mem hmem
  rw [List.map_append, List.map_cons, LTS.run_append, LTS.run_cons]
  refine LTS.run_invariant (I := fun m : TableMap => m.by_path path = none)
    (by_path_remove_self fs hdata hne) ?_
  intro t x hx hnone
  obtain ⟨removed, -, rfl⟩ := List.mem_map.mp hx
  show (t.remove fs removed).by_path path = none
  cases hentry : (t.remove fs removed).by_path path with
  | none => rfl
  | some id =>
    rw [(below_remove t fs removed).by_path path id hentry] at hnone
    cases hnone

/-- If all removes name their paths, an entry is the work of the items of its path. -/
theorem by_path_run
    (hnamed : ∀ fs data, .remove fs data ∈ items → flush_path data ≠ "") :
    (LTS.run flush m items).by_path path = items.foldl (FlushItem.entry path) (m.by_path path) := by
  induction items generalizing m with
  | nil => rfl
  | cons x items ih =>
    have hstep : (m.flush x).by_path path = x.entry path (m.by_path path) := by
      cases x with
      | insert now random_hash data =>
        show (if path = flush_path data then _ else _) = if path = flush_path data then _ else _
        split
        · rename_i heq
          rw [heq]
          rfl
        · rfl
      | remove fs data =>
        have hne := hnamed fs data List.mem_cons_self
        show (m.remove fs data).by_path path = if path = flush_path data then none else _
        split
        · rename_i heq
          exact by_path_remove_self fs heq.symm (heq ▸ hne)
        · rename_i heq
          unfold TableMap.remove
          rw [if_neg hne]
          split
          · exact if_neg heq
          · rfl
    rw [LTS.run_cons, List.foldl_cons, ← hstep]
    exact ih fun fs data hmem => hnamed fs data (List.mem_cons_of_mem x hmem)

theorem foldl_entry_removes (fs : Fs) (removes : List AbstractData) (old : Option String) :
    (removes.map (.remove fs)).foldl (FlushItem.entry path) old =
      if ∃ data ∈ removes, flush_path data = path then none else old := by
  induction removes generalizing old with
  | nil => rfl
  | cons data removes ih =>
    rw [List.map_cons, List.foldl_cons, ih, FlushItem.entry]
    by_cases heq : flush_path data = path
    · simp [heq]
    · simp [heq, Ne.symm heq]

theorem foldl_entry_inserts (now : Int) (inserts : List (String × AbstractData))
    (old : Option String) :
    (inserts.map fun i => FlushItem.insert now i.1 i.2).foldl (FlushItem.entry path) old = none ↔
      old = none ∧ ∀ i ∈ inserts, flush_path i.2 ≠ path := by
  induction inserts generalizing old with
  | nil => simp
  | cons i inserts ih =>
    rw [List.map_cons, List.foldl_cons, ih, FlushItem.entry, List.forall_mem_cons]
    by_cases heq : flush_path i.2 = path
    · simp [heq]
    · simp [heq, Ne.symm heq]

end TableMap

/-! ## The writer's runs of flushes -/

namespace Message

/-- The items of a message, under the clock and the file system of the write. -/
def insert_items (now : Int) (msg : Message) : List FlushItem :=
  msg.inserts.map fun i => .insert now i.1 i.2

def remove_items (fs : Fs) (msg : Message) : List FlushItem := msg.removes.map (.remove fs)

theorem flatMap_insert_items (now : Int) (run : List Message) : run.flatMap (insert_items now) =
    (run.flatMap Message.inserts).map fun i => .insert now i.1 i.2 := List.map_flatMap.symm

theorem flatMap_remove_items (fs : Fs) (run : List Message) : run.flatMap (remove_items fs) =
    (run.flatMap Message.removes).map (.remove fs) := List.map_flatMap.symm

end Message

/-- The messages taken one by one: `handle_op` on each. -/
def one_by_one (now : Int) (fs : Fs) (run : List Message) (lib : Library) : Library :=
  run.foldl (fun lib msg => (handle_op now fs msg.op lib).2) lib

section Writer

variable {now : Int} {fs : Fs} {run : List Message} {lib : Library}

theorem store_handle_op {msg : Message} (hflush : msg.is_flush) :
    (handle_op now fs msg.op lib).2.store =
      LTS.run FlushItem.flush lib.store (msg.insert_items now ++ msg.remove_items fs) := by
  have hwrite := Flush.write_eq_run lib.store ⟨now, fs, msg.inserts, msg.removes⟩
  obtain ⟨seq, op, call⟩ := msg
  cases op with
  | flush inserts removes => exact hwrite
  | updateTree | expireCheck | sweepDirAlbums | pruneUsersRoot | barrier => cases hflush

/-- One by one, the items of a message come before those of the next. -/
theorem view_one_by_one (hflush : ∀ msg ∈ run, msg.is_flush) :
    (one_by_one now fs run lib).store.view = LTS.run TableMap.flush lib.store.view
      (run.flatMap fun msg => msg.insert_items now ++ msg.remove_items fs) := by
  induction run generalizing lib with
  | nil => rfl
  | cons msg run ih =>
    rw [List.flatMap_cons, LTS.run_append, ← view_run_flush,
      ← store_handle_op (hflush msg List.mem_cons_self)]
    exact ih fun msg' hmem => hflush msg' (List.mem_cons_of_mem msg hmem)

/-- Merged, the inserts of all messages come before all removes. -/
theorem view_flush_run :
    (flush_run now fs run lib).store.view = LTS.run TableMap.flush lib.store.view
      (run.flatMap (Message.insert_items now) ++ run.flatMap (Message.remove_items fs)) := by
  have hwrite : (flush_run now fs run lib).store = LTS.run FlushItem.flush lib.store
      (Flush.items ⟨now, fs, run.flatMap Message.inserts, run.flatMap Message.removes⟩) :=
    Flush.write_eq_run lib.store ⟨now, fs, run.flatMap Message.inserts, run.flatMap Message.removes⟩
  rw [hwrite, view_run_flush]
  simp only [Flush.items, Flush.insert_items, Flush.remove_items, List.map_flatMap]
  rfl

/-! ## When merging writes the same -/

/-- The ids that the inserts of a run draw. -/
def drawn_ids (run : List Message) : List String := (run.flatMap Message.inserts).map Prod.fst

/-- Every insert may overtake the removes of the flushes before its own. -/
def Mergeable (m : TableMap) (fs : Fs) (run : List Message) : Prop :=
  run.Pairwise fun earlier later => ∀ removed ∈ earlier.removes, ∀ i ∈ later.inserts,
    m.MayOvertake ((run.flatMap Message.inserts).map Prod.snd) fs removed i.2

/-- The path is removed, and a later flush inserts it again and is the last to touch it. -/
def InsertedAgain (path : String) (run : List Message) : Prop :=
  path ≠ "" ∧ ∃ front removing middle inserting back,
    run = front ++ removing :: (middle ++ inserting :: back) ∧
    (∃ data ∈ removing.removes, flush_path data = path) ∧
    (∃ i ∈ inserting.inserts, flush_path i.2 = path) ∧
    ∀ msg ∈ inserting :: back, ∀ data ∈ msg.removes, flush_path data ≠ path ∧ flush_path data ≠ ""

open TableMap in
/-- Taking the inserts to the front, flush by flush. -/
theorem run_merge {others : List AbstractData} {m : TableMap}
    (h : Ready others (run.flatMap fun msg => msg.insert_items now ++ msg.remove_items fs) m)
    (hover : run.Pairwise fun earlier later => ∀ removed ∈ earlier.removes, ∀ i ∈ later.inserts,
      MayOvertake others m fs removed i.2) :
    LTS.run TableMap.flush m
        (run.flatMap fun msg => msg.insert_items now ++ msg.remove_items fs) =
      LTS.run TableMap.flush m
        (run.flatMap (Message.insert_items now) ++ run.flatMap (Message.remove_items fs)) := by
  induction run generalizing m with
  | nil => rfl
  | cons msg run ih =>
    obtain ⟨hfirst, hrest⟩ := List.pairwise_cons.mp hover
    rw [List.flatMap_cons, List.append_assoc] at h
    have hready : Ready others (run.flatMap (Message.insert_items now) ++
        (run.flatMap (Message.remove_items fs) ++ msg.remove_items fs))
        (LTS.run TableMap.flush m (msg.insert_items now)) := by
      apply h.run.perm
      rw [← List.append_assoc]
      apply List.perm_append_comm.trans
      exact (List.flatMap_append_perm run _ _).symm.append_right _
    rw [Message.flatMap_insert_items] at hready
    have hswap := run_overtake_all fs msg.removes hready fun removed hd i hi => by
      obtain ⟨later, hlater, hi⟩ := List.mem_flatMap.mp hi
      exact (hfirst later hlater removed hd i hi).run h
    have hrest' := hrest.imp fun hpair removed hd i hi => ((hpair removed hd i hi).run h).run h.run
    rw [List.flatMap_cons, LTS.run_append, LTS.run_append, ih h.run.run hrest']
    rw [List.flatMap_cons, List.flatMap_cons]
    simp only [LTS.run_append]
    rw [Message.flatMap_insert_items]
    exact congrArg (fun m => LTS.run TableMap.flush m _) hswap

theorem filterMap_drawn_items :
    (run.flatMap fun msg => msg.insert_items now ++ msg.remove_items fs).filterMap
      FlushItem.drawn = drawn_ids run := by
  have hinserts : ∀ inserts : List (String × AbstractData),
      (inserts.map fun i => FlushItem.insert now i.1 i.2).filterMap FlushItem.drawn =
        inserts.map Prod.fst := by
    intro inserts
    rw [List.filterMap_map]
    exact congrFun (List.filterMap_eq_map (f := Prod.fst)) inserts
  have hremoves : ∀ removes : List AbstractData,
      (removes.map (FlushItem.remove fs)).filterMap FlushItem.drawn = [] := by
    intro removes
    rw [List.filterMap_map]
    exact List.filterMap_eq_nil_iff.mpr fun _ _ => rfl
  induction run with
  | nil => rfl
  | cons msg run ih =>
    rw [List.flatMap_cons, List.filterMap_append, List.filterMap_append, ih,
      Message.insert_items, Message.remove_items, hinserts, hremoves, List.append_nil]
    simp [drawn_ids]

theorem mem_items {x : FlushItem}
    (hx : x ∈ run.flatMap fun msg => msg.insert_items now ++ msg.remove_items fs) :
    ∃ msg ∈ run, (∃ i ∈ msg.inserts, x = .insert now i.1 i.2) ∨
      ∃ data ∈ msg.removes, x = .remove fs data := by
  obtain ⟨msg, hmsg, hx⟩ := List.mem_flatMap.mp hx
  refine ⟨msg, hmsg, ?_⟩
  rcases List.mem_append.mp hx with hx | hx
  · obtain ⟨i, hi, rfl⟩ := List.mem_map.mp hx
    exact Or.inl ⟨i, hi, rfl⟩
  · obtain ⟨data, hdata, rfl⟩ := List.mem_map.mp hx
    exact Or.inr ⟨data, hdata, rfl⟩

theorem ready_run (now : Int) (fs : Fs) {m : TableMap} (hnodup : (drawn_ids run).Nodup)
    (hunused : ∀ id ∈ drawn_ids run, m.Unused id) :
    TableMap.Ready ((run.flatMap Message.inserts).map Prod.snd)
      (run.flatMap fun msg => msg.insert_items now ++ msg.remove_items fs) m where
  nodup := by rwa [filterMap_drawn_items]
  unused := by rwa [filterMap_drawn_items]
  inserts := by
    intro now random_hash data hmem
    obtain ⟨msg, hmsg, ⟨i, hi, heq⟩ | ⟨removed, -, heq⟩⟩ := mem_items hmem
    · injection heq with _ _ hdata
      rw [hdata]
      exact List.mem_map_of_mem (List.mem_flatMap.mpr ⟨msg, hmsg, hi⟩)
    · cases heq

/-- Merged, the remove of the path comes after its insert. -/
theorem by_path_flush_run {path : String} (hagain : InsertedAgain path run) :
    (flush_run now fs run lib).store.view.by_path path = none := by
  obtain ⟨hne, front, removing, middle, inserting, back, rfl, ⟨data, hdata, hpath⟩, -⟩ := hagain
  rw [view_flush_run, LTS.run_append, Message.flatMap_remove_items]
  apply TableMap.by_path_run_removes hne
  refine ⟨data, List.mem_flatMap.mpr ⟨removing, ?_, hdata⟩, hpath⟩
  exact List.mem_append_right front List.mem_cons_self

open TableMap in
/-- The entry of a path that is not inserted again after the last remove of it, merged. -/
theorem foldl_entry_merge {path : String}
    (hnamed : ∀ msg ∈ run, ∀ data ∈ msg.removes, flush_path data ≠ "")
    (hagain : ¬ InsertedAgain path run) (old : Option String) :
    (run.flatMap fun msg => msg.insert_items now ++ msg.remove_items fs).foldl
        (FlushItem.entry path) old =
      if ∃ data ∈ run.flatMap Message.removes, flush_path data = path then none
      else (run.flatMap (Message.insert_items now)).foldl (FlushItem.entry path) old := by
  induction run generalizing old with
  | nil => rfl
  | cons msg run ih =>
    obtain ⟨hmsg, hrun⟩ := List.forall_mem_cons.mp hnamed
    have hrest : ¬ InsertedAgain path run := by
      rintro ⟨hne, front, removing, middle, inserting, back, rfl, h⟩
      exact hagain ⟨hne, msg :: front, removing, middle, inserting, back, rfl, h⟩
    simp only [List.flatMap_cons, List.foldl_append]
    rw [ih hrun hrest, Message.remove_items, foldl_entry_removes,
      Message.flatMap_insert_items]
    by_cases hlater : ∃ data ∈ run.flatMap Message.removes, flush_path data = path
    · obtain ⟨data, hdata, hpath⟩ := hlater
      rw [if_pos ⟨data, hdata, hpath⟩, if_pos ⟨data, List.mem_append_right _ hdata, hpath⟩]
    rw [if_neg hlater]
    by_cases hhere : ∃ data ∈ msg.removes, flush_path data = path
    · -- the remove of this flush is the last, and no later flush inserts the path
      obtain ⟨data, hdata, hpath⟩ := hhere
      rw [if_pos ⟨data, hdata, hpath⟩, if_pos ⟨data, List.mem_append_left _ hdata, hpath⟩,
        foldl_entry_inserts]
      refine ⟨rfl, fun i hmem hinsert => ?_⟩
      obtain ⟨inserting, hmem, hi⟩ := List.mem_flatMap.mp hmem
      obtain ⟨middle, back, rfl⟩ := List.append_of_mem hmem
      refine hagain ⟨hpath ▸ hmsg data hdata, [], msg, middle, inserting, back, rfl,
        ⟨data, hdata, hpath⟩, ⟨i, hi, hinsert⟩, fun later hin removed hremoved => ?_⟩
      have hin := List.mem_append_right middle hin
      exact ⟨fun heq => hlater ⟨removed, List.mem_flatMap.mpr ⟨later, hin, hremoved⟩, heq⟩,
        hrun later hin removed hremoved⟩
    · rw [if_neg hhere, if_neg]
      rintro ⟨data, hdata, hpath⟩
      rcases List.mem_append.mp hdata with hdata | hdata
      · exact hhere ⟨data, hdata, hpath⟩
      · exact hlater ⟨data, hdata, hpath⟩

theorem items_named (now : Int) (fs : Fs)
    (hnamed : ∀ msg ∈ run, ∀ data ∈ msg.removes, flush_path data ≠ "") (fs' : Fs)
    (data : AbstractData) (hmem : .remove fs' data ∈
      run.flatMap fun msg => msg.insert_items now ++ msg.remove_items fs) :
    flush_path data ≠ "" := by
  obtain ⟨msg, hmsg, ⟨i, -, heq⟩ | ⟨removed, hremoved, heq⟩⟩ := mem_items hmem
  · cases heq
  · injection heq with _ hdata
    rw [hdata]
    exact hnamed msg hmsg removed hremoved

/-- One by one, the insert is the last to touch the path. -/
theorem by_path_one_by_one {path : String} (hflush : ∀ msg ∈ run, msg.is_flush)
    (hagain : InsertedAgain path run) :
    (one_by_one now fs run lib).store.view.by_path path ≠ none := by
  obtain ⟨-, front, removing, middle, inserting, back, rfl, -, ⟨i, hi, hpath⟩, hlater⟩ := hagain
  have hkept : ¬ ∃ data ∈ (inserting :: back).flatMap Message.removes, flush_path data = path := by
    rintro ⟨data, hdata, heq⟩
    obtain ⟨msg, hmsg, hdata⟩ := List.mem_flatMap.mp hdata
    exact (hlater msg hmsg data hdata).1 heq
  have hnamed := fun msg hmsg data hdata => (hlater msg hmsg data hdata).2
  rw [view_one_by_one hflush, ← List.cons_append, ← List.append_assoc, List.flatMap_append,
    LTS.run_append, TableMap.by_path_run (items_named now fs hnamed), foldl_entry_merge hnamed,
    if_neg hkept, Message.flatMap_insert_items, Ne, TableMap.foldl_entry_inserts]
  · exact fun hnone => hnone.2 i (List.mem_append_left _ hi) hpath
  · rintro ⟨-, _, msg, _, _, _, heq, ⟨data, hdata, hsame⟩, -⟩
    exact hkept ⟨data, List.mem_flatMap.mpr
      ⟨msg, heq ▸ List.mem_append_right _ List.mem_cons_self, hdata⟩, hsame⟩

/-- Where it is not inserted again, merging and not merging leave the path the same entry. -/
theorem by_path_merge {path : String} (hflush : ∀ msg ∈ run, msg.is_flush)
    (hnamed : ∀ msg ∈ run, ∀ data ∈ msg.removes, flush_path data ≠ "")
    (hagain : ¬ InsertedAgain path run) :
    (flush_run now fs run lib).store.view.by_path path =
      (one_by_one now fs run lib).store.view.by_path path := by
  have hitems := items_named now fs hnamed
  rw [view_flush_run, view_one_by_one hflush, TableMap.by_path_run hitems,
    foldl_entry_merge hnamed hagain, TableMap.by_path_run, List.foldl_append,
    Message.flatMap_remove_items, TableMap.foldl_entry_removes]
  · intro fs' data hmem
    exact hitems fs' data ((List.flatMap_append_perm run _ _).mem_iff.mp hmem)

/-- Merging writes the same tables as one flush after the other, where every insert may overtake.
The ids that are drawn are the same in both, and fresh. Where a path is removed and then inserted
again, and no later remove touches it, merging loses the path; and if all removes name their paths,
these are the only paths with another entry. -/
theorem merged_tables_eq (now : Int) (fs : Fs) (run : List Message) (lib : Library)
    (hflush : ∀ msg ∈ run, msg.is_flush) :
    ((drawn_ids run).Nodup → (∀ id ∈ drawn_ids run, lib.store.view.Unused id) →
      Mergeable lib.store.view fs run →
      (flush_run now fs run lib).store.view = (one_by_one now fs run lib).store.view) ∧
    (∀ path, InsertedAgain path run →
      (flush_run now fs run lib).store.get_asset_id_by_path path = none ∧
        (one_by_one now fs run lib).store.get_asset_id_by_path path ≠ none) ∧
    ((∀ msg ∈ run, ∀ data ∈ msg.removes, flush_path data ≠ "") → ∀ path,
      ((flush_run now fs run lib).store.get_asset_id_by_path path =
          (one_by_one now fs run lib).store.get_asset_id_by_path path ↔
        ¬ InsertedAgain path run)) := by
  refine ⟨?_, ?_, ?_⟩
  · intro hnodup hunused hmerge
    rw [view_flush_run, view_one_by_one hflush]
    exact (run_merge (ready_run now fs hnodup hunused) hmerge).symm
  · intro path hagain
    exact ⟨by_path_flush_run hagain, by_path_one_by_one hflush hagain⟩
  · intro hnamed path
    constructor
    · intro hsame hagain
      exact by_path_one_by_one hflush hagain (hsame.symm.trans (by_path_flush_run hagain))
    · exact by_path_merge hflush hnamed

def empty_library : Library := ⟨AssetStore.empty, ∅⟩

def no_files : Fs := ⟨fun _ => none, fun _ => false⟩

/-- The photo `/p/sea.jpg` is indexed, and then the flush that removes it also indexes another. -/
def sea_then_sun : List Message :=
  [⟨0, .flush [("a", photo "/p/sea.jpg" "h")] [photo "/p/old.jpg" "g"], 0⟩,
    ⟨1, .flush [("b", photo "/p/sun.jpg" "k")] [photo "/p/sea.jpg" "h"], 1⟩]

theorem merged_tables_eq_two_photos :
    (∀ msg ∈ sea_then_sun, msg.is_flush) ∧ Mergeable empty_library.store.view no_files sea_then_sun ∧
      (flush_run 0 no_files sea_then_sun empty_library).store.view =
        (one_by_one 0 no_files sea_then_sun empty_library).store.view := by
  have hflush : ∀ msg ∈ sea_then_sun, msg.is_flush := by decide
  have hmerge : Mergeable empty_library.store.view no_files sea_then_sun := by
    refine List.pairwise_cons.mpr ⟨?_, List.pairwise_singleton _ _⟩
    intro later hlater removed hremoved i hi
    obtain rfl := List.mem_singleton.mp hlater
    obtain rfl := List.mem_singleton.mp hremoved
    obtain rfl := List.mem_singleton.mp hi
    exact ⟨by decide, fun id hentry => by cases hentry⟩
  refine ⟨hflush, hmerge, (merged_tables_eq 0 no_files sea_then_sun empty_library hflush).1
    (by decide) (fun id _ => ⟨fun hash => List.not_mem_nil, fun path hentry => by cases hentry⟩)
    hmerge⟩

/-- The photo is indexed, removed, and indexed again. -/
def sea_again : List Message :=
  [⟨0, .flush [("a", photo "/p/sea.jpg" "h")] [], 0⟩,
    ⟨1, .flush [] [photo "/p/sea.jpg" "h"], 1⟩,
    ⟨2, .flush [("b", photo "/p/sea.jpg" "h")] [], 2⟩]

/-- Merged, the run leaves no trace of the photo. -/
theorem merged_flushes_lose_photo :
    (one_by_one 0 no_files sea_again empty_library).store.get_asset_id_by_path "/p/sea.jpg" =
        some "b" ∧
      (flush_run 0 no_files sea_again empty_library).store.get_asset_id_by_path "/p/sea.jpg" =
        none ∧
      (flush_run 0 no_files sea_again empty_library).store.get_asset_by_id "a" = none ∧
      (flush_run 0 no_files sea_again empty_library).store.get_asset_by_id "b" = none := by
  decide +kernel

end Writer
