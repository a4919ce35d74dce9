import Picasu.Framework.Counting
import Picasu.Framework.Run
import Picasu.Storage.SnapshotRead

/-! # Snapshots under Concurrent Reads and Flushes

A snapshot is put into memory under a new id. A task copies it to disk and then removes it from
memory, while readers look into memory and then on disk, without a lock. No reader falls between
the two: a snapshot that a reader misses in memory was on disk before it was removed.

Ids come from a compare-exchange loop over the clock. They are new as long as there is room below
`i64::MAX`; at the end of the range the addition saturates, and the last id is given out again and
again.

* `Kept`: what the store holds, and what the tasks and readers in between two of their steps rely
  on. Every operation of the store keeps it;
* `Fresh`: the ids that are given out differ, and how far they have come;
* `snapshots_immutable`: in every run, ids differ and readers get what was inserted.
-/

/-- A turn of `flush_tree_snapshot_task`. -/
inductive FlushTurn where
  /-- It holds a reference to an entry in memory. -/
  | picked (timestamp : Int) (rows : List ReducedData)
  /-- The table is committed. -/
  | committed (timestamp : Int)
  | done

/-- Where a `read_tree_snapshot` is, once it has looked into memory. -/
inductive ReadPoint where
  | missed
  /-- The read transaction has begun, on these tables. -/
  | reading (in_disk : Table Int (Table Nat ReducedData))
  /-- The snapshot is opened, or not found. `deleted` records whether its table had been deleted by
  then. -/
  | answered (cow : Option MyCow) (deleted : Bool)

/-- A reader. `expects` records what was inserted before it began. -/
structure Reader where
  timestamp : Int
  expects : Option (List ReducedData)
  point : ReadPoint

/-- `TREE_SNAPSHOT`, its readers and the turns of the flush task. -/
structure TreeSnapshot where
  in_memory : Table Int (List ReducedData)
  in_disk : Table Int (Table Nat ReducedData)
  flushes : List FlushTurn
  reads : List Reader
  /-- Not stored: all insertions, in order, and the tables that were deleted. -/
  inserted : List (Int × List ReducedData)
  deleted : List Int

namespace TreeSnapshot

variable (s : TreeSnapshot)

/-- The insertion of `insert_data_into_tree_snapshot`. -/
def insert (timestamp : Int) (rows : List ReducedData) : TreeSnapshot :=
  { s with
    in_memory := s.in_memory.insert timestamp rows
    inserted := s.inserted ++ [(timestamp, rows)] }

/-- The flush task takes an entry of the memory. -/
def pick (timestamp : Int) : TreeSnapshot :=
  match s.in_memory.lookup timestamp with
  | some rows => { s with flushes := s.flushes ++ [.picked timestamp rows] }
  | none => s

/-- It writes the rows into the table of the snapshot, and commits. -/
def commit (k : Nat) : TreeSnapshot :=
  match s.flushes[k]? with
  | some (.picked timestamp rows) =>
    { s with
      in_disk := s.in_disk.insert timestamp
        (Table.fill rows ((s.in_disk.lookup timestamp).getD ∅))
      flushes := s.flushes.set k (.committed timestamp) }
  | _ => s

def remove (k : Nat) : TreeSnapshot :=
  match s.flushes[k]? with
  | some (.committed timestamp) =>
    { s with
      in_memory := s.in_memory.erase timestamp
      flushes := s.flushes.set k .done }
  | _ => s

def inserted_rows (timestamp : Int) : Option (List ReducedData) :=
  (s.inserted.find? fun e => e.1 = timestamp).map Prod.snd

/-- `read_tree_snapshot` begins: it looks into memory. -/
def read (timestamp : Int) : TreeSnapshot :=
  { s with
    reads := s.reads ++ [
      { timestamp
        expects := s.inserted_rows timestamp
        point :=
          match s.in_memory.lookup timestamp with
          | some rows => .answered (some (.dashMap rows)) (decide (timestamp ∈ s.deleted))
          | none => .missed }] }

def begin_read (k : Nat) : TreeSnapshot :=
  match s.reads[k]? with
  | some r =>
    match r.point with
    | .missed => { s with reads := s.reads.set k { r with point := .reading s.in_disk } }
    | _ => s
  | none => s

def open_table (k : Nat) : TreeSnapshot :=
  match s.reads[k]? with
  | some r =>
    match r.point with
    | .reading in_disk =>
      { s with
        reads := s.reads.set k { r with
          point := .answered ((in_disk.lookup r.timestamp).map .redb)
            (decide (r.timestamp ∈ s.deleted)) } }
    | _ => s
  | none => s

def remove_task (timestamp : Int) : TreeSnapshot :=
  match s.in_disk.lookup timestamp with
  | some _ =>
    { s with in_disk := s.in_disk.erase timestamp, deleted := timestamp :: s.deleted }
  | none => s

/-! ## What the store keeps -/

/-- The table of the snapshot is deleted, or is there. -/
def Flushed (timestamp : Int) : Prop :=
  timestamp ∈ s.deleted ∨ s.in_disk.lookup timestamp ≠ none

/-- What a flush turn relies on. -/
def FlushOk : FlushTurn → Prop
  | .picked timestamp rows => (timestamp, rows) ∈ s.inserted
  | .committed timestamp => s.Flushed timestamp
  | .done => True

/-- What a reader that expects these rows relies on. -/
def ReadOk (timestamp : Int) (rows : List ReducedData) : ReadPoint → Prop
  | .missed => s.Flushed timestamp
  | .reading in_disk => timestamp ∈ s.deleted ∨
      ∃ table, in_disk.lookup timestamp = some table ∧ table.Stores rows
  | .answered cow deleted => deleted = false → ∃ c, cow = some c ∧ c.Represents rows

/-- What memory and disk hold was inserted; what was inserted is in memory or has been flushed. -/
structure Kept : Prop where
  memory : ∀ timestamp rows, s.in_memory.lookup timestamp = some rows →
    (timestamp, rows) ∈ s.inserted
  disk : ∀ timestamp table, s.in_disk.lookup timestamp = some table →
    ∃ rows, (timestamp, rows) ∈ s.inserted ∧ table.Stores rows
  kept : ∀ timestamp rows, (timestamp, rows) ∈ s.inserted →
    s.in_memory.lookup timestamp = some rows ∨ s.Flushed timestamp
  flushes : ∀ turn ∈ s.flushes, s.FlushOk turn
  reads : ∀ r ∈ s.reads, ∀ rows, r.expects = some rows →
    (r.timestamp, rows) ∈ s.inserted ∧ s.ReadOk r.timestamp rows r.point

def Distinct : Prop := (s.inserted.map Prod.fst).Nodup

end TreeSnapshot

namespace TreeSnapshot

variable {s : TreeSnapshot} {timestamp : Int} {rows : List ReducedData} {s' : TreeSnapshot}

theorem Distinct.rows_eq (h : s.Distinct) {rows' : List ReducedData}
    (hrows : (timestamp, rows) ∈ s.inserted) (hrows' : (timestamp, rows') ∈ s.inserted) :
    rows = rows' :=
  congrArg Prod.snd (List.inj_on_of_nodup_map h hrows hrows' rfl)

theorem mem_of_inserted_rows (h : s.inserted_rows timestamp = some rows) :
    (timestamp, rows) ∈ s.inserted := by
  obtain ⟨e, he, rfl⟩ := Option.map_eq_some_iff.mp h
  have hkey : e.1 = timestamp := by simpa using List.find?_some he
  rw [← hkey]
  exact List.mem_of_find?_eq_some he

/-- What the turns and the readers rely on stays true as long as no table goes away but those that
are deleted. -/
structure Extends (s s' : TreeSnapshot) : Prop where
  inserted : ∀ e ∈ s.inserted, e ∈ s'.inserted
  deleted : ∀ timestamp ∈ s.deleted, timestamp ∈ s'.deleted
  flushed : ∀ timestamp, s.Flushed timestamp → s'.Flushed timestamp

theorem FlushOk.mono (h : Extends s s') {turn : FlushTurn}
    (hturn : s.FlushOk turn) : s'.FlushOk turn := by
  cases turn with
  | picked timestamp rows => exact h.inserted _ hturn
  | committed timestamp => exact h.flushed _ hturn
  | done => trivial

theorem ReadOk.mono (h : Extends s s') {point : ReadPoint}
    (hpoint : s.ReadOk timestamp rows point) : s'.ReadOk timestamp rows point := by
  cases point with
  | missed => exact h.flushed _ hpoint
  | reading in_disk => exact hpoint.imp_left (h.deleted _)
  | answered cow deleted => exact hpoint

theorem Kept.flushes_mono (h : s.Kept) (hext : Extends s s') :
    ∀ turn ∈ s.flushes, s'.FlushOk turn :=
  fun turn hturn => (h.flushes turn hturn).mono hext

theorem Kept.reads_mono (h : s.Kept) (hext : Extends s s') :
    ∀ r ∈ s.reads, ∀ rows, r.expects = some rows →
      (r.timestamp, rows) ∈ s'.inserted ∧ s'.ReadOk r.timestamp rows r.point := by
  intro r hr rows hrows
  obtain ⟨hmem, hok⟩ := h.reads r hr rows hrows
  exact ⟨hext.inserted _ hmem, hok.mono hext⟩

/-! ## The operations -/

section

variable (h : s.Kept)

include h

theorem Kept.insert (hnew : timestamp ∉ s.inserted.map Prod.fst)
    (rows : List ReducedData) : (s.insert timestamp rows).Kept := by
  have hext : Extends s (s.insert timestamp rows) :=
    ⟨fun _ he => List.mem_append_left _ he, fun _ ht => ht, fun _ ht => ht⟩
  refine ⟨fun t rows' hmem => ?_, fun t table hdisk => ?_, fun t rows' hmem => ?_,
    h.flushes_mono hext, h.reads_mono hext⟩
  · rcases Table.lookup_insert_eq_some.mp hmem with ⟨rfl, rfl⟩ | ⟨-, hold⟩
    · exact List.mem_append_right _ (List.mem_singleton_self _)
    · exact List.mem_append_left _ (h.memory t rows' hold)
  · obtain ⟨rows', hmem, hstores⟩ := h.disk t table hdisk
    exact ⟨rows', List.mem_append_left _ hmem, hstores⟩
  · rcases List.mem_append.mp hmem with hold | hmine
    · -- it has another id than the new one
      have hne : t ≠ timestamp := by
        rintro rfl
        exact hnew (List.mem_map_of_mem hold)
      refine (h.kept t rows' hold).imp_left fun hthere => ?_
      exact (AList.lookup_insert_ne hne).trans hthere
    · obtain ⟨rfl, rfl⟩ := Prod.mk.inj (List.mem_singleton.mp hmine)
      exact Or.inl (AList.lookup_insert _)

theorem Kept.pick (timestamp : Int) : (s.pick timestamp).Kept := by
  unfold TreeSnapshot.pick
  split
  · rename_i rows hrows
    refine ⟨h.memory, h.disk, h.kept, fun turn hturn => ?_, h.reads⟩
    rcases List.mem_append.mp hturn with hold | hnew
    · exact h.flushes turn hold
    · rw [List.mem_singleton.mp hnew]
      exact h.memory timestamp rows hrows
  · exact h

theorem Kept.commit (hdistinct : s.Distinct) (k : Nat) : (s.commit k).Kept := by
  unfold TreeSnapshot.commit
  split
  · rename_i timestamp rows hk
    have hmine : (timestamp, rows) ∈ s.inserted := h.flushes _ (List.mem_of_getElem? hk)
    -- a table that is there already has the same rows
    have hstores : (Table.fill rows ((s.in_disk.lookup timestamp).getD ∅)).Stores rows := by
      refine Table.stores_fill ?_
      cases hdisk : s.in_disk.lookup timestamp with
      | none => exact Or.inl rfl
      | some table =>
        obtain ⟨rows', hmem, hstores⟩ := h.disk timestamp table hdisk
        rw [hdistinct.rows_eq hmine hmem]
        exact Or.inr hstores
    generalize Table.fill rows ((s.in_disk.lookup timestamp).getD ∅) = filled at hstores ⊢
    have hflushed : ∀ t, s.Flushed t →
        t ∈ s.deleted ∨ (s.in_disk.insert timestamp filled).lookup t ≠ none := by
      intro t ht
      refine ht.imp_right fun hthere => ?_
      rw [Table.lookup_insert]
      split
      · exact Option.some_ne_none _
      · exact hthere
    have hext : Extends s { s with
        in_disk := s.in_disk.insert timestamp filled
        flushes := s.flushes.set k (.committed timestamp) } :=
      ⟨fun _ he => he, fun _ ht => ht, hflushed⟩
    refine ⟨h.memory, fun t table hdisk => ?_, fun t rows' hmem => ?_, fun turn hturn => ?_,
      h.reads_mono hext⟩
    · rcases Table.lookup_insert_eq_some.mp hdisk with ⟨rfl, rfl⟩ | ⟨-, hold⟩
      · exact ⟨rows, hmine, hstores⟩
      · exact h.disk t table hold
    · exact (h.kept t rows' hmem).imp_right (hext.flushed t)
    · rcases List.mem_or_eq_of_mem_set hturn with hold | rfl
      · exact h.flushes_mono hext turn hold
      refine Or.inr ?_
      show (s.in_disk.insert timestamp filled).lookup timestamp ≠ none
      rw [AList.lookup_insert]
      exact Option.some_ne_none _
  · exact h

theorem Kept.remove (k : Nat) : (s.remove k).Kept := by
  unfold TreeSnapshot.remove
  split
  · rename_i timestamp hk
    have hflushed : s.Flushed timestamp := h.flushes _ (List.mem_of_getElem? hk)
    refine ⟨fun t rows hmem => h.memory t rows (Table.lookup_erase_eq_some.mp hmem).2, h.disk,
      fun t rows hmem => ?_, fun turn hturn => ?_, h.reads⟩
    · by_cases htt : t = timestamp
      · exact Or.inr (htt ▸ hflushed)
      · refine (h.kept t rows hmem).imp_left fun hthere => ?_
        exact (AList.lookup_erase_ne htt).trans hthere
    · rcases List.mem_or_eq_of_mem_set hturn with hold | rfl
      · exact h.flushes turn hold
      · trivial
  · exact h

theorem Kept.read (hdistinct : s.Distinct) (timestamp : Int) : (s.read timestamp).Kept := by
  refine ⟨h.memory, h.disk, h.kept, h.flushes, fun r hr rows hrows => ?_⟩
  rcases List.mem_append.mp hr with hold | hnew
  · exact h.reads r hold rows hrows
  rw [List.mem_singleton.mp hnew] at hrows ⊢
  have hmem := mem_of_inserted_rows hrows
  refine ⟨hmem, ?_⟩
  cases hthere : s.in_memory.lookup timestamp with
  | some rows' => exact fun _ => ⟨_, rfl, hdistinct.rows_eq (h.memory timestamp rows' hthere) hmem⟩
  | none =>
    -- what was inserted and is not in memory has been flushed
    refine (h.kept timestamp rows hmem).resolve_left fun hmemory => ?_
    cases hthere.symm.trans hmemory

theorem Kept.begin_read (hdistinct : s.Distinct) (k : Nat) : (s.begin_read k).Kept := by
  unfold TreeSnapshot.begin_read
  split
  · rename_i r hk
    split
    · rename_i hpoint
      refine ⟨h.memory, h.disk, h.kept, h.flushes, fun r' hr' rows hrows => ?_⟩
      rcases List.mem_or_eq_of_mem_set hr' with hold | rfl
      · exact h.reads r' hold rows hrows
      obtain ⟨hmem, hok⟩ := h.reads r (List.mem_of_getElem? hk) rows hrows
      rw [hpoint] at hok
      refine ⟨hmem, hok.imp_right fun hthere => ?_⟩
      obtain ⟨table, htable⟩ := Option.ne_none_iff_exists'.mp hthere
      obtain ⟨rows', hmem', hstores⟩ := h.disk _ table htable
      exact ⟨table, htable, hdistinct.rows_eq hmem hmem' ▸ hstores⟩
    · exact h
  · exact h

theorem Kept.open_table (k : Nat) : (s.open_table k).Kept := by
  unfold TreeSnapshot.open_table
  split
  · rename_i r hk
    split
    · rename_i in_disk hpoint
      refine ⟨h.memory, h.disk, h.kept, h.flushes, fun r' hr' rows hrows => ?_⟩
      rcases List.mem_or_eq_of_mem_set hr' with hold | rfl
      · exact h.reads r' hold rows hrows
      obtain ⟨hmem, hok⟩ := h.reads r (List.mem_of_getElem? hk) rows hrows
      rw [hpoint] at hok
      refine ⟨hmem, fun hdeleted => ?_⟩
      obtain ⟨table, htable, hstores⟩ := hok.resolve_left (of_decide_eq_false hdeleted)
      exact ⟨.redb table, congrArg (Option.map MyCow.redb) htable, hstores⟩
    · exact h
  · exact h

theorem Kept.remove_task (timestamp : Int) : (s.remove_task timestamp).Kept := by
  unfold TreeSnapshot.remove_task
  split
  · have hext : Extends s { s with
        in_disk := s.in_disk.erase timestamp, deleted := timestamp :: s.deleted } := by
      refine ⟨fun _ he => he, fun _ ht => List.mem_cons_of_mem _ ht, fun t ht => ?_⟩
      by_cases htt : t = timestamp
      · exact Or.inl (htt ▸ List.mem_cons_self)
      · refine ht.imp (List.mem_cons_of_mem _) fun hthere => ?_
        show (s.in_disk.erase timestamp).lookup t ≠ none
        rwa [AList.lookup_erase_ne htt]
    exact ⟨h.memory, fun t table hdisk => h.disk t table (Table.lookup_erase_eq_some.mp hdisk).2,
      fun t rows hmem => (h.kept t rows hmem).imp_right (hext.flushed t),
      h.flushes_mono hext, h.reads_mono hext⟩
  · exact h

end

end TreeSnapshot

/-! ## Ids -/

/-- Where a thread is that inserts a snapshot. -/
inductive DrawPoint where
  /-- `next_snapshot_id` has read the clock. -/
  | stamped (now : Int)
  /-- It has loaded `LAST_SNAPSHOT_ID`. -/
  | loaded (now last : Int)
  /-- It has the id. -/
  | drawn (id : Int)
  | inserted
  deriving DecidableEq, Repr

/-- A thread, with the rows that it inserts. -/
structure Draw where
  rows : List ReducedData
  point : DrawPoint

/-- The id that the thread has drawn and not used. -/
def Draw.id (d : Draw) : Option Int :=
  match d.point with
  | .drawn id => some id
  | _ => none

def Draw.has_id (d : Draw) : Bool :=
  match d.point with
  | .drawn _ | .inserted => true
  | _ => false

/-- The clock reading of a thread that has not. -/
def Draw.now (d : Draw) : Option Int :=
  match d.point with
  | .stamped now | .loaded now _ => some now
  | _ => none

/-- The threads that insert, and the store. -/
structure Snapshots where
  last_snapshot_id : Int
  draws : List Draw
  store : TreeSnapshot

namespace Snapshots

inductive Label where
  /-- A thread is to insert these rows; it reads the clock. -/
  | draw (rows : List ReducedData) (now : Int)
  /-- The `k`-th thread loads the last id, tries to exchange it, and inserts. -/
  | load (k : Nat)
  | exchange (k : Nat)
  | insert (k : Nat)
  /-- A turn of the flush task. -/
  | pick (timestamp : Int)
  | commit (k : Nat)
  | remove (k : Nat)
  /-- A reader. -/
  | read (timestamp : Int)
  | beginRead (k : Nat)
  | openTable (k : Nat)
  /-- The table of an expired snapshot is deleted. -/
  | removeTask (timestamp : Int)

def Label.is_draw : Label → Bool
  | draw _ _ => true
  | _ => false

variable (s : Snapshots)

/-- The `k`-th thread loads `LAST_SNAPSHOT_ID`. -/
def load (k : Nat) : Snapshots :=
  match s.draws[k]? with
  | some ⟨rows, .stamped now⟩ =>
    { s with draws := s.draws.set k ⟨rows, .loaded now s.last_snapshot_id⟩ }
  | _ => s

/-- It exchanges the last id for the next one, or loads again. -/
def exchange (k : Nat) : Snapshots :=
  match s.draws[k]? with
  | some ⟨rows, .loaded now last⟩ =>
    if s.last_snapshot_id = last then
      { s with
        last_snapshot_id := Caches.next_snapshot_id now last
        draws := s.draws.set k ⟨rows, .drawn (Caches.next_snapshot_id now last)⟩ }
    else { s with draws := s.draws.set k ⟨rows, .stamped now⟩ }
  | _ => s

/-- It inserts the rows under its id. -/
def insert (k : Nat) : Snapshots :=
  match s.draws[k]? with
  | some ⟨rows, .drawn id⟩ =>
    { s with
      draws := s.draws.set k ⟨rows, .inserted⟩
      store := s.store.insert id rows }
  | _ => s

/-- One step. -/
def next : Label → Snapshots
  | .draw rows now => { s with draws := s.draws ++ [⟨rows, .stamped now⟩] }
  | .load k => s.load k
  | .exchange k => s.exchange k
  | .insert k => s.insert k
  | .pick timestamp => { s with store := s.store.pick timestamp }
  | .commit k => { s with store := s.store.commit k }
  | .remove k => { s with store := s.store.remove k }
  | .read timestamp => { s with store := s.store.read timestamp }
  | .beginRead k => { s with store := s.store.begin_read k }
  | .openTable k => { s with store := s.store.open_table k }
  | .removeTask timestamp => { s with store := s.store.remove_task timestamp }

/-- The server has started, with empty databases. -/
def start : Snapshots := ⟨0, [], ⟨∅, ∅, [], [], [], []⟩⟩

/-- The id that the `k`-th thread has drawn and not used. -/
def held (k : Nat) : Option Int := (s.draws[k]?).bind Draw.id

/-- The ids given out so far. -/
structure Fresh (bound : Int) : Prop where
  distinct : s.store.Distinct
  inserted : ∀ e ∈ s.store.inserted, e.1 ≤ s.last_snapshot_id
  drawn : ∀ k id, s.held k = some id → id ≤ s.last_snapshot_id ∧ id ∉ s.store.inserted.map Prod.fst
  different : ∀ k k' id, s.held k = some id → s.held k' = some id → k = k'
  clock : ∀ d ∈ s.draws, ∀ now, d.now = some now → now ≤ bound
  last : s.last_snapshot_id ≤ bound - 1 + s.draws.countP Draw.has_id

end Snapshots

namespace Snapshots

variable {s : Snapshots} {bound : Int} {k : Nat} {d : Draw}

/-- What the threads hold after one of them has moved on. -/
theorem held_set (hk : s.draws[k]? = some d) (d' : Draw) (k' : Nat) :
    ((s.draws.set k d')[k']?).bind Draw.id = if k' = k then d'.id else s.held k' := by
  have hlt : k < s.draws.length := (List.getElem?_eq_some_iff.mp hk).1
  split
  · rename_i heq
    rw [heq, List.getElem?_set_self hlt]
    rfl
  · rename_i hne
    rw [List.getElem?_set_ne (Ne.symm hne)]
    rfl

/-- A thread that has no id yet leaves room for it. -/
theorem Fresh.last_lt (h : s.Fresh bound) (hk : s.draws[k]? = some d)
    (hd : d.has_id = false) : s.last_snapshot_id + 1 ≤ bound - 1 + s.draws.length := by
  have hlast := h.last
  have hlt : s.draws.countP Draw.has_id < s.draws.length := by
    refine Nat.lt_of_le_of_ne List.countP_le_length fun heq => ?_
    have hall := List.countP_eq_length.mp heq d (List.mem_of_getElem? hk)
    rw [hd] at hall
    cases hall
  omega

/-- A step of a thread that gives out no id. -/
theorem Fresh.set (h : s.Fresh bound) (hk : s.draws[k]? = some d) (d' : Draw)
    (hid : d'.id = none) (hhas : d'.has_id = d.has_id) (hnow : d'.now = d.now) :
    Fresh { s with draws := s.draws.set k d' } bound := by
  have hheld : ∀ k' id, held { s with draws := s.draws.set k d' } k' = some id →
      s.held k' = some id := by
    intro k' id hk'
    rw [held, held_set hk, hid] at hk'
    split at hk'
    · cases hk'
    · exact hk'
  refine ⟨h.distinct, h.inserted, fun k' id hk' => h.drawn k' id (hheld k' id hk'),
    fun k₁ k₂ id h₁ h₂ => h.different k₁ k₂ id (hheld k₁ id h₁) (hheld k₂ id h₂),
    fun d₁ hd₁ now hd₁now => ?_, ?_⟩
  · rcases List.mem_or_eq_of_mem_set hd₁ with hmem | rfl
    · exact h.clock d₁ hmem now hd₁now
    · exact h.clock d (List.mem_of_getElem? hk) now (hnow ▸ hd₁now)
  · have hcount := Counting.countP_set (p := Draw.has_id) hk d'
    rw [hhas] at hcount
    have hsame := Nat.add_right_cancel hcount
    show s.last_snapshot_id ≤ bound - 1 + (s.draws.set k d').countP Draw.has_id
    rw [hsame]
    exact h.last

/-- The exchange gives out an id above all before. -/
theorem Fresh.exchange_ok (h : s.Fresh bound) {rows : List ReducedData} {now : Int}
    (hk : s.draws[k]? = some ⟨rows, .loaded now s.last_snapshot_id⟩)
    (hroom : bound - 1 + s.draws.length ≤ i64Max) :
    Fresh { s with
      last_snapshot_id := Caches.next_snapshot_id now s.last_snapshot_id
      draws := s.draws.set k ⟨rows, .drawn (Caches.next_snapshot_id now s.last_snapshot_id)⟩ }
      bound := by
  have hlast := h.last_lt hk rfl
  have hnow := h.clock _ (List.mem_of_getElem? hk) now rfl
  have hlt : s.last_snapshot_id < i64Max := by omega
  have hnew := Caches.last_lt_next_snapshot_id now hlt
  have hbound :
      Caches.next_snapshot_id now s.last_snapshot_id ≤ max bound (s.last_snapshot_id + 1) := by
    unfold Caches.next_snapshot_id
    omega
  generalize Caches.next_snapshot_id now s.last_snapshot_id = id at hnew hbound ⊢
  have hheld : ∀ k' id', held { s with
        last_snapshot_id := id, draws := s.draws.set k ⟨rows, .drawn id⟩ } k' = some id' →
      k' = k ∧ id' = id ∨ k' ≠ k ∧ s.held k' = some id' := by
    intro k' id' hk'
    rw [held, held_set hk] at hk'
    split at hk'
    · rename_i heq
      exact Or.inl ⟨heq, (Option.some.inj hk').symm⟩
    · rename_i hne
      exact Or.inr ⟨hne, hk'⟩
  -- all ids that are in use are below the new one
  refine ⟨h.distinct, fun e he => ?_, fun k' id' hk' => ?_, fun k₁ k₂ id' h₁ h₂ => ?_,
    fun d hd now' hd' => ?_, ?_⟩
  · have hle := h.inserted e he
    show e.1 ≤ id
    omega
  · show id' ≤ id ∧ id' ∉ s.store.inserted.map Prod.fst
    rcases hheld k' id' hk' with ⟨-, rfl⟩ | ⟨-, hold⟩
    · refine ⟨Int.le_refl _, fun hmem => ?_⟩
      obtain ⟨e, he, rfl⟩ := List.mem_map.mp hmem
      have hle := h.inserted e he
      omega
    · obtain ⟨hle, hunused⟩ := h.drawn k' id' hold
      exact ⟨by omega, hunused⟩
  · rcases hheld k₁ id' h₁ with ⟨rfl, rfl⟩ | ⟨-, hold₁⟩
    · rcases hheld k₂ id' h₂ with ⟨rfl, -⟩ | ⟨-, hold₂⟩
      · rfl
      · have hle := (h.drawn k₂ id' hold₂).1
        omega
    · rcases hheld k₂ id' h₂ with ⟨rfl, rfl⟩ | ⟨-, hold₂⟩
      · have hle := (h.drawn k₁ id' hold₁).1
        omega
      · exact h.different k₁ k₂ id' hold₁ hold₂
  · rcases List.mem_or_eq_of_mem_set hd with hmem | rfl
    · exact h.clock d hmem now' hd'
    · cases hd'
  · have hcount := Counting.countP_set (p := Draw.has_id) hk ⟨rows, .drawn id⟩
    have hprev := h.last
    have hsucc : (s.draws.set k ⟨rows, .drawn id⟩).countP Draw.has_id =
        s.draws.countP Draw.has_id + 1 := hcount
    show id ≤ bound - 1 + (s.draws.set k ⟨rows, .drawn id⟩).countP Draw.has_id
    rw [hsucc]
    omega

theorem Fresh.insert_ok (h : s.Fresh bound) {rows : List ReducedData} {id : Int}
    (hk : s.draws[k]? = some ⟨rows, .drawn id⟩) :
    Fresh { s with
      draws := s.draws.set k ⟨rows, .inserted⟩, store := s.store.insert id rows } bound := by
  have hmine : s.held k = some id := by
    rw [held, hk]
    rfl
  obtain ⟨hle, hunused⟩ := h.drawn k id hmine
  have hset := h.set hk ⟨rows, .inserted⟩ rfl rfl rfl
  have hheld : ∀ k' id', held { s with
        draws := s.draws.set k ⟨rows, .inserted⟩, store := s.store.insert id rows } k' = some id' →
      k' ≠ k ∧ s.held k' = some id' := by
    intro k' id' hk'
    rw [held, held_set hk] at hk'
    split at hk'
    · cases hk'
    · rename_i hne
      exact ⟨hne, hk'⟩
  have hids : ∀ id', id' ∈ (s.store.insert id rows).inserted.map Prod.fst ↔
      id' ∈ s.store.inserted.map Prod.fst ∨ id' = id := by
    intro id'
    simp [TreeSnapshot.insert]
  refine ⟨?_, fun e he => ?_, fun k' id' hk' => ?_, hset.different, hset.clock, hset.last⟩
  · show ((s.store.inserted ++ [(id, rows)]).map Prod.fst).Nodup
    rw [List.map_append, List.nodup_append]
    refine ⟨h.distinct, List.nodup_singleton _, fun a ha b hb => ?_⟩
    rintro rfl
    rw [List.mem_singleton.mp hb] at ha
    exact hunused ha
  · rcases List.mem_append.mp he with hold | hnew
    · exact h.inserted e hold
    · rw [List.mem_singleton.mp hnew]
      exact hle
  · obtain ⟨hne, hold⟩ := hheld k' id' hk'
    obtain ⟨hle', hunused'⟩ := h.drawn k' id' hold
    refine ⟨hle', fun hmem => ?_⟩
    rcases (hids id').mp hmem with hmem' | rfl
    · exact hunused' hmem'
    · exact hne (h.different k' k id' hold hmine)

/-! ## Runs -/

/-- A step that leaves threads and insertions alone. -/
theorem Fresh.store_kept (h : s.Fresh bound) {store : TreeSnapshot}
    (hinserted : store.inserted = s.store.inserted) : Fresh { s with store } bound := by
  have hdistinct : store.Distinct := by
    unfold TreeSnapshot.Distinct
    rw [hinserted]
    exact h.distinct
  refine ⟨hdistinct, ?_, ?_, h.different, h.clock, h.last⟩
  · rw [hinserted]
    exact h.inserted
  · rw [hinserted]
    exact h.drawn

theorem Fresh.draw (h : s.Fresh bound) (rows : List ReducedData) {now : Int} (hnow : now ≤ bound) :
    (s.next (.draw rows now)).Fresh bound := by
  have hheld : ∀ k id, (s.next (.draw rows now)).held k = some id → s.held k = some id := by
    intro k id hk
    change ((s.draws ++ [⟨rows, .stamped now⟩])[k]?).bind Draw.id = some id at hk
    rcases Nat.lt_or_ge k s.draws.length with hlt | hge
    · rwa [List.getElem?_append_left hlt] at hk
    obtain ⟨d, hd, hid⟩ := Option.bind_eq_some_iff.mp hk
    rw [List.getElem?_append_right hge] at hd
    rw [List.mem_singleton.mp (List.mem_of_getElem? hd)] at hid
    cases hid
  refine ⟨h.distinct, h.inserted, fun k id hk => h.drawn k id (hheld k id hk),
    fun k k' id hk hk' => h.different k k' id (hheld k id hk) (hheld k' id hk'),
    fun d hd now' hd' => ?_, ?_⟩
  · rcases List.mem_append.mp hd with hold | hnew
    · exact h.clock d hold now' hd'
    · rw [List.mem_singleton.mp hnew] at hd'
      cases hd'
      exact hnow
  · have hcount : (s.draws ++ [(⟨rows, .stamped now⟩ : Draw)]).countP Draw.has_id =
        s.draws.countP Draw.has_id := by
      rw [List.countP_append]
      rfl
    show s.last_snapshot_id ≤
      bound - 1 + (s.draws ++ [(⟨rows, .stamped now⟩ : Draw)]).countP Draw.has_id
    rw [hcount]
    exact h.last

/-- One step, as long as there is room for the ids of all threads. -/
theorem next_ok (hfresh : s.Fresh bound) (hkept : s.store.Kept) (l : Label)
    (hclock : ∀ rows now, l = .draw rows now → now ≤ bound)
    (hroom : bound - 1 + s.draws.length ≤ i64Max) :
    (s.next l).Fresh bound ∧ (s.next l).store.Kept := by
  have hdistinct := hfresh.distinct
  cases l with
  | draw rows now => exact ⟨hfresh.draw rows (hclock rows now rfl), hkept⟩
  | load k =>
    simp only [next, load]
    split
    · rename_i rows now hk
      exact ⟨hfresh.set hk _ rfl rfl rfl, hkept⟩
    · exact ⟨hfresh, hkept⟩
  | exchange k =>
    simp only [next, exchange]
    split
    · rename_i rows now last hk
      split
      · rename_i heq
        subst heq
        exact ⟨hfresh.exchange_ok hk hroom, hkept⟩
      · exact ⟨hfresh.set hk _ rfl rfl rfl, hkept⟩
    · exact ⟨hfresh, hkept⟩
  | insert k =>
    simp only [next, insert]
    split
    · rename_i rows id hk
      have hmine : s.held k = some id := by
        rw [held, hk]
        rfl
      exact ⟨hfresh.insert_ok hk, hkept.insert (hfresh.drawn k id hmine).2 rows⟩
    · exact ⟨hfresh, hkept⟩
  | pick timestamp =>
    refine ⟨hfresh.store_kept ?_, hkept.pick timestamp⟩
    unfold TreeSnapshot.pick
    split <;> rfl
  | commit k =>
    refine ⟨hfresh.store_kept ?_, hkept.commit hdistinct k⟩
    unfold TreeSnapshot.commit
    split <;> rfl
  | remove k =>
    refine ⟨hfresh.store_kept ?_, hkept.remove k⟩
    unfold TreeSnapshot.remove
    split <;> rfl
  | read timestamp => exact ⟨hfresh.store_kept rfl, hkept.read hdistinct timestamp⟩
  | beginRead k =>
    refine ⟨hfresh.store_kept ?_, hkept.begin_read hdistinct k⟩
    unfold TreeSnapshot.begin_read
    repeat' split <;> try rfl
  | openTable k =>
    refine ⟨hfresh.store_kept ?_, hkept.open_table k⟩
    unfold TreeSnapshot.open_table
    repeat' split <;> try rfl
  | removeTask timestamp =>
    refine ⟨hfresh.store_kept ?_, hkept.remove_task timestamp⟩
    unfold TreeSnapshot.remove_task
    split <;> rfl

theorem length_draws_next (s : Snapshots) (l : Label) :
    (s.next l).draws.length = s.draws.length + if l.is_draw then 1 else 0 := by
  cases l with
  | draw rows now => exact List.length_append
  | load k =>
    simp only [next, load]
    split
    · exact List.length_set
    · rfl
  | exchange k =>
    simp only [next, exchange]
    split
    · split
      · exact List.length_set
      · exact List.length_set
    · rfl
  | insert k =>
    simp only [next, insert]
    split
    · exact List.length_set
    · rfl
  | pick | commit | remove | read | beginRead | openTable | removeTask => rfl

/-- In every run whose ids fit below `i64::MAX`, no two insertions use one id, and a reader that
begins after an insertion, and is answered before the table is deleted, finds the snapshot and
reads from it what was inserted. -/
theorem snapshots_immutable (labels : List Label) (bound : Int) (hpos : 1 ≤ bound)
    (hclock : ∀ rows now, Label.draw rows now ∈ labels → now ≤ bound)
    (hroom : bound + labels.countP Label.is_draw ≤ i64Max + 1) :
    (LTS.run next start labels).store.Distinct ∧
      ∀ r ∈ (LTS.run next start labels).store.reads, ∀ rows cow, r.expects = some rows →
        r.point = .answered cow false → ∃ c, cow = some c ∧ c.Gives rows := by
  have hinv : (LTS.run next start labels).Fresh bound ∧ (LTS.run next start labels).store.Kept ∧
      (LTS.run next start labels).draws.length = labels.countP Label.is_draw := by
    refine LTS.run_induction (Q := fun (done : List Label) (t : Snapshots) =>
      t.Fresh bound ∧ t.store.Kept ∧ t.draws.length = done.countP Label.is_draw) ?_ ?_
    · refine ⟨⟨List.nodup_nil, ?_, ?_, ?_, ?_, ?_⟩, ⟨?_, ?_, ?_, ?_, ?_⟩, rfl⟩
      · exact fun e he => by cases he
      · exact fun k id hk => by cases hk
      · exact fun k k' id hk => by cases hk
      · exact fun d hd => by cases hd
      · show (0 : Int) ≤ bound - 1 + 0
        omega
      · exact fun t rows hrows => by cases hrows
      · exact fun t table htable => by cases htable
      · exact fun t rows hmem => by cases hmem
      · exact fun turn hturn => by cases hturn
      · exact fun r hr => by cases hr
    · intro done l hdone hinv
      obtain ⟨hfresh, hkept, hlength⟩ := hinv
      have hl : l ∈ labels := hdone.subset (by simp)
      have hcount : done.countP Label.is_draw ≤ labels.countP Label.is_draw :=
        ((List.prefix_append done [l]).trans hdone).sublist.countP_le
      obtain ⟨hfresh', hkept'⟩ := next_ok hfresh hkept l
        (fun rows now heq => hclock rows now (heq ▸ hl)) (by omega)
      refine ⟨hfresh', hkept', ?_⟩
      rw [length_draws_next, hlength, List.countP_append, List.countP_singleton]
  obtain ⟨hfresh, hkept, -⟩ := hinv
  refine ⟨hfresh.distinct, fun r hr rows cow hexpects hpoint => ?_⟩
  have hok := (hkept.reads r hr rows hexpects).2
  rw [hpoint] at hok
  obtain ⟨c, hc, hrepresents⟩ := hok rfl
  exact ⟨c, hc, hrepresents.gives⟩

def sea_row (asset_id : String) : ReducedData := ⟨asset_id, "hash", 4, 3, 0, 0, false⟩

/-- The `k`-th thread draws its id and inserts its rows. -/
def inserts (k : Nat) : List Label := [.load k, .exchange k, .insert k]

/-- A snapshot is read from memory, flushed, and read from disk. -/
def read_twice : List Label :=
  [.draw [sea_row "a"] 5] ++ inserts 0 ++ [.read 5, .pick 5, .commit 0, .remove 0, .read 5,
    .beginRead 1, .openTable 1]

theorem snapshots_immutable_flushed :
    let s := LTS.run next start read_twice
    s.store.in_memory.keys = [] ∧
      s.store.reads.map (fun r => r.expects) = [some [sea_row "a"], some [sea_row "a"]] ∧
      s.store.Distinct ∧ ∀ r ∈ s.store.reads, ∀ rows cow, r.expects = some rows →
        r.point = .answered cow false → ∃ c, cow = some c ∧ c.Gives rows := by
  refine ⟨by decide +kernel, by decide +kernel, ?_⟩
  refine snapshots_immutable read_twice 5 (by decide) (fun rows now hmem => ?_) (by decide)
  simp only [read_twice, inserts, List.cons_append, List.nil_append, List.mem_cons,
    Label.draw.injEq, reduceCtorEq, List.not_mem_nil, or_false] at hmem
  omega

/-- Three snapshots one millisecond before the end of the range. -/
def end_of_range : List Label :=
  [.draw [sea_row "a"] (i64Max - 1)] ++ inserts 0 ++ [.draw [sea_row "b"] (i64Max - 1)] ++
    inserts 1 ++ [.draw [sea_row "c"] (i64Max - 1)] ++ inserts 2

/-- The second and the third have the same id, and a reader of the second gets the rows of the
third. -/
theorem last_id_given_twice :
    let s := LTS.run next start end_of_range
    s.store.inserted = [(i64Max - 1, [sea_row "a"]), (i64Max, [sea_row "b"]),
        (i64Max, [sea_row "c"])] ∧
      ¬ s.store.Distinct ∧ s.store.in_memory.lookup i64Max = some [sea_row "c"] := by
  intro s
  have hinserted : s.store.inserted = [(i64Max - 1, [sea_row "a"]), (i64Max, [sea_row "b"]),
      (i64Max, [sea_row "c"])] := by decide +kernel
  refine ⟨hinserted, ?_, by decide +kernel⟩
  unfold TreeSnapshot.Distinct
  rw [hinserted]
  decide +kernel

end Snapshots
