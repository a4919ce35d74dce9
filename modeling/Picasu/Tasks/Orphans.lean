import Picasu.Framework.Counting
import Picasu.Tasks.SnapshotRows

/-! # Orphaned Snapshots

Rows of the query cache get lost in four places. A prefetch puts its row over that of another one
that asked the same, in memory. The flush task puts it over that of another one on disk. It
removes from memory what was not what it wrote, since between the two a prefetch put its row
there, or wrote nothing, as the insertion failed. And a table expires while a snapshot that it
lists is still in memory, where `remove_task` does not look.

* `Dated`: what ids tell. All rows that list a snapshot are copies of one;
* `noOrphans_next_iff`: exactly which steps keep every snapshot listed;
* `no_orphans_iff`: the same for every run;
* `orphan_stays`: what is once orphaned is never deleted.
-/

open LTS QuerySnapshot Counting

namespace SnapshotRows

variable (s : SnapshotRows)

/-! ## Ids -/

/-- Ids are drawn once. One that a prefetch holds is not listed yet, and all rows that list one
snapshot are copies. -/
structure Dated : Prop where
  row_le : ∀ h place p, s.row h place = some p → p.timestamp ≤ s.last_snapshot_id
  held_le : ∀ k id, held s.calls k = some id → id ≤ s.last_snapshot_id
  held_inj : ∀ k k' id, held s.calls k = some id → held s.calls k' = some id → k = k'
  row_ne : ∀ h place p k, s.row h place = some p → held s.calls k ≠ some p.timestamp
  copies : ∀ h h' place place' p p', s.row h place = some p → s.row h' place' = some p' →
    p.timestamp = p'.timestamp → h = h' ∧ p = p'

theorem dated_start : start.Dated := by
  have hrow : ∀ h place p, start.row h place ≠ some p := by
    intro h place p hrow
    cases place <;> cases hrow
  have hheld : ∀ k id, held start.calls k ≠ some id := by
    intro k id hheld
    cases hheld
  exact ⟨fun h place p hr => absurd hr (hrow h place p), fun k id hk => absurd hk (hheld k id),
    fun k _ id hk => absurd hk (hheld k id),
    fun h place p _ hr => absurd hr (hrow h place p),
    fun h _ place _ p _ hr => absurd hr (hrow h place p)⟩

section Dated

variable {s} {k : Nat} {h : UInt64} {place : Place} {p : Prefetch} {l : Label}

theorem held_of_inserted (hc : s.calls[k]? = some ⟨h, .inserted p⟩) :
    held s.calls k = some p.timestamp := by
  rw [held, hc]
  rfl

/-- Once it has written its row, a prefetch holds nothing. -/
theorem held_answered {rows : List ReducedData} {locate_to : Option Nat} {now : Int}
    (hc : s.calls[k]? = some ⟨h, .inserted p⟩) :
    held (s.next (.go k rows locate_to now)).calls k = none := by
  simp only [next, hc]
  exact (held_set hc).trans (if_pos rfl)

/-- The id of a row was in a row before, or was held by the prefetch that writes it. -/
theorem Dated.next (hdated : s.Dated) (hroom : s.last_snapshot_id < i64Max) (l : Label) :
    (s.next l).Dated := by
  have hlast := last_le_next hroom l
  refine ⟨?_, ?_, ?_, ?_, ?_⟩
  · intro h place p hrow
    rcases row_of_next hrow with ⟨place', hold⟩ | ⟨k, rows, locate_to, now, -, hc⟩
    · exact Int.le_trans (hdated.row_le h place' p hold) hlast
    · exact Int.le_trans (hdated.held_le k _ (held_of_inserted hc)) hlast
  · intro k id hheld
    rcases held_of_next hroom hheld with hold | ⟨-, -, heq⟩
    · exact Int.le_trans (hdated.held_le k id hold) hlast
    · exact Int.le_of_eq heq
  · -- an id that is drawn in this step is above all that are held
    intro k k' id hheld hheld'
    rcases held_of_next hroom hheld with hold | ⟨⟨_, _, _, hgo⟩, hlt, -⟩
    · rcases held_of_next hroom hheld' with hold' | ⟨-, hlt, -⟩
      · exact hdated.held_inj k k' id hold hold'
      · have hle := hdated.held_le k id hold
        omega
    · rcases held_of_next hroom hheld' with hold' | ⟨⟨_, _, _, hgo'⟩, -, -⟩
      · have hle := hdated.held_le k' id hold'
        omega
      · cases hgo.symm.trans hgo'
        rfl
  · -- a new row is of the prefetch that held its id until now
    intro h place p k hrow hheld
    rcases row_of_next hrow with ⟨place', hold⟩ | ⟨k', rows, locate_to, now, rfl, hc⟩
    · rcases held_of_next hroom hheld with hheld | ⟨-, hlt, -⟩
      · exact hdated.row_ne h place' p k hold hheld
      · have hle := hdated.row_le h place' p hold
        omega
    · have hin := held_of_inserted hc
      rcases held_of_next hroom hheld with hheld' | ⟨-, hlt, -⟩
      · obtain rfl := hdated.held_inj k k' _ hheld' hin
        rw [held_answered hc] at hheld
        cases hheld
      · have hle := hdated.held_le k' _ hin
        omega
  · intro h h' place place' p p' hrow hrow' heq
    rcases row_of_next hrow with ⟨q, hold⟩ | ⟨k, rows, locate_to, now, rfl, hc⟩
    · rcases row_of_next hrow' with ⟨q', hold'⟩ | ⟨k', _, _, _, rfl, hc'⟩
      · exact hdated.copies h h' q q' p p' hold hold' heq
      · exact absurd (heq ▸ held_of_inserted hc') (hdated.row_ne h q p k' hold)
    · rcases row_of_next hrow' with ⟨q', hold'⟩ | ⟨k', _, _, _, hgo, hc'⟩
      · exact absurd (heq ▸ held_of_inserted hc) (hdated.row_ne h' q' p' k hold')
      · cases hgo
        cases hc.symm.trans hc'
        exact ⟨rfl, rfl⟩

end Dated

/-! ## Orphans -/

section Orphans

variable {s} {k : Nat} {id : Int} {h : UInt64} {place : Place} {p : Prefetch} {l : Label}

/-- A snapshot is new only with a prefetch that is about to list it. -/
theorem stored_of_next (hstored : (s.next l).Stored id) : s.Stored id ∨ (s.next l).Between id := by
  cases l with
  | go k rows locate_to now =>
    simp only [next] at hstored ⊢
    cases hc : s.calls[k]? with
    | none =>
      rw [hc] at hstored
      exact Or.inl hstored
    | some c =>
      rw [hc] at hstored
      obtain ⟨query_hash, point⟩ := c
      cases point with
      | looking | reading =>
        simp only [call_step] at hstored
        split at hstored <;> exact Or.inl hstored
      | missed | computing | filtered | inserted | answered => exact Or.inl hstored
      | drawn rows locate_to timestamp =>
        rcases hstored with hmem | hdisk
        · rcases (AList.mem_insert _).mp hmem with rfl | hold
          · -- the snapshot that is stored in this step
            exact Or.inr ⟨_, mem_set_self hc _, rfl⟩
          · exact Or.inl (Or.inl hold)
        · exact Or.inl (Or.inr hdisk)
  | flush_tree timestamp =>
    left
    simp only [next, flush_tree] at hstored
    split at hstored
    · next rows hrows =>
      rcases hstored with hmem | hdisk
      · exact Or.inl hmem
      · rcases (AList.mem_insert _).mp hdisk with rfl | hold
        · -- what goes to the disk was in memory
          exact Or.inl (AList.lookup_isSome.mp (by simp [hrows]))
        · exact Or.inr hold
    · exact hstored
  | remove_tree n =>
    left
    simp only [next] at hstored
    split at hstored
    · exact hstored.imp_left fun hmem => (AList.mem_erase.mp hmem).2
    · exact hstored
  | remove_task n =>
    left
    simp only [next, remove_task] at hstored
    split at hstored
    · split at hstored
      · exact hstored.imp_right fun hdisk => (AList.mem_erase.mp hdisk).2
      · exact hstored
    · exact hstored
  | set_version | prefetch => exact Or.inl hstored
  | flush_begin | flush_remove | check_begin | check_commit =>
    left
    simp only [next] at hstored
    split at hstored <;> exact hstored
  | flush_end outcome =>
    left
    simp only [next] at hstored
    split at hstored
    · cases outcome <;> exact hstored
    · exact hstored
  | check_table version =>
    left
    simp only [next, check_table] at hstored
    split at hstored
    · split_ifs at hstored <;> exact hstored
    · exact hstored

/-- A step that drops a row does nothing to the snapshots. -/
theorem stored_next_of_drops (hdrops : s.Drops h place l) (hstored : s.Stored id) :
    (s.next l).Stored id := by
  cases l with
  | go k rows locate_to now =>
    obtain ⟨-, q, hc⟩ := hdrops
    simp only [next, hc]
    exact hstored
  | flush_end outcome =>
    simp only [next]
    split
    · cases outcome <;> exact hstored
    · exact hstored
  | flush_remove | check_commit =>
    simp only [next]
    split <;> exact hstored
  | _ => exact hdrops.elim

/-- A prefetch between its two inserts stays there, or lists its snapshot. -/
theorem between_next (hbetween : s.Between id) : (s.next l).Between id ∨ (s.next l).Listed id := by
  obtain ⟨c, hmem, hpoint⟩ := hbetween
  rcases calls_next s l with ⟨k, rows, locate_to, now, rfl⟩ | ⟨query_hash, rfl⟩ | ⟨hcalls, -⟩
  · obtain ⟨m, hm⟩ := List.mem_iff_getElem?.mp hmem
    by_cases hkm : m = k
    · subst hkm
      obtain ⟨query_hash, point⟩ := c
      obtain ⟨q, rfl, rfl⟩ := PrefetchPoint.unlisted_eq_some.mp hpoint
      exact Or.inr ⟨query_hash, .memory, q, row_next.mpr (Or.inr ⟨rfl, hm⟩), rfl⟩
    · left
      refine ⟨c, List.mem_iff_getElem?.mpr ⟨m, ?_⟩, hpoint⟩
      simp only [next]
      split
      · next c' hc' =>
        obtain ⟨point, hcalls⟩ := calls_call_step hc' rows locate_to now
        rw [hcalls, List.getElem?_set_ne (Ne.symm hkm), hm]
      · exact hm
  · exact Or.inl ⟨c, List.mem_append_left _ hmem, hpoint⟩
  · exact Or.inl ⟨c, hcalls ▸ hmem, hpoint⟩

/-- What is written was held by the prefetch, or is copied from memory. -/
theorem source_of_writes (hwrites : s.Writes h place p l) :
    (∃ k, held s.calls k = some p.timestamp) ∨
      s.row h .memory = some p ∧ ¬ s.Drops h .memory l := by
  cases l with
  | go k rows locate_to now => exact Or.inl ⟨k, held_of_inserted hwrites.2⟩
  | flush_end outcome =>
    cases outcome with
    | failed | unwritten => exact hwrites.elim
    | written =>
      refine Or.inr ⟨hwrites.1, ?_⟩
      rintro ⟨-, _, hplace, -⟩
      cases hplace
  | _ => exact hwrites.elim

/-- Exactly the steps that lose no row keep every snapshot listed. -/
theorem noOrphans_next_iff (hdated : s.Dated) (hroom : s.last_snapshot_id < i64Max)
    (hnone : s.NoOrphans) : (s.next l).NoOrphans ↔ s.StepOk l := by
  constructor
  · intro hafter h place p hdrops hrow hstored
    rcases hafter p.timestamp (stored_next_of_drops hdrops hstored) with
      ⟨h', place', p', hrow', hp'⟩ | ⟨c, hmem, hpoint⟩
    · rcases row_next.mp hrow' with ⟨hold, hkept⟩ | hwrites
      · -- whatever lists the snapshot now is a copy of the row that is dropped
        obtain ⟨rfl, rfl⟩ := hdated.copies _ _ _ _ _ _ hold hrow hp'
        exact ⟨place', hold, hkept⟩
      · rcases source_of_writes hwrites with ⟨k, hheld⟩ | ⟨hmem, hkept⟩
        · rw [hp'] at hheld
          exact absurd hheld (hdated.row_ne h place p k hrow)
        · obtain ⟨rfl, rfl⟩ := hdated.copies _ _ _ _ _ _ hmem hrow hp'
          exact ⟨.memory, hmem, hkept⟩
    · obtain ⟨k, hk⟩ := List.mem_iff_getElem?.mp hmem
      -- no prefetch can still hold an id that is listed
      have hheld : held (s.next l).calls k = some p.timestamp := by
        obtain ⟨q, hq, heq⟩ := PrefetchPoint.unlisted_eq_some.mp hpoint
        rw [held, hk, ← heq, Option.bind_some, hq]
        rfl
      rcases held_of_next hroom hheld with hold | ⟨-, hlt, -⟩
      · exact absurd hold (hdated.row_ne h place p k hrow)
      · have hle := hdated.row_le h place p hrow
        omega
  · intro hok id hstored
    rcases stored_of_next hstored with hold | hbetween
    · rcases hnone id hold with ⟨h, place, p, hrow, rfl⟩ | hbetween
      · by_cases hdrops : s.Drops h place l
        · obtain ⟨place', hrow', hkept⟩ := hok h place p hdrops hrow hold
          exact Or.inl ⟨h, place', p, row_next.mpr (Or.inl ⟨hrow', hkept⟩), rfl⟩
        · exact Or.inl ⟨h, place, p, row_next.mpr (Or.inl ⟨hrow, hdrops⟩), rfl⟩
      · exact (between_next hbetween).symm
    · exact Or.inr hbetween

end Orphans

/-! ## Runs -/

/-- No prefetch is between its two inserts. -/
def Quiet : Prop := ∀ c ∈ s.calls, c.point.unlisted = none

theorem noOrphans_start : start.NoOrphans := by
  intro id hstored
  rcases hstored with hmem | hdisk
  · cases hmem
  · cases hdisk

/-- Ids that have come to the end of the range stay there. -/
theorem full_next {s : SnapshotRows} (hfull : i64Max ≤ s.last_snapshot_id) (l : Label) :
    i64Max ≤ (s.next l).last_snapshot_id := by
  rcases last_next s l with hlast | ⟨now, hlast⟩
  · rw [hlast]
    exact hfull
  · rw [hlast, Caches.next_snapshot_id]
    omega

/-- A run that has not come to the end of the range was not there before. -/
theorem room_before {s : SnapshotRows} {labels pre : List Label} (hpre : pre <+: labels)
    (hroom : (run next s labels).last_snapshot_id < i64Max) :
    (run next s pre).last_snapshot_id < i64Max := by
  obtain ⟨rest, rfl⟩ := hpre
  rw [run_append] at hroom
  by_contra hfull
  have hend : i64Max ≤ (run next (run next s pre) rest).last_snapshot_id :=
    run_invariant (I := fun t : SnapshotRows => i64Max ≤ t.last_snapshot_id) (Int.not_lt.mp hfull)
      fun t l _ ht => full_next ht l
  omega

/-- However the steps of prefetches, flushes and expiry checks interleave: as long as ids are fresh,
every snapshot is listed, or its prefetch is about to list it, throughout exactly the runs in
which no step loses a row. Then every snapshot is listed when no prefetch is between its two
inserts. -/
theorem no_orphans_iff {labels : List Label}
    (hroom : (run next start labels).last_snapshot_id < i64Max) :
    ((∀ pre, pre <+: labels → (run next start pre).NoOrphans) ↔
      ∀ pre l, pre ++ [l] <+: labels → (run next start pre).StepOk l) ∧
    ((∀ pre l, pre ++ [l] <+: labels → (run next start pre).StepOk l) →
      ∀ pre, pre <+: labels → (run next start pre).Quiet →
        ∀ id, (run next start pre).Stored id → (run next start pre).Listed id) := by
  have hdated : ∀ pre, pre <+: labels → (run next start pre).Dated := by
    intro pre hpre
    refine run_induction (Q := fun _ t => Dated t) dated_start fun done l hdone h => ?_
    have hbefore : done <+: labels := ((List.prefix_append done [l]).trans hdone).trans hpre
    exact h.next (room_before hbefore hroom) l
  have hiff : (∀ pre, pre <+: labels → (run next start pre).NoOrphans) ↔
      ∀ pre l, pre ++ [l] <+: labels → (run next start pre).StepOk l := by
    refine run_invariant_iff (I := NoOrphans) (C := StepOk) noOrphans_start ?_
    intro pre l hpre hnone
    have hbefore : pre <+: labels := (List.prefix_append pre [l]).trans hpre
    exact noOrphans_next_iff (hdated pre hbefore) (room_before hbefore hroom) hnone
  refine ⟨hiff, fun hok pre hpre hquiet id hstored => ?_⟩
  rcases hiff.mpr hok pre hpre id hstored with hlisted | ⟨c, hmem, hpoint⟩
  · exact hlisted
  · cases (hquiet c hmem).symm.trans hpoint

/-! ## What is orphaned stays -/

/-- The snapshot is on disk, and nothing can list or remove it. -/
structure Orphan (id : Int) : Prop where
  on_disk : id ∈ s.tree_snapshot.disk
  unlisted : ¬ s.Listed id
  unheld : ∀ k, held s.calls k ≠ some id
  drawn : id ≤ s.last_snapshot_id
  unqueued : ∀ tables queue, s.txn = .check tables queue → id ∉ queue

theorem listed_of_table {s : SnapshotRows} {version id : Int} {rows : Table UInt64 Prefetch}
    (hrows : s.query_snapshot.in_disk.lookup version = some rows) (hid : id ∈ Expiry.listed rows) :
    s.Listed id := by
  obtain ⟨p, hp, rfl⟩ := List.mem_map.mp hid
  obtain ⟨query_hash, hrow⟩ := Table.mem_values.mp hp
  refine ⟨query_hash, .table version, p, ?_, rfl⟩
  show (table s.query_snapshot.in_disk version).lookup query_hash = some p
  rw [table, hrows]
  exact hrow

section Orphan

variable {s} {id : Int}

theorem disk_call_step (s : SnapshotRows) (k : Nat) (c : PrefetchCall) (rows : List ReducedData)
    (locate_to : Option Nat) (now : Int) :
    (s.call_step k c rows locate_to now).tree_snapshot.disk = s.tree_snapshot.disk ∧
      (s.call_step k c rows locate_to now).txn = s.txn := by
  obtain ⟨query_hash, point⟩ := c
  cases point with
  | looking | reading =>
    simp only [call_step]
    split <;> exact ⟨rfl, rfl⟩
  | missed | computing | filtered | drawn | inserted | answered => exact ⟨rfl, rfl⟩

/-- Only what a table lists is removed. -/
theorem Orphan.unqueued_next (h : s.Orphan id) (l : Label) :
    id ∈ (s.next l).tree_snapshot.disk ∧
      ∀ tables queue, (s.next l).txn = .check tables queue → id ∉ queue := by
  have hhere := And.intro h.on_disk h.unqueued
  cases l with
  | set_version | prefetch => exact hhere
  | go k rows locate_to now =>
    simp only [next]
    split
    · next c _ =>
      obtain ⟨hdisk, htxn⟩ := disk_call_step s k c rows locate_to now
      rw [hdisk, htxn]
      exact hhere
    · exact hhere
  | flush_remove | remove_tree =>
    simp only [next]
    split <;> exact hhere
  | flush_begin | check_commit =>
    simp only [next]
    split
    · exact ⟨h.on_disk, fun _ _ htxn => by cases htxn⟩
    · exact hhere
  | flush_end outcome =>
    simp only [next]
    split
    · cases outcome <;> exact ⟨h.on_disk, fun _ _ htxn => by cases htxn⟩
    · exact hhere
  | flush_tree timestamp =>
    simp only [next, flush_tree]
    split
    · exact ⟨(AList.mem_insert _).mpr (Or.inr h.on_disk), h.unqueued⟩
    · exact hhere
  | check_begin =>
    simp only [next]
    split
    · refine ⟨h.on_disk, ?_⟩
      rintro _ _ ⟨⟩
      exact List.not_mem_nil
    · exact hhere
  | check_table version =>
    simp only [next, check_table]
    split
    · next tables queue rows htxn hrows =>
      split_ifs
      · refine ⟨h.on_disk, ?_⟩
        rintro _ _ ⟨⟩ hmem
        rcases List.mem_append.mp hmem with hold | hnew
        · exact h.unqueued tables queue htxn hold
        · -- what is queued is listed by the table
          exact h.unlisted (listed_of_table hrows hnew)
      · exact hhere
    · exact hhere
  | remove_task n =>
    simp only [next, remove_task]
    split
    · next tables queue htxn =>
      have hnot := h.unqueued tables queue htxn
      split
      · next timestamp hn =>
        -- only a snapshot that is queued is removed
        refine ⟨AList.mem_erase.mpr ⟨?_, h.on_disk⟩, ?_⟩
        · rintro rfl
          exact hnot (List.mem_of_getElem? hn)
        · rintro _ _ ⟨⟩ hmem
          exact hnot (List.mem_of_mem_eraseIdx hmem)
      · exact hhere
    · exact hhere

theorem Orphan.next (h : s.Orphan id) (hroom : s.last_snapshot_id < i64Max) (l : Label) :
    (s.next l).Orphan id := by
  refine ⟨(h.unqueued_next l).1, ?_, ?_, Int.le_trans h.drawn (last_le_next hroom l),
    (h.unqueued_next l).2⟩
  · rintro ⟨query_hash, place, p, hrow, rfl⟩
    rcases row_of_next hrow with ⟨place', hold⟩ | ⟨k, _, _, _, -, hc⟩
    · exact h.unlisted ⟨query_hash, place', p, hold, rfl⟩
    · exact h.unheld k (held_of_inserted hc)
  · intro k hheld
    rcases held_of_next hroom hheld with hold | ⟨-, hlt, -⟩
    · exact h.unheld k hold
    · have hle := h.drawn
      omega

/-- Whatever happens, the snapshot is not removed. -/
theorem orphan_stays (h : s.Orphan id) {labels : List Label}
    (hroom : (run next s labels).last_snapshot_id < i64Max) :
    (run next s labels).Orphan id := by
  refine run_induction (Q := fun _ t => Orphan t id) h fun done l hdone hin => ?_
  have hbefore : done <+: labels := (List.prefix_append done [l]).trans hdone
  exact hin.next (room_before hbefore hroom) l

end Orphan

/-! ## Two prefetches -/

def listed_ids : List Int :=
  Expiry.listed s.query_snapshot.in_memory ++ s.query_snapshot.in_disk.values.flatMap Expiry.listed

theorem listed_iff {s : SnapshotRows} {id : Int} : s.Listed id ↔ id ∈ s.listed_ids := by
  rw [listed_ids, List.mem_append, List.mem_flatMap]
  constructor
  · rintro ⟨query_hash, place, p, hrow, rfl⟩
    cases place with
    | memory => exact Or.inl (List.mem_map.mpr ⟨p, Table.mem_values.mpr ⟨query_hash, hrow⟩, rfl⟩)
    | table version =>
      cases hrows : s.query_snapshot.in_disk.lookup version with
      | none =>
        have hempty : table s.query_snapshot.in_disk version = ∅ := by rw [table, hrows]; rfl
        rw [row, QuerySnapshot.row, hempty] at hrow
        cases hrow
      | some rows =>
        have htable : table s.query_snapshot.in_disk version = rows := by rw [table, hrows]; rfl
        rw [row, QuerySnapshot.row, htable] at hrow
        refine Or.inr ⟨rows, Table.mem_values.mpr ⟨version, hrows⟩, ?_⟩
        exact List.mem_map.mpr ⟨p, Table.mem_values.mpr ⟨query_hash, hrow⟩, rfl⟩
  · rintro (hmem | ⟨rows, hrows, hid⟩)
    · obtain ⟨p, hp, rfl⟩ := List.mem_map.mp hmem
      obtain ⟨query_hash, hrow⟩ := Table.mem_values.mp hp
      exact ⟨query_hash, .memory, p, hrow, rfl⟩
    · obtain ⟨version, hversion⟩ := Table.mem_values.mp hrows
      exact listed_of_table hversion hid

instance (id : Int) : Decidable (s.Stored id) := inferInstanceAs (Decidable (_ ∨ _))

instance (id : Int) : Decidable (s.Listed id) := decidable_of_iff _ listed_iff.symm

instance (id : Int) : Decidable (s.Between id) :=
  inferInstanceAs (Decidable (∃ c ∈ s.calls, c.point.unlisted = some id))

instance : Decidable s.Quiet :=
  inferInstanceAs (Decidable (∀ c ∈ s.calls, c.point.unlisted = none))

theorem noOrphans_iff_keys : s.NoOrphans ↔
    ∀ id ∈ s.tree_snapshot.memory.keys ++ s.tree_snapshot.disk.keys,
      s.Listed id ∨ s.Between id := by
  refine forall_congr' fun id => ?_
  rw [List.mem_append]
  exact Iff.rfl

instance : Decidable s.NoOrphans := decidable_of_iff _ s.noOrphans_iff_keys.symm

/-- The `k`-th prefetch makes `n` steps, at this time. -/
def goes (k n : Nat) (now : Int) : List Label := List.replicate n (.go k [] none now)

/-- Two prefetches ask the same, one after the other, and the second is answered from the cache.
Then the table expires, with its snapshot. -/
theorem no_orphans_one_answer :
    let labels : List Label :=
      .set_version 1000 :: .prefetch 7 :: goes 0 7 1001 ++ .prefetch 7 :: goes 1 1 1002 ++
        [.flush_begin 7, .flush_end .written, .flush_remove 0, .flush_tree 1001, .remove_tree 0,
          .set_version 2000, .check_begin, .check_table 1000, .remove_task 0, .check_commit]
    (∀ pre, pre <+: labels → (run next start pre).NoOrphans) ∧
      (∀ pre l, pre ++ [l] <+: labels → (run next start pre).StepOk l) ∧
      ¬ (run next start labels).Stored 1001 := by
  intro labels
  have hroom : (run next start labels).last_snapshot_id < i64Max := by decide +kernel
  have hnone : ∀ pre, pre <+: labels → (run next start pre).NoOrphans := by
    simp only [labels, goes, List.replicate, List.cons_append, List.nil_append,
      forall_prefix_cons, forall_prefix_nil]
    decide +kernel
  exact ⟨hnone, (no_orphans_iff hroom).1.mp hnone, by decide +kernel⟩

/-- Two prefetches that ask the same look into the cache before either has answered. The row of the
second one replaces that of the first, whose snapshot is then not listed any more. It is never
removed. -/
theorem snapshot_orphaned :
    let labels : List Label :=
      .prefetch 7 :: .prefetch 7 :: goes 0 3 1001 ++ goes 1 3 1001 ++ goes 0 4 1001 ++
        goes 1 4 1001 ++ [.flush_tree 1001, .remove_tree 0]
    let s := run next start labels
    s.Quiet ∧ s.Stored 1001 ∧ ¬ s.Listed 1001 ∧
      ∀ later, (run next s later).last_snapshot_id < i64Max → (run next s later).Stored 1001 := by
  intro labels s
  have hunlisted : ¬ s.Listed 1001 := by decide +kernel
  have horphan : s.Orphan 1001 := by
    have hidle : s.txn = .idle := by decide +kernel
    have hdone : ∀ c ∈ s.calls, c.point.id = none := by decide +kernel
    refine ⟨by decide +kernel, hunlisted, fun k hheld => ?_, by decide +kernel, fun _ _ htxn => ?_⟩
    · obtain ⟨c, hc, hid⟩ := Option.bind_eq_some_iff.mp hheld
      cases (hdone c (List.mem_of_getElem? hc)).symm.trans hid
    · cases hidle.symm.trans htxn
  exact ⟨by decide +kernel, by decide +kernel, hunlisted,
    fun later hroom => Or.inr (orphan_stays horphan hroom).on_disk⟩

end SnapshotRows
