import Picasu.Framework.Counting
import Picasu.Framework.Run
import Picasu.Tasks.JobIntake

/-! # Draining the Intake

`drain_intake` reads how many items were submitted and how many were completed, one after the
other and without a lock, until the two agree. That this is exact rests on the records: as long as
no drain of a job has passed, the job has one record, and whoever counts for the job counts there.

* `Inv`: a job is either active, with one record that counts its items, or settled, with all its
  items over;
* `Logged`: every completion is of an item of a job, once, in a record of that job;
* `drain_exact`: a drain returns only after every item of its job was completed, once, and in a
  record of that job.
-/

open PathBuf LTS Counting

/-! ## The records of a job -/

@[simp] theorem Tracked.job_move (x : Tracked) (point : ItemPoint) :
    Tracked.job { x with point } = x.job := rfl

def Tracked.of_job (job_id : Nat) (x : Tracked) : Bool := x.job == some job_id

/-- An item of the job that is counted as submitted. -/
def Tracked.submitted_of (job_id : Nat) (x : Tracked) : Bool :=
  x.job == some job_id && x.point.submitted

/-- An item of the job that is counted as completed. -/
def Tracked.completed_of (job_id : Nat) (x : Tracked) : Bool :=
  x.job == some job_id && x.point == .ended

namespace JobIntake

variable (s : JobIntake)

def Owns (job_id cell : Nat) : Prop := ∃ p, s.cells[cell]? = some p ∧ p.job_id = job_id

/-- No drain of the job has passed. It has at most one record, which is in the map and counts its
items. -/
structure Active (job_id : Nat) : Prop where
  drawn : s.jobs.lookup job_id = none → ∀ x ∈ s.items, x.job = some job_id → x.point = .drawn
  only : ∀ cell, s.Owns job_id cell → s.jobs.lookup job_id = some cell
  counts : ∀ cell p, s.jobs.lookup job_id = some cell → s.cells[cell]? = some p →
    p.submitted = s.items.countP (Tracked.submitted_of job_id) ∧
      p.completed = s.items.countP (Tracked.completed_of job_id)
  waits : ∀ w ∈ s.drains, w.job_id = job_id → w.point.has_passed = false ∧
    ∀ cell n, w.point = .read cell n → n = s.items.countP (Tracked.of_job job_id)

/-- The job has begun to drain, and all its items are over. -/
structure Settled (job_id : Nat) : Prop where
  ended : ∀ x ∈ s.items, x.job = some job_id → x.point = .ended
  drained : ∃ w ∈ s.drains, w.job_id = job_id

/-- Who holds a record holds one of the own job; a job that has begun to drain submits nothing; and
a job goes on until its items are over. -/
structure Inv : Prop where
  mapped : ∀ job_id cell, s.jobs.lookup job_id = some cell → s.Owns job_id cell
  held : ∀ x ∈ s.items, ∀ cell, x.point.cell = some cell → ∃ job_id, x.job = some job_id ∧
    s.Owns job_id cell
  waits : ∀ w ∈ s.drains, (∀ cell, w.point.cell = some cell → s.Owns w.job_id cell) ∧
    ∀ x ∈ s.items, x.job = some w.job_id → x.point.submitting = false
  jobs : ∀ job_id, s.Active job_id ∨ s.Settled job_id

section Inv

variable {s} {n d cell job_id : Nat} {x : Tracked} {w : Drain} {point : ItemPoint}

theorem Owns.unique {job_id' : Nat} (h : s.Owns job_id cell) (h' : s.Owns job_id' cell) :
    job_id = job_id' := by
  obtain ⟨p, hp, rfl⟩ := h
  obtain ⟨p', hp', rfl⟩ := h'
  rw [Option.mem_unique hp hp']

theorem owns_new_record {job_id' : Nat} :
    (s.new_record job_id').Owns job_id cell ↔
      s.Owns job_id cell ∨ cell = s.cells.length ∧ job_id = job_id' := by
  unfold Owns new_record
  constructor
  · rintro ⟨p, hp, rfl⟩
    by_cases hlt : cell < s.cells.length
    · rw [List.getElem?_append_left hlt] at hp
      exact Or.inl ⟨p, hp, rfl⟩
    · rw [List.getElem?_append_right (Nat.le_of_not_lt hlt), List.getElem?_singleton] at hp
      split_ifs at hp with hzero
      obtain rfl := Option.some.inj hp
      exact Or.inr ⟨by omega, rfl⟩
  · rintro (⟨p, hp, hjob⟩ | ⟨rfl, rfl⟩)
    · have hlt := (List.getElem?_eq_some_iff.mp hp).1
      exact ⟨p, by rw [List.getElem?_append_left hlt, hp], hjob⟩
    · exact ⟨_, List.getElem?_concat_length, rfl⟩

variable {f : JobProgress → JobProgress}

/-- Counting does not change whose record it is. -/
theorem owns_modify (hf : ∀ p, (f p).job_id = p.job_id) (cell' : Nat) :
    Owns { s with cells := s.cells.modify cell' f } job_id cell ↔ s.Owns job_id cell := by
  unfold Owns
  rw [List.getElem?_modify]
  cases s.cells[cell]? with
  | none => simp
  | some p =>
    simp only [Option.map_eq_map, Option.map_some, Option.some.injEq, exists_eq_left']
    split_ifs
    · rw [hf p]
    · rfl

theorem inv_empty : empty.Inv := by
  refine ⟨?_, ?_, ?_, fun job_id => Or.inl ⟨?_, ?_, ?_, ?_⟩⟩
  · intro job_id cell hmap
    cases hmap
  · exact fun x hx => absurd hx List.not_mem_nil
  · exact fun w hw => absurd hw List.not_mem_nil
  · exact fun _ x hx => absurd hx List.not_mem_nil
  · rintro cell ⟨p, hp, -⟩
    cases hp
  · intro cell p hmap
    cases hmap
  · exact fun w hw => absurd hw List.not_mem_nil

theorem Inv.active_of_mem (h : s.Inv) (hx : x ∈ s.items) (hjob : x.job = some job_id)
    (hover : x.point ≠ .ended) : s.Active job_id := by
  rcases h.jobs job_id with ha | hs
  · exact ha
  · exact absurd (hs.ended x hx hjob) hover

theorem Inv.release (h : s.Inv) (generations : Table PathBuf Nat) :
    Inv { s with generations } := by
  refine ⟨h.mapped, h.held, h.waits, fun job_id => ?_⟩
  rcases h.jobs job_id with ha | hs
  · exact Or.inl ⟨ha.drawn, ha.only, ha.counts, ha.waits⟩
  · exact Or.inr ⟨hs.ended, hs.drained⟩

theorem Active.submit (ha : s.Active job_id) (hdrawn : x.point = .drawn)
    (horder : ∀ w ∈ s.drains, x.job ≠ some w.job_id) :
    Active { s with items := s.items ++ [x] } job_id := by
  refine ⟨?_, ha.only, ?_, ?_⟩
  · intro hnone y hy hjob
    rcases List.mem_append.mp hy with hy | hy
    · exact ha.drawn hnone y hy hjob
    · rw [List.mem_singleton.mp hy]
      exact hdrawn
  · intro cell p hcell hp
    -- the new item is not counted anywhere yet
    have hsubmitted : x.submitted_of job_id = false := by
      simp [Tracked.submitted_of, hdrawn, ItemPoint.submitted]
    have hcompleted : x.completed_of job_id = false := by simp [Tracked.completed_of, hdrawn]
    obtain ⟨hs, hc⟩ := ha.counts cell p hcell hp
    simp [List.countP_append, hsubmitted, hcompleted, hs, hc]
  · intro w hw hjob
    -- a drain that has read the number of items has begun, and the job submits no more
    have hnew : x.of_job job_id = false := by
      rw [Tracked.of_job, beq_eq_false_iff_ne, ← hjob]
      exact horder w hw
    simpa [List.countP_append, hnew] using ha.waits w hw hjob

theorem Inv.submit (h : s.Inv) (hdrawn : x.point = .drawn)
    (horder : ∀ w ∈ s.drains, x.job ≠ some w.job_id) :
    Inv { s with items := s.items ++ [x] } := by
  have hmem : ∀ y ∈ s.items ++ [x], y ∈ s.items ∨ y = x := by
    intro y hy
    simpa using hy
  refine ⟨h.mapped, ?_, ?_, fun job_id => ?_⟩
  · intro y hy cell hcell
    rcases hmem y hy with hy | rfl
    · exact h.held y hy cell hcell
    · rw [hdrawn] at hcell
      cases hcell
  · intro w hw
    refine ⟨(h.waits w hw).1, fun y hy hjob => ?_⟩
    rcases hmem y hy with hy | rfl
    · exact (h.waits w hw).2 y hy hjob
    · exact absurd hjob (horder w hw)
  · rcases h.jobs job_id with ha | hs
    · exact Or.inl (ha.submit hdrawn horder)
    right
    refine ⟨fun y hy hjob => ?_, hs.drained⟩
    rcases hmem y hy with hy | rfl
    · exact hs.ended y hy hjob
    · obtain ⟨w, hw, rfl⟩ := hs.drained
      exact absurd hjob (horder w hw)

theorem Inv.drain (h : s.Inv)
    (hret : ∀ x ∈ s.items, x.job = some job_id → x.point.submitting = false) :
    Inv { s with drains := s.drains ++ [⟨job_id, .called⟩] } := by
  have hmem : ∀ w ∈ s.drains ++ [⟨job_id, .called⟩], w ∈ s.drains ∨ w = ⟨job_id, .called⟩ := by
    intro w hw
    simpa using hw
  refine ⟨h.mapped, h.held, ?_, fun job => ?_⟩
  · intro w hw
    rcases hmem w hw with hw | rfl
    · exact h.waits w hw
    · refine ⟨fun cell hcell => ?_, hret⟩
      cases hcell
  · rcases h.jobs job with ha | hs
    · left
      refine ⟨ha.drawn, ha.only, ha.counts, fun w hw hjob => ?_⟩
      rcases hmem w hw with hw | rfl
      · exact ha.waits w hw hjob
      · refine ⟨rfl, fun cell n hread => ?_⟩
        cases hread
    · right
      obtain ⟨w, hw, hjob⟩ := hs.drained
      exact ⟨hs.ended, w, List.mem_append_left _ hw, hjob⟩

/-- The job has no record, so none of its items is counted, and a new record is right at zero. -/
theorem Active.first_record (ha : s.Active job_id) (hnone : s.jobs.lookup job_id = none) :
    (s.new_record job_id).Active job_id := by
  have hmap : (s.new_record job_id).jobs.lookup job_id = some s.cells.length :=
    AList.lookup_insert _
  have hdrawn := ha.drawn hnone
  refine ⟨?_, ?_, ?_, ha.waits⟩
  · intro hnone'
    cases hmap.symm.trans hnone'
  · intro cell how
    rcases owns_new_record.mp how with how | ⟨rfl, -⟩
    · cases hnone.symm.trans (ha.only cell how)
    · exact hmap
  · intro cell p hcell hp
    obtain rfl : s.cells.length = cell := Option.mem_unique hmap hcell
    obtain rfl : ⟨job_id, 0, 0⟩ = p := Option.some.inj (List.getElem?_concat_length.symm.trans hp)
    refine ⟨(List.countP_eq_zero.mpr ?_).symm, (List.countP_eq_zero.mpr ?_).symm⟩
    · intro x hx hsub
      simp only [Tracked.submitted_of, Bool.and_eq_true, beq_iff_eq] at hsub
      rw [hdrawn x hx hsub.1] at hsub
      cases hsub.2
    · intro x hx hcom
      simp only [Tracked.completed_of, Bool.and_eq_true, beq_iff_eq] at hcom
      rw [hdrawn x hx hcom.1] at hcom
      cases hcom.2

theorem Active.other_record {job : Nat} (ha : s.Active job) (hjob : job ≠ job_id)
    (hmapped : ∀ cell, s.jobs.lookup job = some cell → s.Owns job cell) :
    (s.new_record job_id).Active job := by
  have hmap : (s.new_record job_id).jobs.lookup job = s.jobs.lookup job :=
    AList.lookup_insert_ne hjob
  refine ⟨?_, ?_, ?_, ha.waits⟩
  · rw [hmap]
    exact ha.drawn
  · intro cell how
    rw [hmap]
    rcases owns_new_record.mp how with how | ⟨-, heq⟩
    · exact ha.only cell how
    · exact absurd heq hjob
  · intro cell p hcell hp
    rw [hmap] at hcell
    -- the record is an old one, so it stands where it stood
    obtain ⟨p', hp', -⟩ := hmapped cell hcell
    have hlt := (List.getElem?_eq_some_iff.mp hp').1
    rw [JobIntake.new_record, List.getElem?_append_left hlt] at hp
    exact ha.counts cell p hcell hp

theorem Inv.new_record (h : s.Inv) (hnone : s.jobs.lookup job_id = none) :
    (s.new_record job_id).Inv := by
  have hkeep : ∀ {job cell}, s.Owns job cell → (s.new_record job_id).Owns job cell :=
    fun how => owns_new_record.mpr (Or.inl how)
  refine ⟨?_, ?_, ?_, fun job => ?_⟩
  · intro job cell hcell
    by_cases hjob : job = job_id
    · subst hjob
      rw [JobIntake.new_record, AList.lookup_insert] at hcell
      exact owns_new_record.mpr (Or.inr ⟨(Option.some.inj hcell).symm, rfl⟩)
    · rw [JobIntake.new_record, AList.lookup_insert_ne hjob] at hcell
      exact hkeep (h.mapped job cell hcell)
  · intro x hx cell hcell
    obtain ⟨job, hjob, how⟩ := h.held x hx cell hcell
    exact ⟨job, hjob, hkeep how⟩
  · intro w hw
    exact ⟨fun cell hcell => hkeep ((h.waits w hw).1 cell hcell), (h.waits w hw).2⟩
  · rcases h.jobs job with ha | hs
    · left
      by_cases hjob : job = job_id
      · subst hjob
        exact ha.first_record hnone
      · exact ha.other_record hjob (h.mapped job)
    · -- a settled job may get a record again, which counts nothing
      exact Or.inr ⟨hs.ended, hs.drained⟩

/-- The job of an item that is past its first step has its record in the map. -/
theorem Inv.lookup_ne_none (h : s.Inv) (hx : x ∈ s.items) (hjob : x.job = some job_id)
    (hover : x.point ≠ .ended) (hdrawn : x.point ≠ .drawn) : s.jobs.lookup job_id ≠ none :=
  fun hnone => hdrawn ((h.active_of_mem hx hjob hover).drawn hnone x hx hjob)

/-- An item of a job moves on: it is counted as before it, and as after it. -/
theorem countP_set_own {items : List Tracked} (hx : items[n]? = some x)
    (hjob : x.job = some job_id) (hover : x.point ≠ .ended) (point : ItemPoint) :
    (items.set n { x with point }).countP (Tracked.submitted_of job_id) +
          (if x.point.submitted then 1 else 0) =
        items.countP (Tracked.submitted_of job_id) + (if point.submitted then 1 else 0) ∧
      (items.set n { x with point }).countP (Tracked.completed_of job_id) =
        items.countP (Tracked.completed_of job_id) + if point = .ended then 1 else 0 := by
  have hsub := countP_set (p := Tracked.submitted_of job_id) hx { x with point }
  have hcom := countP_set (p := Tracked.completed_of job_id) hx { x with point }
  simp only [Tracked.submitted_of, Tracked.job_move, hjob, beq_self_eq_true, Bool.true_and] at hsub
  simp only [Tracked.completed_of, Tracked.job_move, hjob, beq_self_eq_true, Bool.true_and,
    beq_iff_eq, hover, if_false] at hcom
  exact ⟨hsub, hcom⟩

/-- For another job it does not count. -/
theorem countP_set_other {items : List Tracked} (hx : items[n]? = some x)
    (hjob : x.job ≠ some job_id) (point : ItemPoint) :
    (items.set n { x with point }).countP (Tracked.submitted_of job_id) =
        items.countP (Tracked.submitted_of job_id) ∧
      (items.set n { x with point }).countP (Tracked.completed_of job_id) =
        items.countP (Tracked.completed_of job_id) := by
  have hne : (x.job == some job_id) = false := beq_eq_false_iff_ne.mpr hjob
  constructor
  · exact countP_set_of_eq hx (by simp [Tracked.submitted_of, hne])
  · exact countP_set_of_eq hx (by simp [Tracked.completed_of, hne])

/-- An item moves on, and the records change with it: each counts the items of its job as before. -/
theorem Inv.move (h : s.Inv) (hx : s.items[n]? = some x) (hover : x.point ≠ .ended)
    {cells : List JobProgress} (completions : List (Nat × Nat))
    (howns : ∀ job_id cell, Owns { s with cells } job_id cell ↔ s.Owns job_id cell)
    (hcell : ∀ cell, point.cell = some cell → ∃ job_id, x.job = some job_id ∧ s.Owns job_id cell)
    (hsubmitting : point.submitting = true → x.point.submitting = true)
    (hjob : ∀ job_id, x.job = some job_id → s.jobs.lookup job_id ≠ none)
    (hother : ∀ job_id cell, x.job ≠ some job_id → s.jobs.lookup job_id = some cell →
      cells[cell]? = s.cells[cell]?)
    (hown : ∀ job_id cell p, x.job = some job_id → s.jobs.lookup job_id = some cell →
      cells[cell]? = some p → ∃ p', s.cells[cell]? = some p' ∧
        p.submitted + (if x.point.submitted then 1 else 0) =
          p'.submitted + (if point.submitted then 1 else 0) ∧
        p.completed = p'.completed + if point = .ended then 1 else 0) :
    Inv { s with cells, items := s.items.set n { x with point }, completions } := by
  have hxmem : x ∈ s.items := List.mem_of_getElem? hx
  have hmem : ∀ y ∈ s.items.set n { x with point }, y ∈ s.items ∨ y = { x with point } :=
    fun y => List.mem_or_eq_of_mem_set
  refine ⟨fun job cell hmap => (howns job cell).mpr (h.mapped job cell hmap), ?_, ?_, ?_⟩
  · intro y hy cell hcell'
    have hold : ∃ job_id, y.job = some job_id ∧ s.Owns job_id cell := by
      rcases hmem y hy with hy | rfl
      · exact h.held y hy cell hcell'
      · exact hcell cell hcell'
    obtain ⟨job, hj, how⟩ := hold
    exact ⟨job, hj, (howns job cell).mpr how⟩
  · intro w hw
    refine ⟨fun cell hcell' => (howns _ cell).mpr ((h.waits w hw).1 cell hcell'), ?_⟩
    intro y hy hj
    rcases hmem y hy with hy | rfl
    · exact (h.waits w hw).2 y hy hj
    · have hnot := (h.waits w hw).2 x hxmem hj
      refine Bool.eq_false_iff.mpr fun hsub => ?_
      cases (hsubmitting hsub).symm.trans hnot
  · intro job
    rcases h.jobs job with ha | hs
    · left
      refine ⟨?_, fun cell how => ha.only cell ((howns job cell).mp how), ?_, ?_⟩
      · intro hnone y hy hj
        rcases hmem y hy with hy | rfl
        · exact ha.drawn hnone y hy hj
        · exact absurd hnone (hjob job hj)
      · intro cell p hmap hp
        -- the record of the own job counts the move, all others stay
        by_cases hj : x.job = some job
        · obtain ⟨p', hp', hsub', hcom'⟩ := hown job cell p hj hmap hp
          obtain ⟨hs, hc⟩ := ha.counts cell p' hmap hp'
          obtain ⟨hsub, hcom⟩ := countP_set_own hx hj hover point
          rw [hs] at hsub'
          rw [hc] at hcom'
          exact ⟨Nat.add_right_cancel (hsub'.trans hsub.symm), hcom'.trans hcom.symm⟩
        · rw [hother job cell hj hmap] at hp
          obtain ⟨hsub, hcom⟩ := countP_set_other hx hj point
          obtain ⟨hs, hc⟩ := ha.counts cell p hmap hp
          exact ⟨hs.trans hsub.symm, hc.trans hcom.symm⟩
      · -- the number of items that a drain has read does not depend on how far they are
        intro w hw hj
        obtain ⟨hpassed, hread⟩ := ha.waits w hw hj
        refine ⟨hpassed, fun cell m hm => (hread cell m hm).trans ?_⟩
        have hsame : Tracked.of_job job { x with point } = x.of_job job := rfl
        exact (countP_set_of_eq hx hsame).symm
    · right
      refine ⟨fun y hy hj => ?_, hs.drained⟩
      rcases hmem y hy with hy | rfl
      · exact hs.ended y hy hj
      · exact absurd (hs.ended x hxmem hj) hover

theorem Inv.pass (h : s.Inv) (hx : s.items[n]? = some x) (hpass : s.Passes x point) :
    (s.put n x point).Inv := by
  have hxmem := List.mem_of_getElem? hx
  refine h.move hx hpass.ahead s.completions (fun _ _ => Iff.rfl) ?_ hpass.submitting ?_
    (fun _ _ _ _ => rfl) ?_
  · intro cell hcell
    rcases hpass.cell cell hcell with hold | ⟨job, hjob, hmap⟩
    · exact h.held x hxmem cell hold
    · exact ⟨job, hjob, h.mapped job cell hmap⟩
  · intro job hjob
    -- past its first step the item has asked for the record already
    by_cases hdrawn : x.point = .drawn
    · exact (hpass.scan job hjob).2.2 hdrawn
    · exact h.lookup_ne_none hxmem hjob hpass.ahead hdrawn
  · intro job cell p hjob _ hp
    obtain ⟨hover, hsubmitted, -⟩ := hpass.scan job hjob
    exact ⟨p, hp, by rw [hsubmitted], by rw [if_neg hover, Nat.add_zero]⟩

/-- An item moves on with its record, and is counted there. -/
theorem Inv.tally (h : s.Inv) (hx : s.items[n]? = some x) (hover : x.point ≠ .ended)
    (hheld : x.point.cell = some cell) (completions : List (Nat × Nat))
    (hcell : ∀ cell', point.cell = some cell' → cell' = cell)
    (hsubmitting : point.submitting = true → x.point.submitting = true)
    (hf : ∀ p, (f p).job_id = p.job_id ∧
      (f p).submitted + (if x.point.submitted then 1 else 0) =
        p.submitted + (if point.submitted then 1 else 0) ∧
      (f p).completed = p.completed + if point = .ended then 1 else 0) :
    Inv { s with
      cells := s.cells.modify cell f
      items := s.items.set n { x with point }
      completions } := by
  have hxmem := List.mem_of_getElem? hx
  have hdrawn : x.point ≠ .drawn := by
    intro hdrawn
    rw [hdrawn] at hheld
    cases hheld
  -- the record at hand is the one in the map, as there is no other
  obtain ⟨job, hjob, how⟩ := h.held x hxmem cell hheld
  have hmap := (h.active_of_mem hxmem hjob hover).only cell how
  refine h.move hx hover completions (fun _ _ => owns_modify (fun p => (hf p).1) cell) ?_
    hsubmitting (fun j hj => h.lookup_ne_none hxmem hj hover hdrawn) ?_ ?_
  · intro cell' hcell'
    rw [hcell cell' hcell']
    exact ⟨job, hjob, how⟩
  · intro job' cell' hne hmap'
    have hcell' : cell ≠ cell' := by
      rintro rfl
      rw [how.unique (h.mapped job' cell hmap')] at hjob
      exact hne hjob
    rw [List.getElem?_modify, Option.map_eq_map]
    simp only [if_neg hcell', Option.map_id']
  · intro job' cell' p hjob' hmap' hp
    obtain rfl : job = job' := Option.mem_unique hjob hjob'
    obtain rfl : cell = cell' := Option.mem_unique hmap hmap'
    rw [List.getElem?_modify] at hp
    obtain ⟨p', hp', hpeq⟩ := Option.map_eq_some_iff.mp hp
    rw [if_pos rfl] at hpeq
    exact ⟨p', hp', hpeq ▸ (hf p').2⟩

theorem Inv.count (h : s.Inv) (hx : s.items[n]? = some x) (hpoint : x.point = .opened cell) :
    ((s.count_submitted cell).put n x (.counted cell)).Inv := by
  refine h.tally hx ?_ ?_ s.completions ?_ ?_ ?_
  · simp [hpoint]
  · rw [hpoint]
    rfl
  · rintro _ ⟨⟩
    rfl
  · rw [hpoint]
    exact fun _ => rfl
  · rw [hpoint]
    exact fun p => ⟨rfl, rfl, rfl⟩

theorem Inv.complete (h : s.Inv) (hx : s.items[n]? = some x) (hcell : x.point.cell = some cell)
    (hsubmitted : x.point.submitted = true) (hover : x.point ≠ .ended) :
    ((s.note_item_complete n cell).put n x .ended).Inv := by
  refine h.tally hx hover hcell _ ?_ ?_ ?_
  · intro cell' hcell'
    cases hcell'
  · intro hsubmitting
    cases hsubmitting
  · rw [hsubmitted]
    exact fun p => ⟨rfl, rfl, rfl⟩

theorem Inv.put_drain (h : s.Inv) (hw : s.drains[d]? = some w) {point : DrainPoint}
    (hcell : ∀ cell, point.cell = some cell → s.Owns w.job_id cell)
    (hjob : s.Settled w.job_id ∨ point.has_passed = false ∧
      ∀ cell n, point = .read cell n → n = s.items.countP (Tracked.of_job w.job_id)) :
    (s.put_drain d w point).Inv := by
  have hwmem := List.mem_of_getElem? hw
  have hmem : ∀ v ∈ s.drains.set d { w with point }, v ∈ s.drains ∨ v = { w with point } :=
    fun v => List.mem_or_eq_of_mem_set
  refine ⟨h.mapped, h.held, ?_, fun job => ?_⟩
  · intro v hv
    rcases hmem v hv with hv | rfl
    · exact h.waits v hv
    · exact ⟨hcell, (h.waits w hwmem).2⟩
  · have hsettled : s.Settled job → (s.put_drain d w point).Settled job := by
      rintro ⟨hover, v, hv, rfl⟩
      -- the drain that moves is still a drain of its job
      by_cases hvw : v = w
      · exact ⟨hover, { w with point }, mem_set_self hw _, by rw [hvw]⟩
      · exact ⟨hover, v, mem_set_of_ne hw hv hvw _, rfl⟩
    rcases h.jobs job with ha | hs
    · by_cases hown : w.job_id = job
      · subst hown
        rcases hjob with hs | ⟨hpassed, hread⟩
        · exact Or.inr (hsettled hs)
        left
        refine ⟨ha.drawn, ha.only, ha.counts, fun v hv hj => ?_⟩
        rcases hmem v hv with hv | rfl
        · exact ha.waits v hv hj
        · exact ⟨hpassed, hread⟩
      · left
        refine ⟨ha.drawn, ha.only, ha.counts, fun v hv hj => ?_⟩
        rcases hmem v hv with hv | rfl
        · exact ha.waits v hv hj
        · exact absurd hj hown
    · exact Or.inr (hsettled hs)

/-- A job whose items have all been submitted, and whose record has as many completed as there are
items, is settled. -/
theorem Active.settled (ha : s.Active job_id) (hw : w ∈ s.drains) (hjob : w.job_id = job_id)
    (hmap : s.jobs.lookup job_id = some cell)
    (hle : s.items.countP (Tracked.of_job job_id) ≤ (s.cells[cell]?).elim 0 JobProgress.completed)
    (hown : s.Owns job_id cell) : s.Settled job_id := by
  obtain ⟨p, hp, -⟩ := hown
  rw [hp, Option.elim_some, (ha.counts cell p hmap hp).2] at hle
  refine ⟨fun x hx hj => ?_, w, hw, hjob⟩
  -- completed items are items of the job, and there are as many
  have hcompleted := imp_of_countP_le (fun x h => (Bool.and_eq_true_iff.mp h).1) hle x hx
    (beq_iff_eq.mpr hj)
  exact beq_iff_eq.mp (Bool.and_eq_true_iff.mp hcompleted).2

/-- Once the job drains, all its items are submitted, and the record has as many. -/
theorem Inv.submitted_eq (h : s.Inv) (ha : s.Active w.job_id) (hw : w ∈ s.drains)
    (hmap : s.jobs.lookup w.job_id = some cell) :
    (s.cells[cell]?).elim 0 JobProgress.submitted =
      s.items.countP (Tracked.of_job w.job_id) := by
  obtain ⟨p, hp, -⟩ := h.mapped _ cell hmap
  rw [hp, Option.elim_some, (ha.counts cell p hmap hp).1]
  refine List.countP_congr fun x hx => ?_
  simp only [Tracked.submitted_of, Tracked.of_job, Bool.and_eq_true, beq_iff_eq,
    and_iff_left_iff_imp]
  intro hjob
  -- a submit that has returned has counted its item
  have hret := (h.waits w hw).2 x hx hjob
  cases hpoint : x.point <;> rw [hpoint] at hret <;> first | rfl | cases hret

theorem Inv.settled_of_passed (h : s.Inv) (hw : w ∈ s.drains)
    (hpassed : w.point.has_passed = true) : s.Settled w.job_id := by
  rcases h.jobs w.job_id with ha | hs
  · cases hpassed.symm.trans (ha.waits w hw rfl).1
  · exact hs

theorem Inv.wait (h : s.Inv) (hw : s.drains[d]? = some w) {point : DrainPoint}
    (hwait : s.Waits w point) : (s.put_drain d w point).Inv := by
  have hwmem := List.mem_of_getElem? hw
  have hheld := (h.waits w hwmem).1
  cases hwait with
  | opened hmap =>
    refine h.put_drain hw ?_ (Or.inr ⟨rfl, fun _ _ hread => by cases hread⟩)
    rintro _ ⟨⟩
    exact h.mapped _ _ hmap
  | again hpoint =>
    refine h.put_drain hw ?_ (Or.inr ⟨rfl, fun _ _ hread => by cases hread⟩)
    rintro _ ⟨⟩
    exact hheld _ (by rw [hpoint]; rfl)
  | @read cell hpoint =>
    have hown : s.Owns w.job_id cell := hheld cell (by rw [hpoint]; rfl)
    refine h.put_drain hw ?_ ?_
    · rintro _ ⟨⟩
      exact hown
    · rcases h.jobs w.job_id with ha | hs
      · refine Or.inr ⟨rfl, ?_⟩
        rintro _ _ ⟨⟩
        exact h.submitted_eq ha hwmem (ha.only cell hown)
      · exact Or.inl hs
  | @passed cell n hpoint hle =>
    have hown : s.Owns w.job_id cell := hheld cell (by rw [hpoint]; rfl)
    refine h.put_drain hw (fun _ hcell => by cases hcell) (Or.inl ?_)
    rcases h.jobs w.job_id with ha | hs
    · rw [(ha.waits w hwmem rfl).2 cell n hpoint] at hle
      exact ha.settled hwmem rfl (ha.only cell hown) hle hown
    · exact hs
  | returned hpoint =>
    refine h.put_drain hw (fun _ hcell => by cases hcell) (Or.inl ?_)
    exact h.settled_of_passed hwmem (by rw [hpoint]; rfl)

theorem Inv.remove (h : s.Inv) (hw : w ∈ s.drains) (hpoint : w.point = .passed) :
    (s.remove_job w.job_id).Inv := by
  refine ⟨fun job cell hmap => ?_, h.held, h.waits, ?_⟩
  · by_cases hne : job = w.job_id
    · subst hne
      cases (AList.lookup_erase w.job_id s.jobs).symm.trans hmap
    · exact h.mapped job cell ((AList.lookup_erase_ne hne).symm.trans hmap)
  intro job
  by_cases hne : job = w.job_id
  · subst hne
    have hs := h.settled_of_passed hw (by rw [hpoint]; rfl)
    exact Or.inr ⟨hs.ended, hs.drained⟩
  have hsame : (s.jobs.erase w.job_id).lookup job = s.jobs.lookup job := AList.lookup_erase_ne hne
  rcases h.jobs job with ha | hs
  · refine Or.inl ⟨?_, ?_, ?_, ha.waits⟩
    · intro hnone
      exact ha.drawn (hsame.symm.trans hnone)
    · intro cell how
      exact hsame.trans (ha.only cell how)
    · intro cell p hmap hp
      exact ha.counts cell p (hsame.symm.trans hmap) hp
  · exact Or.inr ⟨hs.ended, hs.drained⟩

theorem Act.inv {t : JobIntake} (hact : s.Act t) (h : s.Inv) : t.Inv := by
  cases hact with
  | release generations => exact h.release generations
  | submit hdrawn horder => exact h.submit hdrawn horder
  | drain hret => exact h.drain hret
  | record hnone => exact h.new_record hnone
  | pass hx hpass => exact h.pass hx hpass
  | count hx hpoint => exact h.count hx hpoint
  | complete hx hcell hsubmitted hover => exact h.complete hx hcell hsubmitted hover
  | wait hw hwait => exact h.wait hw hwait
  | remove hw hpoint => exact h.remove hw hpoint

end Inv

/-! ## The log of completions -/

def job_at (n : Nat) : Option Nat := (s.items[n]?).bind Tracked.job

def counted_at (n : Nat) : Bool := (s.items[n]?).any fun x => x.job.isSome && x.point == .ended

/-- Every item of a job that is over was completed once, in a record of the own job, and the records
count the completions. -/
structure Logged : Prop where
  once : ∀ n, (s.completions.map Prod.fst).count n = if s.counted_at n then 1 else 0
  own : ∀ e ∈ s.completions, ∃ job_id, s.job_at e.1 = some job_id ∧ s.Owns job_id e.2
  counts : ∀ cell p, s.cells[cell]? = some p → p.completed = (s.completions.map Prod.snd).count cell

section Logged

variable {s} {n m cell job_id : Nat} {x : Tracked} {point : ItemPoint}

theorem logged_empty : empty.Logged := by
  refine ⟨fun _ => rfl, fun e he => absurd he List.not_mem_nil, fun cell p hp => ?_⟩
  cases hp

theorem job_at_put (hx : s.items[n]? = some x) : (s.put n x point).job_at m = s.job_at m := by
  unfold job_at put
  by_cases hnm : n = m
  · subst hnm
    rw [List.getElem?_set_self (List.getElem?_eq_some_iff.mp hx).1, hx]
    rfl
  · rw [List.getElem?_set_ne hnm]

theorem counted_at_put_self (hx : s.items[n]? = some x) :
    (s.put n x point).counted_at n = (x.job.isSome && point == .ended) := by
  unfold counted_at put
  rw [List.getElem?_set_self (List.getElem?_eq_some_iff.mp hx).1]
  rfl

theorem counted_at_put_ne (hne : n ≠ m) : (s.put n x point).counted_at m = s.counted_at m := by
  unfold counted_at put
  rw [List.getElem?_set_ne hne]

theorem Logged.submit (h : s.Logged) (hdrawn : x.point = .drawn) :
    Logged { s with items := s.items ++ [x] } := by
  refine ⟨fun n => (h.once n).trans ?_, fun e he => ?_, h.counts⟩
  · have hsame : counted_at { s with items := s.items ++ [x] } n = s.counted_at n := by
      unfold counted_at
      rw [List.getElem?_append]
      split_ifs with hlt
      · rfl
      rw [List.getElem?_eq_none (Nat.le_of_not_lt hlt), List.getElem?_singleton]
      split_ifs
      · simp [hdrawn]
      · rfl
    rw [hsame]
  · obtain ⟨job, hjob, how⟩ := h.own e he
    obtain ⟨y, hy, hyjob⟩ := Option.bind_eq_some_iff.mp hjob
    have hlt := (List.getElem?_eq_some_iff.mp hy).1
    refine ⟨job, ?_, how⟩
    rw [job_at, List.getElem?_append_left hlt, hy]
    exact hyjob

theorem Logged.new_record (h : s.Logged) : (s.new_record job_id).Logged := by
  refine ⟨h.once, fun e he => ?_, fun cell p hp => ?_⟩
  · obtain ⟨job, hjob, how⟩ := h.own e he
    exact ⟨job, hjob, owns_new_record.mpr (Or.inl how)⟩
  · rw [JobIntake.new_record, List.getElem?_append] at hp
    split_ifs at hp with hlt
    · exact h.counts cell p hp
    rw [List.getElem?_singleton] at hp
    split_ifs at hp
    obtain rfl := Option.some.inj hp
    -- nothing was completed in a record that was not there
    refine (List.count_eq_zero.mpr fun hmem => ?_).symm
    obtain ⟨e, he, rfl⟩ := List.mem_map.mp hmem
    obtain ⟨_, -, _, hp', -⟩ := h.own e he
    exact hlt (List.getElem?_eq_some_iff.mp hp').1

/-- An item moves on that is not completed. -/
theorem Logged.move (h : s.Logged) (hx : s.items[n]? = some x) (hover : x.point ≠ .ended)
    (hpoint : ∀ job_id, x.job = some job_id → point ≠ .ended) : (s.put n x point).Logged := by
  refine ⟨fun m => (h.once m).trans ?_, fun e he => ?_, h.counts⟩
  · by_cases hnm : n = m
    · -- the item that moves is counted neither before nor after
      subst hnm
      have hbefore : s.counted_at n = false := by simp [counted_at, hx, hover]
      have hafter : (s.put n x point).counted_at n = false := by
        rw [counted_at_put_self hx]
        cases hjob : x.job with
        | none => rfl
        | some job_id => simp [hpoint job_id hjob]
      rw [hbefore, hafter]
    · rw [counted_at_put_ne hnm]
  · obtain ⟨job, hjob, how⟩ := h.own e he
    exact ⟨job, (job_at_put hx).trans hjob, how⟩

theorem Logged.count_submitted (h : s.Logged) (cell : Nat) : (s.count_submitted cell).Logged := by
  refine ⟨h.once, fun e he => ?_, fun cell' p hp => ?_⟩
  · obtain ⟨job, hjob, how⟩ := h.own e he
    refine ⟨job, hjob, (owns_modify ?_ cell).mpr how⟩
    exact fun _ => rfl
  · rw [JobIntake.count_submitted, List.getElem?_modify] at hp
    obtain ⟨p', hp', rfl⟩ := Option.map_eq_some_iff.mp hp
    refine Eq.trans ?_ (h.counts cell' p' hp')
    split_ifs <;> rfl

theorem Logged.complete (h : s.Logged) (hinv : s.Inv) (hx : s.items[n]? = some x)
    (hcell : x.point.cell = some cell) (hover : x.point ≠ .ended) :
    ((s.note_item_complete n cell).put n x .ended).Logged := by
  obtain ⟨job, hjob, how⟩ := hinv.held x (List.mem_of_getElem? hx) cell hcell
  have howns : ∀ job cell', s.Owns job cell' →
      ((s.note_item_complete n cell).put n x .ended).Owns job cell' := by
    intro job cell' how
    refine (owns_modify ?_ cell).mpr how
    exact fun _ => rfl
  refine ⟨fun m => ?_, fun e he => ?_, fun cell' p hp => ?_⟩
  · show ((s.completions ++ [(n, cell)]).map Prod.fst).count m = _
    rw [List.map_append, List.count_append, h.once m]
    by_cases hnm : n = m
    · subst hnm
      -- this is its first completion
      have hbefore : s.counted_at n = false := by simp [counted_at, hx, hover]
      have hafter : ((s.note_item_complete n cell).put n x .ended).counted_at n = true := by
        rw [counted_at_put_self (s := s.note_item_complete n cell) hx, hjob]
        rfl
      rw [hbefore, hafter]
      simp
    · have hsame : ((s.note_item_complete n cell).put n x .ended).counted_at m = s.counted_at m :=
        counted_at_put_ne hnm
      rw [hsame]
      simp [hnm]
  · rcases List.mem_append.mp he with he | he
    · obtain ⟨job', hjob', how'⟩ := h.own e he
      exact ⟨job', (job_at_put (s := s) hx).trans hjob', howns _ _ how'⟩
    · obtain rfl := List.mem_singleton.mp he
      refine ⟨job, (job_at_put (s := s) hx).trans ?_, howns _ _ how⟩
      rw [job_at, hx]
      exact hjob
  · show p.completed = ((s.completions ++ [(n, cell)]).map Prod.snd).count cell'
    have hp' : (s.cells.modify cell _)[cell']? = some p := hp
    rw [List.getElem?_modify] at hp'
    obtain ⟨q, hq, rfl⟩ := Option.map_eq_some_iff.mp hp'
    rw [List.map_append, List.count_append, ← h.counts cell' q hq]
    by_cases hsame : cell = cell'
    · simp [hsame]
    · simp [hsame]

theorem Act.logged {t : JobIntake} (hact : s.Act t) (hinv : s.Inv) (h : s.Logged) : t.Logged := by
  cases hact with
  | release generations => exact ⟨h.once, h.own, h.counts⟩
  | submit hdrawn horder => exact h.submit hdrawn
  | drain hret => exact ⟨h.once, h.own, h.counts⟩
  | record hnone => exact h.new_record
  | pass hx hpass => exact h.move hx hpass.ahead fun job_id hjob => (hpass.scan job_id hjob).1
  | @count n x cell hx hpoint =>
    exact (h.count_submitted cell).move hx (by simp [hpoint]) fun _ _ => by simp
  | complete hx hcell hsubmitted hover => exact h.complete hinv hx hcell hover
  | wait hw hwait | remove hw hpoint => exact ⟨h.once, h.own, h.counts⟩

end Logged

/-! ## Runs -/

variable {s}

theorem next_keeps {l : Label} (horder : s.Orderly l) (h : s.Inv ∧ s.Logged) :
    (s.next l).Inv ∧ (s.next l).Logged := by
  have hacts := acts_next horder
  generalize s.next l = t at hacts
  -- along the parts of the step
  induction hacts with
  | refl => exact h
  | tail _ hact ih => exact ⟨hact.inv ih.1, hact.logged ih.1 ih.2⟩

/-- Whatever submits, workers and drains there are and however their steps interleave, when every
job submits before it drains: a drain returns only after every item of its job was completed,
and once; no item is completed twice; and a record counts the completions of items of its own
job, and nothing else. -/
theorem drain_exact {labels : List Label}
    (horder : ∀ done l, done ++ [l] <+: labels → (run next empty done).Orderly l) :
    let s := run next empty labels
    (∀ w ∈ s.drains, w.point = .returned → ∀ n x, s.items[n]? = some x →
      x.job = some w.job_id → (s.completions.map Prod.fst).count n = 1) ∧
    (∀ n, (s.completions.map Prod.fst).count n ≤ 1) ∧
    (∀ n cell, (n, cell) ∈ s.completions → ∃ x p, s.items[n]? = some x ∧
      s.cells[cell]? = some p ∧ x.job = some p.job_id) ∧
    ∀ cell p, s.cells[cell]? = some p →
      p.completed = (s.completions.map Prod.snd).count cell := by
  intro s
  have hkept : s.Inv ∧ s.Logged :=
    run_induction (Q := fun _ t => Inv t ∧ Logged t) ⟨inv_empty, logged_empty⟩
      fun done l hdone h => next_keeps (horder done l hdone) h
  obtain ⟨hinv, hlog⟩ := hkept
  refine ⟨?_, ?_, ?_, hlog.counts⟩
  · intro w hw hreturned n x hx hjob
    have hs := hinv.settled_of_passed hw (by rw [hreturned]; rfl)
    have hover := hs.ended x (List.mem_of_getElem? hx) hjob
    have hcounted : s.counted_at n = true := by simp [counted_at, hx, hjob, hover]
    rw [hlog.once n, hcounted]
    rfl
  · intro n
    rw [hlog.once n]
    split_ifs <;> omega
  · intro n cell hmem
    obtain ⟨job, hjob, p, hp, rfl⟩ := hlog.own (n, cell) hmem
    obtain ⟨x, hx, hxjob⟩ := Option.bind_eq_some_iff.mp hjob
    exact ⟨x, p, hx, hp, hxjob⟩

instance (s : JobIntake) (l : Label) : Decidable (s.Orderly l) :=
  match l with
  | .submit _ (.scan job_id) _ => inferInstanceAs (Decidable (∀ x ∈ s.drains, x.job_id ≠ job_id))
  | .submit _ .watcherIndex _ | .submit _ .watcherRemove _ => .isTrue trivial
  | .drain job_id => inferInstanceAs
    (Decidable (∀ x ∈ s.items, x.job = some job_id → x.point.submitting = false))
  | .send _ _ | .work _ | .wait _ => .isTrue trivial

/-- Two jobs and the watcher submit one path. The first job's item is superseded, its second cannot
be sent, and the other job's is processed. The first drain finds its item not done, and waits. -/
theorem drain_exact_three_items :
    let labels : List Label :=
      [.submit "/a" (.scan 1) {}, .send 0 true, .send 0 true, .send 0 true, .work 0,
        .submit "/a" .watcherIndex {}, .send 1 true,
        .submit "/b" (.scan 1) {}, .send 2 true, .send 2 true, .send 2 false, .send 2 true,
        .submit "/a" (.scan 2) {}, .send 3 true, .send 3 true, .send 3 true,
        .drain 1, .wait 0, .work 0, .wait 0, .work 3, .work 3, .wait 0,
        .work 0, .work 0, .wait 0, .wait 0, .wait 0,
        .work 3, .work 3, .work 3, .drain 2, .wait 1, .wait 1, .wait 1, .wait 1]
    let s := run next empty labels
    s.drains = [⟨1, .returned⟩, ⟨2, .returned⟩] ∧ s.completions = [(2, 0), (0, 0), (3, 1)] ∧
      (s.completions.map Prod.fst).count 0 = 1 := by
  intro labels s
  have horder : ∀ done l, done ++ [l] <+: labels → (run next empty done).Orderly l := by
    simp only [labels, forall_step_cons, forall_step_nil, and_true]
    decide +kernel
  have hdrains : s.drains = [⟨1, .returned⟩, ⟨2, .returned⟩] := by decide +kernel
  have hitem : (s.items[0]?).bind Tracked.job = some 1 := by decide +kernel
  obtain ⟨x, hx, hjob⟩ := Option.bind_eq_some_iff.mp hitem
  refine ⟨hdrains, by decide +kernel, ?_⟩
  exact (drain_exact horder).1 ⟨1, .returned⟩ (hdrains ▸ List.mem_cons_self) rfl 0 x hx hjob

end JobIntake
