import Picasu.Tasks.Intake

/-! # Jobs in the Intake

An index job submits a file after the other, and then waits until the workers are done with all of
them. For this every job has a record with two counters, `submitted` and `completed`. The record
is made by whoever asks for it first, and dropped from the map when the job has drained. Who holds
a record goes on counting in it, also when it is not in the map any more; who asks for it then
gets a new one.

A submit counts before it sends, and a worker counts on each of its ways out: the item was
superseded, it was stale, the file was indexed, or it was not. A submit that cannot send counts
the item as completed itself.

The system has all submits since the start, those of the watcher included, and all drains, each
with how far it is; every access to the maps and to a counter is a step of its own. The file of an
item and its outcome do not matter here. `acts_next` says what a step can do.
-/

open PathBuf

/-- `JobProgress`, and the job that it was made for. -/
structure JobProgress where
  job_id : Nat
  submitted : Nat
  completed : Nat
  deriving DecidableEq, Repr

/-- How far an item is, with the record that the submit or the worker holds. -/
inductive ItemPoint where
  /-- Its generation is drawn. -/
  | drawn
  /-- The submit holds the job's record. -/
  | opened (cell : Nat)
  /-- It has counted the item; the caller waits for room in the lane. -/
  | counted (cell : Nat)
  /-- The lane is closed. -/
  | rejected (cell : Nat)
  | queued
  /-- A worker has taken it. -/
  | taken
  /-- The worker holds the job's record. -/
  | looked (cell : Nat)
  /-- It was not superseded. -/
  | begun (cell : Nat)
  /-- It was superseded, or its generation is released. -/
  | ending (cell : Nat)
  /-- An item of the watcher that was not superseded. -/
  | working
  | ended
  deriving DecidableEq, Repr

/-- A submit, and how far its item is. -/
structure Tracked where
  item : IntakeItem
  point : ItemPoint
  deriving DecidableEq, Repr

/-- How far a call of `drain_intake` is. -/
inductive DrainPoint where
  | called
  /-- It holds the job's record. -/
  | opened (cell : Nat)
  /-- It has read how many items were submitted. -/
  | read (cell submitted : Nat)
  /-- It has read that as many were completed. -/
  | passed
  | returned
  deriving DecidableEq, Repr

/-- A call of `drain_intake`. -/
structure Drain where
  job_id : Nat
  point : DrainPoint
  deriving DecidableEq, Repr

structure JobIntake where
  /-- `GENERATIONS`. -/
  generations : Table PathBuf Nat
  /-- `JOB_PROGRESS`: where a job's record is. -/
  jobs : Table Nat Nat
  /-- All records that were ever made. -/
  cells : List JobProgress
  items : List Tracked
  drains : List Drain
  /-- The calls of `note_item_complete` so far: for which item, and in which record. -/
  completions : List (Nat × Nat)

def Tracked.job (x : Tracked) : Option Nat :=
  match x.item.kind with
  | .scan job_id => some job_id
  | .watcherIndex => none
  | .watcherRemove => none

/-- The record that is held. -/
def ItemPoint.cell : ItemPoint → Option Nat
  | .opened cell | .counted cell | .rejected cell => some cell
  | .looked cell | .begun cell | .ending cell => some cell
  | .drawn | .queued | .taken | .working | .ended => none

/-- The submit has not returned. -/
def ItemPoint.submitting : ItemPoint → Bool
  | .drawn | .opened _ | .counted _ | .rejected _ => true
  | .queued | .taken | .looked _ | .begun _ | .ending _ | .working | .ended => false

def ItemPoint.submitted : ItemPoint → Bool
  | .drawn | .opened _ => false
  | .counted _ | .rejected _ | .queued | .taken | .looked _ | .begun _ | .ending _ => true
  | .working | .ended => true

/-- The record that is held. -/
def DrainPoint.cell : DrainPoint → Option Nat
  | .opened cell | .read cell _ => some cell
  | .called | .passed | .returned => none

/-- The drain has found the counters equal. -/
def DrainPoint.has_passed : DrainPoint → Bool
  | .passed | .returned => true
  | .called | .opened _ | .read _ _ => false

namespace JobIntake

inductive Label where
  /-- `submit_scan`, `submit_watcher_index` or `submit_watcher_remove` draws the next generation of
  its path. -/
  | submit (file : String) (kind : IntakeKind) (identity : FileIdentity)
  /-- The `n`-th submit goes on; the lane takes the item, or is closed. -/
  | send (n : Nat) (sent : Bool)
  /-- The worker of the `n`-th submit goes on. -/
  | work (n : Nat)
  /-- `drain_intake` is called. -/
  | drain (job_id : Nat)
  /-- The `d`-th drain goes on. -/
  | wait (d : Nat)
  deriving DecidableEq, Repr

variable (s : JobIntake)

/-- The intake as the items see it. -/
def intake : Intake := ⟨s.generations, (s.items.filter fun x => x.point = .queued).map Tracked.item⟩

def new_record (job_id : Nat) : JobIntake :=
  { s with
    jobs := s.jobs.insert job_id s.cells.length
    cells := s.cells ++ [⟨job_id, 0, 0⟩] }

/-- `job_progress`: the record of the job, made if there is none. -/
def job_progress (job_id : Nat) : Nat × JobIntake :=
  match s.jobs.lookup job_id with
  | some cell => (cell, s)
  | none => (s.cells.length, s.new_record job_id)

/-- `submitted.fetch_add`. -/
def count_submitted (cell : Nat) : JobIntake :=
  { s with cells := s.cells.modify cell fun p => { p with submitted := p.submitted + 1 } }

/-- `note_item_complete`, for the `n`-th item. -/
def note_item_complete (n cell : Nat) : JobIntake :=
  { s with
    cells := s.cells.modify cell fun p => { p with completed := p.completed + 1 }
    completions := s.completions ++ [(n, cell)] }

def remove_job (job_id : Nat) : JobIntake := { s with jobs := s.jobs.erase job_id }

def release_generation (item : IntakeItem) : JobIntake :=
  { s with generations := (s.intake.release_generation item).generations }

def put (n : Nat) (x : Tracked) (point : ItemPoint) : JobIntake :=
  { s with items := s.items.set n { x with point } }

def put_drain (d : Nat) (x : Drain) (point : DrainPoint) : JobIntake :=
  { s with drains := s.drains.set d { x with point } }

def send_step (n : Nat) (sent : Bool) (x : Tracked) : JobIntake :=
  match x.point, x.job with
  | .drawn, some job_id =>
    let (cell, s) := s.job_progress job_id
    s.put n x (.opened cell)
  | .drawn, none => s.put n x (if sent then .queued else .ended)
  | .opened cell, _ => (s.count_submitted cell).put n x (.counted cell)
  -- `enqueue` waits for room in the lane, or finds it closed
  | .counted cell, _ => s.put n x (if sent then .queued else .rejected cell)
  | .rejected cell, _ => (s.note_item_complete n cell).put n x .ended
  | _, _ => s

/-- The next step of the worker that takes the item, or has taken it. -/
def work_step (n : Nat) (x : Tracked) : JobIntake :=
  match x.point, x.job with
  | .queued, _ => s.put n x .taken
  | .taken, some job_id =>
    let (cell, s) := s.job_progress job_id
    s.put n x (.looked cell)
  | .taken, none => s.put n x (if s.intake.is_superseded x.item then .ended else .working)
  | .looked cell, _ =>
    s.put n x (if s.intake.is_superseded x.item then .ending cell else .begun cell)
  -- it was stale, or the file was indexed, or it was not
  | .begun cell, _ => (s.release_generation x.item).put n x (.ending cell)
  | .working, none => (s.release_generation x.item).put n x .ended
  | .ending cell, _ => (s.note_item_complete n cell).put n x .ended
  | _, _ => s

def wait_step (d : Nat) (x : Drain) : JobIntake :=
  match x.point with
  | .called =>
    let (cell, s) := s.job_progress x.job_id
    s.put_drain d x (.opened cell)
  | .opened cell => s.put_drain d x (.read cell ((s.cells[cell]?).elim 0 JobProgress.submitted))
  | .read cell submitted =>
    -- the second counter is read later than the first
    if submitted ≤ (s.cells[cell]?).elim 0 JobProgress.completed then s.put_drain d x .passed
    else s.put_drain d x (.opened cell)
  | .passed => (s.remove_job x.job_id).put_drain d x .returned
  | .returned => s

/-- One step of the system. -/
def next : Label → JobIntake
  | .submit file kind identity =>
    { s with
      generations := s.generations.insert (ofString file) (s.intake.next_generation (ofString file))
      items := s.items ++
        [⟨⟨file, kind, s.intake.next_generation (ofString file), identity⟩, .drawn⟩] }
  | .send n sent => (s.items[n]?).elim s (s.send_step n sent)
  | .work n => (s.items[n]?).elim s (s.work_step n)
  | .drain job_id => { s with drains := s.drains ++ [⟨job_id, .called⟩] }
  | .wait d => (s.drains[d]?).elim s (s.wait_step d)

/-- At the start. -/
def empty : JobIntake := ⟨∅, ∅, [], [], [], []⟩

/-- A job submits nothing after it has begun to drain, and begins when all its submits have
returned. -/
def Orderly : Label → Prop
  | .submit _ (.scan job_id) _ => ∀ x ∈ s.drains, x.job_id ≠ job_id
  | .drain job_id => ∀ x ∈ s.items, x.job = some job_id → x.point.submitting = false
  | _ => True

end JobIntake

/-! ## What a step can do -/

namespace JobIntake

variable (s : JobIntake)

/-- The item moves on and nothing is counted. A record that is held anew is the one in the map. -/
structure Passes (x : Tracked) (point : ItemPoint) : Prop where
  ahead : x.point ≠ .ended
  cell : ∀ cell, point.cell = some cell →
    x.point.cell = some cell ∨ ∃ job_id, x.job = some job_id ∧ s.jobs.lookup job_id = some cell
  submitting : point.submitting = true → x.point.submitting = true
  scan : ∀ job_id, x.job = some job_id → point ≠ .ended ∧
    point.submitted = x.point.submitted ∧ (x.point = .drawn → s.jobs.lookup job_id ≠ none)

inductive Waits (w : Drain) : DrainPoint → Prop where
  | opened {cell} : s.jobs.lookup w.job_id = some cell → Waits w (.opened cell)
  | again {cell n} : w.point = .read cell n → Waits w (.opened cell)
  | read {cell} : w.point = .opened cell →
    Waits w (.read cell ((s.cells[cell]?).elim 0 JobProgress.submitted))
  | passed {cell n} : w.point = .read cell n →
    n ≤ (s.cells[cell]?).elim 0 JobProgress.completed → Waits w .passed
  | returned : w.point = .passed → Waits w .returned

/-- A step is made of these. -/
inductive Act : JobIntake → Prop where
  | release (generations : Table PathBuf Nat) : Act { s with generations }
  | submit {x : Tracked} : x.point = .drawn → (∀ w ∈ s.drains, x.job ≠ some w.job_id) →
    Act { s with items := s.items ++ [x] }
  | drain {job_id : Nat} :
    (∀ x ∈ s.items, x.job = some job_id → x.point.submitting = false) →
    Act { s with drains := s.drains ++ [⟨job_id, .called⟩] }
  | record {job_id : Nat} : s.jobs.lookup job_id = none → Act (s.new_record job_id)
  | pass {n x point} : s.items[n]? = some x → s.Passes x point → Act (s.put n x point)
  | count {n x cell} : s.items[n]? = some x → x.point = .opened cell →
    Act ((s.count_submitted cell).put n x (.counted cell))
  | complete {n x cell} : s.items[n]? = some x → x.point.cell = some cell →
    x.point.submitted = true → x.point ≠ .ended → Act ((s.note_item_complete n cell).put n x .ended)
  | wait {d w point} : s.drains[d]? = some w → s.Waits w point → Act (s.put_drain d w point)
  | remove {w} : w ∈ s.drains → w.point = .passed → Act (s.remove_job w.job_id)

/-- Several, one after the other. -/
abbrev Acts : JobIntake → JobIntake → Prop := Relation.ReflTransGen Act

variable {s} {n d cell job_id : Nat} {x : Tracked} {w : Drain} {point : ItemPoint}

/-- Asking for a record makes one if there is none; then the map has it. -/
theorem acts_job_progress (s : JobIntake) (job_id : Nat) :
    Acts s (s.job_progress job_id).2 ∧ (s.job_progress job_id).2.items = s.items ∧
      (s.job_progress job_id).2.drains = s.drains ∧
      (s.job_progress job_id).2.jobs.lookup job_id = some (s.job_progress job_id).1 := by
  unfold job_progress
  cases hjob : s.jobs.lookup job_id with
  | some cell => exact ⟨.refl, rfl, rfl, hjob⟩
  | none => exact ⟨.single (.record hjob), rfl, rfl, AList.lookup_insert _⟩

/-- A submit or a worker takes hold of the job's record. -/
theorem passes_holding (hjob : x.job = some job_id) (hmap : s.jobs.lookup job_id = some cell)
    (hcell : point.cell = some cell) (hsubmitted : point.submitted = x.point.submitted)
    (hsubmitting : point.submitting = x.point.submitting) (hahead : x.point ≠ .ended) :
    s.Passes x point := by
  refine ⟨hahead, ?_, fun h => hsubmitting ▸ h, ?_⟩
  · intro cell' hcell'
    obtain rfl : cell = cell' := Option.mem_unique hcell hcell'
    exact Or.inr ⟨job_id, hjob, hmap⟩
  · intro job hjob'
    obtain rfl : job_id = job := Option.mem_unique hjob hjob'
    -- the map has the record now, also for an item that was only drawn
    refine ⟨?_, hsubmitted, fun _ hnone => ?_⟩
    · rintro rfl
      cases hcell
    · cases hmap.symm.trans hnone

/-- An item of a job moves on with the record that it has, if any. -/
theorem passes_keeping (hahead : x.point ≠ .ended) (hdrawn : x.point ≠ .drawn)
    (hover : point ≠ .ended) (hcell : ∀ cell, point.cell = some cell → x.point.cell = some cell)
    (hsubmitted : point.submitted = x.point.submitted)
    (hsubmitting : point.submitting = true → x.point.submitting = true) : s.Passes x point :=
  ⟨hahead, fun cell h => Or.inl (hcell cell h), hsubmitting,
    fun _ _ => ⟨hover, hsubmitted, fun h => absurd h hdrawn⟩⟩

theorem passes_watcher (hjob : x.job = none) (hahead : x.point ≠ .ended)
    (hcell : point.cell = none) (hsubmitting : point.submitting = false) : s.Passes x point := by
  refine ⟨hahead, ?_, ?_, ?_⟩
  · intro cell h
    cases hcell.symm.trans h
  · intro h
    cases hsubmitting.symm.trans h
  · intro job_id h
    cases hjob.symm.trans h

theorem acts_send_step (hx : s.items[n]? = some x) (sent : Bool) :
    Acts s (s.send_step n sent x) := by
  obtain ⟨item, point⟩ := x
  cases point with
  | drawn =>
    unfold send_step
    cases hjob : Tracked.job ⟨item, .drawn⟩ with
    | some job_id =>
      obtain ⟨hacts, hitems, -, hmap⟩ := acts_job_progress s job_id
      exact hacts.tail (.pass (hitems ▸ hx) (passes_holding hjob hmap rfl rfl rfl (by simp)))
    | none => refine .single (.pass hx (passes_watcher hjob (by simp) ?_ ?_)) <;> cases sent <;> rfl
  | opened cell => exact .single (.count hx rfl)
  | counted cell =>
    refine .single (.pass hx ?_)
    cases sent
    · exact passes_keeping (by simp) (by simp) (by simp) (fun _ => id) rfl fun _ => rfl
    · exact passes_keeping (by simp) (by simp) (by simp) (fun _ h => by cases h) rfl fun _ => rfl
  | rejected cell => exact .single (.complete hx rfl rfl (by simp))
  | queued | taken | looked | begun | ending | working | ended => exact .refl

theorem acts_work_step (hx : s.items[n]? = some x) : Acts s (s.work_step n x) := by
  obtain ⟨item, point⟩ := x
  cases point with
  | queued =>
    exact .single (.pass hx (passes_keeping (by simp) (by simp) (by simp) (fun _ h => by cases h)
      rfl fun h => by cases h))
  | taken =>
    unfold work_step
    cases hjob : Tracked.job ⟨item, .taken⟩ with
    | some job_id =>
      obtain ⟨hacts, hitems, -, hmap⟩ := acts_job_progress s job_id
      exact hacts.tail (.pass (hitems ▸ hx) (passes_holding hjob hmap rfl rfl rfl (by simp)))
    | none =>
      refine .single (.pass hx (passes_watcher hjob (by simp) ?_ ?_)) <;>
        cases s.intake.is_superseded item <;> rfl
  | looked cell =>
    refine .single (.pass hx ?_)
    cases s.intake.is_superseded item <;>
      exact passes_keeping (by simp) (by simp) (by simp) (fun _ => id) rfl fun h => by cases h
  | begun cell =>
    exact .tail (.single (.release _))
      (.pass hx (passes_keeping (by simp) (by simp) (by simp) (fun _ => id) rfl
        fun h => by cases h))
  | working =>
    unfold work_step
    cases hjob : Tracked.job ⟨item, .working⟩ with
    | some job_id => exact .refl
    | none => exact .tail (.single (.release _)) (.pass hx (passes_watcher hjob (by simp) rfl rfl))
  | ending cell => exact .single (.complete hx rfl rfl (by simp))
  | drawn | opened | counted | rejected | ended => exact .refl

theorem acts_wait_step (hw : s.drains[d]? = some w) : Acts s (s.wait_step d w) := by
  obtain ⟨job_id, point⟩ := w
  cases point with
  | called =>
    obtain ⟨hacts, -, hdrains, hmap⟩ := acts_job_progress s job_id
    exact hacts.tail (.wait (hdrains ▸ hw) (.opened hmap))
  | opened cell => exact .single (.wait hw (.read rfl))
  | read cell submitted =>
    simp only [wait_step]
    split_ifs with hle
    · exact .single (.wait hw (.passed rfl hle))
    · exact .single (.wait hw (.again rfl))
  | passed =>
    exact .tail (.single (.remove (List.mem_of_getElem? hw) rfl)) (.wait hw (.returned rfl))
  | returned => exact .refl

/-- Every orderly step is made of these. -/
theorem acts_next {l : Label} (horder : s.Orderly l) : Acts s (s.next l) := by
  cases l with
  | submit file kind identity =>
    refine .tail (.single (.release _)) (.submit rfl fun w hw => ?_)
    cases kind with
    | scan job_id => exact fun h => horder w hw (Option.some.inj h).symm
    | watcherIndex | watcherRemove =>
      intro h
      cases h
  | send n sent =>
    simp only [next]
    cases hx : s.items[n]? with
    | none => exact .refl
    | some x => exact acts_send_step hx sent
  | work n =>
    simp only [next]
    cases hx : s.items[n]? with
    | none => exact .refl
    | some x => exact acts_work_step hx
  | drain job_id => exact .single (.drain horder)
  | wait d =>
    simp only [next]
    cases hw : s.drains[d]? with
    | none => exact .refl
    | some w => exact acts_wait_step hw

end JobIntake
