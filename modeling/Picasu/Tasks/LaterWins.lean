import Picasu.Tasks.FlushAgreement
import Picasu.Tasks.Removal
import Picasu.Tasks.SerialWriter
import Picasu.Tasks.Supersession

/-! # Later Submits Win

Two changes of one file are two submits. What is stored in the end should come from the later one,
so its flush should reach the writer last.

An item is asked once whether it is superseded, before its file is opened. Then it goes through a
pipeline that may take long: it is hashed, indexed and, for a video, transcoded. A later submit of
the path may meanwhile be taken by another worker, pass its own check and reach the writer first;
the flush of the older item then overwrites it.

The system has the submits with their lanes, how far the pipeline of each is, and the flushes in
the order of the writer's channel.

* `move_next` says once what a step can do;
* `Settled`: the flushes of a path are in the order of its submits, and no item is in its pipeline
  behind whose back a later one was flushed. `settled_next_iff` says exactly which steps keep
  this;
* `later_submits_win_iff`: the same for every run.
-/

open PathBuf

/-- How far the pipeline of an item is, once the item has passed its check. -/
inductive Stage where
  /-- Before `is_stale`. -/
  | checked
  /-- In `process_file`, or in `handle_removed_file`. -/
  | running
  /-- The pending record of a video is flushed, and the video is transcoded. -/
  | transcoding
  /-- Nothing more is flushed. The generation is still to be released. -/
  | over
  deriving DecidableEq, Repr

/-- What is submitted to the writer. -/
def FlushOp.op (random_hash : String) : FlushOp → WriteOp
  | insert data => .flush [(random_hash, data)] []
  | remove data => .flush [] [data]

/-- The submits, their pipelines, and what is in the writer's channel, with the submit that each
flush is for. -/
structure Workers where
  lanes : Lanes
  stages : Nat → Stage
  flushes : List (Nat × WriteOp)

namespace Workers

inductive Label where
  /-- A submit, or a worker takes an item, checks it or releases it. -/
  | intake (l : Lanes.Label)
  /-- The worker with the `n`-th item looks whether the file is the one that was enqueued; removals
  are not asked. -/
  | stale (n : Nat) (fresh : Option FileIdentity)
  /-- `process_file` submits a record; `ok` is whether the stage succeeded. -/
  | flush (n : Nat) (random_hash : String) (data : AbstractData) (ok : Bool)
  /-- `process_file` ends without a flush: there was an error, or nothing to index. -/
  | fail (n : Nat)
  /-- `process_watcher_remove` submits what `handle_removed_file` answers. -/
  | remove (n : Nat) (random_hash : String) (action : Option FlushOp)

variable (s : Workers)

/-- The item of the `n`-th submit, if a worker has it at this stage. -/
def at_stage (n : Nat) (stage : Stage) : Option IntakeItem :=
  match s.lanes.submits[n]? with
  | some x => if x.phase = .begun ∧ s.stages n = stage then some x.item else none
  | none => none

def set_stage (n : Nat) (stage : Stage) : Workers :=
  { s with stages := fun m => if m = n then stage else s.stages m }

/-- The flush that a step submits, and the stage that follows. -/
def sent : Label → Option (Nat × WriteOp × Stage)
  | .flush n random_hash data ok =>
    match s.at_stage n .running, s.at_stage n .transcoding with
    | some item, _ =>
      if item.kind ≠ .watcherRemove ∧ flush_path data = item.file then
        some (n, .flush [(random_hash, data)] [],
          if data.kind = .video ∧ ok = true then .transcoding else .over)
      else none
    | none, some item =>
      if flush_path data = item.file then some (n, .flush [(random_hash, data)] [], .over) else none
    | none, none => none
  | .remove n random_hash (some action) =>
    match s.at_stage n .running with
    | some item =>
      if item.kind = .watcherRemove then some (n, action.op random_hash, .over) else none
    | none => none
  | _ => none

/-- One step. -/
def next (l : Label) : Workers :=
  match s.sent l with
  | some (n, op, stage) => { s.set_stage n stage with flushes := s.flushes ++ [(n, op)] }
  | none =>
    match l with
    | .intake (.release n) =>
      if s.stages n = .over then { s with lanes := s.lanes.next (.release n) } else s
    | .intake l => { s with lanes := s.lanes.next l }
    | .stale n fresh =>
      match s.at_stage n .checked with
      | some item =>
        s.set_stage n
          (if item.kind ≠ .watcherRemove ∧ is_stale fresh item = true then .over else .running)
      | none => s
    | .fail n =>
      match s.at_stage n .running, s.at_stage n .transcoding with
      | some item, _ => if item.kind ≠ .watcherRemove then s.set_stage n .over else s
      | none, some _ => s.set_stage n .over
      | none, none => s
    | .remove n _ none =>
      match s.at_stage n .running with
      | some item => if item.kind = .watcherRemove then s.set_stage n .over else s
      | none => s
    | _ => s

/-- Nothing is submitted yet. -/
def empty : Workers := ⟨Lanes.empty, fun _ => .checked, []⟩

/-! ## The order of the flushes -/

def path (n : Nat) : Option PathBuf := (s.lanes.submits[n]?).map fun x => x.item.path

def SamePath (a b : Nat) : Prop := ∃ p, s.path a = some p ∧ s.path b = some p

/-- The item has passed its check and may still be flushed. -/
def InPipeline (n : Nat) : Prop :=
  ∃ x, s.lanes.submits[n]? = some x ∧ x.phase = .begun ∧ s.stages n ≠ .over

def Flushed (n : Nat) : Prop := ∃ op, (n, op) ∈ s.flushes

/-- The flushes of a path are in the order in which its items were submitted. -/
def InOrder : Prop :=
  s.flushes.Pairwise fun e e' => s.SamePath e.1 e'.1 → e.1 ≤ e'.1

/-- The order is right, and no item in a pipeline will spoil it: no later item of its path is
flushed. -/
structure Settled : Prop where
  order : s.InOrder
  clear : ∀ a b, a < b → s.SamePath a b → s.InPipeline a → ¬ s.Flushed b

/-- An item passes its check only if no later item of its path is flushed, and is flushed only if no
earlier item of its path is in its pipeline. -/
def StepOk (l : Label) : Prop :=
  (∀ n x, l = .intake (.check n) → s.lanes.submits[n]? = some x → x.phase = .taken →
      s.lanes.intake.is_superseded x.item = false → ∀ b, n < b → s.SamePath n b → ¬ s.Flushed b) ∧
    ∀ n op stage, s.sent l = some (n, op, stage) → ∀ a, a < n → s.SamePath a n → ¬ s.InPipeline a

end Workers

/-! ## What a step of the intake can do -/

namespace Lanes

variable {s : Lanes}

/-- A submit is added, or one moves on. It gets into its pipeline only by a check that it passes. -/
theorem submits_next (l : Label) :
    (∃ item, (s.next l).submits = s.submits ++ [⟨item, .drawn⟩]) ∨
      (s.next l).submits = s.submits ∨
      ∃ n before after, (s.next l).submits = (s.advance n before after).submits ∧
        (before.waits = false → after.waits = false) ∧
        (after = .begun → l = .check n ∧ before = .taken ∧
          ∃ x, s.submits[n]? = some x ∧ s.intake.is_superseded x.item = false) := by
  cases l with
  | submit file kind identity => exact Or.inl ⟨_, rfl⟩
  | enqueue n => exact Or.inr (Or.inr ⟨n, .drawn, .queued, rfl, fun h => h, fun h => by cases h⟩)
  | dequeue n => exact Or.inr (Or.inr ⟨n, .queued, .taken, rfl, fun h => h, fun h => by cases h⟩)
  | check n =>
    cases hx : s.submits[n]? with
    | none =>
      have hsame : s.next (.check n) = s := by simp only [next, hx]
      rw [hsame]
      exact Or.inr (Or.inl rfl)
    | some x =>
      have hnext : s.next (.check n) =
          s.advance n .taken (if s.intake.is_superseded x.item then .done else .begun) := by
        simp only [next, hx]
      rw [hnext]
      refine Or.inr (Or.inr ⟨n, .taken, _, rfl, (fun h => by cases h), fun hbegun => ?_⟩)
      refine ⟨rfl, rfl, x, hx, ?_⟩
      cases hsuper : s.intake.is_superseded x.item with
      | true =>
        rw [hsuper] at hbegun
        cases hbegun
      | false => rfl
  | release n =>
    cases hx : s.submits[n]? with
    | none =>
      have hsame : s.next (.release n) = s := by simp only [next, hx]
      rw [hsame]
      exact Or.inr (Or.inl rfl)
    | some x =>
      by_cases hphase : x.phase = .begun
      · have hnext : (s.next (.release n)).submits = (s.advance n .begun .done).submits := by
          simp only [next, hx, hphase, if_true]
        exact Or.inr (Or.inr ⟨n, .begun, .done, hnext, fun _ => rfl, fun h => by cases h⟩)
      · have hsame : s.next (.release n) = s := by simp only [next, hx, hphase, if_false]
        rw [hsame]
        exact Or.inr (Or.inl rfl)

/-- A submit keeps its item, and does not wait again. -/
theorem kept_next {m : Nat} {x : Submitted} (hx : s.submits[m]? = some x) (l : Label) :
    ∃ y, (s.next l).submits[m]? = some y ∧ y.item = x.item ∧
      (x.phase.waits = false → y.phase.waits = false) := by
  rcases submits_next (s := s) l with ⟨item, hnew⟩ | hsame | ⟨n, before, after, hmoved, hwaits, -⟩
  · have hlt : m < s.submits.length := (List.getElem?_eq_some_iff.mp hx).1
    rw [hnew, List.getElem?_append_left hlt]
    exact ⟨x, hx, rfl, fun h => h⟩
  · rw [hsame]
    exact ⟨x, hx, rfl, fun h => h⟩
  · rw [hmoved, getElem?_advance, hx]
    refine ⟨_, rfl, item_moved_on n before after m x, fun h => ?_⟩
    unfold moved_on
    split
    · rename_i hhere
      rw [hhere.2] at h
      exact hwaits h
    · exact h

/-- Whoever is in a pipeline was there before, or has just passed its check. -/
theorem begun_next {m : Nat} {y : Submitted} {l : Label}
    (hy : (s.next l).submits[m]? = some y) (hphase : y.phase = .begun) :
    ∃ x, s.submits[m]? = some x ∧ (x.phase = .begun ∨
      l = .check m ∧ x.phase = .taken ∧ s.intake.is_superseded x.item = false) := by
  rcases submits_next (s := s) l with ⟨item, hnew⟩ | hsame | ⟨n, before, after, hmoved, -, hcheck⟩
  · rw [hnew] at hy
    by_cases hlt : m < s.submits.length
    · rw [List.getElem?_append_left hlt] at hy
      exact ⟨y, hy, Or.inl hphase⟩
    · rw [List.getElem?_append_right (Nat.le_of_not_lt hlt)] at hy
      have hdrawn := List.mem_singleton.mp (List.mem_of_getElem? hy)
      rw [hdrawn] at hphase
      cases hphase
  · rw [hsame] at hy
    exact ⟨y, hy, Or.inl hphase⟩
  · rw [hmoved, getElem?_advance] at hy
    obtain ⟨x, hx, rfl⟩ := Option.map_eq_some_iff.mp hy
    refine ⟨x, hx, ?_⟩
    unfold moved_on at hphase
    split at hphase
    · rename_i hhere
      obtain ⟨rfl, hbefore⟩ := hhere
      obtain ⟨hl, htaken, x', hx', hpasses⟩ := hcheck hphase
      obtain rfl : x = x' := Option.mem_unique hx hx'
      exact Or.inr ⟨hl, hbefore.trans htaken, hpasses⟩
    · exact Or.inl hphase

/-- A check that an item passes puts it into its pipeline. -/
theorem next_check_begun {n : Nat} {x : Submitted} (hx : s.submits[n]? = some x)
    (htaken : x.phase = .taken) (hpasses : s.intake.is_superseded x.item = false) :
    (s.next (.check n)).submits[n]? = some { x with phase := .begun } := by
  have hnext : s.next (.check n) = s.advance n .taken .begun := by
    simp only [next, hx, hpasses]
    rfl
  rw [hnext, getElem?_advance, hx]
  simp [moved_on, htaken]

end Lanes

namespace Workers

variable {s s' : Workers} {l : Label}

/-! ## What a step can do -/

inductive Move (s : Workers) : Label → Workers → Prop where
  | stay (l : Label) : Move s l s
  | intake (l : Lanes.Label) : Move s (.intake l) { s with lanes := s.lanes.next l }
  /-- A pipeline goes on, or ends. -/
  | proceed {l : Label} {n : Nat} {stage : Stage} (hn : s.InPipeline n) :
    Move s l (s.set_stage n stage)
  | send {l : Label} {n : Nat} {op : WriteOp} {stage : Stage} (hsent : s.sent l = some (n, op, stage))
    (hn : s.InPipeline n) :
    Move s l { s.set_stage n stage with flushes := s.flushes ++ [(n, op)] }

variable {n : Nat} {stage : Stage} {op : WriteOp}

theorem inPipeline_of_at_stage {item : IntakeItem}
    (h : s.at_stage n stage = some item) (hstage : stage ≠ .over) : s.InPipeline n := by
  unfold at_stage at h
  split at h
  · rename_i x hx
    split at h
    · rename_i hhere
      exact ⟨x, hx, hhere.1, hhere.2 ▸ hstage⟩
    · cases h
  · cases h

theorem inPipeline_of_sent (h : s.sent l = some (n, op, stage)) : s.InPipeline n := by
  cases l with
  | intake | stale | fail => cases h
  | flush m random_hash data ok =>
    simp only [sent] at h
    split at h
    · rename_i item hat
      split at h
      · obtain rfl : m = n := congrArg Prod.fst (Option.some.inj h)
        exact inPipeline_of_at_stage hat (by decide)
      · cases h
    · rename_i item hat hat'
      split at h
      · obtain rfl : m = n := congrArg Prod.fst (Option.some.inj h)
        exact inPipeline_of_at_stage hat' (by decide)
      · cases h
    · cases h
  | remove m random_hash action =>
    cases action with
    | none => cases h
    | some action =>
      simp only [sent] at h
      split at h
      · rename_i item hat
        split at h
        · obtain rfl : m = n := congrArg Prod.fst (Option.some.inj h)
          exact inPipeline_of_at_stage hat (by decide)
        · cases h
      · cases h

theorem move_next (l : Label) : Move s l (s.next l) := by
  unfold next
  split
  · rename_i n op stage hsent
    exact .send hsent (inPipeline_of_sent hsent)
  · split
    · split
      · exact .intake _
      · exact .stay _
    · exact .intake _
    · split
      · rename_i item hat
        exact .proceed (inPipeline_of_at_stage hat (by decide))
      · exact .stay _
    · split
      · rename_i item hat
        split
        · exact .proceed (inPipeline_of_at_stage hat (by decide))
        · exact .stay _
      · rename_i item hat hat'
        exact .proceed (inPipeline_of_at_stage hat' (by decide))
      · exact .stay _
    · split
      · rename_i item hat
        split
        · exact .proceed (inPipeline_of_at_stage hat (by decide))
        · exact .stay _
      · exact .stay _
    · exact .stay _

/-! ## Submits that are known -/

/-- Only a submit whose item has passed its check is flushed or in a stage. -/
structure Known (s : Workers) : Prop where
  flushed : ∀ n, s.Flushed n → ∃ x, s.lanes.submits[n]? = some x
  staged : ∀ n, s.stages n ≠ .checked → ∃ x, s.lanes.submits[n]? = some x ∧ x.phase.waits = false

theorem InPipeline.known (h : s.InPipeline n) :
    ∃ x, s.lanes.submits[n]? = some x ∧ x.phase.waits = false := by
  obtain ⟨x, hx, hbegun, -⟩ := h
  exact ⟨x, hx, by rw [hbegun]; rfl⟩

theorem Known.set_stage (h : s.Known) (hn : s.InPipeline n) (stage : Stage) :
    (s.set_stage n stage).Known := by
  refine ⟨h.flushed, fun m hm => ?_⟩
  by_cases hmn : m = n
  · exact hmn ▸ hn.known
  · exact h.staged m (by simpa [Workers.set_stage, hmn] using hm)

theorem known_next (h : s.Known) (l : Label) : (s.next l).Known := by
  generalize hs' : s.next l = s'
  have hmove := move_next (s := s) l
  rw [hs'] at hmove
  cases hmove with
  | stay => exact h
  | intake l =>
    constructor
    · intro n hn
      obtain ⟨x, hx⟩ := h.flushed n hn
      obtain ⟨y, hy, -⟩ := Lanes.kept_next hx l
      exact ⟨y, hy⟩
    · intro n hn
      obtain ⟨x, hx, hwaits⟩ := h.staged n hn
      obtain ⟨y, hy, -, hkept⟩ := Lanes.kept_next hx l
      exact ⟨y, hy, hkept hwaits⟩
  | proceed hn => exact h.set_stage hn _
  | send hsent hn =>
    refine ⟨fun m hm => ?_, (h.set_stage hn _).staged⟩
    obtain ⟨op, hop⟩ := hm
    rcases List.mem_append.mp hop with hold | hnew
    · exact h.flushed m ⟨op, hold⟩
    · obtain ⟨x, hx, -⟩ := hn.known
      obtain ⟨rfl, -⟩ := Prod.mk.inj (List.mem_singleton.mp hnew)
      exact ⟨x, hx⟩

theorem known_run (labels : List Label) : (LTS.run next empty labels).Known := by
  refine LTS.run_invariant ⟨fun n hn => ?_, fun n hn => absurd rfl hn⟩ fun s l _ h => known_next h l
  obtain ⟨op, hop⟩ := hn
  cases hop

/-! ## One step -/

theorem path_intake {x : Submitted} (hx : s.lanes.submits[n]? = some x)
    (l : Lanes.Label) : path { s with lanes := s.lanes.next l } n = s.path n := by
  obtain ⟨y, hy, hitem, -⟩ := Lanes.kept_next hx l
  simp only [path, hx, hy, Option.map_some, hitem]

theorem samePath_intake {a b : Nat} {x y : Submitted} (ha : s.lanes.submits[a]? = some x)
    (hb : s.lanes.submits[b]? = some y) (l : Lanes.Label) :
    SamePath { s with lanes := s.lanes.next l } a b ↔ s.SamePath a b := by
  unfold SamePath
  rw [path_intake ha, path_intake hb]

/-- A pipeline that goes on, or ends, was one before. -/
theorem InPipeline.of_set_stage {m : Nat} (hn : s.InPipeline n)
    (h : (s.set_stage n stage).InPipeline m) : s.InPipeline m := by
  by_cases hmn : m = n
  · exact hmn ▸ hn
  · obtain ⟨x, hx, hbegun, hover⟩ := h
    exact ⟨x, hx, hbegun, by simpa [set_stage, hmn] using hover⟩

/-- The other pipelines stay as they are. -/
theorem InPipeline.set_stage_ne {m : Nat} (h : s.InPipeline m) (hmn : m ≠ n) (stage : Stage) :
    (s.set_stage n stage).InPipeline m := by
  obtain ⟨x, hx, hbegun, hover⟩ := h
  exact ⟨x, hx, hbegun, by simpa [set_stage, hmn] using hover⟩

/-- A step of the intake spoils nothing, unless an item passes its check after a later one of its
path was flushed. -/
theorem Settled.intake (h : s.Settled) (hknown : s.Known) {l : Lanes.Label}
    (hok : s.StepOk (.intake l)) : Settled { s with lanes := s.lanes.next l } := by
  constructor
  · -- the paths of what is flushed are the same
    refine List.Pairwise.imp_of_mem (fun {e e'} he he' hle hsame => ?_) h.order
    obtain ⟨x, hx⟩ := hknown.flushed e.1 ⟨e.2, he⟩
    obtain ⟨y, hy⟩ := hknown.flushed e'.1 ⟨e'.2, he'⟩
    exact hle ((samePath_intake hx hy l).mp hsame)
  · intro a b hab hsame ha hb
    have hflushed : s.Flushed b := hb
    obtain ⟨y, hy, hbegun, hover⟩ := ha
    obtain ⟨z, hz⟩ := hknown.flushed b hflushed
    obtain ⟨x, hx, hbefore⟩ := Lanes.begun_next hy hbegun
    have hsame' := (samePath_intake hx hz l).mp hsame
    rcases hbefore with hthere | ⟨rfl, htaken, hpasses⟩
    · exact h.clear a b hab hsame' ⟨x, hx, hthere, hover⟩ hflushed
    · exact hok.1 a x rfl hx htaken hpasses b hab hsame' hflushed

/-- An item that is flushed comes after all that are flushed of its path, since no later one of them
is. -/
theorem Settled.send (h : s.Settled)
    (hsent : s.sent l = some (n, op, stage)) (hn : s.InPipeline n) (hok : s.StepOk l) :
    Settled { s.set_stage n stage with flushes := s.flushes ++ [(n, op)] } := by
  constructor
  · refine List.pairwise_append.mpr ⟨h.order, List.pairwise_singleton _ _, fun e he e' he' => ?_⟩
    obtain rfl := List.mem_singleton.mp he'
    intro hsame
    obtain ⟨p, hp, hp'⟩ := hsame
    by_contra hlt
    exact h.clear n e.1 (Nat.lt_of_not_le hlt) ⟨p, hp', hp⟩ hn ⟨e.2, he⟩
  · intro a b hab hsame ha hb
    have ha' : s.InPipeline a := InPipeline.of_set_stage hn ha
    obtain ⟨op', hop'⟩ := hb
    rcases List.mem_append.mp hop' with hold | hnew
    · exact h.clear a b hab hsame ha' ⟨op', hold⟩
    · obtain ⟨rfl, -⟩ := Prod.mk.inj (List.mem_singleton.mp hnew)
      exact hok.2 b op stage hsent a hab hsame ha'

theorem Settled.next (h : s.Settled) (hknown : s.Known) (hok : s.StepOk l) :
    (s.next l).Settled := by
  generalize hs' : s.next l = s'
  have hmove := move_next (s := s) l
  rw [hs'] at hmove
  cases hmove with
  | stay => exact h
  | intake l => exact h.intake hknown hok
  | proceed hn =>
    exact ⟨h.order, fun a b hab hsame ha => h.clear a b hab hsame (InPipeline.of_set_stage hn ha)⟩
  | send hsent hn => exact h.send hsent hn hok

/-- A step that does not meet the condition leaves an item in its pipeline behind a later one that
is flushed. -/
theorem stepOk_of_settled_next (hknown : s.Known) (h : (s.next l).Settled) : s.StepOk l := by
  constructor
  · rintro n x rfl hx htaken hpasses b hnb hsame hb
    have hnext : s.next (.intake (.check n)) = { s with lanes := s.lanes.next (.check n) } := rfl
    rw [hnext] at h
    obtain ⟨z, hz⟩ := hknown.flushed b hb
    -- its pipeline has not begun, so it is not over
    have hstage : s.stages n ≠ .over := by
      intro hover
      obtain ⟨x', hx', hpassed⟩ := hknown.staged n (by rw [hover]; decide)
      obtain rfl : x = x' := Option.mem_unique hx hx'
      rw [htaken] at hpassed
      cases hpassed
    exact h.clear n b hnb ((samePath_intake hx hz _).mpr hsame)
      ⟨_, Lanes.next_check_begun hx htaken hpasses, rfl, hstage⟩ hb
  · intro n op stage hsent a han hsame ha
    have hnext : s.next l = { s.set_stage n stage with flushes := s.flushes ++ [(n, op)] } := by
      simp only [Workers.next, hsent]
    rw [hnext] at h
    exact h.clear a n han hsame (ha.set_stage_ne (Nat.ne_of_lt han) stage) ⟨op, by simp⟩

/-- A step keeps the order, now and for the pipelines that go on, exactly when it meets the
condition. -/
theorem settled_next_iff (h : s.Settled) (hknown : s.Known) :
    (s.next l).Settled ↔ s.StepOk l :=
  ⟨stepOk_of_settled_next hknown, fun hok => h.next hknown hok⟩

/-! ## Runs -/

/-- What the writer has stored once it has handled these flushes. -/
def written (now : Int) (fs : Fs) (lib : Library) (flushes : List (Nat × WriteOp)) : Library :=
  flushes.foldl (fun lib e => (handle_op now fs e.2 lib).2) lib

/-- If the flush that the writer handled last is an insert, its path leads to the record of its
data. -/
theorem written_insert (now : Int) (fs : Fs) (lib : Library) (flushes : List (Nat × WriteOp))
    (n : Nat) (random_hash : String) (data : AbstractData) :
    ∃ id, let store := (written now fs lib (flushes ++ [(n, .flush [(random_hash, data)] [])])).store
      store.by_path.lookup (flush_path data) = some id ∧
        store.tables.assets.lookup id = some (flush_record now id data) := by
  let before := (written now fs lib flushes).store
  refine ⟨flush_id random_hash data before, ?_⟩
  have hstore : (written now fs lib (flushes ++ [(n, .flush [(random_hash, data)] [])])).store =
      flush_insert now random_hash data before := by
    simp only [written, List.foldl_append]
    rfl
  intro store
  have hinsert : store = flush_insert now random_hash data before := hstore
  rw [hinsert, by_path_flush_insert, tables_flush_insert]
  exact ⟨AList.lookup_insert _, AList.lookup_insert _⟩

/-- Of the submits of a path that are flushed, the one that is flushed last is the newest. -/
theorem InOrder.newest_last (h : s.InOrder)
    {before after : List (Nat × WriteOp)} (hlog : s.flushes = before ++ (n, op) :: after)
    (hlast : ∀ e ∈ after, ¬ s.SamePath e.1 n) {m : Nat} (hsame : s.SamePath m n)
    (hm : s.Flushed m) : m ≤ n := by
  obtain ⟨op', hop'⟩ := hm
  unfold InOrder at h
  rw [hlog] at h hop'
  rcases List.mem_append.mp hop' with hbefore | hthere
  · exact (List.pairwise_append.mp h).2.2 _ hbefore _ List.mem_cons_self hsame
  · rcases List.mem_cons.mp hthere with heq | hafter
    · exact Nat.le_of_eq (Prod.mk.inj heq).1
    · exact absurd hsame (hlast _ hafter)

/-- The flush of a path that is handled last is of the newest of its submits that are flushed. If it
is an insert, it leaves the path with its record. -/
def NewestStored (s : Workers) : Prop :=
  ∀ before n op after, s.flushes = before ++ (n, op) :: after →
    (∀ e ∈ after, ¬ s.SamePath e.1 n) →
      (∀ m, s.SamePath m n → s.Flushed m → m ≤ n) ∧
        ∀ random_hash data, op = .flush [(random_hash, data)] [] → ∀ now fs lib, ∃ id,
          let store := (written now fs lib (before ++ [(n, op)])).store
          store.by_path.lookup (flush_path data) = some id ∧
            store.tables.assets.lookup id = some (flush_record now id data)

theorem InOrder.newestStored (h : s.InOrder) : s.NewestStored := by
  intro before n op after hlog hlast
  refine ⟨fun m hsame hm => h.newest_last hlog hlast hsame hm, ?_⟩
  rintro random_hash data rfl now fs lib
  exact written_insert now fs lib before n random_hash data

theorem settled_empty : empty.Settled :=
  ⟨List.Pairwise.nil, fun _ _ _ _ _ hb => by obtain ⟨op, hop⟩ := hb; cases hop⟩

/-- In every state of a run the flushes of each path are in the order of its submits, with no
pipeline going on that could spoil it, exactly when items pass their check only if no later one
of their path is flushed, and are flushed only if no earlier one is in its pipeline. Then what
is stored last for a path is from the newest submit that was flushed. -/
theorem later_submits_win_iff (labels : List Label) :
    ((∀ done, done <+: labels → (LTS.run next empty done).Settled) ↔
      ∀ done l, done ++ [l] <+: labels → (LTS.run next empty done).StepOk l) ∧
    ((∀ done l, done ++ [l] <+: labels → (LTS.run next empty done).StepOk l) →
      ∀ done, done <+: labels →
        (LTS.run next empty done).InOrder ∧ (LTS.run next empty done).NewestStored) := by
  have hiff : (∀ done, done <+: labels → (LTS.run next empty done).Settled) ↔
      ∀ done l, done ++ [l] <+: labels → (LTS.run next empty done).StepOk l :=
    LTS.run_invariant_iff settled_empty fun done _ _ h => settled_next_iff h (known_run done)
  refine ⟨hiff, fun hok done hdone => ?_⟩
  have horder := (hiff.mpr hok done hdone).order
  exact ⟨horder, horder.newestStored⟩

/-- A worker takes the `n`-th item, finds that it is not superseded, and that the file is as it was
enqueued. -/
def taken_up (n : Nat) (identity : FileIdentity) : List Label :=
  [.intake (.enqueue n), .intake (.dequeue n), .intake (.check n), .stale n (some identity)]

def sea_changed (len : Nat) : Label :=
  .intake (.submit "/p/sea.jpg" .watcherIndex { len := some len })

/-- The index of the first change is written before the second is seen. -/
def one_by_one : List Label :=
  [sea_changed 1] ++ taken_up 0 { len := some 1 } ++
    [.flush 0 "a" (photo "/p/sea.jpg" "old") true, .intake (.release 0), sea_changed 2] ++
    taken_up 1 { len := some 2 } ++ [.flush 1 "b" (photo "/p/sea.jpg" "new") true]

theorem later_submits_win_one_by_one :
    (LTS.run next empty one_by_one).flushes.map Prod.fst = [0, 1] ∧
      (LTS.run next empty one_by_one).InOrder ∧ (LTS.run next empty one_by_one).NewestStored := by
  have hquiet : ∀ done ∈ one_by_one.inits, done.length < one_by_one.length →
      let s := LTS.run next empty done
      (∀ n ∈ s.flushes.map Prod.fst, n = 0) ∧ s.lanes.submits.length ≤ 2 ∧
        (1 < s.lanes.submits.length → s.stages 0 = .over) := by decide +kernel
  refine ⟨by decide +kernel,
    (later_submits_win_iff one_by_one).2 (fun done l hpre => ?_) one_by_one (List.prefix_refl _)⟩
  have hdone := (List.mem_inits _ _).mpr ((List.prefix_append done [l]).trans hpre)
  have hproper : done.length < one_by_one.length := by
    have hlength := hpre.length_le
    rw [List.length_append, List.length_singleton] at hlength
    exact hlength
  obtain ⟨hflushes, hlength, hover⟩ := hquiet done hdone hproper
  constructor
  · intro n x _ _ _ _ b hnb _ hb
    obtain ⟨op, hop⟩ := hb
    have hzero := hflushes b (List.mem_map_of_mem hop)
    omega
  · intro n op stage hsent a han _ ha
    obtain ⟨x, hx, -⟩ := inPipeline_of_sent hsent
    have hbound := (List.getElem?_eq_some_iff.mp hx).1
    obtain ⟨y, -, -, hstage⟩ := ha
    have hzero : a = 0 := by omega
    subst hzero
    exact hstage (hover (by omega))

/-- The worker of the first change is slow. Meanwhile the file is changed again, and another worker
writes the index of the second change. -/
def overtaken : List Label :=
  [sea_changed 1] ++ taken_up 0 { len := some 1 } ++ [sea_changed 2] ++
    taken_up 1 { len := some 2 } ++ [.flush 1 "b" (photo "/p/sea.jpg" "new") true,
    .flush 0 "a" (photo "/p/sea.jpg" "old") true, .intake (.release 1), .intake (.release 0)]

/-- The older content of the file is stored in the end. -/
theorem older_change_stored :
    let s := LTS.run next empty overtaken
    let store := (written 0 ⟨fun _ => none, fun _ => true⟩ ⟨AssetStore.empty, ∅⟩ s.flushes).store
    s.SamePath 0 1 ∧ s.flushes.map Prod.fst = [1, 0] ∧ ¬ s.InOrder ∧
      s.lanes.submits.map (fun x => x.phase) = [.done, .done] ∧
      store.by_path.lookup "/p/sea.jpg" = some "b" ∧
      (store.tables.assets.lookup "b").map (fun record => record.content_hash) =
        some (some "old") := by
  intro s store
  have hsame : s.SamePath 1 0 := ⟨ofString "/p/sea.jpg", by decide +kernel, by decide +kernel⟩
  have hflushes : s.flushes.map Prod.fst = [1, 0] := by decide +kernel
  refine ⟨?_, hflushes, ?_, by decide +kernel, by decide +kernel, by decide +kernel⟩
  · obtain ⟨p, hone, hzero⟩ := hsame
    exact ⟨p, hzero, hone⟩
  · intro horder
    have hpairs : (s.flushes.map Prod.fst).Pairwise fun a b => s.SamePath a b → a ≤ b :=
      List.pairwise_map.mpr horder
    rw [hflushes] at hpairs
    have hle := (List.pairwise_cons.mp hpairs).1 0 List.mem_cons_self hsame
    omega

end Workers
