import Picasu.Framework.Run
import Picasu.Tasks.Intake

/-! # Superseded Submits

A worker drops an item when the current generation of its path is not the item's own. So that no
work is lost, the newest item of a path must never be dropped.

Generations are not unique for long: when an item is done and no newer submit has replaced it, the
generation of the path is released, and the next submit is number one again. An older item that
still waits in a slower lane may carry the same number. If it is done first, it releases the
number of the newest item, and that one is dropped.

The system has every submit since the start, with how far it is. A submit is two steps, since a
full lane parks the caller after the generation is drawn, and so is taking an item: it is
dequeued, and then asked whether it is superseded. Any worker may take any queued item.

* `newestKept_next_iff`: one step keeps the newest items unless it releases the number of one that
  still waits;
* `newest_never_superseded_iff`: the same for all steps of a run.
-/

open PathBuf

/-- How far an item is. -/
inductive Phase where
  /-- Its generation is drawn; the caller waits for room in the lane. -/
  | drawn
  | queued
  /-- A worker holds it, before the check of `is_superseded`. -/
  | taken
  /-- It was not superseded. -/
  | begun
  /-- It was dropped, or its generation is released. -/
  | done
  deriving DecidableEq, Repr

/-- The check of `is_superseded` is still to come. -/
def Phase.waits : Phase → Bool
  | drawn | queued | taken => true
  | begun | done => false

/-- A submit, and how far its item is. -/
structure Submitted where
  item : IntakeItem
  phase : Phase
  deriving DecidableEq, Repr

/-- `GENERATIONS`, and all submits in the order in which they drew their generations. -/
structure Lanes where
  generations : Table PathBuf Nat
  submits : List Submitted

namespace Lanes

inductive Label where
  /-- `submit_scan`, `submit_watcher_index` or `submit_watcher_remove` draws the next generation of
  its path. -/
  | submit (file : String) (kind : IntakeKind) (identity : FileIdentity)
  /-- The item of the `n`-th submit is sent to its lane. -/
  | enqueue (n : Nat)
  /-- A worker takes it from the lane. -/
  | dequeue (n : Nat)
  /-- The worker evaluates `is_superseded`. -/
  | check (n : Nat)
  /-- The worker is done with it, or found it stale: `release_generation`. -/
  | release (n : Nat)
  deriving DecidableEq, Repr

def intake (s : Lanes) : Intake where
  generations := s.generations
  queued := (s.submits.filter fun x => x.phase = .queued).map fun x => x.item

def new_item (s : Lanes) (file : String) (kind : IntakeKind) (identity : FileIdentity) :
    IntakeItem :=
  ⟨file, kind, s.intake.next_generation (ofString file), identity⟩

/-- Move the `n`-th submit on from one phase to the next. -/
def advance (n : Nat) (before after : Phase) (s : Lanes) : Lanes :=
  match s.submits[n]? with
  | none => s
  | some x =>
    if x.phase = before then { s with submits := s.submits.set n { x with phase := after } } else s

/-- One step. -/
def next (s : Lanes) : Label → Lanes
  | .submit file kind identity =>
    { generations := (s.intake.submit file kind identity).generations
      submits := s.submits ++ [⟨s.new_item file kind identity, .drawn⟩] }
  | .enqueue n => s.advance n .drawn .queued
  | .dequeue n => s.advance n .queued .taken
  | .check n =>
    match s.submits[n]? with
    | none => s
    | some x => s.advance n .taken (if s.intake.is_superseded x.item then .done else .begun)
  | .release n =>
    match s.submits[n]? with
    | none => s
    | some x =>
      if x.phase = .begun then
        { s.advance n .begun .done with
          generations := (s.intake.release_generation x.item).generations }
      else s

/-- Nothing is submitted yet. -/
def empty : Lanes := ⟨∅, []⟩

/-! ## The newest item of a path -/

/-- The `n`-th submit is the most recent one of its path. -/
def Newest (s : Lanes) (n : Nat) (x : Submitted) : Prop :=
  s.submits[n]? = some x ∧ ∀ m y, n < m → s.submits[m]? = some y → y.item.path ≠ x.item.path

/-- A worker that asks about the newest item of a path hears that it is not superseded. -/
def NewestKept (s : Lanes) : Prop :=
  ∀ n x, s.Newest n x → x.phase.waits = true → s.intake.is_superseded x.item = false

/-- A step that releases the current generation of a path is taken when the newest item of the path
has passed its check. -/
def ReleasesOwn (s : Lanes) : Label → Prop
  | .release n => ∀ x, s.submits[n]? = some x → x.phase = .begun →
      s.intake.current_generation x.item.path = some x.item.generation →
        ∀ m y, s.Newest m y → y.item.path = x.item.path → y.phase.waits = false
  | _ => True

variable {s : Lanes}

theorem is_superseded_eq_false_iff {s : Intake} {item : IntakeItem} :
    s.is_superseded item = false ↔ s.current_generation item.path = some item.generation := by
  simp [Intake.is_superseded]

/-! ## Phases -/

@[simp] theorem generations_advance (n : Nat) (before after : Phase) :
    (s.advance n before after).generations = s.generations := by
  unfold advance
  split
  · rfl
  · split
    · rfl
    · rfl

/-- The `m`-th submit after the `n`-th has moved on. -/
def moved_on (n : Nat) (before after : Phase) (m : Nat) (x : Submitted) : Submitted :=
  if m = n ∧ x.phase = before then { x with phase := after } else x

@[simp] theorem item_moved_on (n : Nat) (before after : Phase) (m : Nat) (x : Submitted) :
    (moved_on n before after m x).item = x.item := by
  unfold moved_on
  split
  · rfl
  · rfl

/-- Moving on changes no item, and the phase of one submit only. -/
theorem getElem?_advance (n : Nat) (before after : Phase) (m : Nat) :
    (s.advance n before after).submits[m]? = (s.submits[m]?).map (moved_on n before after m) := by
  unfold advance
  split
  · rename_i hnone
    by_cases hm : m = n
    · simp [hm, hnone]
    · cases s.submits[m]? with
      | none => rfl
      | some x => simp [moved_on, hm]
  · rename_i x hx
    split
    · rename_i hphase
      by_cases hm : m = n
      · subst hm
        have hlt : m < s.submits.length := (List.getElem?_eq_some_iff.mp hx).1
        rw [List.getElem?_set_self hlt, hx]
        simp [moved_on, hphase]
      · rw [List.getElem?_set_ne (Ne.symm hm)]
        cases s.submits[m]? with
        | none => rfl
        | some y => simp [moved_on, hm]
    · rename_i hphase
      cases hy : s.submits[m]? with
      | none => rfl
      | some y =>
        have hstays : ¬ (m = n ∧ y.phase = before) := by
          rintro ⟨rfl, hbefore⟩
          obtain rfl : x = y := Option.mem_unique hx hy
          exact hphase hbefore
        simp [moved_on, hstays]

/-- The newest items of the paths are the same before and after a submit moves on. -/
theorem newest_advance_iff {n m : Nat} {before after : Phase} {y : Submitted} :
    (s.advance n before after).Newest m y ↔
      ∃ x, s.Newest m x ∧ y = moved_on n before after m x := by
  constructor
  · rintro ⟨hy, hlater⟩
    rw [getElem?_advance] at hy
    obtain ⟨x, hx, rfl⟩ := Option.map_eq_some_iff.mp hy
    refine ⟨x, ⟨hx, fun m' x' hlt hx' => ?_⟩, rfl⟩
    have hthere := getElem?_advance (s := s) n before after m'
    rw [hx'] at hthere
    simpa using hlater m' _ hlt hthere
  · rintro ⟨x, ⟨hx, hlater⟩, rfl⟩
    refine ⟨by rw [getElem?_advance, hx]; rfl, fun m' y' hlt hy' => ?_⟩
    rw [getElem?_advance] at hy'
    obtain ⟨x', hx', rfl⟩ := Option.map_eq_some_iff.mp hy'
    simpa using hlater m' x' hlt hx'

/-- If the move does not put it back in line, a submit waits only if it did before. -/
theorem waits_of_moved_on {n m : Nat} {before after : Phase} {x : Submitted}
    (hback : after.waits = true → before.waits = true)
    (h : (moved_on n before after m x).phase.waits = true) : x.phase.waits = true := by
  unfold moved_on at h
  split at h
  · rename_i hmoved
    rw [hmoved.2]
    exact hback h
  · exact h

/-! ## One step -/

section

variable (h : s.NewestKept)

include h

theorem newestKept_advance (n : Nat) {before after : Phase}
    (hback : after.waits = true → before.waits = true) : (s.advance n before after).NewestKept := by
  intro m y hnewest hwaits
  obtain ⟨x, hx, rfl⟩ := newest_advance_iff.mp hnewest
  have hkept := h m x hx (waits_of_moved_on hback hwaits)
  rw [is_superseded_eq_false_iff] at hkept ⊢
  rw [item_moved_on]
  show (s.advance n before after).generations.lookup _ = _
  rw [generations_advance]
  exact hkept

/-- A submit draws the number that is then the current one of its path. -/
theorem newestKept_submit (file : String) (kind : IntakeKind)
    (identity : FileIdentity) : (s.next (.submit file kind identity)).NewestKept := by
  intro m y hnewest hwaits
  obtain ⟨hy, hlater⟩ := hnewest
  rw [is_superseded_eq_false_iff]
  show (AList.insert _ _ _).lookup _ = _
  have hy' : (s.submits ++ [⟨s.new_item file kind identity, .drawn⟩])[m]? = some y := hy
  rcases Nat.lt_trichotomy m s.submits.length with hlt | rfl | hgt
  · -- an older item is of another path
    have hlast : (s.submits ++ [⟨s.new_item file kind identity, .drawn⟩])[s.submits.length]? =
        some (⟨s.new_item file kind identity, .drawn⟩ : Submitted) := by simp
    have hne : y.item.path ≠ ofString file := (hlater _ _ hlt hlast).symm
    rw [AList.lookup_insert_ne hne]
    rw [List.getElem?_append_left hlt] at hy'
    refine is_superseded_eq_false_iff.mp (h m y ⟨hy', fun m' y' hlt' hy'' => ?_⟩ hwaits)
    have hbound : m' < s.submits.length := (List.getElem?_eq_some_iff.mp hy'').1
    exact hlater m' y' hlt' ((List.getElem?_append_left hbound).trans hy'')
  · obtain rfl : (⟨s.new_item file kind identity, .drawn⟩ : Submitted) = y := by simpa using hy'
    exact AList.lookup_insert _
  · rw [List.getElem?_eq_none (by simp; omega)] at hy'
    cases hy'

theorem newestKept_check (n : Nat) : (s.next (.check n)).NewestKept := by
  show NewestKept (match s.submits[n]? with | none => s | some x => _)
  split
  · exact h
  · exact newestKept_advance h n fun _ => rfl

/-- Releasing a generation keeps the newest items exactly when no newest item of the path waits with
that number. -/
theorem newestKept_release_iff (n : Nat) :
    (s.next (.release n)).NewestKept ↔ s.ReleasesOwn (.release n) := by
  have hback : Phase.done.waits = true → Phase.begun.waits = true := fun hdone => hdone
  cases hx : s.submits[n]? with
  | none =>
    have hsame : s.next (.release n) = s := by simp only [next, hx]
    rw [hsame]
    refine ⟨fun _ x hx' => ?_, fun _ => h⟩
    rw [hx] at hx'
    cases hx'
  | some x =>
    by_cases hphase : x.phase = .begun
    · have hnext : s.next (.release n) = { s.advance n .begun .done with
          generations := (s.intake.release_generation x.item).generations } := by
        simp only [next, hx, hphase, if_true]
      rw [hnext]
      constructor
      · intro hkept x' hx' _ hcurrent m y hnewest hpath
        obtain rfl : x = x' := Option.mem_unique hx hx'
        -- the newest item would find the generation of its path released
        by_contra hwaits
        have hstays : moved_on n .begun .done m y = y := by
          refine if_neg ?_
          rintro ⟨-, hbegun⟩
          rw [hbegun] at hwaits
          exact hwaits rfl
        have hnewest' : (s.advance n .begun .done).Newest m y :=
          newest_advance_iff.mpr ⟨y, hnewest, hstays.symm⟩
        have hfalse := hkept m y hnewest' ((Bool.not_eq_false _).mp hwaits)
        rw [is_superseded_eq_false_iff] at hfalse
        have hnone : (s.intake.release_generation x.item).generations.lookup y.item.path = none := by
          rw [Intake.release_generation, if_pos hcurrent, hpath]
          exact AList.lookup_erase _ _
        cases hnone.symm.trans hfalse
      · intro hown m y hnewest hwaits
        obtain ⟨x', hnewest', rfl⟩ := newest_advance_iff.mp hnewest
        have hwaits' := waits_of_moved_on hback hwaits
        have hkept := is_superseded_eq_false_iff.mp (h m x' hnewest' hwaits')
        rw [is_superseded_eq_false_iff, item_moved_on]
        show (s.intake.release_generation x.item).generations.lookup _ = _
        unfold Intake.release_generation
        split
        · rename_i hcurrent
          have hne : x'.item.path ≠ x.item.path := by
            intro hpath
            have hpassed := hown x hx hphase hcurrent m x' hnewest' hpath
            rw [hwaits'] at hpassed
            cases hpassed
          exact (AList.lookup_erase_ne hne).trans hkept
        · exact hkept
    · have hsame : s.next (.release n) = s := by simp only [next, hx, hphase, if_false]
      rw [hsame]
      refine ⟨fun _ x' hx' hphase' => ?_, fun _ => h⟩
      obtain rfl : x = x' := Option.mem_unique hx hx'
      exact absurd hphase' hphase

/-- A step keeps the newest items exactly when it does not release the number of one that waits. -/
theorem newestKept_next_iff (l : Label) : (s.next l).NewestKept ↔ s.ReleasesOwn l := by
  cases l with
  | submit file kind identity => exact iff_of_true (newestKept_submit h file kind identity) trivial
  | enqueue n | dequeue n => exact iff_of_true (newestKept_advance h n fun _ => rfl) trivial
  | check n => exact iff_of_true (newestKept_check h n) trivial
  | release n => exact newestKept_release_iff h n

end

/-! ## Runs -/

theorem newestKept_empty : empty.NewestKept := by
  intro n x hnewest _
  cases hnewest.1

/-- In every state of a run, the newest item of each path that waits for its check would pass it,
exactly when every release of a current generation comes after the check of the newest item of
its path. -/
theorem newest_never_superseded_iff (labels : List Label) :
    (∀ done, done <+: labels → (LTS.run next empty done).NewestKept) ↔
      ∀ done l, done ++ [l] <+: labels → (LTS.run next empty done).ReleasesOwn l :=
  LTS.run_invariant_iff newestKept_empty fun _ l _ h => newestKept_next_iff h l

/-- A scan item waits in its lane while a change of the file is indexed, so the next change is
number one again, like the scan item. -/
def slow_scan : List Label :=
  [.submit "/p/sea.jpg" (.scan 1) {}, .enqueue 0,
    .submit "/p/sea.jpg" .watcherIndex {}, .enqueue 1, .dequeue 1, .check 1, .release 1,
    .submit "/p/sea.jpg" .watcherIndex {}, .enqueue 2]

/-- The scan item passes its check and releases the number of the newest change, which is then
dropped. -/
theorem newest_change_dropped :
    let s := LTS.run next empty (slow_scan ++ [.dequeue 0, .check 0, .release 0, .dequeue 2])
    let newest : Submitted := ⟨⟨"/p/sea.jpg", .watcherIndex, 1, {}⟩, .taken⟩
    s.Newest 2 newest ∧ s.intake.is_superseded newest.item = true ∧ ¬ s.NewestKept := by
  intro s newest
  have hlast : s.submits[2]? = some newest := by decide +kernel
  have hlength : s.submits.length = 3 := by decide +kernel
  have hnewest : s.Newest 2 newest := by
    refine ⟨hlast, fun m y hlt hy => ?_⟩
    have hbound := (List.getElem?_eq_some_iff.mp hy).1
    omega
  have hdropped : s.intake.is_superseded newest.item = true := by decide +kernel
  refine ⟨hnewest, hdropped, fun hkept => ?_⟩
  have hfalse := hkept 2 newest hnewest rfl
  rw [hdropped] at hfalse
  cases hfalse

end Lanes
