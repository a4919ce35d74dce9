import Mathlib.Data.Fintype.Basic
import Picasu.Framework.Run
import Picasu.Router.AdminConfig

/-! # Concurrent Configuration Edits

The two requests that edit the configuration, taken apart: the guard and the checks, the clone of
the live configuration, the write of the file, and the replacement of the live configuration. No
lock is held from the clone to the replacement, so another edit may run between any two steps.

An edit that writes a configuration it cloned before another edit was done takes the fields of the
other back; and two edits may write the file in one order and replace the live configuration in
the other (`Edits.edit_lost`).

`Edits.edits_take_effect_iff`: the edits take effect one after the other exactly in the runs in
which each edit writes what it would write had it cloned the live configuration just then, and no
edit writes between the write and the replacement of another.
-/

/-- The fields that an edit names, with the values it gives. -/
def ConfigEdit.settings : ConfigEdit → List (String × ConfigValue)
  | .patch req =>
    (req.upload_folder.map fun v => ("upload_folder", ConfigValue.text v)).toList ++
    (req.max_upload_size.map fun v => ("max_upload_size", ConfigValue.text v)).toList ++
    (req.read_only_mode.map fun v => ("read_only_mode", ConfigValue.flag v)).toList ++
    (req.fs_notify_watcher.map fun v => ("fs_notify_watcher", ConfigValue.flag v)).toList ++
    (req.normalize_upload_filenames.map fun v => ("normalize_upload_filenames", ConfigValue.flag v)).toList ++
    (req.validate_upload_content.map fun v => ("validate_upload_content", ConfigValue.flag v)).toList ++
    (req.use_client_timestamp_info.map fun v => ("use_client_timestamp_info", ConfigValue.flag v)).toList ++
    (req.allow_registration.map fun v => ("allow_registration", ConfigValue.flag v)).toList
  | .lift => [("read_only_mode", .flag false)]

inductive EditPoint where
  | start
  /-- The guard and the checks have passed. -/
  | checked
  /-- It has cloned this configuration. -/
  | cloned (config : AppConfig)
  /-- It has written this configuration to the file. -/
  | written (config : AppConfig)
  | done
  | failed (error : AppError)

namespace EditPoint

/-- The edit has passed its checks and is not at its end. -/
def under_way : EditPoint → Bool
  | .checked | .cloned _ | .written _ => true
  | .start | .done | .failed _ => false

/-- The configuration that was cloned and not yet written. -/
def clone : EditPoint → Option AppConfig
  | .cloned config => some config
  | _ => none

/-- The configuration that was written and is not live yet. -/
def pending : EditPoint → Option AppConfig
  | .written config => some config
  | _ => none

theorem clone_eq_some {point : EditPoint} {config : AppConfig} :
    point.clone = some config ↔ point = .cloned config := by
  cases point <;> simp [clone]

theorem pending_eq_none {point : EditPoint} :
    point.pending = none ↔ ∀ config, point ≠ .written config := by
  cases point <;> simp [pending]

end EditPoint

/-- The file, the live configuration, and where the edits are. -/
structure EditState (I : Type) extends ConfigState where
  point : I → EditPoint

structure Edits (I : Type) where
  toml : Toml
  edit : I → ConfigEdit

namespace Edits

variable {I : Type} (e : Edits I)

def check (edit : ConfigEdit) (live : AppConfig) : Except AppError Unit :=
  match edit with
  | .patch req => do
    guard_mutate live
    check_request req
  | .lift => .ok ()

def step (edit : ConfigEdit) (point : EditPoint) (s : ConfigState) : EditPoint × ConfigState :=
  match point with
  | .start =>
    match check edit s.live with
    | .ok _ => (.checked, s)
    | .error error => (.failed error, s)
  | .checked => (.cloned s.live, s)
  | .cloned config =>
    match update e.toml (edit.apply config) with
    | .ok new => (.written new.live, { s with config_toml := new.config_toml })
    | .error error => (.failed error, s)
  | .written config => (.done, { s with live := config })
  | .done => (.done, s)
  | .failed error => (.failed error, s)

def next [DecidableEq I] (s : EditState I) (i : I) : EditState I :=
  let (point, state) := e.step (e.edit i) (s.point i) s.toConfigState
  { toConfigState := state, point := Function.update s.point i point }

def init (start : ConfigState) : EditState I where
  toConfigState := start
  point _ := .start

/-! ## Edits that take effect -/

/-- Every field of the live configuration has a value that a finished edit gave it, or the first one
if none did. -/
def FieldsGiven (start : ConfigState) (s : EditState I) : Prop :=
  ∀ field ∈ CONFIG_FIELDS,
    (∃ i, s.point i = .done ∧ (field.name, field.value s.live) ∈ (e.edit i).settings) ∨
      ((∀ i, s.point i = .done → ∀ value, (field.name, value) ∉ (e.edit i).settings) ∧
        field.value s.live = field.value start.live)

def Saved (s : ConfigState) (config : AppConfig) : Prop :=
  ∃ text, s.config_toml = some text ∧ e.toml.to_string_pretty (.ofConfig config) = some text

/-- The edits have taken effect, and the file is the live configuration, or one edit is about to
make it so. -/
structure Settled (start : ConfigState) (s : EditState I) : Prop where
  one : ∀ i j config config', s.point i = .written config → s.point j = .written config' → i = j
  fits : ∀ i config, s.point i = .written config → config = (e.edit i).apply s.live
  pending : ∀ i config, s.point i = .written config → e.Saved s.toConfigState config
  saved : (∀ i config, s.point i ≠ .written config) → (∃ i, s.point i = .done) →
    e.Saved s.toConfigState s.live
  given : e.FieldsGiven start s

/-- An edit that writes does so while no other edit has written and not replaced yet, and what it
writes is the live configuration with the fields that it names. -/
def StepOk (s : EditState I) (i : I) : Prop :=
  ∀ config, s.point i = .cloned config →
    (e.toml.to_string_pretty (.ofConfig (cleaned ((e.edit i).apply config)))).isSome →
    (∀ j config', s.point j ≠ .written config') ∧
      cleaned ((e.edit i).apply config) = (e.edit i).apply s.live

instance [Fintype I] (s : EditState I) (i : I) : Decidable (e.StepOk s i) :=
  decidable_of_iff (∀ config ∈ (s.point i).clone,
    (e.toml.to_string_pretty (.ofConfig (cleaned ((e.edit i).apply config)))).isSome →
    (∀ j, (s.point j).pending = none) ∧
      cleaned ((e.edit i).apply config) = (e.edit i).apply s.live) (by
    simp only [StepOk, Option.mem_def, EditPoint.clone_eq_some, EditPoint.pending_eq_none])

/-- An edit gives the fields that it names its values for them, and leaves the others alone. -/
theorem value_apply (edit : ConfigEdit) (c : AppConfig) :
    ∀ field ∈ CONFIG_FIELDS,
      (field.name, field.value (edit.apply c)) ∈ edit.settings ∨
        ((∀ value, (field.name, value) ∉ edit.settings) ∧
          field.value (edit.apply c) = field.value c) := by
  cases edit with
  | lift => simp [CONFIG_FIELDS, ConfigEdit.settings, ConfigEdit.apply, lift_read_only]
  | patch req =>
    have hpick : ∀ {α : Type} (o : Option α) (current : α),
        o = some (o.getD current) ∨ (∀ a, ¬ o = some a) ∧ o.getD current = current := by
      intro α o current
      cases o with
      | none => simp
      | some a => simp
    simp [CONFIG_FIELDS, ConfigEdit.settings, ConfigEdit.apply, PartialUpdateConfigRequest.apply,
      -Bool.exists_bool, -Bool.forall_bool, hpick]

/-! ## Fields -/

variable {e} {start : ConfigState} {s s' : EditState I} {i : I}

/-- The same edits are done, and the live configuration is the same. -/
theorem FieldsGiven.of_same (h : e.FieldsGiven start s)
    (hdone : ∀ j, s'.point j = .done ↔ s.point j = .done) (hlive : s'.live = s.live) :
    e.FieldsGiven start s' := by
  simp only [FieldsGiven, hdone, hlive]
  exact h

/-- One more edit is done, and it has set its fields. -/
theorem FieldsGiven.of_apply (h : e.FieldsGiven start s)
    (hdone : ∀ j, s'.point j = .done ↔ j = i ∨ s.point j = .done)
    (hlive : s'.live = (e.edit i).apply s.live) : e.FieldsGiven start s' := by
  intro field hfield
  rcases value_apply (e.edit i) s.live field hfield with hgiven | ⟨hunnamed, hsame⟩
  · rw [← hlive] at hgiven
    exact Or.inl ⟨i, (hdone i).mpr (Or.inl rfl), hgiven⟩
  · rw [hlive, hsame]
    rcases h field hfield with ⟨j, hj, hgiven⟩ | ⟨hnone, hfirst⟩
    · exact Or.inl ⟨j, (hdone j).mpr (Or.inr hj), hgiven⟩
    refine Or.inr ⟨fun j hj => ?_, hfirst⟩
    rcases (hdone j).mp hj with rfl | hbefore
    · exact hunnamed
    · exact hnone j hbefore

theorem settled_init (start : ConfigState) : e.Settled start (init start) where
  one _ _ _ _ h := by cases h
  fits _ _ h := by cases h
  pending _ _ h := by cases h
  saved _ h := by
    obtain ⟨_, h⟩ := h
    cases h
  given _ _ := Or.inr ⟨fun _ h => (by cases h), rfl⟩

/-! ## Steps that keep the edits in effect -/

theorem Settled.of_quiet (h : e.Settled start s) (hstate : s'.toConfigState = s.toConfigState)
    (hwritten : ∀ j config, s'.point j = .written config ↔ s.point j = .written config)
    (hdone : ∀ j, s'.point j = .done ↔ s.point j = .done) : e.Settled start s' := by
  constructor
  · intro j k config config' hj hk
    exact h.one j k config config' ((hwritten j config).mp hj) ((hwritten k config').mp hk)
  · intro j config hj
    rw [hstate]
    exact h.fits j config ((hwritten j config).mp hj)
  · intro j config hj
    rw [hstate]
    exact h.pending j config ((hwritten j config).mp hj)
  · intro hnone hsome
    rw [hstate]
    simp only [ne_eq, hwritten] at hnone
    simp only [hdone] at hsome
    exact h.saved hnone hsome
  · exact h.given.of_same hdone (congrArg ConfigState.live hstate)

theorem Settled.of_write (h : e.Settled start s) {config : AppConfig} {text : String}
    (hwritten : ∀ j config', s'.point j = .written config' ↔ j = i ∧ config' = config)
    (hdone : ∀ j, s'.point j = .done ↔ s.point j = .done) (hlive : s'.live = s.live)
    (hfile : s'.config_toml = some text)
    (hprint : e.toml.to_string_pretty (.ofConfig config) = some text)
    (hfits : config = (e.edit i).apply s.live) : e.Settled start s' := by
  constructor
  · intro j k config₁ config₂ hj hk
    rw [((hwritten j config₁).mp hj).1, ((hwritten k config₂).mp hk).1]
  · intro j config' hj
    obtain ⟨rfl, rfl⟩ := (hwritten j config').mp hj
    rw [hlive]
    exact hfits
  · intro j config' hj
    obtain ⟨rfl, rfl⟩ := (hwritten j config').mp hj
    exact ⟨text, hfile, hprint⟩
  · intro hnone _
    exact absurd ((hwritten i config).mpr ⟨rfl, rfl⟩) (hnone i config)
  · exact h.given.of_same hdone hlive

theorem Settled.of_replace (h : e.Settled start s) {config : AppConfig}
    (hpoint : s.point i = .written config) (hwritten : ∀ j config', s'.point j ≠ .written config')
    (hdone : ∀ j, s'.point j = .done ↔ j = i ∨ s.point j = .done) (hlive : s'.live = config)
    (hfile : s'.config_toml = s.config_toml) : e.Settled start s' := by
  constructor
  · intro j k config₁ config₂ hj
    exact absurd hj (hwritten j config₁)
  · intro j config' hj
    exact absurd hj (hwritten j config')
  · intro j config' hj
    exact absurd hj (hwritten j config')
  · intro _ _
    obtain ⟨text, htext, hprint⟩ := h.pending i config hpoint
    exact ⟨text, hfile.trans htext, by rw [hlive]; exact hprint⟩
  · exact h.given.of_apply hdone (hlive.trans (h.fits i config hpoint))

/-! ## What a step does -/

/-- A step of an edit writes the file, or replaces the live configuration, or does neither. -/
inductive Move (e : Edits I) (s : EditState I) (i : I) (s' : EditState I) : Prop where
  | quiet (hstate : s'.toConfigState = s.toConfigState)
      (hbefore : ∀ config, s.point i ≠ .written config)
      (hafter : ∀ config, s'.point i ≠ .written config)
      (hdone : s'.point i = .done ↔ s.point i = .done)
  | write {config : AppConfig} {text : String} (hpoint : s.point i = .cloned config)
      (hprint : e.toml.to_string_pretty (.ofConfig (cleaned ((e.edit i).apply config))) = some text)
      (hafter : s'.point i = .written (cleaned ((e.edit i).apply config)))
      (hlive : s'.live = s.live) (hfile : s'.config_toml = some text)
  | replace {config : AppConfig} (hpoint : s.point i = .written config)
      (hafter : s'.point i = .done) (hlive : s'.live = config)
      (hfile : s'.config_toml = s.config_toml)

variable [DecidableEq I]

theorem point_next_of_ne {j : I} (h : j ≠ i) : (e.next s i).point j = s.point j :=
  Function.update_of_ne h _ _

theorem move_next (s : EditState I) (i : I) : e.Move s i (e.next s i) := by
  obtain ⟨point', state', hstep⟩ : ∃ point' state',
      e.step (e.edit i) (s.point i) s.toConfigState = (point', state') := ⟨_, _, rfl⟩
  have hself : (e.next s i).point i = point' := by
    simp only [Edits.next, hstep, Function.update_self]
  have hstate : (e.next s i).toConfigState = state' := by simp only [Edits.next, hstep]
  -- a step that leaves the state alone, and the point among those before the write
  have hquiet : state' = s.toConfigState → (∀ config, s.point i ≠ .written config) →
      (∀ config, point' ≠ .written config) → (point' = .done ↔ s.point i = .done) →
      e.Move s i (e.next s i) := by
    rintro rfl hbefore hafter hdone
    exact .quiet hstate hbefore (by rwa [hself]) (by rwa [hself])
  cases hpoint : s.point i with
  | start =>
    simp only [hpoint, step] at hstep
    split at hstep
    · obtain ⟨rfl, rfl⟩ := Prod.mk.inj hstep
      exact hquiet rfl (by simp [hpoint]) (by simp) (by simp [hpoint])
    · obtain ⟨rfl, rfl⟩ := Prod.mk.inj hstep
      exact hquiet rfl (by simp [hpoint]) (by simp) (by simp [hpoint])
  | cloned config =>
    simp only [hpoint, step] at hstep
    split at hstep
    · rename_i new hupdate
      obtain ⟨rfl, rfl⟩ := Prod.mk.inj hstep
      obtain ⟨hlive, text, htext, hprint⟩ := update_eq_ok hupdate
      rw [hlive] at hself hprint
      exact .write hpoint hprint hself (by rw [hstate]) (by rw [hstate, ← htext])
    · obtain ⟨rfl, rfl⟩ := Prod.mk.inj hstep
      exact hquiet rfl (by simp [hpoint]) (by simp) (by simp [hpoint])
  | written config =>
    simp only [hpoint, step] at hstep
    obtain ⟨rfl, rfl⟩ := Prod.mk.inj hstep
    exact .replace hpoint hself (by rw [hstate]) (by rw [hstate])
  | checked | done | failed _ =>
    simp only [hpoint, step] at hstep
    obtain ⟨rfl, rfl⟩ := Prod.mk.inj hstep
    exact hquiet rfl (by simp [hpoint]) (by simp) (by simp [hpoint])

theorem Settled.next (h : e.Settled start s) (hok : e.StepOk s i) :
    e.Settled start (e.next s i) := by
  cases e.move_next s i with
  | quiet hstate hbefore hafter hdone =>
    refine h.of_quiet hstate (fun j config => ?_) (fun j => ?_)
    · by_cases hj : j = i
      · rw [hj]
        exact iff_of_false (hafter config) (hbefore config)
      · rw [point_next_of_ne hj]
    · by_cases hj : j = i
      · rw [hj]
        exact hdone
      · rw [point_next_of_ne hj]
  | @write config text hpoint hprint hafter hlive hfile =>
    obtain ⟨hnone, hfits⟩ := hok config hpoint (by rw [hprint]; rfl)
    refine h.of_write (i := i) (fun j config' => ?_) (fun j => ?_) hlive hfile hprint hfits
    · by_cases hj : j = i
      · rw [hj, hafter]
        simp [eq_comm]
      · rw [point_next_of_ne hj]
        exact iff_of_false (hnone j config') fun h => hj h.1
    · by_cases hj : j = i
      · rw [hj, hafter, hpoint]
        simp
      · rw [point_next_of_ne hj]
  | @replace config hpoint hafter hlive hfile =>
    refine h.of_replace hpoint (fun j config' hj => ?_) (fun j => ?_) hlive hfile
    · by_cases hji : j = i
      · rw [hji, hafter] at hj
        cases hj
      · rw [point_next_of_ne hji] at hj
        exact hji (h.one j i config' config hj hpoint)
    · by_cases hj : j = i
      · rw [hj, hafter]
        simp
      · rw [point_next_of_ne hj]
        simp [hj]

theorem stepOk_of_settled_next (h : e.Settled start (e.next s i)) : e.StepOk s i := by
  intro config hpoint hprint
  obtain ⟨text, htext⟩ := Option.isSome_iff_exists.mp hprint
  have hafter : (e.next s i).point i = .written (cleaned ((e.edit i).apply config)) := by
    simp [Edits.next, step, hpoint, update, htext]
  have hlive : (e.next s i).live = s.live := by simp [Edits.next, step, hpoint, update, htext]
  constructor
  · intro j config' hj
    have hji : j ≠ i := by
      rintro rfl
      rw [hpoint] at hj
      cases hj
    exact hji (h.one j i config' _ (by rw [point_next_of_ne hji]; exact hj) hafter)
  · rw [h.fits i _ hafter, hlive]

theorem settled_next_iff (h : e.Settled start s) : e.Settled start (e.next s i) ↔ e.StepOk s i :=
  ⟨stepOk_of_settled_next, h.next⟩

def Quiescent (s : EditState I) : Prop := ∀ i, (s.point i).under_way = false

variable (e)

/-- In every run, the edits take effect one after the other exactly if every edit writes the live
configuration with the fields that it names, and none writes between the write and the
replacement of another. Then, as soon as no edit is under way and one is done, the file is the
live configuration; and at any time, each field has a value that a finished edit gave it, or its
first value if none named it. -/
theorem edits_take_effect_iff (start : ConfigState) (steps : List I) :
    ((∀ done, done <+: steps → e.Settled start (LTS.run e.next (init start) done)) ↔
      ∀ done i, done ++ [i] <+: steps → e.StepOk (LTS.run e.next (init start) done) i) ∧
    ((∀ done i, done ++ [i] <+: steps → e.StepOk (LTS.run e.next (init start) done) i) →
      let s := LTS.run e.next (init start) steps
      (Quiescent s → (∃ i, s.point i = .done) → e.Saved s.toConfigState s.live) ∧
        e.FieldsGiven start s) := by
  have hiff : (∀ done, done <+: steps → e.Settled start (LTS.run e.next (init start) done)) ↔
      ∀ done i, done ++ [i] <+: steps → e.StepOk (LTS.run e.next (init start) done) i :=
    LTS.run_invariant_iff (I := e.Settled start) (C := e.StepOk) (settled_init start)
      fun _ _ _ hsettled => settled_next_iff hsettled
  refine ⟨hiff, fun hok => ?_⟩
  have hsettled := hiff.mpr hok steps (List.prefix_refl steps)
  refine ⟨fun hquiet => hsettled.saved fun i config hwritten => ?_, hsettled.given⟩
  have hidle := hquiet i
  rw [hwritten] at hidle
  cases hidle

/-! ## Two edits at once -/

/-- The named roots with these two flags. -/
def flagged (read_only_mode allow_registration : Bool) : AppConfig :=
  { named_roots with read_only_mode, allow_registration }

/-- One edit turns the read-only mode on, the other allows registration. -/
def two_edits : Edits Bool where
  toml := plain_toml [.ofConfig (flagged false false), .ofConfig (flagged false true),
    .ofConfig (flagged true false), .ofConfig (flagged true true)]
  edit second :=
    if second then .patch { allow_registration := some true }
    else .patch { read_only_mode := some true }

def before : ConfigState := ⟨some (print_toml (.ofConfig (flagged false false))), flagged false false⟩

/-- One after the other, both edits are in the file and live. -/
theorem edits_take_effect_in_turn :
    let s := LTS.run two_edits.next (init before)
      [true, true, true, true, false, false, false, false]
    s.config_toml = some (print_toml (.ofConfig (flagged true true))) ∧
      two_edits.Saved s.toConfigState s.live ∧ two_edits.FieldsGiven before s := by
  have hok : ∀ done i, done ++ [i] <+: [true, true, true, true, false, false, false, false] →
      two_edits.StepOk (LTS.run two_edits.next (init before) done) i := by
    simp only [LTS.forall_step_cons, LTS.forall_step_nil, and_true]
    refine ⟨?_, ?_, ?_, ?_, ?_, ?_, ?_, ?_⟩ <;> decide +kernel
  obtain ⟨hsaved, hgiven⟩ := (edits_take_effect_iff two_edits before _).2 hok
  have hquiet : Quiescent (LTS.run two_edits.next (init before)
      [true, true, true, true, false, false, false, false]) := by
    unfold Quiescent
    decide +kernel
  exact ⟨by decide +kernel, hsaved hquiet ⟨true, rfl⟩, hgiven⟩

/-- Both edits clone the configuration before either has replaced it. In one order of the rest, the
edit that allows registration turns the read-only mode off again; in another, the file and the
live configuration differ. -/
theorem edit_lost :
    let undone := LTS.run two_edits.next (init before)
      [false, false, true, true, false, false, true, true]
    let crossed := LTS.run two_edits.next (init before)
      [false, false, true, true, false, true, true, false]
    (undone.point false = .done ∧ undone.point true = .done ∧
      undone.live.read_only_mode = false ∧ ¬ two_edits.FieldsGiven before undone) ∧
    crossed.point false = .done ∧ crossed.point true = .done ∧
      crossed.config_toml = some (print_toml (.ofConfig (flagged false true))) ∧
      crossed.live = flagged true false ∧ ¬ two_edits.Saved crossed.toConfigState crossed.live := by
  intro undone crossed
  refine ⟨⟨rfl, rfl, by decide +kernel, ?_⟩, rfl, rfl, by decide +kernel, by decide +kernel, ?_⟩
  · intro hgiven
    have hoff : undone.live.read_only_mode = false := by decide +kernel
    have hfield := hgiven ⟨"read_only_mode", .runtime, some "PICASU_READ_ONLY_MODE",
      fun c => .flag c.read_only_mode⟩ (by simp [CONFIG_FIELDS])
    simp only [hoff] at hfield
    have hnamed : ∀ second, ("read_only_mode", ConfigValue.flag false) ∉
        (two_edits.edit second).settings := by decide
    rcases hfield with ⟨second, -, hmem⟩ | ⟨hnone, -⟩
    · exact hnamed second hmem
    · exact hnone false rfl (.flag true) (by decide)
  · unfold Saved
    decide +kernel

end Edits
