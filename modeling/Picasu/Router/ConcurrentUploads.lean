import Mathlib.Data.Fintype.Basic
import Picasu.Framework.Run
import Picasu.Router.Upload

/-! # Concurrent Uploads

Several requests store their files at the same time. Each call of `save_file` is taken apart into
its file-system operations: the copy to the temporary path, the test of the wanted name, the tests
of the suffixed names one by one, the modification time, and the rename. Between any two of them,
any other call may run (`Uploads.next`). One call run alone is `save_file`
(`SaveArgs.save_file_steps`).

The test and the rename are separate operations, and a rename replaces what stands at its
destination. A call that has found a name free has *chosen* it, but nothing shows this to the
others until the rename. So a second call can find the same name free, and the later rename
replaces the file of the earlier one (`Uploads.upload_replaced`), although the documentation of
`save_file` says that neither mode overwrites a file.

This is the only way to lose a file: `Uploads.never_overwrite_iff`.
-/

open PathBuf

/-- Where a call of `save_file` is. -/
inductive SavePoint where
  /-- Before the copy. -/
  | copy
  /-- Before the test of the wanted name. -/
  | test
  /-- In `find_unique_path`, before the test of the `n`-th name. -/
  | search (n : Nat)
  /-- Before the modification time is set. -/
  | touch (final_path : PathBuf)
  | rename (final_path : PathBuf)
  | done (result : Except AppError (Option PathBuf))
  deriving DecidableEq

namespace SavePoint

/-- The name that a call has chosen and not yet taken. -/
def chosen : SavePoint → Option PathBuf
  | .touch final_path | .rename final_path => some final_path
  | _ => none

def returned : SavePoint → Option PathBuf
  | .done (.ok path) => path
  | _ => none

end SavePoint

/-- `candidate` in `find_unique_path`. -/
def unique_candidate (base : PathBuf) (n : Nat) : PathBuf :=
  join ((parent base).getD [.curDir])
    [.normal (unique_name ((file_stem base).getD "file") ((extension base).getD "") n)]

theorem find_unique_path_eq (fs : Fs) (base : PathBuf) :
    find_unique_path fs base =
      match first_free (fun n => !fs.exists_ (unique_candidate base n)) (2 ^ 32 - 2) 1 with
      | some n => .ok (unique_candidate base n)
      | none => .error (.new .io ("Could not find a free filename for " ++ display base)) := rfl

/-- Where a call is after its search. -/
def SavePoint.searched (base : PathBuf) : Option Nat → SavePoint
  | some n => .touch (unique_candidate base n)
  | none => .done (.error (.new .io ("Could not find a free filename for " ++ display base)))

namespace SaveArgs

variable {C : Type} (args : SaveArgs C)

/-- One file-system operation of `save_file`, with the code up to the next one. -/
def step (io : SaveIo C) (point : SavePoint) (v : Volume C) : SavePoint × Volume C :=
  match point with
  | .copy =>
    match io.move_copy_to with
    | .error left =>
      (.done (.error (.new .io "Failed to move temporary file")),
        (left.map fun file => v.write args.tmp_path file).getD v)
    | .ok () => (.test, v.write args.tmp_path args.file)
  | .test =>
    if v.exists_ args.base_final then
      match args.on_conflict with
      | .skip => (.done (.ok none), if io.remove_file then v.remove_file args.tmp_path else v)
      | .rename => (.search 1, v)
    else (.touch args.base_final, v)
  | .search n =>
    if n < 2 ^ 32 - 1 then
      if v.exists_ (unique_candidate args.base_final n) then (.search (n + 1), v)
      else (.touch (unique_candidate args.base_final n), v)
    else
      (.done (.error (.new .io ("Could not find a free filename for " ++ display args.base_final))), v)
  | .touch final_path =>
    if io.set_file_mtime then
      (.rename final_path, v.set_file_mtime args.tmp_path (args.last_modified_ms / 1000))
    else (.done (.error (.new .io "Failed to set file modification time")), v)
  | .rename final_path =>
    if io.rename then (.done (.ok (some final_path)), v.rename args.tmp_path final_path)
    else (.done (.error (.new .io "Failed to rename file")), v)
  | .done result => (.done result, v)

/-! ## One call alone -/

section Alone

variable (io : SaveIo C) (v : Volume C)

/-- Steps of one call, one after the other. -/
def Steps : SavePoint × Volume C → SavePoint × Volume C → Prop :=
  Relation.ReflTransGen fun a b => b = args.step io a.1 a.2

variable {args io v} in
theorem Steps.of_step {point : SavePoint} {b : SavePoint × Volume C}
    (h : args.Steps io (args.step io point v) b) : args.Steps io (point, v) b :=
  Relation.ReflTransGen.head rfl h

/-- The tests of the suffixed names are `first_free`. -/
theorem search_steps (fuel n : Nat) (hfuel : n + fuel = 2 ^ 32 - 1) :
    args.Steps io (.search n, v) (.searched args.base_final
      (first_free (fun n => !v.fs.exists_ (unique_candidate args.base_final n)) fuel n), v) := by
  induction fuel generalizing n with
  | zero =>
    refine Steps.of_step ?_
    rw [step, if_neg (by omega)]
    exact Relation.ReflTransGen.refl
  | succ fuel ih =>
    refine Steps.of_step ?_
    rw [step, if_pos (by omega), first_free]
    by_cases hexists : v.exists_ (unique_candidate args.base_final n) = true
    · rw [if_pos hexists, if_neg (by simp [Volume.fs, hexists])]
      exact ih (n + 1) (by omega)
    · rw [if_neg hexists, if_pos (by simp [Volume.fs, hexists])]
      exact Relation.ReflTransGen.refl

theorem finish_steps (final_path : PathBuf) :
    args.Steps io (.touch final_path, v)
      (.done (args.finish io final_path v).1, (args.finish io final_path v).2) := by
  refine Steps.of_step ?_
  simp only [step, finish]
  split
  · refine Steps.of_step ?_
    rw [step]
    split
    · exact Relation.ReflTransGen.refl
    · exact Relation.ReflTransGen.refl
  · exact Relation.ReflTransGen.refl

theorem place_steps :
    args.Steps io (.test, v) (.done (args.place io v).1, (args.place io v).2) := by
  refine Steps.of_step ?_
  simp only [step, place]
  by_cases hexists : v.exists_ args.base_final = true
  · simp only [if_pos hexists]
    cases args.on_conflict with
    | skip => exact Relation.ReflTransGen.refl
    | rename =>
      have hsearch := args.search_steps io v (2 ^ 32 - 2) 1 (by omega)
      simp only [find_unique_path_eq]
      cases hfree : first_free (fun n => !v.fs.exists_ (unique_candidate args.base_final n))
          (2 ^ 32 - 2) 1 with
      | some n =>
        rw [hfree] at hsearch
        exact hsearch.trans (args.finish_steps io v _)
      | none =>
        rw [hfree] at hsearch
        exact hsearch
  · simp only [if_neg hexists]
    exact args.finish_steps io v _

/-- The steps of one call, with no other call between them, are `save_file`. -/
theorem save_file_steps :
    args.Steps io (.copy, v) (.done (args.save_file io v).1, (args.save_file io v).2) := by
  refine Steps.of_step ?_
  rw [step, save_file]
  cases io.move_copy_to with
  | error left => exact Relation.ReflTransGen.refl
  | ok _ => exact args.place_steps io _

end Alone

/-! ## Temporary and final names -/

section Names

variable {args}

theorem file_name_tmp_path (args : SaveArgs C) : ∃ last : String,
    file_name args.tmp_path = some (last ++ ("-" ++ args.uuid.text ++ ".tmp")) := by
  have hallowed : Allowed ("-" ++ args.uuid.text ++ ".tmp") := by
    simp only [allowed_append]
    exact ⟨⟨allowed_dash, args.uuid.allowed⟩, allowed_tmp⟩
  have hlength : 2 < ("-" ++ args.uuid.text ++ ".tmp").toList.length := by
    simp only [String.toList_append, List.length_append, args.uuid.length_text]
    omega
  obtain ⟨last, hlast⟩ := file_name_ofString_append args.filename hallowed.sep_not_mem hlength
  refine ⟨last, file_name_join _ ?_⟩
  rw [← hlast]
  simp only [String.append_assoc]

theorem file_name_base_final (args : SaveArgs C) : ∃ last : String,
    file_name args.base_final = some (last ++ "." ++ args.extension) := by
  obtain ⟨hext, -, hlength, -⟩ := supported_extension args.supported
  have hlong : 2 < ("." ++ args.extension).toList.length := by
    simp only [String.toList_append, List.length_append]
    omega
  obtain ⟨last, hlast⟩ := file_name_ofString_append args.filename
    (allowed_append.mpr ⟨allowed_dot, hext⟩).sep_not_mem hlong
  refine ⟨last, file_name_join _ ?_⟩
  rw [String.append_assoc, String.append_assoc, hlast]

theorem extension_tmp_path (args : SaveArgs C) : PathBuf.extension args.tmp_path = some "tmp" := by
  obtain ⟨last, hname⟩ := file_name_tmp_path args
  have hsplit : last ++ ("-" ++ args.uuid.text ++ ".tmp") =
      (last ++ ("-" ++ args.uuid.text)) ++ "." ++ "tmp" := by
    simp only [String.append_assoc]
    rfl
  rw [hsplit] at hname
  refine extension_of_file_name hname ?_ (by decide +kernel)
  intro hempty
  have hdash : '-' ∈ (last ++ ("-" ++ args.uuid.text)).toList := by simp
  rw [hempty] at hdash
  cases hdash

theorem uuid_eq_of_tmp_path {args args' : SaveArgs C} (h : args.tmp_path = args'.tmp_path) :
    args.uuid.text = args'.uuid.text := by
  obtain ⟨last, hname⟩ := file_name_tmp_path args
  obtain ⟨last', hname'⟩ := file_name_tmp_path args'
  rw [h, hname'] at hname
  have heq := congrArg String.toList (Option.some.inj hname)
  simp only [String.toList_append] at heq
  have htail := (List.append_inj' heq (by simp [Uuid.length_text])).2
  rw [List.append_left_inj, List.append_right_inj] at htail
  exact (String.toList_inj.mp htail).symm

theorem extension_eq_of_base_final {ext : String}
    (h : PathBuf.extension args.base_final = some ext) : ext = args.extension := by
  obtain ⟨stem, -, hname, -, hdot⟩ := exists_stem_of_extension h
  obtain ⟨last, hbase⟩ := file_name_base_final args
  rw [hname] at hbase
  exact eq_of_append_dot (Option.some.inj hbase) hdot (supported_extension args.supported).2.1

/-- The wanted name is no temporary one. -/
theorem extension_base_final_ne (args : SaveArgs C) :
    PathBuf.extension args.base_final ≠ some "tmp" := by
  intro h
  exact (supported_extension args.supported).2.2.2 (extension_eq_of_base_final h).symm

/-- A suffixed name is no temporary one: it has the extension of the wanted one, or it ends in a
digit. -/
theorem extension_candidate_ne (args : SaveArgs C) (n : Nat) :
    PathBuf.extension (unique_candidate args.base_final n) ≠ some "tmp" := by
  intro h
  obtain ⟨stem, -, hname, -, htmp⟩ := exists_stem_of_extension h
  rw [unique_candidate, file_name_join_normal] at hname
  have heq := Option.some.inj hname
  cases hext : PathBuf.extension args.base_final with
  | none =>
    rw [hext, Option.getD_none, unique_name, if_pos rfl] at heq
    have hlast := congrArg (fun s => s.toList.getLast?) heq
    simp only [String.toList_append, List.getLast?_append] at hlast
    cases hpad : (pad3 n).toList.getLast? with
    | none =>
      rw [hpad] at hlast
      exact absurd (Option.some.inj hlast) (by decide +kernel)
    | some c =>
      rw [hpad] at hlast
      have hp : c = 'p' := Option.some.inj hlast
      have hdigit := isDigit_of_mem_pad3 (List.mem_of_getLast? hpad)
      rw [hp] at hdigit
      exact absurd hdigit (by decide +kernel)
  | some ext =>
    have hsame := extension_eq_of_base_final hext
    obtain ⟨-, hdot, hlength, hne⟩ := supported_extension args.supported
    rw [← hsame] at hdot hlength hne
    have hnonempty : ext ≠ "" := by
      rintro rfl
      exact absurd hlength (by decide +kernel)
    rw [hext, Option.getD_some, unique_name, if_neg hnonempty] at heq
    exact hne (eq_of_append_dot heq hdot htmp)

end Names

/-! ## What a step does -/

/-- What stands at the temporary path of a call. -/
def Holds (file : Option (Stored C)) : SavePoint → Prop
  | .copy => file = none
  | .test | .search _ | .touch _ => file = some args.file
  | .rename _ => file = some args.stored
  | .done _ => True

/-- The name that the next step of a call tests. -/
def tested : SavePoint → Option PathBuf
  | .test => some args.base_final
  | .search n => if n < 2 ^ 32 - 1 then some (unique_candidate args.base_final n) else none
  | _ => none

/-- What a step does to a call and to the volume: it stays at its temporary path, it chooses a name,
or it takes the chosen name. -/
inductive Move : SavePoint → Volume C → SavePoint → Volume C → Prop where
  | stay {point point' : SavePoint} {v v' : Volume C}
      (hfiles : ∀ p, p ≠ args.tmp_path → v'.files p = v.files p)
      (hholds : args.Holds (v'.files args.tmp_path) point')
      (hchosen : ∀ p, point'.chosen = some p → point.chosen = some p)
      (hreturned : ∀ p, point'.returned = some p → point.returned = some p) :
      Move point v point' v'
  | choose {point : SavePoint} {v : Volume C} {p : PathBuf}
      (hholds : args.Holds (v.files args.tmp_path) (.touch p))
      (htested : args.tested point = some p) (hfree : v.exists_ p = false)
      (hext : PathBuf.extension p ≠ some "tmp") :
      Move point v (.touch p) v
  | take {v v' : Volume C} {p : PathBuf}
      (hfiles : v'.files p = some args.stored)
      (hothers : ∀ q, q ≠ args.tmp_path → q ≠ p → v'.files q = v.files q) :
      Move (.rename p) v (.done (.ok (some p))) v'

variable {args}

theorem move_step {point : SavePoint} {v : Volume C} (io : SaveIo C)
    (h : args.Holds (v.files args.tmp_path) point) :
    args.Move point v (args.step io point v).1 (args.step io point v).2 := by
  have hwrite : ∀ file p, p ≠ args.tmp_path → (v.write args.tmp_path file).files p = v.files p := by
    intro file p hp
    rw [Volume.files_write, if_neg hp]
  cases point with
  | copy =>
    rw [step]
    cases io.move_copy_to with
    | error left =>
      refine .stay ?_ trivial (fun p hp => (by cases hp)) (fun p hp => (by cases hp))
      cases left with
      | none => exact fun p _ => rfl
      | some file => exact hwrite file
    | ok _ =>
      refine .stay (hwrite _) ?_ (fun p hp => (by cases hp)) (fun p hp => (by cases hp))
      rw [Volume.files_write, if_pos rfl]
      rfl
  | test =>
    rw [step]
    by_cases hexists : v.exists_ args.base_final = true
    · rw [if_pos hexists]
      cases args.on_conflict with
      | skip =>
        refine .stay (fun p hp => ?_) trivial (fun p hp => (by cases hp)) (fun p hp => (by cases hp))
        by_cases hremove : io.remove_file = true
        · simp only [hremove, if_true]
          exact (FileMap.remove_apply _ _ p).trans (if_neg hp)
        · simp only [hremove]
          rfl
      | rename =>
        exact .stay (fun p _ => rfl) h (fun p hp => (by cases hp)) (fun p hp => (by cases hp))
    · rw [if_neg hexists]
      exact .choose h rfl (Bool.eq_false_iff.mpr hexists) args.extension_base_final_ne
  | search n =>
    rw [step]
    by_cases hn : n < 2 ^ 32 - 1
    · rw [if_pos hn]
      by_cases hexists : v.exists_ (unique_candidate args.base_final n) = true
      · rw [if_pos hexists]
        exact .stay (fun p _ => rfl) h (fun p hp => (by cases hp)) (fun p hp => (by cases hp))
      · rw [if_neg hexists]
        exact .choose h (if_pos hn) (Bool.eq_false_iff.mpr hexists)
          (args.extension_candidate_ne n)
    · rw [if_neg hn]
      exact .stay (fun p _ => rfl) trivial (fun p hp => (by cases hp)) (fun p hp => (by cases hp))
  | touch final_path =>
    rw [step]
    have htmp : v.files args.tmp_path = some args.file := h
    split
    · refine .stay (fun p hp => ?_) ?_ (fun p hp => hp) (fun p hp => (by cases hp))
      · rw [Volume.files_set_file_mtime, if_neg hp]
      · rw [Volume.files_set_file_mtime, if_pos rfl, htmp]
        rfl
    · exact .stay (fun p _ => rfl) trivial (fun p hp => (by cases hp)) (fun p hp => (by cases hp))
  | rename final_path =>
    rw [step]
    split
    · refine .take ?_ (fun q htmp hfinal => FileMap.rename_of_ne _ htmp hfinal)
      exact (FileMap.rename_apply h _).trans (if_pos rfl)
    · exact .stay (fun p _ => rfl) trivial (fun p hp => (by cases hp)) (fun p hp => (by cases hp))
  | done result => exact .stay (fun p _ => rfl) trivial (fun p hp => hp) (fun p hp => hp)

namespace Move

variable {point point' : SavePoint} {v v' : Volume C} {p : PathBuf}

section

variable (m : args.Move point v point' v')

include m

/-- A step changes nothing but the temporary path and the chosen name. -/
theorem files_of_ne (htmp : p ≠ args.tmp_path)
    (hchosen : point.chosen ≠ some p) : v'.files p = v.files p := by
  cases m with
  | stay hfiles => exact hfiles p htmp
  | choose => rfl
  | take _ hothers =>
    refine hothers p htmp ?_
    rintro rfl
    exact hchosen rfl

theorem holds : args.Holds (v'.files args.tmp_path) point' := by
  cases m with
  | stay _ hholds | choose hholds => exact hholds
  | take => trivial

/-- A name that is chosen after a step was chosen before, or it was tested and found free. -/
theorem chosen (h : point'.chosen = some p) :
    (point.chosen = some p ∧ ∀ q, q ≠ args.tmp_path → v'.files q = v.files q) ∨
      (args.tested point = some p ∧ v.exists_ p = false ∧ PathBuf.extension p ≠ some "tmp" ∧
        v' = v) := by
  cases m with
  | stay hfiles _ hchosen => exact Or.inl ⟨hchosen p h, hfiles⟩
  | choose _ htested hfree hext =>
    obtain rfl := Option.some.inj h
    exact Or.inr ⟨htested, hfree, hext, rfl⟩
  | take => cases h

/-- A path that is returned after a step was returned before, or it is the chosen name, which the
call has just taken. -/
theorem returned (h : point'.returned = some p) :
    (point.returned = some p ∧ ∀ q, q ≠ args.tmp_path → v'.files q = v.files q) ∨
      (point.chosen = some p ∧ v'.files p = some args.stored) := by
  cases m with
  | stay hfiles _ _ hreturned => exact Or.inl ⟨hreturned p h, hfiles⟩
  | choose => cases h
  | take hfiles =>
    obtain rfl := Option.some.inj h
    exact Or.inr ⟨rfl, hfiles⟩

end

end Move

/-- A call that tests a free name chooses it. -/
theorem chosen_step {point : SavePoint} {v : Volume C} {p : PathBuf} (io : SaveIo C)
    (htested : args.tested point = some p) (hfree : v.exists_ p = false) :
    point.chosen = none ∧ (args.step io point v).1.chosen = some p := by
  cases point with
  | test =>
    obtain rfl := Option.some.inj htested
    refine ⟨rfl, ?_⟩
    rw [step, if_neg (by simp [hfree])]
    rfl
  | search n =>
    simp only [tested] at htested
    split at htested
    · rename_i hn
      obtain rfl := Option.some.inj htested
      refine ⟨rfl, ?_⟩
      rw [step, if_pos hn, if_neg (by simp [hfree])]
      rfl
    · cases htested
  | copy | touch | rename | done => cases htested

end SaveArgs

/-! ## Any number of calls -/

/-- The calls of a run, with the files there are before it. A call has a UUID of its own, and
nothing stands at its temporary path. -/
structure Uploads (I C : Type) where
  args : I → SaveArgs C
  start : Volume C
  unique : ∀ i j, (args i).uuid.text = (args j).uuid.text → i = j
  fresh : ∀ i, start.files (args i).tmp_path = none

structure Saves (I C : Type) where
  point : I → SavePoint
  volume : Volume C

namespace Uploads

variable {I C : Type} (u : Uploads I C)

/-- No call has begun. -/
def init : Saves I C where
  point _ := .copy
  volume := u.start

/-- One call takes its next step, which ends as `io` says. -/
def next [DecidableEq I] (s : Saves I C) (l : I × SaveIo C) : Saves I C :=
  let (point, volume) := (u.args l.1).step l.2 (s.point l.1) s.volume
  { point := Function.update s.point l.1 point, volume }

/-- What holds in every run: each call has its own temporary file as long as it needs it, and no
call chooses a name that a temporary file can have. -/
structure Known (s : Saves I C) : Prop where
  holds : ∀ i, (u.args i).Holds (s.volume.files (u.args i).tmp_path) (s.point i)
  chosen : ∀ i p, (s.point i).chosen = some p → PathBuf.extension p ≠ some "tmp"
  returned : ∀ i p, (s.point i).returned = some p → PathBuf.extension p ≠ some "tmp"

/-- No file is lost, and no two calls are about to take one name. -/
structure Settled (s : Saves I C) : Prop where
  free : ∀ i p, (s.point i).chosen = some p → s.volume.files p = none
  distinct : ∀ i j p, (s.point i).chosen = some p → (s.point j).chosen = some p → i = j
  stored : ∀ i p, (s.point i).returned = some p → s.volume.files p = some (u.args i).stored
  kept : ∀ p, (u.start.files p).isSome → s.volume.files p = u.start.files p

/-- A call that finds a name free finds one that no call has chosen. -/
def StepOk (s : Saves I C) (l : I × SaveIo C) : Prop :=
  ∀ p, (u.args l.1).tested (s.point l.1) = some p → s.volume.exists_ p = false →
    ∀ j, (s.point j).chosen ≠ some p

instance [Fintype I] (s : Saves I C) (l : I × SaveIo C) : Decidable (u.StepOk s l) :=
  decidable_of_iff (∀ p ∈ ((u.args l.1).tested (s.point l.1)).toList, s.volume.exists_ p = false →
    ∀ j, (s.point j).chosen ≠ some p) (by simp [StepOk])

/-- Every call that has returned a path has its file there, and every file from before the run is as
it was. -/
def NothingLost (s : Saves I C) : Prop :=
  (∀ i p, s.point i = .done (.ok (some p)) → s.volume.files p = some (u.args i).stored) ∧
    ∀ p, (u.start.files p).isSome → s.volume.files p = u.start.files p

variable {u} {s : Saves I C} {l : I × SaveIo C}

theorem ne_tmp_path {p : PathBuf} (h : PathBuf.extension p ≠ some "tmp") (i : I) :
    p ≠ (u.args i).tmp_path := by
  rintro rfl
  exact h (SaveArgs.extension_tmp_path _)

theorem tmp_path_ne {i j : I} (h : j ≠ i) : (u.args j).tmp_path ≠ (u.args i).tmp_path :=
  fun heq => h (u.unique j i (SaveArgs.uuid_eq_of_tmp_path heq))

theorem known_init : u.Known u.init where
  holds := u.fresh
  chosen _ _ h := by cases h
  returned _ _ h := by cases h

theorem settled_init : u.Settled u.init where
  free _ _ h := by cases h
  distinct _ _ _ h := by cases h
  stored _ _ h := by cases h
  kept _ _ := rfl

theorem Settled.nothingLost (h : u.Settled s) : u.NothingLost s := by
  refine ⟨fun i p hp => h.stored i p ?_, h.kept⟩
  rw [hp]
  rfl

variable [DecidableEq I]

theorem move_next (h : u.Known s) (l : I × SaveIo C) :
    (u.args l.1).Move (s.point l.1) s.volume ((u.next s l).point l.1) (u.next s l).volume := by
  have hmove := SaveArgs.move_step l.2 (h.holds l.1)
  have hpoint : (u.next s l).point l.1 = ((u.args l.1).step l.2 (s.point l.1) s.volume).1 :=
    Function.update_self _ _ _
  rw [hpoint]
  exact hmove

theorem point_next_of_ne {j : I} (h : j ≠ l.1) : (u.next s l).point j = s.point j :=
  Function.update_of_ne h _ _

theorem Known.next (h : u.Known s) (l : I × SaveIo C) : u.Known (u.next s l) := by
  have hmove := move_next h l
  constructor
  · intro j
    by_cases hj : j = l.1
    · rw [hj]
      exact hmove.holds
    · -- the step is at another temporary path, or at a name that is none
      have hchosen : (s.point l.1).chosen ≠ some (u.args j).tmp_path := by
        intro hchosen
        exact h.chosen l.1 _ hchosen (SaveArgs.extension_tmp_path _)
      rw [point_next_of_ne hj, hmove.files_of_ne (tmp_path_ne hj) hchosen]
      exact h.holds j
  · intro j p hp
    by_cases hj : j = l.1
    · rw [hj] at hp
      rcases hmove.chosen hp with ⟨hbefore, -⟩ | ⟨-, -, hext, -⟩
      · exact h.chosen l.1 p hbefore
      · exact hext
    · rw [point_next_of_ne hj] at hp
      exact h.chosen j p hp
  · intro j p hp
    by_cases hj : j = l.1
    · rw [hj] at hp
      rcases hmove.returned hp with ⟨hbefore, -⟩ | ⟨hchosen, -⟩
      · exact h.returned l.1 p hbefore
      · exact h.chosen l.1 p hchosen
    · rw [point_next_of_ne hj] at hp
      exact h.returned j p hp

theorem known_run (labels : List (I × SaveIo C)) : u.Known (LTS.run u.next u.init labels) :=
  LTS.run_invariant (I := u.Known) known_init fun _ l _ h => h.next l

theorem Settled.next (h : u.Settled s) (hknown : u.Known s) (hok : u.StepOk s l) :
    u.Settled (u.next s l) := by
  have hmove := move_next hknown l
  have halone : ∀ j p, j ≠ l.1 → (s.point j).chosen = some p →
      ((u.next s l).point l.1).chosen ≠ some p := by
    intro j p hj hp hchosen
    rcases hmove.chosen hchosen with ⟨hbefore, -⟩ | ⟨htested, hfree, -⟩
    · exact hj (h.distinct j l.1 p hp hbefore)
    · exact hok p htested hfree j hp
  constructor
  · intro j p hp
    by_cases hj : j = l.1
    · rw [hj] at hp
      rcases hmove.chosen hp with ⟨hbefore, hfiles⟩ | ⟨-, hfree, -, hvolume⟩
      · rw [hfiles p (ne_tmp_path (hknown.chosen l.1 p hbefore) l.1)]
        exact h.free l.1 p hbefore
      · rw [hvolume]
        exact Volume.files_eq_none_of_not_exists hfree
    · rw [point_next_of_ne hj] at hp
      have hother : (s.point l.1).chosen ≠ some p := fun hchosen => hj (h.distinct j l.1 p hp hchosen)
      rw [hmove.files_of_ne (ne_tmp_path (hknown.chosen j p hp) l.1) hother]
      exact h.free j p hp
  · intro j k p hp hq
    by_cases hj : j = l.1
    · by_cases hk : k = l.1
      · rw [hj, hk]
      · rw [point_next_of_ne hk] at hq
        rw [hj] at hp
        exact absurd hp (halone k p hk hq)
    · rw [point_next_of_ne hj] at hp
      by_cases hk : k = l.1
      · rw [hk] at hq
        exact absurd hq (halone j p hj hp)
      · rw [point_next_of_ne hk] at hq
        exact h.distinct j k p hp hq
  · intro j p hp
    by_cases hj : j = l.1
    · rw [hj] at hp ⊢
      rcases hmove.returned hp with ⟨hbefore, hfiles⟩ | ⟨-, hstored⟩
      · rw [hfiles p (ne_tmp_path (hknown.returned l.1 p hbefore) l.1)]
        exact h.stored l.1 p hbefore
      · exact hstored
    · rw [point_next_of_ne hj] at hp
      have hother : (s.point l.1).chosen ≠ some p := by
        intro hchosen
        have hfree := h.free l.1 p hchosen
        rw [h.stored j p hp] at hfree
        cases hfree
      rw [hmove.files_of_ne (ne_tmp_path (hknown.returned j p hp) l.1) hother]
      exact h.stored j p hp
  · intro p hp
    have htmp : p ≠ (u.args l.1).tmp_path := by
      rintro rfl
      rw [u.fresh] at hp
      cases hp
    have hother : (s.point l.1).chosen ≠ some p := by
      intro hchosen
      rw [← h.kept p hp, h.free l.1 p hchosen] at hp
      cases hp
    rw [hmove.files_of_ne htmp hother]
    exact h.kept p hp

theorem stepOk_of_settled_next (h : u.Settled (u.next s l)) : u.StepOk s l := by
  intro p htested hfree j hp
  obtain ⟨hnone, hchosen⟩ := SaveArgs.chosen_step l.2 htested hfree
  have hj : j ≠ l.1 := by
    rintro rfl
    rw [hnone] at hp
    cases hp
  have hmover : ((u.next s l).point l.1).chosen = some p := by
    rw [show (u.next s l).point l.1 = _ from Function.update_self _ _ _]
    exact hchosen
  exact hj (h.distinct j l.1 p (by rw [point_next_of_ne hj]; exact hp) hmover)

theorem settled_next_iff (h : u.Settled s) (hknown : u.Known s) :
    u.Settled (u.next s l) ↔ u.StepOk s l :=
  ⟨stepOk_of_settled_next, h.next hknown⟩

variable (u)

/-- No two calls are ever about to take one name, and no file is lost, exactly in the runs in which
a call that finds a name free finds one that no other call has chosen. In these runs, every call
that has returned a path has its own file there, and the files from before are unchanged. -/
theorem never_overwrite_iff (labels : List (I × SaveIo C)) :
    ((∀ done, done <+: labels → u.Settled (LTS.run u.next u.init done)) ↔
      ∀ done l, done ++ [l] <+: labels → u.StepOk (LTS.run u.next u.init done) l) ∧
    ((∀ done l, done ++ [l] <+: labels → u.StepOk (LTS.run u.next u.init done) l) →
      u.NothingLost (LTS.run u.next u.init labels)) := by
  have hiff : (∀ done, done <+: labels → u.Settled (LTS.run u.next u.init done)) ↔
      ∀ done l, done ++ [l] <+: labels → u.StepOk (LTS.run u.next u.init done) l :=
    LTS.run_invariant_iff (I := u.Settled) (C := u.StepOk) settled_init
      fun done _ _ hsettled => settled_next_iff hsettled (known_run done)
  exact ⟨hiff, fun hok => (hiff.mpr hok labels (List.prefix_refl labels)).nothingLost⟩

/-! ## Two uploads of one name -/

theorem two_uuids_ne :
    "00000000-0000-4000-8000-000000000001" ≠ "00000000-0000-4000-8000-000000000002" := by
  decide +kernel

/-- A picture that two clients call `a.jpg`. -/
def two_uploads : Uploads Bool String where
  args second :=
    { file := ⟨if second then "second" else "first", 0⟩
      target_dir := ofString "/photos"
      filename := "a"
      extension := "jpg"
      last_modified_ms := 5000
      on_conflict := .rename
      uuid :=
        if second then ⟨"00000000-0000-4000-8000-000000000002", by decide, hex_of_all (by decide)⟩
        else ⟨"00000000-0000-4000-8000-000000000001", by decide, hex_of_all (by decide)⟩
      supported := SaveArgs.jpg_supported }
  start := ⟨fun _ => none, fun _ => false⟩
  unique i j h := by
    cases i with
    | false => cases j with
      | false => rfl
      | true => exact absurd h two_uuids_ne
    | true => cases j with
      | false => exact absurd h.symm two_uuids_ne
      | true => rfl
  fresh _ := rfl

/-- These calls take a step each, in this order. -/
def steps (calls : List Bool) : List (Bool × SaveIo String) :=
  calls.map fun second => (second, SaveArgs.all_well)

/-- One after the other, the second upload gets a suffix, and both files are there. -/
theorem never_overwrite_in_turn :
    let s := LTS.run two_uploads.next two_uploads.init
      (steps [false, false, false, false, true, true, true, true, true])
    s.point false = .done (.ok (some (ofString "/photos/a.jpg"))) ∧
      s.point true = .done (.ok (some (ofString "/photos/a-001.jpg"))) ∧
      two_uploads.NothingLost s := by
  refine ⟨by decide +kernel, by decide +kernel, (never_overwrite_iff _ _).2 ?_⟩
  simp only [steps, List.map_cons, List.map_nil, LTS.forall_step_cons, LTS.forall_step_nil, and_true]
  refine ⟨?_, ?_, ?_, ?_, ?_, ?_, ?_, ?_, ?_⟩ <;> decide +kernel

/-- Both calls test the name before either has taken it. Both return it, and the file of the first
is gone. -/
theorem upload_replaced :
    let s := LTS.run two_uploads.next two_uploads.init
      (steps [false, true, false, true, false, true, false, true])
    s.point false = .done (.ok (some (ofString "/photos/a.jpg"))) ∧
      s.point true = .done (.ok (some (ofString "/photos/a.jpg"))) ∧
      s.volume.files (ofString "/photos/a.jpg") = some ⟨"second", 5⟩ ∧
      ¬ two_uploads.NothingLost s := by
  intro s
  have hfirst : s.point false = .done (.ok (some (ofString "/photos/a.jpg"))) := by decide +kernel
  have hfile : s.volume.files (ofString "/photos/a.jpg") = some ⟨"second", 5⟩ := by decide +kernel
  refine ⟨hfirst, by decide +kernel, hfile, fun hlost => ?_⟩
  have hstored := hlost.1 false _ hfirst
  rw [hfile] at hstored
  exact absurd (congrArg Stored.content (Option.some.inj hstored)) (by decide +kernel)

end Uploads
