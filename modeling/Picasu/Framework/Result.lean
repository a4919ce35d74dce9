import Mathlib.Data.List.Basic

/-! # Fallible Computations

How a computation in `Except` succeeds: a sequence succeeds when each of its parts does, and a
guard when its condition is false. With these, a handler's success is taken apart by `obtain`,
without unfolding the monad.
-/

namespace Result

variable {ε α β γ : Type} {x : Except ε α} {f : α → Except ε β} {ys : List β} {xs : List α}

theorem bind_eq_ok {b : β} :
    (x >>= f) = .ok b ↔ ∃ a, x = .ok a ∧ f a = .ok b := by
  cases x with
  | error e =>
    show Except.error e = Except.ok b ↔ _
    simp
  | ok a =>
    show f a = .ok b ↔ _
    simp

theorem pure_eq_ok {a b : α} : (pure a : Except ε α) = .ok b ↔ a = b := by
  show Except.ok a = Except.ok b ↔ _
  simp

/-- A guard that throws when `c` holds lets the rest run exactly when it does not. -/
theorem guard_eq_ok {c : Prop} [Decidable c] {e : ε} {f : β → Except ε α} {b : α} :
    (if c then throw e >>= f else x) = .ok b ↔ ¬ c ∧ x = .ok b := by
  by_cases hc : c
  · have hthrow : (throw e >>= f) ≠ Except.ok b := by
      intro h
      obtain ⟨a, h, -⟩ := bind_eq_ok.mp h
      cases h
    simp [hc, hthrow]
  · simp [hc]

def ok_or (e : ε) : Option α → Except ε α
  | some a => .ok a
  | none => .error e

theorem ok_or_eq_ok {e : ε} {o : Option α} {a : α} : ok_or e o = .ok a ↔ o = some a := by
  cases o with
  | none | some b => simp [ok_or]

theorem mapError_eq_ok {ε' : Type} {f : ε → ε'} {a : α} :
    x.mapError f = .ok a ↔ x = .ok a := by
  cases x with
  | error e | ok b => simp [Except.mapError]

/-- A loop succeeds when its body does on every element, with the results in order. -/
theorem mapM_eq_ok : xs.mapM f = .ok ys ↔ xs.map f = ys.map .ok := by
  induction xs generalizing ys with
  | nil => cases ys <;> simp [pure_eq_ok]
  | cons x xs ih =>
    rw [List.mapM_cons, List.map_cons]
    cases ys with
    | nil => simp [bind_eq_ok, pure_eq_ok, -bind_pure_comp]
    | cons y ys => simp [bind_eq_ok, pure_eq_ok, ih, -bind_pure_comp]

/-- A loop over indices whose body gives the elements of a list gives the list. -/
theorem mapM_range'_eq_ok {f : Nat → Except ε β} {start : Nat}
    (h : ∀ i (hi : i < ys.length), f (start + i) = .ok ys[i]) :
    (List.range' start ys.length).mapM f = .ok ys := by
  refine mapM_eq_ok.mpr (List.ext_getElem (by simp) fun i _ hi => ?_)
  rw [List.length_map] at hi
  simpa using h i hi

/-- Every result of a loop is the result of its body on some element. -/
theorem mem_of_mapM_eq_ok (h : xs.mapM f = .ok ys) : ∀ y ∈ ys, ∃ x ∈ xs, f x = .ok y := by
  intro y hy
  refine List.mem_map.mp ?_
  rw [mapM_eq_ok.mp h]
  exact List.mem_map_of_mem hy

/-- A loop whose body succeeds on every element gives the results in order. -/
theorem mapM_eq_ok_map {g : α → β} (h : ∀ x ∈ xs, f x = .ok (g x)) :
    xs.mapM f = .ok (xs.map g) := by
  rw [mapM_eq_ok, List.map_map]
  exact List.map_congr_left h

/-- A loop succeeds only if its body does on every element. -/
theorem forall_ok_of_mapM (h : xs.mapM f = .ok ys) : ∀ x ∈ xs, ∃ y, f x = .ok y := by
  intro x hx
  have hmem : f x ∈ ys.map .ok := by
    rw [← mapM_eq_ok.mp h]
    exact List.mem_map_of_mem hx
  obtain ⟨y, -, hy⟩ := List.mem_map.mp hmem
  exact ⟨y, hy.symm⟩

/-- Two loops over one list, whose bodies succeed with results that look the same, succeed with
lists that look the same. -/
theorem mapM_view_eq {g : α → Except ε β} {view : β → γ}
    (h : ∀ x ∈ xs, ∃ a b, f x = .ok a ∧ g x = .ok b ∧ view a = view b) :
    (xs.mapM f).map (List.map view) = (xs.mapM g).map (List.map view) := by
  have hboth : ∃ as bs, xs.mapM f = .ok as ∧ xs.mapM g = .ok bs ∧ as.map view = bs.map view := by
    induction xs with
    | nil => exact ⟨[], [], rfl, rfl, rfl⟩
    | cons x xs ih =>
      obtain ⟨a, b, ha, hb, hab⟩ := h x List.mem_cons_self
      obtain ⟨as, bs, has, hbs, habs⟩ := ih fun y hy => h y (List.mem_cons_of_mem x hy)
      refine ⟨a :: as, b :: bs, ?_, ?_, by simp [hab, habs]⟩
      · rw [List.mapM_cons, ha, has]
        rfl
      · rw [List.mapM_cons, hb, hbs]
        rfl
  obtain ⟨as, bs, has, hbs, habs⟩ := hboth
  rw [has, hbs]
  show Except.ok (as.map view) = Except.ok (bs.map view)
  rw [habs]

end Result
