import Mathlib.Data.List.TakeWhile

/-! # Sliding Windows

A list of times, in the order in which they were noted, of which only those count that are younger
than a window. There are two ways to leave the others out: test each of them, or drop from the
front until one counts. The second is cheaper, and it is the same exactly if the times were noted
in order (`expire_eq_recent_iff`).

Times are natural numbers, and a time in the future is as young as can be.
-/

namespace SlidingWindow

variable {window now later : Nat} {times times' : List Nat}

def recent (window now : Nat) (times : List Nat) : List Nat :=
  times.filter fun old => now - old < window

/-- Drop times from the front until one is younger than the window. -/
def expire (window now : Nat) (times : List Nat) : List Nat :=
  times.dropWhile fun old => window ≤ now - old

variable {t : Nat}

theorem mem_recent : t ∈ recent window now times ↔ t ∈ times ∧ now - t < window := by simp [recent]

theorem recent_append (window now : Nat) (times times' : List Nat) :
    recent window now (times ++ times') = recent window now times ++ recent window now times' :=
  List.filter_append times times'

theorem recent_self (h : 0 < window) : recent window now [now] = [now] := by simp [recent, h]

/-- As time goes by, what counts is found among what counted. -/
theorem recent_recent (h : now ≤ later) :
    recent window later (recent window now times) = recent window later times := by
  rw [recent, recent, List.filter_filter]
  apply List.filter_congr
  intro t _
  simp only [Bool.and_eq_left_iff_imp, decide_eq_true_eq]
  omega

theorem recent_eq_nil {seen : Nat} (htimes : ∀ t ∈ times, t ≤ seen) (hold : window ≤ now - seen) :
    recent window now times = [] := by
  rw [recent, List.filter_eq_nil_iff]
  intro t ht
  have hle := htimes t ht
  simp only [decide_eq_true_eq]
  omega

theorem expire_cons_of_old (h : window ≤ now - t) :
    expire window now (t :: times) = expire window now times := by
  simp [expire, h]

theorem expire_cons_of_young (h : now - t < window) :
    expire window now (t :: times) = t :: times := by
  simp [expire, h]

theorem expire_of_recent (h : recent window now times = times) :
    expire window now times = times := by
  cases times with
  | nil => rfl
  | cons t times =>
    have hmem : t ∈ recent window now (t :: times) := by
      rw [h]
      exact List.mem_cons_self
    exact expire_cons_of_young (mem_recent.mp hmem).2

theorem expire_sublist (window now : Nat) (times : List Nat) :
    (expire window now times).Sublist times :=
  List.dropWhile_sublist _

/-! ## Times in order -/

theorem expire_eq_recent (h : times.Pairwise (· ≤ ·)) (now : Nat) :
    expire window now times = recent window now times := by
  induction times with
  | nil => rfl
  | cons t times ih =>
    obtain ⟨hfirst, hrest⟩ := List.pairwise_cons.mp h
    by_cases ht : window ≤ now - t
    · rw [expire_cons_of_old ht, ih hrest]
      simp [recent, ht]
    · -- the first one counts, and the others are no older
      have hall : ∀ u ∈ t :: times, decide (now - u < window) = true := by
        intro u hu
        rcases List.mem_cons.mp hu with rfl | hu
        · simp only [decide_eq_true_eq]
          omega
        · have hle := hfirst u hu
          simp only [decide_eq_true_eq]
          omega
      rw [expire_cons_of_young (by omega), recent, List.filter_eq_self.mpr hall]

/-- At least `n` times count exactly if the `n`-th last one does. -/
theorem le_length_recent_iff (h : times.Pairwise (· ≤ ·)) {n : Nat} (hn : 0 < n) :
    n ≤ (recent window now times).length ↔
      ∃ old, times.reverse[n - 1]? = some old ∧ now - old < window := by
  -- what counts is the end of the list
  obtain ⟨gone, hgone, hsplit⟩ : ∃ gone, (∀ t ∈ gone, window ≤ now - t) ∧
      times = gone ++ recent window now times := by
    refine ⟨times.takeWhile fun old => window ≤ now - old, fun t ht => ?_, ?_⟩
    · simpa using List.mem_takeWhile_imp ht
    · rw [← expire_eq_recent h]
      exact List.takeWhile_append_dropWhile.symm
  have hreverse : times.reverse = (recent window now times).reverse ++ gone.reverse := by
    rw [← List.reverse_append, ← hsplit]
  rw [hreverse]
  by_cases hle : n ≤ (recent window now times).length
  · have hlt : n - 1 < (recent window now times).reverse.length := by
      rw [List.length_reverse]
      omega
    refine iff_of_true hle ⟨_, by rw [List.getElem?_append_left hlt, List.getElem?_eq_getElem hlt], ?_⟩
    exact (mem_recent.mp (List.mem_reverse.mp (List.getElem_mem hlt))).2
  · refine iff_of_false hle ?_
    rintro ⟨old, hold, hyoung⟩
    rw [List.getElem?_append_right (by rw [List.length_reverse]; omega)] at hold
    have hold := hgone old (List.mem_reverse.mp (List.mem_of_getElem? hold))
    omega

/-- An older time behind a younger one is dropped too late. -/
theorem pairwise_of_expire (hwindow : 0 < window)
    (h : ∀ now, expire window now times = recent window now times) : times.Pairwise (· ≤ ·) := by
  induction times with
  | nil => exact .nil
  | cons t times ih =>
    refine List.pairwise_cons.mpr ⟨fun u hu => ?_, ih fun now => ?_⟩
    · by_contra hlt
      -- at this time the later entry has just left the window, the first has not
      have hkept := h (u + window)
      rw [expire_cons_of_young (by omega)] at hkept
      have hmem : u ∈ recent window (u + window) (t :: times) := by
        rw [← hkept]
        exact List.mem_cons_of_mem t hu
      have := (mem_recent.mp hmem).2
      omega
    · have hnow := h now
      by_cases ht : window ≤ now - t
      · rw [expire_cons_of_old ht] at hnow
        simpa [recent, ht] using hnow
      · -- all the others count, so none is dropped from the front either
        rw [expire_cons_of_young (by omega)] at hnow
        have hall : recent window now times = times := by
          have hcons : t :: times = t :: recent window now times := by
            simpa [recent, Nat.lt_of_not_le ht] using hnow
          exact (List.cons.inj hcons).2.symm
        rw [hall, expire_of_recent hall]

theorem expire_eq_recent_iff (hwindow : 0 < window) :
    (∀ now, expire window now times = recent window now times) ↔ times.Pairwise (· ≤ ·) :=
  ⟨pairwise_of_expire hwindow, fun h now => expire_eq_recent h now⟩

end SlidingWindow
