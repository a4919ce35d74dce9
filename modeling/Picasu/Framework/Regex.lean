import Mathlib.Data.List.Basic

/-! # Regular Expressions

A backtracking matcher. From a place in a text, an expression can match in several ways; `ends`
lists where they end, in the order in which a backtracking engine tries them. The match is the
first of them.

* `search` looks for the leftmost match, with its captured groups;
* `replace_all` replaces the matches, from left to right.

An expression is over any type of characters: code units, or Unicode scalar values.
-/

/-- Regular expressions. -/
inductive Regex (α : Type) where
  /-- One character of a class. -/
  | one (p : α → Bool)
  /-- Nothing, between a character and the next one that satisfy `p`; there is none before the start
  and after the end. -/
  | look (p : Option α → Option α → Bool)
  | seq (r s : Regex α)
  /-- `r`, or else `s`. -/
  | alt (r s : Regex α)
  /-- As many times as possible. -/
  | star (r : Regex α)
  /-- A group whose text is captured. -/
  | group (index : Nat) (r : Regex α)

namespace Regex

variable {α : Type}

/-- A place in a text: the character before it, what follows, and the groups captured on the way,
the latest first. -/
structure Cursor (α : Type) where
  last : Option α
  rest : List α
  groups : List (Nat × List α)

def Cursor.start (text : List α) : Cursor α := ⟨none, text, []⟩

/-! ## Matching -/

/-- Where repetitions end, at most `n` of them. A repetition that reads nothing is not tried. -/
def repetitions (step : Cursor α → List (Cursor α)) : Nat → Cursor α → List (Cursor α)
  | 0, c => [c]
  | n + 1, c =>
    ((step c).filter fun c' => decide (c'.rest.length < c.rest.length)).flatMap
      (repetitions step n) ++ [c]

/-- Where the matches from a place end, in the order of preference. -/
def ends : Regex α → Cursor α → List (Cursor α)
  | one p, c =>
    match c.rest with
    | a :: rest => if p a then [{ c with last := some a, rest }] else []
    | [] => []
  | look p, c => if p c.last c.rest.head? then [c] else []
  | seq r s, c => (r.ends c).flatMap s.ends
  | alt r s, c => r.ends c ++ s.ends c
  -- every repetition reads a character, so there are no more than these
  | star r, c => repetitions r.ends c.rest.length c
  | group index r, c => (r.ends c).map fun c' =>
      { c' with groups := (index, c.rest.take (c.rest.length - c'.rest.length)) :: c'.groups }

/-- Where the match from a place ends. -/
def first (r : Regex α) (c : Cursor α) : Option (Cursor α) := (r.ends c).head?

def empty : Regex α := look fun _ _ => true

/-- `r?`. -/
def opt (r : Regex α) : Regex α := alt r empty

/-- `r+`. -/
def plus (r : Regex α) : Regex α := seq r (star r)

/-- `r{n}`. -/
def times (r : Regex α) : Nat → Regex α
  | 0 => empty
  | 1 => r
  | n + 1 => seq r (times r n)

/-- A fixed text. -/
def lit [BEq α] : List α → Regex α
  | [] => empty
  | [a] => one (· == a)
  | a :: text => seq (one (· == a)) (lit text)

/-- The leftmost match in the text after `last`. -/
def search (r : Regex α) (last : Option α) : List α → Option (Cursor α)
  | [] => r.first ⟨last, [], []⟩
  | a :: rest =>
    match r.first ⟨last, a :: rest, []⟩ with
    | some c => some c
    | none => search r (some a) rest

def Cursor.text (c : Cursor α) (index : Nat) : Option (List α) := c.groups.lookup index

/-- Replace the matches in a text after `last`. The first `skip` characters belong to a match that
is replaced already. -/
def replace_from (r : Regex α) (replacement : List α) (skip : Nat) (last : Option α) :
    List α → List α
  | [] => if (r.first ⟨last, [], []⟩).isSome then replacement else []
  | a :: rest =>
    match skip with
    | skip + 1 => replace_from r replacement skip (some a) rest
    | 0 =>
      match r.first ⟨last, a :: rest, []⟩ with
      | none => a :: replace_from r replacement 0 (some a) rest
      | some c =>
        -- an empty match stands before the character
        if c.rest.length = (a :: rest).length then
          replacement ++ a :: replace_from r replacement 0 (some a) rest
        else
          replacement ++ replace_from r replacement (rest.length - c.rest.length) (some a) rest

def replace_all (r : Regex α) (replacement text : List α) : List α :=
  replace_from r replacement 0 none text

/-! ## The first match -/

section First

variable {r s : Regex α} {c c' c'' : Cursor α} {a : α} {rest : List α}

variable {groups : List (Nat × List α)}

theorem first_one {p : α → Bool} {last : Option α} :
    (one p).first ⟨last, a :: rest, groups⟩ =
      if p a then some ⟨some a, rest, groups⟩ else none := by
  show (if p a then [(⟨some a, rest, groups⟩ : Cursor α)] else []).head? = _
  split_ifs
  · rfl
  · rfl

theorem ends_eq_nil (h : r.first c = none) : r.ends c = [] := List.head?_eq_none_iff.mp h

/-- A sequence goes on from the first match of its first part. -/
theorem first_seq (hr : r.first c = some c') (hs : s.first c' = some c'') :
    (seq r s).first c = some c'' := by
  obtain ⟨others, hr⟩ := List.head?_eq_some_iff.mp hr
  obtain ⟨others', hs⟩ := List.head?_eq_some_iff.mp hs
  simp only [first, ends, hr, List.flatMap_cons, hs, List.cons_append, List.head?_cons]

theorem first_seq_none (hr : r.first c = none) : (seq r s).first c = none := by
  simp only [first, ends, ends_eq_nil hr, List.flatMap_nil, List.head?_nil]

/-- A sequence of two classes looks at the next two characters. -/
theorem first_seq_one {p q : α → Bool} {last : Option α} {b : α} :
    (seq (one p) (one q)).first ⟨last, a :: b :: rest, groups⟩ =
      if p a = true ∧ q b = true then some ⟨some b, rest, groups⟩ else none := by
  by_cases ha : p a = true
  · by_cases hb : q b = true
    · rw [if_pos ⟨ha, hb⟩]
      exact first_seq (by rw [first_one, if_pos ha]) (by rw [first_one, if_pos hb])
    · rw [if_neg (fun h => hb h.2)]
      simp only [first, ends, ha, if_true, List.flatMap_cons, List.flatMap_nil, hb]
      rfl
  · rw [if_neg (fun h => ha h.1)]
    exact first_seq_none (by rw [first_one, if_neg ha])

theorem first_alt_left (h : r.first c = some c') : (alt r s).first c = some c' := by
  obtain ⟨others, hr⟩ := List.head?_eq_some_iff.mp h
  simp only [first, ends, hr, List.cons_append, List.head?_cons]

theorem first_alt_right (h : r.first c = none) : (alt r s).first c = s.first c := by
  simp only [first, ends, ends_eq_nil h, List.nil_append]

/-- More fuel than there are characters changes nothing. -/
theorem repetitions_eq (step : Cursor α → List (Cursor α)) (n m : Nat) (c : Cursor α)
    (hn : c.rest.length ≤ n) (hm : c.rest.length ≤ m) :
    repetitions step n c = repetitions step m c := by
  induction n generalizing m c with
  | zero =>
    cases m with
    | zero => rfl
    | succ m =>
      -- nothing is left to read
      have hnone : (step c).filter (fun c' => decide (c'.rest.length < c.rest.length)) = [] := by
        rw [List.filter_eq_nil_iff]
        intro c' _
        simp only [decide_eq_true_eq]
        omega
      simp only [repetitions, hnone, List.flatMap_nil, List.nil_append]
  | succ n ih =>
    cases m with
    | zero =>
      have hnone : (step c).filter (fun c' => decide (c'.rest.length < c.rest.length)) = [] := by
        rw [List.filter_eq_nil_iff]
        intro c' _
        simp only [decide_eq_true_eq]
        omega
      simp only [repetitions, hnone, List.flatMap_nil, List.nil_append]
    | succ m =>
      have hsame : ∀ c' ∈ (step c).filter (fun c' => decide (c'.rest.length < c.rest.length)),
          repetitions step n c' = repetitions step m c' := by
        intro c' hc'
        have hlt := of_decide_eq_true (List.mem_filter.mp hc').2
        exact ih m c' (by omega) (by omega)
      simp only [repetitions, List.flatMap_congr hsame]

/-- A repetition goes on while its body reads something. -/
theorem first_star_step (hr : r.first c = some c') (hlt : c'.rest.length < c.rest.length)
    (hstar : (star r).first c' = some c'') : (star r).first c = some c'' := by
  obtain ⟨others, hr⟩ := List.head?_eq_some_iff.mp hr
  obtain ⟨others', hstar⟩ := List.head?_eq_some_iff.mp hstar
  obtain ⟨n, hn⟩ : ∃ n, c.rest.length = n + 1 := ⟨c.rest.length - 1, by omega⟩
  have hafter : repetitions r.ends n c' = c'' :: others' := by
    rw [← hstar]
    exact repetitions_eq r.ends n c'.rest.length c' (by omega) (Nat.le_refl _)
  have hkept : decide (c'.rest.length < n + 1) = true := decide_eq_true (by omega)
  simp only [first, ends, hn, repetitions, hr, List.filter_cons, hkept, if_true,
    List.flatMap_cons, hafter, List.cons_append, List.head?_cons]

theorem first_star_stop (hr : r.first c = none) : (star r).first c = some c := by
  show (repetitions r.ends c.rest.length c).head? = some c
  cases c.rest.length with
  | zero => rfl
  | succ n => simp only [repetitions, ends_eq_nil hr, List.filter_nil, List.flatMap_nil,
      List.nil_append, List.head?_cons]

end First

/-! ## Captured groups -/

section Captured

variable {r : Regex α} {c c' : Cursor α} {index : Nat}

/-- The groups that every match captures. -/
def captured : Regex α → List Nat
  | seq r s => r.captured ++ s.captured
  | group index r => index :: r.captured
  | _ => []

/-- A match keeps the groups captured before it. -/
theorem groups_suffix_of_mem_ends (r : Regex α) (c : Cursor α) :
    ∀ c' ∈ r.ends c, c.groups <:+ c'.groups := by
  induction r generalizing c with
  | one p =>
    intro c' hc'
    unfold ends at hc'
    split at hc'
    · split_ifs at hc'
      · exact List.mem_singleton.mp hc' ▸ List.suffix_refl _
      · cases hc'
    · cases hc'
  | look p =>
    intro c' hc'
    unfold ends at hc'
    split_ifs at hc'
    · exact List.mem_singleton.mp hc' ▸ List.suffix_refl _
    · cases hc'
  | seq r s ihr ihs =>
    intro c' hc'
    obtain ⟨c₁, hc₁, hc'⟩ := List.mem_flatMap.mp hc'
    exact (ihr c c₁ hc₁).trans (ihs c₁ c' hc')
  | alt r s ihr ihs =>
    intro c' hc'
    rcases List.mem_append.mp hc' with hc' | hc'
    · exact ihr c c' hc'
    · exact ihs c c' hc'
  | star r ih =>
    -- by the number of repetitions
    have hrepeat : ∀ n c, ∀ c' ∈ repetitions r.ends n c, c.groups <:+ c'.groups := by
      intro n
      induction n with
      | zero =>
        intro c c' hc'
        exact List.mem_singleton.mp hc' ▸ List.suffix_refl _
      | succ n ihn =>
        intro c c' hc'
        rcases List.mem_append.mp hc' with hc' | hc'
        · obtain ⟨c₁, hc₁, hc'⟩ := List.mem_flatMap.mp hc'
          exact (ih c c₁ (List.mem_filter.mp hc₁).1).trans (ihn c₁ c' hc')
        · exact List.mem_singleton.mp hc' ▸ List.suffix_refl _
    exact hrepeat c.rest.length c
  | group index r ih =>
    intro c' hc'
    obtain ⟨c₁, hc₁, rfl⟩ := List.mem_map.mp hc'
    exact (ih c c₁ hc₁).trans (List.suffix_cons _ _)

theorem mem_groups_of_captured (r : Regex α) (c : Cursor α) (hindex : index ∈ r.captured) :
    ∀ c' ∈ r.ends c, ∃ text, (index, text) ∈ c'.groups := by
  induction r generalizing c with
  | seq r s ihr ihs =>
    intro c' hc'
    obtain ⟨c₁, hc₁, hc'⟩ := List.mem_flatMap.mp hc'
    rcases List.mem_append.mp hindex with hindex | hindex
    · obtain ⟨text, htext⟩ := ihr c hindex c₁ hc₁
      exact ⟨text, (groups_suffix_of_mem_ends s c₁ c' hc').subset htext⟩
    · exact ihs c₁ hindex c' hc'
  | group i r ih =>
    intro c' hc'
    obtain ⟨c₁, hc₁, rfl⟩ := List.mem_map.mp hc'
    rcases List.mem_cons.mp hindex with rfl | hindex
    · exact ⟨_, List.mem_cons_self⟩
    · obtain ⟨text, htext⟩ := ih c hindex c₁ hc₁
      exact ⟨text, List.mem_cons_of_mem _ htext⟩
  | one p | look p | alt r s | star r => cases hindex

theorem mem_ends_of_search {last : Option α} {text : List α} (h : r.search last text = some c') :
    ∃ c, c' ∈ r.ends c := by
  induction text generalizing last with
  | nil => exact ⟨_, List.mem_of_head? h⟩
  | cons a text ih =>
    rw [search] at h
    split at h
    · rename_i found hfound
      obtain rfl : found = c' := Option.some.inj h
      exact ⟨_, List.mem_of_head? hfound⟩
    · exact ih h

/-- What is always captured has a text. -/
theorem text_of_search {last : Option α} {text : List α} (h : r.search last text = some c)
    (hindex : index ∈ r.captured) : ∃ captured, c.text index = some captured := by
  obtain ⟨start, hmem⟩ := mem_ends_of_search h
  obtain ⟨text', htext⟩ := mem_groups_of_captured r start hindex c hmem
  refine Option.ne_none_iff_exists'.mp fun hnone => ?_
  have hne := List.lookup_eq_none_iff.mp hnone (index, text') htext
  simp at hne

end Captured

/-! ## Replacing -/

section Replace

variable {r : Regex α} {replacement : List α} {last : Option α} {a : α} {rest : List α}

/-- A character at which nothing matches is kept. -/
theorem replace_from_miss (h : r.first ⟨last, a :: rest, []⟩ = none) :
    replace_from r replacement 0 last (a :: rest) =
      a :: replace_from r replacement 0 (some a) rest := by
  rw [replace_from, h]

theorem replace_from_one (p : α → Bool) (replacement text : List α) (last : Option α) :
    replace_from (one p) replacement 0 last text =
      text.flatMap fun a => if p a then replacement else [a] := by
  induction text generalizing last with
  | nil => rfl
  | cons a text ih =>
    rw [List.flatMap_cons]
    by_cases ha : p a = true
    · have hfirst : (one p).first ⟨last, a :: text, []⟩ = some ⟨some a, text, []⟩ := by
        rw [first_one, if_pos ha]
      have hlength : ¬ text.length = (a :: text).length := by simp
      rw [replace_from, hfirst, if_pos ha]
      simp only [if_neg hlength, Nat.sub_self, ih]
    · rw [replace_from_miss (by rw [first_one, if_neg ha]), ih, if_neg ha]
      rfl

/-- Two characters that match are replaced together. -/
theorem replace_from_pair {p q : α → Bool} {b : α} (ha : p a = true) (hb : q b = true) :
    replace_from (seq (one p) (one q)) replacement 0 last (a :: b :: rest) =
      replacement ++ replace_from (seq (one p) (one q)) replacement 0 (some b) rest := by
  have hfirst : (seq (one p) (one q)).first ⟨last, a :: b :: rest, []⟩ =
      some ⟨some b, rest, []⟩ := by
    rw [first_seq_one, if_pos ⟨ha, hb⟩]
  have hlength : ¬ rest.length = (a :: b :: rest).length := by
    simp only [List.length_cons]
    omega
  have hskip : (b :: rest).length - rest.length = 1 := by
    simp only [List.length_cons]
    omega
  rw [replace_from, hfirst]
  simp only [if_neg hlength, hskip]
  rw [replace_from]

end Replace

end Regex
