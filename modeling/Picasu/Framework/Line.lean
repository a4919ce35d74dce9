import Mathlib.Data.List.Basic

/-! # Waiting in Line

Things wait in a line and are served from its front; new ones join at the back, and neighbours may
be merged into one. `Leads mine low` says of a line that something in it is mine and that
everything ahead of the first such thing is low. It is what lets one conclude from something that
is not low being served that mine has been served before.

The rules say what serving, joining and merging do to it.
-/

namespace Line

variable {α : Type} {mine low : α → Prop}

/-- Something in the line is mine, and all ahead of it is low. -/
def Leads (mine low : α → Prop) : List α → Prop
  | [] => False
  | x :: rest => mine x ∨ (low x ∧ Leads mine low rest)

theorem leads_append {front back : List α} :
    Leads mine low (front ++ back) ↔
      Leads mine low front ∨ ((∀ x ∈ front, low x) ∧ Leads mine low back) := by
  induction front with
  | nil => simp [Leads]
  | cons x front ih =>
    simp only [List.cons_append, Leads, ih, List.forall_mem_cons]
    tauto

variable {line : List α}

theorem Leads.join (h : Leads mine low line) (late : List α) :
    Leads mine low (line ++ late) :=
  leads_append.mpr (Or.inl h)

/-- If all of it is low, whoever is in the line leads. -/
theorem leads_of_mem (hlow : ∀ x ∈ line, low x) {x : α} (hx : x ∈ line)
    (hmine : mine x) : Leads mine low line := by
  induction line with
  | nil => cases hx
  | cons y line ih =>
    rcases List.mem_cons.mp hx with rfl | htail
    · exact Or.inl hmine
    · exact Or.inr ⟨hlow y List.mem_cons_self,
        ih (fun z hz => hlow z (List.mem_cons_of_mem _ hz)) htail⟩

theorem Leads.mono {low' : α → Prop} (hlow : ∀ x, low x → low' x)
    (h : Leads mine low line) : Leads mine low' line := by
  induction line with
  | nil => exact h
  | cons x line ih =>
    rcases h with hmine | ⟨hx, hrest⟩
    · exact Or.inl hmine
    · exact Or.inr ⟨hlow x hx, ih hrest⟩

theorem Leads.exists_mem (h : Leads mine low line) : ∃ x ∈ line, mine x := by
  induction line with
  | nil => cases h
  | cons x line ih =>
    rcases h with hmine | ⟨-, hrest⟩
    · exact ⟨x, List.mem_cons_self, hmine⟩
    · obtain ⟨y, hy, hmine⟩ := ih hrest
      exact ⟨y, List.mem_cons_of_mem _ hy, hmine⟩

/-- Merging a part of the line into one thing: it is mine if one of the part was, and low if all of
it was. -/
theorem Leads.merge {front part back : List α} {merged : α}
    (hmine : ∀ x ∈ part, mine x → mine merged) (hlow : (∀ x ∈ part, low x) → low merged)
    (h : Leads mine low (front ++ part ++ back)) :
    Leads mine low (front ++ [merged] ++ back) := by
  rw [leads_append, leads_append] at h
  rcases h with (hfront | ⟨hfront, hpart⟩) | ⟨hahead, hback⟩
  · exact (hfront.join _).join _
  · obtain ⟨x, hx, hxmine⟩ := hpart.exists_mem
    rw [leads_append, leads_append]
    exact Or.inl (Or.inr ⟨hfront, Or.inl (hmine x hx hxmine)⟩)
  · have hfront : ∀ x ∈ front, low x := fun x hx => hahead x (List.mem_append_left _ hx)
    have hpart : ∀ x ∈ part, low x := fun x hx => hahead x (List.mem_append_right _ hx)
    rw [leads_append]
    refine Or.inr ⟨fun x hx => ?_, hback⟩
    rcases List.mem_append.mp hx with hx | hx
    · exact hfront x hx
    · rw [List.mem_singleton.mp hx]
      exact hlow hpart

end Line
