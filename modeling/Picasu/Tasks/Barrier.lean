import Picasu.Framework.Line
import Picasu.Tasks.SerialWriter

/-! # What a Barrier Covers

When a barrier returns, every operation whose submit had returned before the barrier was called is
written, and its cascade entry is executed. The numbers need not arrive in order for that: a
number that is at least the barrier's own was drawn after the earlier submit had returned, so its
message is behind the earlier one in the line, and so is its entry.

* `Covered` says this of one call and one bound on the numbers: as long as the call is not served,
  nothing that reaches the bound is stored in the watermark or ahead of it in the line. Every step
  keeps it.
* `Numbered`: every number in the system was drawn. So a call that has just sent its message is
  covered up to the next number.
* `barrier_covers_returned_submits` puts the two together.
-/

open Line

/-- The entry that a message would get on its own. -/
def Message.entry (m : Message) : CascadeEntry := ⟨m.seq, .noop, [m.call]⟩

/-- The entry that the cascade task executes. -/
def CascadePoint.in_hand : CascadePoint → List CascadeEntry
  | running entry => [entry]
  | _ => []

/-- The number that the cascade task stores next. -/
def CascadePoint.stores : CascadePoint → Option Nat
  | storing seq => some seq
  | _ => none

theorem WriterPoint.in_hand_eq_nil {point : WriterPoint} (h : point.stores = none) :
    point.in_hand = [] := by
  cases point with
  | sending entry merged => cases h
  | _ => rfl

/-- A task that is not about to store a number. -/
theorem none_stored {P : Nat → Prop} : ∀ seq ∈ (none : Option Nat), P seq :=
  fun seq hseq => absurd hseq (Option.not_mem_none seq)

variable {run rest : List Message}

/-- The number of a merged run is one of its numbers, and the largest. -/
theorem flush_seq_spec (hrun : run ≠ []) :
    (∃ m ∈ run, m.seq = flush_seq run) ∧ ∀ m ∈ run, m.seq ≤ flush_seq run := by
  have hmax : (run.map Message.seq).max? = some (flush_seq run) := by
    obtain ⟨m, rest, rfl⟩ := List.exists_cons_of_ne_nil hrun
    rw [flush_seq, List.foldl_cons, Nat.zero_max, List.map_cons, List.max?_cons', List.foldl_map]
  obtain ⟨hmem, hle⟩ := List.max?_eq_some_iff.mp hmax
  exact ⟨List.mem_map.mp hmem, fun m hm => hle _ (List.mem_map_of_mem hm)⟩

/-- The number of a merged run is below a bound if all its numbers are. -/
theorem flush_seq_lt {bound : Nat} (hpos : 0 < bound)
    (h : ∀ m ∈ run, m.seq < bound) : flush_seq run < bound := by
  by_cases hrun : run = []
  · rw [hrun]
    exact hpos
  · obtain ⟨⟨m, hm, heq⟩, -⟩ := flush_seq_spec hrun
    rw [← heq]
    exact h m hm

namespace SerialWriter

variable {s s' : SerialWriter} {l : Label} {k bound : Nat}

/-- The entries that wait for the cascade task. -/
def entries (s : SerialWriter) : List CascadeEntry :=
  s.cascade.in_hand ++ s.cascade_inbox ++ s.writer.in_hand

/-- The queue of a writer that is about to take the messages `run`. -/
theorem queue_of_pending (h : s.pending = run ++ rest) : s.queue = run ++ (rest ++ s.inbox) := by
  rw [queue, h, List.append_assoc]

/-- The entries stay in line, unless one is written or executed. -/
theorem entries_move (hmove : Move s l s') (hwritten : s'.written = s.written)
    (hcascaded : s'.cascaded = s.cascaded) : s'.entries = s.entries := by
  cases hmove with
  | arrange hqueue hbefore hafter =>
    rw [entries, entries, WriterPoint.in_hand_eq_nil hbefore, WriterPoint.in_hand_eq_nil hafter]
  | take => simp at hwritten
  | enqueueCascade hwriter => simp [entries, hwriter, WriterPoint.in_hand]
  | complete hwriter hafter =>
    rw [entries, entries, hwriter, WriterPoint.in_hand_eq_nil hafter]
    rfl
  | recv hcascade hinbox =>
    rw [entries, entries, hcascade, hinbox]
    rfl
  | execute => simp at hcascaded
  | store hcascade =>
    rw [entries, entries, hcascade]
    rfl
  | _ => rfl

/-- The operation of the `k`-th call is written. -/
def Written (s : SerialWriter) (k : Nat) : Prop := ∃ entry ∈ s.written, k ∈ entry.members

/-- The cascade entry of the `k`-th call is executed. -/
def Cascaded (s : SerialWriter) (k : Nat) : Prop := ∃ entry ∈ s.cascaded, k ∈ entry.members

/-! ## One call -/

/-- Until the `k`-th call is served by a task, the task has seen only numbers below `bound`, and has
only such numbers ahead of it. -/
structure Covered (k bound : Nat) (s : SerialWriter) : Prop where
  write : s.Written k ∨ (s.completed_seq < bound ∧ (∀ seq ∈ s.writer.stores, seq < bound) ∧
    Leads (fun m => m.call = k) (fun m => m.seq < bound) s.queue)
  cascade : s.Cascaded k ∨
    (s.cascade_completed_seq < bound ∧ (∀ seq ∈ s.cascade.stores, seq < bound) ∧
      Leads (fun entry => k ∈ entry.members) (fun entry => entry.seq < bound)
        (s.entries ++ s.queue.map Message.entry))

theorem Covered.mono {bound' : Nat} (h : Covered k bound s) (hle : bound ≤ bound') :
    Covered k bound' s := by
  constructor
  · refine h.write.imp_right fun ⟨hmark, hstores, hleads⟩ => ⟨by omega, fun seq hseq => ?_, ?_⟩
    · exact (hstores seq hseq).trans_le hle
    · exact hleads.mono fun m hm => hm.trans_le hle
  · refine h.cascade.imp_right fun ⟨hmark, hstores, hleads⟩ => ⟨by omega, fun seq hseq => ?_, ?_⟩
    · exact (hstores seq hseq).trans_le hle
    · exact hleads.mono fun m hm => hm.trans_le hle

variable {entry : CascadeEntry} {n : Nat} {c : Call} {point : CallPoint}

/-- The writer takes the messages `run` from the front of its queue and writes them as one. -/
theorem Covered.take (h : Covered k bound s) (hpending : s.pending = run ++ rest)
    (hmembers : entry.members = run.map Message.call)
    (hseq : (∀ m ∈ run, m.seq < bound) → entry.seq < bound) (hhand : s.writer.in_hand = [])
    (lib : Library) (merged : Bool) :
    Covered k bound { s with
      pending := rest, lib, written := s.written ++ [entry], writer := .sending entry merged } := by
  have hqueue := queue_of_pending hpending
  constructor
  · rcases h.write with ⟨e, he, hk⟩ | ⟨hmark, -, hleads⟩
    · exact Or.inl ⟨e, List.mem_append_left _ he, hk⟩
    rw [hqueue, leads_append] at hleads
    rcases hleads with hrun | ⟨hlow, hrest⟩
    · -- the call is among those that are written now
      obtain ⟨m, hm, rfl⟩ := hrun.exists_mem
      refine Or.inl ⟨entry, List.mem_append_right _ List.mem_cons_self, ?_⟩
      rw [hmembers]
      exact List.mem_map_of_mem hm
    · refine Or.inr ⟨hmark, ?_, hrest⟩
      intro seq hmem
      obtain rfl : entry.seq = seq := Option.some.inj hmem
      exact hseq hlow
  · refine h.cascade.imp_right fun ⟨hmark, hstores, hleads⟩ => ⟨hmark, hstores, ?_⟩
    -- the run becomes one entry in the line
    rw [hqueue, List.map_append, ← List.append_assoc, entries, hhand, List.append_nil] at hleads
    refine hleads.merge ?_ fun hall => hseq fun m hm => hall m.entry (List.mem_map_of_mem hm)
    intro e he hk
    obtain ⟨m, hm, rfl⟩ := List.mem_map.mp he
    obtain rfl : k = m.call := List.mem_singleton.mp hk
    rw [hmembers]
    exact List.mem_map_of_mem hm

theorem Covered.execute (h : Covered k bound s) (hcascade : s.cascade = .running entry) :
    Covered k bound { s with
      cascaded := s.cascaded ++ [entry], cascade := .storing entry.seq } := by
  refine ⟨h.write, ?_⟩
  rcases h.cascade with ⟨e, he, hk⟩ | ⟨hmark, -, hleads⟩
  · exact Or.inl ⟨e, List.mem_append_left _ he, hk⟩
  rw [entries, hcascade] at hleads
  rcases hleads with hmine | ⟨hlow, hrest⟩
  · exact Or.inl ⟨entry, List.mem_append_right _ List.mem_cons_self, hmine⟩
  refine Or.inr ⟨hmark, ?_, hrest⟩
  intro seq hmem
  obtain rfl : entry.seq = seq := Option.some.inj hmem
  exact hlow

theorem Covered.move (h : Covered k bound s) (hpos : 0 < bound) (hmove : Move s l s') :
    Covered k bound s' := by
  have hentries := entries_move hmove
  cases hmove with
  | stay => exact h
  | call | draw | loadNext | pass | giveBack | again => exact ⟨h.write, h.cascade⟩
  | send hc hpoint hroom =>
    -- whoever sends now is behind the call
    constructor
    · refine h.write.imp_right ?_
      rintro ⟨hmark, hstores, hleads⟩
      refine ⟨hmark, hstores, ?_⟩
      rw [queue, ← List.append_assoc]
      exact hleads.join _
    · refine h.cascade.imp_right ?_
      rintro ⟨hmark, hstores, hleads⟩
      refine ⟨hmark, hstores, ?_⟩
      rw [queue, ← List.append_assoc, List.map_append, ← List.append_assoc]
      exact hleads.join _
  | arrange hqueue hbefore hafter =>
    -- a message moves from the channel to the pending ones, at the same place in line
    constructor
    · refine h.write.imp_right ?_
      rintro ⟨hmark, hstores, hleads⟩
      refine ⟨hmark, ?_, ?_⟩
      · rw [hafter]
        exact none_stored
      · rw [queue, hqueue]
        exact hleads
    · rw [hentries rfl rfl, queue, hqueue]
      exact h.cascade
  | take hpending hrun hseq hmembers hbefore =>
    refine h.take hpending hmembers (fun hlow => ?_) (WriterPoint.in_hand_eq_nil hbefore) _ _
    rw [hseq]
    exact flush_seq_lt hpos hlow
  | enqueueCascade hwriter =>
    constructor
    · refine h.write.imp_right ?_
      rintro ⟨hmark, hstores, hleads⟩
      refine ⟨hmark, ?_, hleads⟩
      rw [hwriter] at hstores
      exact hstores
    · rw [hentries rfl rfl]
      exact h.cascade
  | complete hwriter hafter =>
    constructor
    · refine h.write.imp_right ?_
      rintro ⟨-, hstores, hleads⟩
      refine ⟨?_, ?_, hleads⟩
      · exact hstores _ (by rw [hwriter]; rfl)
      · rw [hafter]
        exact none_stored
    · rw [hentries rfl rfl]
      exact h.cascade
  | recv hcascade hinbox =>
    refine ⟨h.write, h.cascade.imp_right ?_⟩
    rintro ⟨hmark, -, hleads⟩
    rw [hentries rfl rfl]
    exact ⟨hmark, none_stored, hleads⟩
  | execute hcascade => exact h.execute hcascade
  | store hcascade =>
    refine ⟨h.write, h.cascade.imp_right ?_⟩
    rintro ⟨-, hstores, hleads⟩
    rw [hentries rfl rfl]
    exact ⟨hstores _ (by rw [hcascade]; rfl), none_stored, hleads⟩

theorem Written.move (h : s.Written k) (hmove : Move s l s') : s'.Written k := by
  cases hmove with
  | take =>
    obtain ⟨entry, hentry, hk⟩ := h
    exact ⟨entry, List.mem_append_left _ hentry, hk⟩
  | _ => exact h

theorem Cascaded.move (h : s.Cascaded k) (hmove : Move s l s') : s'.Cascaded k := by
  cases hmove with
  | execute =>
    obtain ⟨entry, hentry, hk⟩ := h
    exact ⟨entry, List.mem_append_left _ hentry, hk⟩
  | _ => exact h

/-! ## The numbers -/

theorem getElem?_set_call (hc : s.calls[n]? = some c)
    {i : Nat} {d : Call} (h : (s.set_call n c point)[i]? = some d) :
    (i = n ∧ d = { c with point }) ∨ (i ≠ n ∧ s.calls[i]? = some d) := by
  by_cases hi : i = n
  · subst hi
    have hlt : i < s.calls.length := (List.getElem?_eq_some_iff.mp hc).1
    rw [set_call, List.getElem?_set_self hlt] at h
    exact Or.inl ⟨rfl, (Option.some.inj h).symm⟩
  · rw [set_call, List.getElem?_set_ne (Ne.symm hi)] at h
    exact Or.inr ⟨hi, h⟩

theorem getElem?_new_call {kind : CallKind} {i : Nat} {d : Call}
    (h : (s.calls ++ [⟨kind, .called⟩])[i]? = some d) :
    s.calls[i]? = some d ∨ d.point = .called := by
  rcases Nat.lt_or_ge i s.calls.length with hlt | hge
  · rw [List.getElem?_append_left hlt] at h
    exact Or.inl h
  · rw [List.getElem?_append_right hge] at h
    rw [List.mem_singleton.mp (List.mem_of_getElem? h)]
    exact Or.inr rfl

/-- Every number in the system was drawn. -/
structure Numbered (s : SerialWriter) : Prop where
  pos : 0 < s.next_seq
  calls : ∀ (n : Nat) (c : Call), s.calls[n]? = some c → ∀ seq ∈ c.point.seq, seq < s.next_seq
  queue : ∀ m ∈ s.queue, m.seq < s.next_seq
  completed : s.completed_seq < s.next_seq
  stores : ∀ seq ∈ s.writer.stores, seq < s.next_seq
  entries : ∀ entry ∈ s.entries, entry.seq < s.next_seq
  cascade_completed : s.cascade_completed_seq < s.next_seq
  cascade_stores : ∀ seq ∈ s.cascade.stores, seq < s.next_seq

theorem numbered_start (lib : Library) : (start lib).Numbered := by
  refine ⟨Nat.one_pos, ?_, ?_, Nat.one_pos, none_stored, ?_, Nat.one_pos, none_stored⟩
  · exact fun n c hc => by cases hc
  · exact fun m hm => absurd hm List.not_mem_nil
  · exact fun entry hentry => absurd hentry List.not_mem_nil

theorem Numbered.set_call (h : s.Numbered) (hc : s.calls[n]? = some c)
    (hpoint : point.seq = c.point.seq) :
    Numbered { s with calls := s.set_call n c point } := by
  refine { h with calls := fun i d hd seq hseq => ?_ }
  rcases getElem?_set_call hc hd with ⟨-, rfl⟩ | ⟨-, hd⟩
  · exact h.calls n c hc seq (hpoint ▸ hseq)
  · exact h.calls i d hd seq hseq

theorem Numbered.draw (h : s.Numbered) (hc : s.calls[n]? = some c) :
    Numbered { s with
      next_seq := s.next_seq + 1, calls := s.set_call n c (.drawn s.next_seq) } where
  pos := Nat.succ_pos _
  calls i d hd seq hseq := by
    rcases getElem?_set_call hc hd with ⟨-, rfl⟩ | ⟨-, hd⟩
    · obtain rfl : s.next_seq = seq := Option.some.inj hseq
      exact Nat.lt_succ_self _
    · exact (h.calls i d hd seq hseq).trans (Nat.lt_succ_self _)
  queue m hm := (h.queue m hm).trans (Nat.lt_succ_self _)
  completed := h.completed.trans (Nat.lt_succ_self _)
  stores seq hseq := (h.stores seq hseq).trans (Nat.lt_succ_self _)
  entries entry hentry := (h.entries entry hentry).trans (Nat.lt_succ_self _)
  cascade_completed := h.cascade_completed.trans (Nat.lt_succ_self _)
  cascade_stores seq hseq := (h.cascade_stores seq hseq).trans (Nat.lt_succ_self _)

theorem Numbered.take (h : s.Numbered) (hpending : s.pending = run ++ rest)
    (hseq : entry.seq = flush_seq run) (lib : Library) (merged : Bool) : Numbered { s with
      pending := rest, lib, written := s.written ++ [entry], writer := .sending entry merged } := by
  have hqueue := queue_of_pending hpending
  have hentry : entry.seq < s.next_seq := by
    rw [hseq]
    refine flush_seq_lt h.pos fun m hm => h.queue m ?_
    rw [hqueue]
    exact List.mem_append_left _ hm
  refine { h with queue := fun m hm => ?_, stores := fun seq hseq => ?_, entries := fun e he => ?_ }
  · refine h.queue m ?_
    rw [hqueue]
    exact List.mem_append_right _ hm
  · obtain rfl : entry.seq = seq := Option.some.inj hseq
    exact hentry
  · rcases List.mem_append.mp he with he | he
    · exact h.entries e (List.mem_append_left _ he)
    · obtain rfl := List.mem_singleton.mp he
      exact hentry

theorem Numbered.move (h : s.Numbered) (hmove : Move s l s') : s'.Numbered := by
  have hentries : s'.written = s.written → s'.cascaded = s.cascaded →
      ∀ entry ∈ s'.entries, entry.seq < s.next_seq :=
    fun hwritten hcascaded => entries_move hmove hwritten hcascaded ▸ h.entries
  cases hmove with
  | stay => exact h
  | call kind =>
    refine { h with calls := fun i d hd seq hseq => ?_ }
    rcases getElem?_new_call hd with hd | hcalled
    · exact h.calls i d hd seq hseq
    · rw [hcalled] at hseq
      cases hseq
  | draw hc hpoint => exact h.draw hc
  | @send n seq c hc hpoint hroom =>
    have hcalls : Numbered { s with calls := s.set_call n c (.sent seq) } :=
      h.set_call hc (by rw [hpoint]; rfl)
    refine { h with calls := hcalls.calls, queue := fun m hm => ?_ }
    rw [SerialWriter.queue, ← List.append_assoc] at hm
    rcases List.mem_append.mp hm with hm | hm
    · exact h.queue m hm
    · obtain rfl := List.mem_singleton.mp hm
      exact h.calls n c hc seq (by rw [hpoint]; rfl)
  | loadNext hc hpoint | pass hc hpoint | giveBack hc hpoint | again hc hpoint =>
    exact h.set_call hc (by rw [hpoint]; rfl)
  | arrange hqueue hbefore hafter =>
    refine { h with queue := ?_, stores := ?_, entries := hentries rfl rfl }
    · rw [SerialWriter.queue, hqueue]
      exact h.queue
    · rw [hafter]
      exact none_stored
  | take hpending hrun hseq => exact h.take hpending hseq _ _
  | enqueueCascade hwriter =>
    have hstores := h.stores
    rw [hwriter] at hstores
    exact { h with stores := hstores, entries := hentries rfl rfl }
  | complete hwriter hafter =>
    refine { h with completed := h.stores _ (by rw [hwriter]; rfl), stores := ?_,
                    entries := hentries rfl rfl }
    rw [hafter]
    exact none_stored
  | recv hcascade hinbox =>
    exact { h with entries := hentries rfl rfl, cascade_stores := none_stored }
  | execute hcascade =>
    have hentries := h.entries
    rw [SerialWriter.entries, hcascade] at hentries
    refine { h with entries := fun e he => hentries e (List.mem_cons_of_mem _ he)
                    cascade_stores := fun seq hseq => ?_ }
    rw [← Option.some.inj hseq]
    exact hentries _ List.mem_cons_self
  | store hcascade =>
    exact { h with entries := hentries rfl rfl, cascade_stores := none_stored,
                   cascade_completed := h.cascade_stores _ (by rw [hcascade]; rfl) }

theorem next_seq_le_move (hmove : Move s l s') : s.next_seq ≤ s'.next_seq := by
  cases hmove with
  | draw => exact Nat.le_succ _
  | _ => exact Nat.le_refl _

/-- Every call whose message is sent is covered up to the next number. -/
def SentCovered (s : SerialWriter) : Prop :=
  ∀ (n : Nat) (c : Call), s.calls[n]? = some c → c.point.has_sent = true → Covered n s.next_seq s

theorem SentCovered.move (h : s.SentCovered) (hnum : s.Numbered) (hmove : Move s l s') :
    s'.SentCovered := by
  -- a call that has sent its message before stays covered
  have hold : ∀ n, Covered n s.next_seq s → Covered n s'.next_seq s' := fun n hcov =>
    (hcov.move hnum.pos hmove).mono (next_seq_le_move hmove)
  have hnum' := hnum.move hmove
  have hkeep : ∀ {n : Nat} {c : Call} {point : CallPoint} {i : Nat} {d : Call},
      s.calls[n]? = some c → c.point.has_sent = true →
      (s.set_call n c point)[i]? = some d → d.point.has_sent = true →
        Covered i s.next_seq s := by
    intro n c point i d hc hsent hd hd'
    rcases getElem?_set_call hc hd with ⟨rfl, -⟩ | ⟨-, hd⟩
    · exact h i c hc hsent
    · exact h i d hd hd'
  intro i d hd hsent
  cases hmove with
  | call kind =>
    rcases getElem?_new_call hd with hd | hcalled
    · exact hold i (h i d hd hsent)
    · rw [hcalled] at hsent
      cases hsent
  | draw hc hpoint =>
    rcases getElem?_set_call hc hd with ⟨-, rfl⟩ | ⟨-, hd⟩
    · cases hsent
    · exact hold i (h i d hd hsent)
  | @send n seq c hc hpoint hroom =>
    rcases getElem?_set_call hc hd with ⟨rfl, -⟩ | ⟨-, hd⟩
    · -- all numbers are below the next one, so whoever is in the line leads it
      have hmem : (⟨seq, c.kind.op, i⟩ : Message) ∈
          s.pending ++ (s.inbox ++ [⟨seq, c.kind.op, i⟩]) := by simp
      refine ⟨Or.inr ⟨hnum'.completed, hnum'.stores, leads_of_mem hnum'.queue hmem rfl⟩,
        Or.inr ⟨hnum'.cascade_completed, hnum'.cascade_stores, ?_⟩⟩
      refine leads_of_mem ?_ (List.mem_append_right _ (List.mem_map_of_mem hmem))
        (List.mem_singleton.mpr rfl)
      intro entry hentry
      rcases List.mem_append.mp hentry with hentry | hentry
      · exact hnum'.entries entry hentry
      · obtain ⟨m, hm, rfl⟩ := List.mem_map.mp hentry
        exact hnum'.queue m hm
    · exact hold i (h i d hd hsent)
  | loadNext hc hpoint | pass hc hpoint | giveBack hc hpoint | again hc hpoint =>
    exact hold i (hkeep hc (by rw [hpoint]; rfl) hd hsent)
  | _ => exact hold i (h i d hd hsent)

theorem numbered_run (lib : Library) (labels : List Label) :
    (LTS.run next (start lib) labels).Numbered ∧ (LTS.run next (start lib) labels).SentCovered := by
  have hstart : (start lib).SentCovered := fun n c hc => by cases hc
  exact LTS.run_invariant (I := fun t : SerialWriter => t.Numbered ∧ t.SentCovered)
    ⟨numbered_start lib, hstart⟩ fun _ l _ h => ⟨h.1.move (move_next l), h.2.move h.1 (move_next l)⟩

/-! ## Barriers -/

/-- What a call that began late knows about the `k`-th one. -/
def Knows (k bound : Nat) (s : SerialWriter) : CallPoint → Prop
  | .called => True
  | .drawn _ | .sent _ => bound < s.next_seq
  | .waiting _ target => bound ≤ target
  | .passed _ target => bound ≤ target ∧ s.Written k
  | .returned _ => s.Written k ∧ s.Cascaded k

theorem Knows.move (h : Knows k bound s point) (hmove : Move s l s') :
    Knows k bound s' point := by
  cases point with
  | called => trivial
  | drawn seq | sent seq => exact Nat.lt_of_lt_of_le h (next_seq_le_move hmove)
  | waiting seq target => exact h
  | passed seq target => exact ⟨h.1, h.2.move hmove⟩
  | returned seq => exact ⟨h.1.move hmove, h.2.move hmove⟩

/-- The `k`-th call is covered up to `bound`, which is drawn by later calls only; all calls from the
`first` on know about it. -/
structure Late (k bound first : Nat) (s : SerialWriter) : Prop where
  covered : Covered k bound s
  le_next : bound ≤ s.next_seq
  knows : ∀ (n : Nat) (c : Call), first ≤ n → s.calls[n]? = some c → Knows k bound s c.point

theorem Covered.written_of_le {target : Nat} (h : Covered k bound s) (hle : bound ≤ target)
    (hreached : target ≤ s.completed_seq) : s.Written k := by
  rcases h.write with hdone | ⟨hmark, -⟩
  · exact hdone
  · omega

theorem Covered.cascaded_of_le {target : Nat} (h : Covered k bound s) (hle : bound ≤ target)
    (hreached : target ≤ s.cascade_completed_seq) : s.Cascaded k := by
  rcases h.cascade with hdone | ⟨hmark, -⟩
  · exact hdone
  · omega

/-- Every step of a late call keeps what it knows, or learns it from a watermark. -/
theorem Late.move {first : Nat} (h : Late k bound first s) (hpos : 0 < bound)
    (hmove : Move s l s') : Late k bound first s' := by
  refine ⟨h.covered.move hpos hmove, h.le_next.trans (next_seq_le_move hmove), ?_⟩
  intro i d hi hd
  have hold : s.calls[i]? = some d → Knows k bound s' d.point :=
    fun hd => (h.knows i d hi hd).move hmove
  -- the call that moves on, or another one
  have hset : ∀ {n : Nat} {c : Call} {before point : CallPoint}, s.calls[n]? = some c →
      c.point = before → (s.set_call n c point)[i]? = some d →
      (Knows k bound s before → Knows k bound s' point) → Knows k bound s' d.point := by
    rintro n c _ point hc rfl hd hlearns
    rcases getElem?_set_call hc hd with ⟨rfl, rfl⟩ | ⟨-, hd⟩
    · exact hlearns (h.knows i c hi hc)
    · exact hold hd
  cases hmove with
  | call kind =>
    rcases getElem?_new_call hd with hd | hcalled
    · exact hold hd
    · rw [hcalled]
      trivial
  | draw hc hpoint => exact hset hc hpoint hd fun _ => Nat.lt_succ_of_le h.le_next
  | send hc hpoint hroom => exact hset hc hpoint hd fun hknows => hknows
  | loadNext hc hpoint =>
    -- the barrier has drawn a number itself
    exact hset hc hpoint hd Nat.le_sub_one_of_lt
  | pass hc hpoint hreached =>
    exact hset hc hpoint hd fun hknows => ⟨hknows, h.covered.written_of_le hknows hreached⟩
  | giveBack hc hpoint hreached =>
    exact hset hc hpoint hd fun hknows =>
      ⟨hknows.2, h.covered.cascaded_of_le hknows.1 hreached⟩
  | again hc hpoint => exact hset hc hpoint hd And.left
  | _ => exact hold hd

/-- No call is late yet: whoever has sent its message now is known to all calls from here on. -/
theorem SentCovered.late (h : s.SentCovered) (hc : s.calls[k]? = some c)
    (hsent : c.point.has_sent = true) : Late k s.next_seq s.calls.length s := by
  refine ⟨h k c hc hsent, Nat.le_refl _, fun n d hn hd => ?_⟩
  rw [List.getElem?_eq_none hn] at hd
  cases hd

/-- When a barrier returns, every operation whose submit had returned before the barrier was called
is written, and its cascade entry is executed. -/
theorem barrier_covers_returned_submits (lib : Library) (before after : List Label)
    {k seq : Nat} {submitted barrier : Call}
    (hsubmitted : (LTS.run next (start lib) before).calls[k]? = some submitted)
    (hreturned : submitted.point.has_sent = true)
    (hbarrier : (LTS.run next (start lib) (before ++ .call .barrier :: after)).calls[
      (LTS.run next (start lib) before).calls.length]? = some barrier)
    (hdone : barrier.point = .returned seq) :
    (LTS.run next (start lib) (before ++ .call .barrier :: after)).Written k ∧
      (LTS.run next (start lib) (before ++ .call .barrier :: after)).Cascaded k := by
  obtain ⟨hnum, hsent⟩ := numbered_run lib before
  generalize hs : LTS.run next (start lib) before = s at *
  have hrun : Late k s.next_seq s.calls.length (LTS.run next s (.call .barrier :: after)) :=
    LTS.run_invariant (hsent.late hsubmitted hreturned) fun _ l _ h => h.move hnum.pos (move_next l)
  rw [LTS.run_append, hs] at hbarrier ⊢
  have hknows := hrun.knows _ _ (Nat.le_refl _) hbarrier
  rw [hdone] at hknows
  exact hknows

def no_library : Library := ⟨⟨⟨∅, ∅⟩, ∅, ∅⟩, ∅⟩

def one_submit : List Label := [.call (.submit .updateTree), .fetchAdd 0, .send 0]

/-- The barrier that is called then, up to its return. -/
def one_barrier : List Label :=
  let fs : Fs := ⟨fun _ => none, fun _ => false⟩
  [.fetchAdd 1, .send 1, .loadNext 1] ++ List.replicate 13 (.writer 0 fs) ++
    List.replicate 6 .cascade ++ [.loadCompleted 1, .loadCascadeCompleted 1]

theorem barrier_covers_one_submit :
    let s := LTS.run next (start no_library) (one_submit ++ .call .barrier :: one_barrier)
    (s.calls[1]?).map Call.point = some (.returned 2) ∧ s.Written 0 ∧ s.Cascaded 0 := by
  intro s
  have hsubmitted : (LTS.run next (start no_library) one_submit).calls[0]? =
      some ⟨.submit .updateTree, .sent 1⟩ := rfl
  have hbarrier : s.calls[1]? = some ⟨.barrier, .returned 2⟩ := rfl
  exact ⟨rfl, barrier_covers_returned_submits no_library one_submit one_barrier hsubmitted rfl
    hbarrier rfl⟩

end SerialWriter
