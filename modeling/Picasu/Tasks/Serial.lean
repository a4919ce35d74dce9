import Picasu.Tasks.InLine

/-! # One Writer, One Order

Any number of calls send their operations to the writer at any time. What they leave in the tables
is the same as if the operations were handled one after the other, in the order of the line and
each of them once, with neighbouring flushes handled as one (`linearizable`).

The writer waits for room in the cascade channel. The cascade task waits for nothing that the
writer holds, so that the two taking turns is enough for everything sent to be done
(`served_in_turns`).
-/

/-- How far the loop is from its next message. -/
@[simp] def WriterPoint.rank (pending : List Message) : WriterPoint → Nat
  | top => if pending = [] then 0 else 4
  | drain => 3
  | merge => 2
  | single => 1
  | sending _ _ => 10
  | completing _ _ => 5

@[simp] def CascadePoint.rank : CascadePoint → Nat
  | recv => 0
  | running _ => 2
  | storing _ => 1

/-- What is left of a library when messages are handled one after the other. Flushes that follow
one another may be handled as one. -/
inductive Handled (lib : Library) : List Message → Library → Prop where
  | none : Handled lib [] lib
  | one {done : List Message} {lib' : Library} (h : Handled lib done lib') (now : Int) (fs : Fs)
    (m : Message) : Handled lib (done ++ [m]) (handle_op now fs m.op lib').2
  | flushes {done run : List Message} {lib' : Library} (h : Handled lib done lib') (now : Int)
    (fs : Fs) (hrun : ∀ m ∈ run, m.is_flush = true) :
    Handled lib (done ++ run) (flush_run now fs run lib')

namespace SerialWriter

variable {s : SerialWriter}

/-- The calls whose operations are written, in the order of the writes. -/
def served (s : SerialWriter) : List Nat := s.written.flatMap CascadeEntry.members

/-- A step of the writer handles some messages from its queue, or none. -/
theorem handled_writer_step (now : Int) (fs : Fs) :
    ∃ run : List Message, (∀ m ∈ run, m ∈ s.queue) ∧
      (s.writer_step now fs).served = s.served ++ run.map Message.call ∧
      ∀ lib done, Handled lib done s.lib → Handled lib (done ++ run) (s.writer_step now fs).lib := by
  have hnone : ∀ t : SerialWriter, t.lib = s.lib → t.written = s.written →
      ∃ run : List Message, (∀ m ∈ run, m ∈ s.queue) ∧
        t.served = s.served ++ run.map Message.call ∧
        ∀ lib done, Handled lib done s.lib → Handled lib (done ++ run) t.lib := by
    intro t hlib hwritten
    refine ⟨[], by simp, by simp [served, hwritten], fun lib done h => ?_⟩
    rw [List.append_nil, hlib]
    exact h
  unfold writer_step
  split
  · split <;> exact hnone _ rfl rfl
  · split <;> exact hnone _ rfl rfl
  · split
    · exact hnone _ rfl rfl
    · refine ⟨s.pending.takeWhile Message.is_flush, fun m hm => ?_, ?_, fun lib done h => ?_⟩
      · exact List.mem_append_left _ (List.takeWhile_subset _ hm)
      · simp [served, run_entry]
      · exact h.flushes now fs fun m hm => List.mem_takeWhile_imp hm
  · split
    · exact hnone _ rfl rfl
    · rename_i m pending hpending
      refine ⟨[m], fun m' hm => ?_, by simp [served], fun lib done h => h.one now fs m⟩
      rw [List.mem_singleton.mp hm, queue, hpending]
      exact List.mem_cons_self
  · split <;> exact hnone _ rfl rfl
  · exact hnone _ rfl rfl

/-- The library is what the messages of these calls leave of the one at the start. -/
def Serves (lib : Library) (s : SerialWriter) : Prop :=
  ∃ done, Handled lib done s.lib ∧ done.map Message.call = s.served ∧
    ∀ m ∈ done, ∃ c, s.calls[m.call]? = some c ∧ c.kind.op = m.op

theorem Serves.next {lib : Library} (h : Serves lib s) (hline : s.InLine) (l : Label) :
    Serves lib (s.next l) := by
  obtain ⟨done, hdone, hserved, hcalls⟩ := h
  have hkept : ∀ m : Message, (∃ c, s.calls[m.call]? = some c ∧ c.kind.op = m.op) →
      ∃ c, (s.next l).calls[m.call]? = some c ∧ c.kind.op = m.op := by
    rintro m ⟨c, hc, hop⟩
    obtain ⟨c', hc', hkind, -⟩ := call_move (move_next l) hc
    exact ⟨c', hc', hkind ▸ hop⟩
  cases hl : l.is_writer with
  | false =>
    obtain ⟨hlib, hwritten⟩ := next_of_not_writer (s := s) hl
    refine ⟨done, hlib ▸ hdone, ?_, fun m hm => hkept m (hcalls m hm)⟩
    rw [hserved, served, served, hwritten]
  | true =>
    cases l with
    | writer now fs =>
      obtain ⟨run, hrun, hserved', hhandled⟩ := handled_writer_step (s := s) now fs
      refine ⟨done ++ run, hhandled lib done hdone, ?_, fun m hm => hkept m ?_⟩
      · rw [List.map_append, hserved]
        exact hserved'.symm
      · exact (List.mem_append.mp hm).elim (hcalls m) fun hm => hline.queue m (hrun m hm)
    | _ => cases hl

/-- Whatever calls there are and however the steps interleave, there is one order of the messages
that were sent, in which each call has one message and it is the operation that was asked for. The
tables are what the messages before the queue leave when they are handled in that order, and at any
later time the order begins with what it was. -/
theorem linearizable (lib : Library) (before after : List Label) :
    let s := LTS.run next (start lib) (before ++ after)
    ∃ done, Handled lib done s.lib ∧ ((done ++ s.queue).map Message.call).Nodup ∧
      (∀ m ∈ done ++ s.queue, ∃ c, s.calls[m.call]? = some c ∧ c.kind.op = m.op) ∧
      (∀ k, k ∈ (done ++ s.queue).map Message.call ↔
        ∃ c, s.calls[k]? = some c ∧ c.point.has_sent = true) ∧
      (LTS.run next (start lib) before).order <+: (done ++ s.queue).map Message.call := by
  intro s
  have hcovering : s.Covering := covering_run lib _
  obtain ⟨done, hdone, hserved, hcalls⟩ : Serves lib s :=
    LTS.run_induction (Q := fun _ t => Serves lib t) ⟨[], .none, rfl, by simp⟩
      fun pre l _ h => h.next (covering_run lib pre).inLine l
  have horder : (done ++ s.queue).map Message.call = s.order := by
    rw [List.map_append, hserved, served, hcovering.inStep.logs, List.flatMap_append, order]
  refine ⟨done, hdone, ?_, ?_, fun k => ?_, ?_⟩
  · rw [horder]
    exact hcovering.inLine.once
  · exact fun m hm => (List.mem_append.mp hm).elim (hcalls m) (hcovering.inLine.queue m)
  · rw [horder]
    refine ⟨hcovering.inLine.sent k, ?_⟩
    rintro ⟨c, hc, hsent⟩
    rw [← horder, List.map_append, hserved, List.mem_append]
    rcases (hcovering.covered k c hc hsent).write with ⟨entry, hentry, hk⟩ | ⟨-, -, hleads⟩
    · exact Or.inl (List.mem_flatMap.mpr ⟨entry, hentry, hk⟩)
    · obtain ⟨m, hm, rfl⟩ := hleads.exists_mem
      exact Or.inr (List.mem_map_of_mem hm)
  · rw [horder, show s = _ from LTS.run_append _ _ _ _]
    refine LTS.run_invariant (I := fun t : SerialWriter =>
      (LTS.run next (start lib) before).order <+: t.order) (List.prefix_refl _) fun t l _ h => ?_
    rcases order_move (move_next (s := t) l) with ⟨hsame, -⟩ | ⟨n, _, _, _, _, _, _, hjoin⟩
    · rw [hsame]
      exact h
    · rw [hjoin]
      exact h.trans (List.prefix_append _ _)

/-! ## Everything is served -/

/-- A bound for the steps that the two tasks have before them. -/
def weight (s : SerialWriter) : Nat :=
  30 * s.inbox.length + 20 * s.pending.length + s.writer.rank s.pending +
    3 * s.cascade_inbox.length + s.cascade.rank

/-- The writer goes on, or it has nothing to do, or the cascade task has. -/
theorem weight_writer_step (now : Int) (fs : Fs) :
    (s.writer_step now fs).weight < s.weight ∨
      s.writer_step now fs = s ∧ (s.cascade_inbox ≠ [] ∨ s.writer = .top ∧ s.queue = []) := by
  cases hwriter : s.writer with
  | top =>
    cases hpending : s.pending with
    | cons m pending => simp [writer_step, weight, hwriter, hpending]
    | nil =>
      cases hinbox : s.inbox with
      | nil => simp [writer_step, queue, hwriter, hpending, hinbox]
      | cons m inbox =>
        simp [writer_step, weight, hwriter, hpending, hinbox]
        omega
  | drain =>
    left
    cases hinbox : s.inbox with
    | nil => simp [writer_step, weight, hwriter, hinbox]
    | cons m inbox =>
      simp [writer_step, weight, hwriter, hinbox]
      omega
  | merge =>
    left
    cases hrun : s.pending.takeWhile Message.is_flush with
    | nil => simp [writer_step, weight, hwriter, hrun]
    | cons m run =>
      -- at least one message leaves the queue
      have hlength : (m :: run).length + (s.pending.dropWhile Message.is_flush).length =
          s.pending.length := by
        rw [← hrun, ← List.length_append, List.takeWhile_append_dropWhile]
      rw [List.length_cons] at hlength
      simp only [writer_step, weight, WriterPoint.rank, hwriter, hrun]
      omega
  | single =>
    left
    cases hpending : s.pending with
    | nil => simp [writer_step, weight, hwriter, hpending]
    | cons m pending =>
      simp [writer_step, weight, hwriter, hpending]
      omega
  | sending entry merged =>
    simp only [writer_step, hwriter]
    split
    · left
      simp [weight, hwriter]
      omega
    · -- it waits for room
      rename_i hfull
      refine Or.inr ⟨rfl, Or.inl fun hempty => hfull ?_⟩
      rw [hempty]
      decide
  | completing seq merged =>
    left
    cases merged with
    | true => simp [writer_step, weight, hwriter]
    | false =>
      simp only [writer_step, weight, WriterPoint.rank, hwriter]
      show _ + (if _ then _ else _) + _ + _ < _
      split <;> omega

theorem weight_cascade_step : s.cascade_step.weight < s.weight ∨
    s.cascade_step = s ∧ s.cascade = .recv ∧ s.cascade_inbox = [] := by
  cases hcascade : s.cascade with
  | recv =>
    cases hinbox : s.cascade_inbox with
    | nil => simp [cascade_step, hcascade, hinbox]
    | cons entry inbox =>
      simp [cascade_step, weight, hcascade, hinbox]
      omega
  | running entry | storing seq => simp [cascade_step, weight, hcascade]

/-- Both tasks take a step. -/
def turn (at_ : Int × Fs) : List Label := [.writer at_.1 at_.2, .cascade]

theorem weight_turn (at_ : Int × Fs) : (LTS.run next s (turn at_)).weight ≤ s.weight - 1 := by
  show (s.writer_step at_.1 at_.2).cascade_step.weight ≤ s.weight - 1
  have hcascade := weight_cascade_step (s := s.writer_step at_.1 at_.2)
  rcases weight_writer_step (s := s) at_.1 at_.2 with hless | ⟨hstay, hidle⟩
  · rcases hcascade with hless' | ⟨hstay', -⟩
    · omega
    · rw [hstay']
      omega
  · rw [hstay] at hcascade ⊢
    rcases hcascade with hless' | ⟨hstay', hrecv, hinbox⟩
    · omega
    · -- neither of them moves, so there is nothing left
      obtain ⟨hwriter, hqueue⟩ := hidle.resolve_left (not_not_intro hinbox)
      obtain ⟨hpending, hempty⟩ := List.append_eq_nil_iff.mp hqueue
      simp [hstay', weight, hwriter, hpending, hempty, hrecv, hinbox]

theorem weight_turns (turns : List (Int × Fs)) :
    (LTS.run next s (turns.flatMap turn)).weight ≤ s.weight - turns.length := by
  induction turns generalizing s with
  | nil => simp
  | cons at_ turns ih =>
    rw [List.flatMap_cons, LTS.run_append, List.length_cons]
    have hfirst := weight_turn (s := s) at_
    have hrest := ih (s := LTS.run next s (turn at_))
    omega

theorem rest_of_weight (h : s.weight = 0) : s.queue = [] ∧ s.entries = [] := by
  simp only [weight, Nat.add_eq_zero_iff, Nat.mul_eq_zero, List.length_eq_zero_iff] at h
  cases hwriter : s.writer with
  | top =>
    cases hcascade : s.cascade with
    | recv => simp_all [queue, entries, WriterPoint.in_hand, CascadePoint.in_hand]
    | _ => simp [hcascade] at h
  | _ => simp [hwriter] at h

/-- Whatever has happened before: if the two tasks take turns for long enough, every operation that
was sent is written, and its entry executed. -/
theorem served_in_turns (lib : Library) (labels : List Label) :
    let before := LTS.run next (start lib) labels
    ∃ enough, ∀ turns : List (Int × Fs), enough ≤ turns.length →
      ∀ k c, before.calls[k]? = some c → c.point.has_sent = true →
        (LTS.run next before (turns.flatMap turn)).Written k ∧
          (LTS.run next before (turns.flatMap turn)).Cascaded k := by
  intro before
  refine ⟨before.weight, fun turns hlong k c hc hsent => ?_⟩
  have hweight := weight_turns (s := before) turns
  have hcovering : (LTS.run next before (turns.flatMap turn)).Covering := by
    rw [← LTS.run_append]
    exact covering_run lib _
  obtain ⟨c', hc', hsent'⟩ : ∃ c', (LTS.run next before (turns.flatMap turn)).calls[k]? = some c' ∧
      c'.point.has_sent = true := by
    refine LTS.run_invariant (I := fun t : SerialWriter =>
      ∃ c', t.calls[k]? = some c' ∧ c'.point.has_sent = true) ⟨c, hc, hsent⟩ ?_
    rintro t l - ⟨d, hd, hdsent⟩
    obtain ⟨d', hd', -, hkeep⟩ := call_move (move_next l) hd
    exact ⟨d', hd', hkeep hdsent⟩
  generalize LTS.run next before (turns.flatMap turn) = after at *
  -- nothing is left in the line
  obtain ⟨hqueue, hentries⟩ := rest_of_weight (s := after) (by omega)
  have hcovered := hcovering.covered k c' hc' hsent'
  constructor
  · refine hcovered.write.resolve_right fun ⟨_, _, hleads⟩ => ?_
    rw [hqueue] at hleads
    exact hleads
  · refine hcovered.cascade.resolve_right fun ⟨_, _, hleads⟩ => ?_
    rw [hqueue, hentries] at hleads
    exact hleads

end SerialWriter
