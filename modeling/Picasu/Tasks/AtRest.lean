import Picasu.Tasks.Barrier

/-! # The Watermarks at Rest

A barrier waits until both watermarks have reached the last number drawn when it looked, and it
waits without a timeout. So when everything that was submitted is served, the watermarks have to
be there.

They are stored, not raised: each holds the number of what was finished last. Two submits that
draw their numbers in one order and send their messages in the other leave the smaller number
behind, and a barrier that waits for the larger one waits until something else is submitted.

* `InStep`: the watermarks are the numbers of the last write and of the last entry executed, and
  the entries are executed in the order of the writes;
* `Labelled`: what the numbers of messages and writes have to do with those of the calls;
* `Ordered`: if messages are sent in the order of their numbers, the last number sent is at the
  end of the line;
* `none_stranded_at_rest_iff` puts them together.
-/

/-- The number that a barrier waits for. -/
def CallPoint.target : CallPoint → Option Nat
  | waiting _ target | passed _ target => some target
  | _ => none

namespace SerialWriter

variable {s s' : SerialWriter} {l : Label}

/-! ## The order of the logs -/

def last_seq (log : List CascadeEntry) : Nat := (log.getLast?.map CascadeEntry.seq).getD 0

@[simp] theorem last_seq_append (log : List CascadeEntry) (entry : CascadeEntry) :
    last_seq (log ++ [entry]) = entry.seq := by
  simp [last_seq]

/-- The two tasks are in step: what is written and not executed is in the line, and the watermarks
hold the numbers that were last. -/
structure InStep (s : SerialWriter) : Prop where
  logs : s.written = s.cascaded ++ s.entries
  completed : s.writer.stores = none → s.completed_seq = last_seq s.written
  stores : ∀ seq ∈ s.writer.stores, seq = last_seq s.written
  cascade_completed : s.cascade.stores = none → s.cascade_completed_seq = last_seq s.cascaded
  cascade_stores : ∀ seq ∈ s.cascade.stores, seq = last_seq s.cascaded

variable (lib : Library)

theorem inStep_start : (start lib).InStep :=
  ⟨rfl, fun _ => rfl, none_stored, fun _ => rfl, none_stored⟩

theorem InStep.move (h : s.InStep) (hmove : Move s l s') : s'.InStep := by
  have hlogs : s'.written = s.written → s'.cascaded = s.cascaded →
      s'.written = s'.cascaded ++ s'.entries := by
    intro hwritten hcascaded
    rw [entries_move hmove hwritten hcascaded, hwritten, hcascaded]
    exact h.logs
  cases hmove with
  | stay => exact h
  | call | draw | send | loadNext | pass | giveBack | again =>
    exact ⟨h.logs, h.completed, h.stores, h.cascade_completed, h.cascade_stores⟩
  | arrange hqueue hbefore hafter =>
    refine ⟨hlogs rfl rfl, fun _ => h.completed hbefore, ?_, h.cascade_completed,
      h.cascade_stores⟩
    rw [hafter]
    exact none_stored
  | take hpending hrun hseq hmembers hbefore =>
    -- the new entry is the last write, and the last one in line
    refine ⟨?_, (fun hnone => by cases hnone), ?_, h.cascade_completed, h.cascade_stores⟩
    · have hlogs := h.logs
      rw [entries, WriterPoint.in_hand_eq_nil hbefore] at hlogs
      rw [hlogs]
      simp [entries, WriterPoint.in_hand]
    · intro seq hstores
      rw [last_seq_append]
      exact (Option.some.inj hstores).symm
  | enqueueCascade hwriter =>
    have hstores := h.stores
    rw [hwriter] at hstores
    exact ⟨hlogs rfl rfl, (fun hnone => by cases hnone), hstores, h.cascade_completed,
      h.cascade_stores⟩
  | complete hwriter hafter =>
    refine ⟨hlogs rfl rfl, fun _ => h.stores _ (by rw [hwriter]; rfl), ?_, h.cascade_completed,
      h.cascade_stores⟩
    rw [hafter]
    exact none_stored
  | recv hcascade hinbox =>
    refine ⟨hlogs rfl rfl, h.completed, h.stores, fun _ => h.cascade_completed ?_, none_stored⟩
    rw [hcascade]
    rfl
  | execute hcascade =>
    have hlogs := h.logs
    rw [entries, hcascade] at hlogs
    refine ⟨?_, h.completed, h.stores, (fun hnone => by cases hnone), fun seq hstores => ?_⟩
    · rw [hlogs]
      simp [entries, CascadePoint.in_hand]
    · rw [last_seq_append]
      exact (Option.some.inj hstores).symm
  | store hcascade =>
    refine ⟨hlogs rfl rfl, h.completed, h.stores, fun _ => h.cascade_stores _ ?_, none_stored⟩
    rw [hcascade]
    rfl

/-- Everything that was drawn is sent, and both tasks are idle with nothing in line. -/
structure Quiescent (s : SerialWriter) : Prop where
  calls : ∀ (n : Nat) (c : Call), s.calls[n]? = some c → ∀ seq, c.point ≠ .drawn seq
  queue : s.queue = []
  writer : s.writer.stores = none
  cascade_inbox : s.cascade_inbox = []
  cascade : s.cascade = .recv

/-- At rest both watermarks hold the number of the last write. -/
theorem InStep.at_rest (h : s.InStep) (hrest : s.Quiescent) :
    s.completed_seq = last_seq s.written ∧ s.cascade_completed_seq = last_seq s.written := by
  have hentries : s.entries = [] := by
    rw [entries, hrest.cascade, hrest.cascade_inbox, WriterPoint.in_hand_eq_nil hrest.writer]
    rfl
  have hlogs := h.logs
  rw [hentries, List.append_nil] at hlogs
  refine ⟨h.completed hrest.writer, ?_⟩
  rw [hlogs]
  exact h.cascade_completed (by rw [hrest.cascade]; rfl)

/-! ## The numbers of the calls -/

def number (s : SerialWriter) (k : Nat) : Option Nat := (s.calls[k]?).bind fun c => c.point.seq

variable {seq n : Nat} {c : Call} {point : CallPoint} {run : List Message}

theorem number_eq_some_iff {k : Nat} :
    s.number k = some seq ↔ ∃ c, s.calls[k]? = some c ∧ c.point.seq = some seq :=
  Option.bind_eq_some_iff

theorem number_set_call (hc : s.calls[n]? = some c)
    (hcalls : s'.calls = s.set_call n c point) (hpoint : ∀ seq ∈ c.point.seq, point.seq = some seq)
    {k : Nat} (h : s.number k = some seq) : s'.number k = some seq := by
  obtain ⟨d, hd, hseq⟩ := number_eq_some_iff.mp h
  rw [number_eq_some_iff, hcalls]
  by_cases hk : k = n
  · subst hk
    obtain rfl : c = d := Option.mem_unique hc hd
    have hlt : k < s.calls.length := (List.getElem?_eq_some_iff.mp hc).1
    exact ⟨_, List.getElem?_set_self hlt, hpoint seq hseq⟩
  · exact ⟨d, (List.getElem?_set_ne (Ne.symm hk)).trans hd, hseq⟩

/-- A call keeps the number it has drawn. -/
theorem number_move (hmove : Move s l s') {k : Nat} (h : s.number k = some seq) :
    s'.number k = some seq := by
  cases hmove with
  | call kind =>
    obtain ⟨d, hd, hseq⟩ := number_eq_some_iff.mp h
    have hlt : k < s.calls.length := (List.getElem?_eq_some_iff.mp hd).1
    exact number_eq_some_iff.mpr ⟨d, (List.getElem?_append_left hlt).trans hd, hseq⟩
  | draw hc hpoint => exact number_set_call hc rfl (by simp [hpoint, CallPoint.seq]) h
  | send hc hpoint | loadNext hc hpoint | pass hc hpoint | giveBack hc hpoint | again hc hpoint =>
    exact number_set_call hc rfl (by rw [hpoint]; exact fun _ h => h) h
  | _ => exact h

/-- What the numbers of messages, writes and barriers have to do with those of the calls. -/
structure Labelled (s : SerialWriter) : Prop where
  queue : ∀ m ∈ s.queue, s.number m.call = some m.seq
  written : ∀ entry ∈ s.written, (∃ k ∈ entry.members, s.number k = some entry.seq) ∧
    ∀ k ∈ entry.members, ∃ seq ≤ entry.seq, s.number k = some seq
  drawn : ∀ seq, 0 < seq → seq < s.next_seq → ∃ k, s.number k = some seq
  targets : ∀ (n : Nat) (c : Call), s.calls[n]? = some c → ∀ target ∈ c.point.target,
    target < s.next_seq

theorem labelled_start : (start lib).Labelled := by
  refine ⟨fun m hm => absurd hm List.not_mem_nil, fun entry he => absurd he List.not_mem_nil, ?_,
    fun n c hc => by cases hc⟩
  intro seq hpos hlt
  have hone : seq < 1 := hlt
  omega

/-- A write takes its number from its messages. -/
theorem Labelled.written_take (h : s.Labelled) {rest : List Message} {entry : CascadeEntry}
    (hpending : s.pending = run ++ rest) (hrun : run ≠ []) (hseq : entry.seq = flush_seq run)
    (hmembers : entry.members = run.map Message.call) :
    (∃ k ∈ entry.members, s.number k = some entry.seq) ∧
      ∀ k ∈ entry.members, ∃ seq ≤ entry.seq, s.number k = some seq := by
  obtain ⟨⟨m, hm, hmax⟩, hall⟩ := flush_seq_spec hrun
  have hqueue : ∀ m ∈ run, s.number m.call = some m.seq := by
    intro m hm
    refine h.queue m (List.mem_append_left _ ?_)
    rw [hpending]
    exact List.mem_append_left _ hm
  rw [hmembers, hseq]
  refine ⟨⟨m.call, List.mem_map_of_mem hm, hmax ▸ hqueue m hm⟩, fun k hk => ?_⟩
  obtain ⟨m', hm', rfl⟩ := List.mem_map.mp hk
  exact ⟨m'.seq, hall m' hm', hqueue m' hm'⟩

theorem Labelled.move (h : s.Labelled) (hnum : s.Numbered) (hmove : Move s l s') :
    s'.Labelled := by
  have hkeep : ∀ {k seq : Nat}, s.number k = some seq → s'.number k = some seq := number_move hmove
  have hwritten : ∀ entry ∈ s.written, (∃ k ∈ entry.members, s'.number k = some entry.seq) ∧
      ∀ k ∈ entry.members, ∃ seq ≤ entry.seq, s'.number k = some seq := by
    intro entry hentry
    obtain ⟨⟨k, hk, hseq⟩, hall⟩ := h.written entry hentry
    refine ⟨⟨k, hk, hkeep hseq⟩, fun k' hk' => ?_⟩
    obtain ⟨seq, hle, hseq'⟩ := hall k' hk'
    exact ⟨seq, hle, hkeep hseq'⟩
  have hqueue : ∀ m ∈ s.queue, s'.number m.call = some m.seq := fun m hm => hkeep (h.queue m hm)
  have hdrawn : ∀ seq, 0 < seq → seq < s.next_seq → ∃ k, s'.number k = some seq := by
    intro seq hpos hlt
    obtain ⟨k, hk⟩ := h.drawn seq hpos hlt
    exact ⟨k, hkeep hk⟩
  -- where a call gets another point, the others keep their targets
  have htargets : ∀ {n : Nat} {c : Call} {point : CallPoint}, s.calls[n]? = some c →
      (∀ target ∈ point.target, target < s.next_seq) →
      ∀ (i : Nat) (d : Call), (s.set_call n c point)[i]? = some d → ∀ target ∈ d.point.target,
        target < s.next_seq := by
    intro n c point hc hpoint i d hd target htarget
    rcases getElem?_set_call hc hd with ⟨-, rfl⟩ | ⟨-, hd⟩
    · exact hpoint target htarget
    · exact h.targets i d hd target htarget
  cases hmove with
  | stay => exact h
  | call kind =>
    refine ⟨hqueue, hwritten, hdrawn, fun i d hd target htarget => ?_⟩
    rcases getElem?_new_call hd with hd | hcalled
    · exact h.targets i d hd target htarget
    · rw [hcalled] at htarget
      cases htarget
  | @draw n c hc hpoint =>
    refine ⟨hqueue, hwritten, fun seq hpos hlt => ?_, fun i d hd target htarget => ?_⟩
    · rcases Nat.lt_succ_iff_lt_or_eq.mp hlt with hlt | rfl
      · exact hdrawn seq hpos hlt
      · have hn : n < s.calls.length := (List.getElem?_eq_some_iff.mp hc).1
        exact ⟨n, number_eq_some_iff.mpr ⟨_, List.getElem?_set_self hn, rfl⟩⟩
    · exact (htargets hc (fun _ h => by cases h) i d hd target htarget).trans (Nat.lt_succ_self _)
  | @send n seq c hc hpoint hroom =>
    refine ⟨fun m hm => ?_, hwritten, hdrawn, htargets hc fun _ h => by cases h⟩
    rw [SerialWriter.queue, ← List.append_assoc] at hm
    rcases List.mem_append.mp hm with hm | hm
    · exact hqueue m hm
    · obtain rfl := List.mem_singleton.mp hm
      exact hkeep (number_eq_some_iff.mpr ⟨c, hc, by rw [hpoint]; rfl⟩)
  | loadNext hc hpoint =>
    refine ⟨hqueue, hwritten, hdrawn, htargets hc fun target htarget => ?_⟩
    obtain rfl : s.next_seq - 1 = target := Option.some.inj htarget
    exact Nat.sub_lt hnum.pos Nat.one_pos
  | pass hc hpoint | again hc hpoint =>
    refine ⟨hqueue, hwritten, hdrawn, htargets hc fun target' htarget => ?_⟩
    exact h.targets _ _ hc target' (by rw [hpoint]; exact htarget)
  | giveBack hc hpoint hreached =>
    exact ⟨hqueue, hwritten, hdrawn, htargets hc fun _ h => by cases h⟩
  | arrange hsame hbefore hafter =>
    refine ⟨?_, hwritten, hdrawn, h.targets⟩
    rw [SerialWriter.queue, hsame]
    exact hqueue
  | @take now fs run rest entry lib merged hpending hrun hseq hmembers hbefore =>
    refine ⟨fun m hm => hqueue m ?_, fun e he => ?_, hdrawn, h.targets⟩
    · rw [SerialWriter.queue, hpending, List.append_assoc]
      exact List.mem_append_right _ hm
    · rcases List.mem_append.mp he with he | he
      · exact hwritten e he
      · obtain rfl := List.mem_singleton.mp he
        exact h.written_take hpending hrun hseq hmembers
  | _ => exact ⟨hqueue, hwritten, hdrawn, h.targets⟩

/-! ## Sending in order -/

/-- A call has drawn this number and has not sent its message. -/
def Unsent (s : SerialWriter) (seq : Nat) : Prop :=
  ∃ (n : Nat) (c : Call), s.calls[n]? = some c ∧ c.point = .drawn seq

/-- A message with this number was sent. -/
def Sent (s : SerialWriter) (seq : Nat) : Prop :=
  ∃ (n : Nat) (c : Call), s.calls[n]? = some c ∧ c.point.has_sent = true ∧ c.point.seq = some seq

/-- A message that is sent has the smallest of the numbers that are drawn and not sent. -/
def InOrder (s : SerialWriter) : Label → Prop
  | .send n => s.inbox.length < WRITER_CAPACITY → ∀ c seq, s.calls[n]? = some c →
      c.point = .drawn seq → ∀ seq', s.Unsent seq' → seq ≤ seq'
  | _ => True

/-- The number at the end of the line, or of the last write if nobody waits. -/
def last_number (queue : List Message) (written : List CascadeEntry) : Nat :=
  match queue.getLast? with
  | some m => m.seq
  | none => last_seq written

/-- The numbers that are sent are below those that are not, and the last one is at the end of the
line. -/
structure Ordered (s : SerialWriter) : Prop where
  sent_le_unsent : ∀ seq seq', s.Sent seq → s.Unsent seq' → seq ≤ seq'
  sent_le_last : ∀ seq, s.Sent seq → seq ≤ last_number s.queue s.written

theorem ordered_start : (start lib).Ordered := by
  have hnone : ∀ seq, ¬ (start lib).Sent seq := by
    rintro seq ⟨n, c, hc, -⟩
    cases hc
  exact ⟨fun seq _ hsent => absurd hsent (hnone seq), fun seq hsent => absurd hsent (hnone seq)⟩

theorem sent_of_set_call (hc : s.calls[n]? = some c)
    (hcalls : s'.calls = s.set_call n c point) (h : s'.Sent seq) :
    (point.has_sent = true ∧ point.seq = some seq) ∨ s.Sent seq := by
  obtain ⟨i, d, hd, hsent⟩ := h
  rw [hcalls] at hd
  rcases getElem?_set_call hc hd with ⟨-, rfl⟩ | ⟨-, hd⟩
  · exact Or.inl hsent
  · exact Or.inr ⟨i, d, hd, hsent⟩

theorem unsent_of_set_call (hc : s.calls[n]? = some c)
    (hcalls : s'.calls = s.set_call n c point) (h : s'.Unsent seq) :
    point = .drawn seq ∨ s.Unsent seq := by
  obtain ⟨i, d, hd, hdrawn⟩ := h
  rw [hcalls] at hd
  rcases getElem?_set_call hc hd with ⟨-, rfl⟩ | ⟨-, hd⟩
  · exact Or.inl hdrawn
  · exact Or.inr ⟨i, d, hd, hdrawn⟩

/-- A step that sends nothing new and draws nothing keeps the order. -/
theorem Ordered.of_subset (h : s.Ordered) (hsent : ∀ seq, s'.Sent seq → s.Sent seq)
    (hunsent : ∀ seq, s'.Unsent seq → s.Unsent seq)
    (hlast : last_number s.queue s.written ≤ last_number s'.queue s'.written) : s'.Ordered :=
  ⟨fun seq seq' hs hu => h.sent_le_unsent seq seq' (hsent seq hs) (hunsent seq' hu),
    fun seq hs => (h.sent_le_last seq (hsent seq hs)).trans hlast⟩

/-- The calls after the message is sent only look at watermarks. -/
theorem Ordered.set_call (h : s.Ordered) (hc : s.calls[n]? = some c)
    (hbefore : c.point.has_sent = true) (hafter : point.has_sent = true)
    (hseq : point.seq = c.point.seq) : Ordered { s with calls := s.set_call n c point } := by
  refine h.of_subset (fun seq hsent => ?_) (fun seq hunsent => ?_) (Nat.le_refl _)
  · rcases sent_of_set_call hc rfl hsent with ⟨-, hpoint⟩ | hsent
    · exact ⟨n, c, hc, hbefore, hseq ▸ hpoint⟩
    · exact hsent
  · rcases unsent_of_set_call hc rfl hunsent with rfl | hunsent
    · cases hafter
    · exact hunsent

theorem last_number_take {rest : List Message} (hrun : run ≠ []) {entry : CascadeEntry}
    (hseq : entry.seq = flush_seq run) (written : List CascadeEntry) :
    last_number (run ++ rest) written ≤ last_number rest (written ++ [entry]) := by
  unfold last_number
  cases hrest : rest.getLast? with
  | some m =>
    -- the end of the line stays
    rw [List.getLast?_append, hrest]
    exact Nat.le_refl _
  | none =>
    rw [List.getLast?_append, hrest, List.getLast?_eq_getLast_of_ne_nil hrun]
    show _ ≤ last_seq (written ++ [entry])
    rw [last_seq_append, hseq]
    exact (flush_seq_spec hrun).2 _ (List.getLast_mem hrun)

theorem Ordered.move (h : s.Ordered) (hnum : s.Numbered) (hmove : Move s l s')
    (horder : s.InOrder l) : s'.Ordered := by
  cases hmove with
  | stay => exact h
  | call kind =>
    refine h.of_subset ?_ ?_ (Nat.le_refl _)
    · rintro seq ⟨n, c, hc, hsent⟩
      rcases getElem?_new_call hc with hc | hcalled
      · exact ⟨n, c, hc, hsent⟩
      · rw [hcalled] at hsent
        cases hsent.1
    · rintro seq ⟨n, c, hc, hdrawn⟩
      rcases getElem?_new_call hc with hc | hcalled
      · exact ⟨n, c, hc, hdrawn⟩
      · rw [hcalled] at hdrawn
        cases hdrawn
  | @draw n c hc hpoint =>
    have hsent : ∀ seq, Sent { s with
        next_seq := s.next_seq + 1, calls := s.set_call n c (.drawn s.next_seq) } seq →
          s.Sent seq := by
      intro seq hsent
      rcases sent_of_set_call hc rfl hsent with ⟨hnot, -⟩ | hsent
      · cases hnot
      · exact hsent
    refine ⟨fun seq seq' hs hu => ?_, fun seq hs => h.sent_le_last seq (hsent seq hs)⟩
    rcases unsent_of_set_call hc rfl hu with hnew | hu
    · -- the new number is above all others
      obtain rfl : s.next_seq = seq' := by injection hnew
      obtain ⟨n, c, hc, -, hseq⟩ := hsent seq hs
      exact (hnum.calls n c hc seq hseq).le
    · exact h.sent_le_unsent seq seq' (hsent seq hs) hu
  | @send n seq c hc hpoint hroom =>
    have hunsent : s.Unsent seq := ⟨n, c, hc, hpoint⟩
    have hlast : last_number (s.pending ++ (s.inbox ++ [⟨seq, c.kind.op, n⟩])) s.written = seq := by
      simp [last_number]
    constructor
    · intro seq₁ seq₂ hs hu
      have hu' : s.Unsent seq₂ := by
        rcases unsent_of_set_call hc rfl hu with hnot | hu
        · cases hnot
        · exact hu
      rcases sent_of_set_call hc rfl hs with ⟨-, hsame⟩ | hs
      · obtain rfl : seq = seq₁ := Option.some.inj hsame
        exact horder hroom c seq hc hpoint seq₂ hu'
      · exact h.sent_le_unsent seq₁ seq₂ hs hu'
    · intro seq₁ hs
      show seq₁ ≤ last_number (s.pending ++ (s.inbox ++ _)) s.written
      rw [hlast]
      rcases sent_of_set_call hc rfl hs with ⟨-, hsame⟩ | hs
      · exact (Option.some.inj hsame).ge
      · exact h.sent_le_unsent seq₁ seq hs hunsent
  | loadNext hc hpoint | pass hc hpoint | giveBack hc hpoint | again hc hpoint =>
    exact h.set_call hc (by rw [hpoint]; rfl) rfl (by rw [hpoint]; rfl)
  | arrange hqueue hbefore hafter =>
    refine h.of_subset (fun _ hs => hs) (fun _ hu => hu) ?_
    show _ ≤ last_number (_ ++ _) _
    rw [hqueue]
  | @take now fs run rest entry lib merged hpending hrun hseq hmembers hbefore =>
    refine h.of_subset (fun _ hs => hs) (fun _ hu => hu) ?_
    rw [queue_of_pending hpending]
    exact last_number_take hrun hseq s.written
  | _ => exact h.of_subset (fun _ hs => hs) (fun _ hu => hu) (Nat.le_refl _)

/-! ## At rest -/

/-- Both watermarks have reached the last number drawn, and what any barrier waits for. -/
structure NoneStranded (s : SerialWriter) : Prop where
  completed : s.next_seq - 1 ≤ s.completed_seq
  cascade_completed : s.next_seq - 1 ≤ s.cascade_completed_seq
  barriers : ∀ (n : Nat) (c : Call), s.calls[n]? = some c → ∀ target ∈ c.point.target,
    target ≤ s.completed_seq ∧ target ≤ s.cascade_completed_seq

/-- Nobody has drawn a number, or who has drawn the last one is in the last write. -/
def LastServed (s : SerialWriter) : Prop :=
  s.next_seq = 1 ∨ ∃ entry k, s.written.getLast? = some entry ∧ k ∈ entry.members ∧
    s.number k = some (s.next_seq - 1)

/-- What every reachable state satisfies. -/
structure Sound (s : SerialWriter) : Prop where
  numbered : s.Numbered
  in_step : s.InStep
  labelled : s.Labelled

theorem Sound.move (h : s.Sound) (hmove : Move s l s') : s'.Sound :=
  ⟨h.numbered.move hmove, h.in_step.move hmove, h.labelled.move h.numbered hmove⟩

theorem sound_run (labels : List Label) : (LTS.run next (start lib) labels).Sound :=
  LTS.run_invariant (I := Sound) ⟨numbered_start lib, inStep_start lib, labelled_start lib⟩
    fun _ l _ h => h.move (move_next l)

/-- At rest nobody is stranded exactly when the last number is at most that of the last write. -/
theorem Sound.noneStranded_iff (h : s.Sound) (hrest : s.Quiescent) :
    s.NoneStranded ↔ s.next_seq - 1 ≤ last_seq s.written := by
  obtain ⟨hcompleted, hcascade⟩ := h.in_step.at_rest hrest
  constructor
  · intro hnone
    exact hcompleted ▸ hnone.completed
  · intro hle
    refine ⟨hcompleted ▸ hle, hcascade ▸ hle, fun n c hc target htarget => ?_⟩
    have hbelow := h.labelled.targets n c hc target htarget
    rw [hcompleted, hcascade]
    omega

theorem Sound.last_served_iff (h : s.Sound) :
    s.LastServed ↔ s.next_seq - 1 ≤ last_seq s.written := by
  have hpos := h.numbered.pos
  constructor
  · rintro (hone | ⟨entry, k, hlast, hk, hnumber⟩)
    · omega
    · obtain ⟨seq, hle, hseq⟩ := (h.labelled.written entry (List.mem_of_getLast? hlast)).2 k hk
      have hsame : s.next_seq - 1 = seq := Option.mem_unique hnumber hseq
      rw [last_seq, hlast, hsame]
      exact hle
  · intro hle
    by_cases hone : s.next_seq = 1
    · exact Or.inl hone
    right
    cases hlast : s.written.getLast? with
    | none =>
      rw [last_seq, hlast] at hle
      have hzero : s.next_seq - 1 ≤ 0 := hle
      omega
    | some entry =>
      rw [last_seq, hlast] at hle
      obtain ⟨⟨k, hk, hnumber⟩, -⟩ := h.labelled.written entry (List.mem_of_getLast? hlast)
      -- the number of the write was drawn, so it is not above the last one
      obtain ⟨c, hc, hseq⟩ := number_eq_some_iff.mp hnumber
      have hbelow := h.numbered.calls k c hc entry.seq hseq
      have hentry : s.next_seq - 1 ≤ entry.seq := hle
      have hsame : entry.seq = s.next_seq - 1 := by omega
      exact ⟨entry, k, rfl, hk, hsame ▸ hnumber⟩

theorem Ordered.noneStranded (h : s.Ordered) (hsound : s.Sound) (hrest : s.Quiescent) :
    s.NoneStranded := by
  rw [hsound.noneStranded_iff hrest]
  by_cases hzero : s.next_seq - 1 = 0
  · omega
  have hpos := hsound.numbered.pos
  obtain ⟨k, hk⟩ := hsound.labelled.drawn (s.next_seq - 1) (by omega) (by omega)
  obtain ⟨c, hc, hseq⟩ := number_eq_some_iff.mp hk
  have hsent : c.point.has_sent = true := by
    cases hpoint : c.point with
    | called =>
      rw [hpoint] at hseq
      cases hseq
    | drawn seq => exact absurd hpoint (hrest.calls k c hc seq)
    | _ => rfl
  have hle := h.sent_le_last _ ⟨k, c, hc, hsent, hseq⟩
  rw [hrest.queue] at hle
  exact hle

theorem ordered_run {labels : List Label}
    (horder : ∀ done l, done ++ [l] <+: labels → (LTS.run next (start lib) done).InOrder l) :
    (LTS.run next (start lib) labels).Ordered := by
  refine LTS.run_induction (Q := fun _ t => Ordered t) (ordered_start lib) ?_
  intro done l hpre h
  exact h.move (sound_run lib done).numbered (move_next l) (horder done l hpre)

/-- When everything that was drawn is served and both tasks are idle, no barrier is stranded exactly
when the call with the last number is in the last write. This holds in every run in which the
messages are sent in the order of their numbers. -/
theorem none_stranded_at_rest_iff (lib : Library) (labels : List Label)
    (hrest : (LTS.run next (start lib) labels).Quiescent) :
    ((LTS.run next (start lib) labels).NoneStranded ↔
        (LTS.run next (start lib) labels).LastServed) ∧
      ((∀ done l, done ++ [l] <+: labels → (LTS.run next (start lib) done).InOrder l) →
        (LTS.run next (start lib) labels).NoneStranded) := by
  have hsound := sound_run lib labels
  constructor
  · rw [hsound.noneStranded_iff hrest, hsound.last_served_iff]
  · intro horder
    exact (ordered_run lib horder).noneStranded hsound hrest

/-! ## Two calls -/

/-- A submit and a barrier draw the numbers one and two; then they send their messages in the given
order, and both are served. -/
def two_calls (first second : Nat) : List Label :=
  let fs : Fs := ⟨fun _ => none, fun _ => false⟩
  [.call (.submit .updateTree), .fetchAdd 0, .call .barrier, .fetchAdd 1, .send first, .send second,
    .loadNext 1] ++ List.replicate 13 (.writer 0 fs) ++ List.replicate 6 .cascade

theorem quiescent_two_calls (hcalls : s.calls.map Call.point = [.sent 1, .waiting 2 2])
    (hqueue : s.queue.length = 0) (hwriter : s.writer = .top) (hinbox : s.cascade_inbox = [])
    (hcascade : s.cascade = .recv) : s.Quiescent := by
  refine ⟨fun n c hc seq hpoint => ?_, List.eq_nil_of_length_eq_zero hqueue,
    by rw [hwriter]; rfl, hinbox, hcascade⟩
  have hmem : c.point ∈ s.calls.map Call.point := List.mem_map_of_mem (List.mem_of_getElem? hc)
  rw [hcalls, hpoint] at hmem
  simp at hmem

theorem two_calls_in_order :
    (LTS.run next (start no_library) (two_calls 0 1)).Quiescent ∧
      (LTS.run next (start no_library) (two_calls 0 1)).NoneStranded := by
  have hrest : (LTS.run next (start no_library) (two_calls 0 1)).Quiescent :=
    quiescent_two_calls rfl rfl rfl rfl rfl
  refine ⟨hrest, (none_stranded_at_rest_iff no_library (two_calls 0 1) hrest).1.mpr ?_⟩
  exact Or.inr ⟨⟨2, .noop, [1]⟩, 1, rfl, List.mem_singleton.mpr rfl, rfl⟩

/-- The barrier is sent first: at rest it waits for number two, and both watermarks are at one. -/
theorem overtaken_submit_strands_barrier :
    let s := LTS.run next (start no_library) (two_calls 1 0)
    s.Quiescent ∧ (s.calls[1]?).map Call.point = some (.waiting 2 2) ∧ s.completed_seq = 1 ∧
      s.cascade_completed_seq = 1 ∧ ¬ s.NoneStranded := by
  intro s
  have hcompleted : s.completed_seq = 1 := rfl
  refine ⟨quiescent_two_calls rfl rfl rfl rfl rfl, rfl, hcompleted, rfl, fun hnone => ?_⟩
  have hle := hnone.completed
  have hnext : s.next_seq = 3 := rfl
  omega

end SerialWriter
