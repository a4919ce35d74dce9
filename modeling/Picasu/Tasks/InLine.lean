import Picasu.Tasks.AtRest

/-! # Who Is in Line

The messages that were sent are in one line: what the cascade task has executed, what waits for
it, and what waits for the writer. Every call is in it at most once, so what is executed does not
wait any more.

* `order_move`: a step keeps the line, except that a sent message joins it;
* `written_next`: what the writer takes, and which entry it makes of it;
* `InLine.next`: the line knows the calls;
* `refreshInLine_writer`, `RefreshInLine.next`: a rebuild stays in line until the cascade task
  takes it, and the writer adds none;
* `Covering.none_refreshes`: behind a barrier that has returned, and with no call after it, no
  rebuild waits.
-/

/-- The operation is followed by a rebuild of the tree. -/
def WriteOp.refreshes : WriteOp → Bool
  | flush _ _ | updateTree => true
  | _ => false

theorem handle_op_refreshes (now : Int) (fs : Fs) (op : WriteOp) (lib : Library) :
    (handle_op now fs op lib).1 = .updateTreeChain ↔ op.refreshes = true := by
  cases op <;> simp [handle_op, WriteOp.refreshes]

theorem Message.refreshes_of_is_flush {m : Message} (h : m.is_flush = true) :
    m.op.refreshes = true := by
  unfold Message.is_flush at h
  split at h
  · rename_i hop
    rw [hop]
    rfl
  · cases h

namespace SerialWriter

variable {s s' : SerialWriter} {l : Label}

/-! ## The line -/

def Label.is_call : Label → Bool
  | call _ => true
  | _ => false

def Label.is_writer : Label → Bool
  | writer _ _ => true
  | _ => false

def Label.is_cascade : Label → Bool
  | cascade => true
  | _ => false

/-- The calls whose messages were sent, in the order of the line. -/
def order (s : SerialWriter) : List Nat :=
  s.cascaded.flatMap CascadeEntry.members ++ s.entries.flatMap CascadeEntry.members ++
    s.queue.map Message.call

/-- A step keeps the line, except that a message that is sent joins it. -/
theorem order_move (hmove : Move s l s') :
    s'.order = s.order ∧ (∀ m ∈ s'.queue, m ∈ s.queue) ∨
      ∃ n seq c, s.calls[n]? = some c ∧ c.point = .drawn seq ∧
        s'.calls = s.set_call n c (.sent seq) ∧ s'.queue = s.queue ++ [⟨seq, c.kind.op, n⟩] ∧
        s'.order = s.order ++ [n] := by
  have hkeep : s'.written = s.written → s'.cascaded = s.cascaded → s'.queue = s.queue →
      s'.order = s.order := by
    intro hwritten hcascaded hqueue
    rw [order, order, entries_move hmove hwritten hcascaded, hcascaded, hqueue]
  cases hmove with
  | @send n seq c hc hpoint hroom =>
    refine Or.inr ⟨n, seq, c, hc, hpoint, rfl, ?_, ?_⟩
    · simp [queue]
    · simp [order, queue, entries]
  | arrange hqueue => exact Or.inl ⟨hkeep rfl rfl hqueue, fun m hm => hqueue ▸ hm⟩
  | @take now fs run rest entry lib merged hpending hrun hseq hmembers hbefore =>
    -- the messages taken are the members of the entry
    have hqueue := queue_of_pending hpending
    refine Or.inl ⟨?_, fun m hm => ?_⟩
    · rw [order, order, entries, entries, hqueue, WriterPoint.in_hand_eq_nil hbefore]
      simp [queue, WriterPoint.in_hand, hmembers]
    · rw [hqueue]
      exact List.mem_append_right run hm
  | execute hcascade =>
    refine Or.inl ⟨?_, fun _ hm => hm⟩
    simp [order, entries, queue, hcascade, CascadePoint.in_hand]
  | _ => exact Or.inl ⟨hkeep rfl rfl rfl, fun _ hm => hm⟩

/-- A call keeps what it sends, and that it has sent it. -/
theorem call_move (hmove : Move s l s') {k : Nat} {c : Call} (hc : s.calls[k]? = some c) :
    ∃ c', s'.calls[k]? = some c' ∧ c'.kind = c.kind ∧
      (c.point.has_sent = true → c'.point.has_sent = true) := by
  have hset : ∀ {n : Nat} {d : Call} {point : CallPoint}, s.calls[n]? = some d →
      (d.point.has_sent = true → point.has_sent = true) →
      ∃ c', (s.set_call n d point)[k]? = some c' ∧ c'.kind = c.kind ∧
        (c.point.has_sent = true → c'.point.has_sent = true) := by
    intro n d point hd hpoint
    by_cases hk : k = n
    · subst hk
      obtain rfl : c = d := Option.mem_unique hc hd
      have hlt : k < s.calls.length := (List.getElem?_eq_some_iff.mp hc).1
      exact ⟨_, List.getElem?_set_self hlt, rfl, hpoint⟩
    · exact ⟨c, (List.getElem?_set_ne (Ne.symm hk)).trans hc, rfl, fun h => h⟩
  cases hmove with
  | call kind =>
    have hlt : k < s.calls.length := (List.getElem?_eq_some_iff.mp hc).1
    exact ⟨c, (List.getElem?_append_left hlt).trans hc, rfl, fun h => h⟩
  | draw hd hpoint => exact hset hd (by simp [hpoint, CallPoint.has_sent])
  | send hd hpoint | loadNext hd hpoint | pass hd hpoint | giveBack hd hpoint | again hd hpoint =>
    exact hset hd fun _ => rfl
  | _ => exact ⟨c, hc, rfl, fun h => h⟩

/-! ## What the writer takes -/

/-- The entry follows the messages, and asks for a rebuild exactly if one of them does. -/
structure EntryOf (run : List Message) (entry : CascadeEntry) : Prop where
  members : entry.members = run.map Message.call
  op : entry.op = .updateTreeChain ↔ ∃ m ∈ run, m.op.refreshes = true

/-- The writer takes nothing, or the messages at the front of its queue. -/
theorem written_writer_step (now : Int) (fs : Fs) :
    (s.writer_step now fs).written = s.written ∨
      ∃ run entry, s.pending = run ++ (s.writer_step now fs).pending ∧ EntryOf run entry ∧
        (s.writer_step now fs).writer.in_hand = [entry] ∧
        (s.writer_step now fs).written = s.written ++ [entry] := by
  unfold writer_step
  split
  · split
    · exact Or.inl rfl
    · exact Or.inl rfl
    · exact Or.inl rfl
  · split
    · exact Or.inl rfl
    · exact Or.inl rfl
  · split
    · exact Or.inl rfl
    rename_i run hrun
    refine Or.inr ⟨_, run_entry (s.pending.takeWhile Message.is_flush),
      List.takeWhile_append_dropWhile.symm, ⟨rfl, iff_of_true rfl ?_⟩, rfl, rfl⟩
    obtain ⟨m, hm⟩ := List.exists_mem_of_ne_nil _ hrun
    exact ⟨m, hm, Message.refreshes_of_is_flush (List.mem_takeWhile_imp hm)⟩
  · split
    · exact Or.inl rfl
    rename_i m pending hpending
    refine Or.inr ⟨[m], _, hpending, ⟨rfl, ?_⟩, rfl, rfl⟩
    rw [handle_op_refreshes]
    simp
  · split
    · exact Or.inl rfl
    · exact Or.inl rfl
  · exact Or.inl rfl

theorem next_of_not_writer (hl : l.is_writer = false) :
    (s.next l).lib = s.lib ∧ (s.next l).written = s.written := by
  have hmove := move_next (s := s) l
  generalize s.next l = s' at hmove
  cases hmove with
  | take => cases hl
  | _ => exact ⟨rfl, rfl⟩

/-- The writer leaves the tables alone, or writes the flushes at the front as one, or handles its
next message. -/
theorem lib_writer_step (now : Int) (fs : Fs) :
    ((s.writer_step now fs).lib = s.lib ∧
        ∀ m pending, s.writer = .single → s.pending ≠ m :: pending) ∨
      (∃ inserts removes, (∃ m ∈ s.pending, m.op.refreshes = true) ∧
        (s.writer_step now fs).lib = (handle_op now fs (.flush inserts removes) s.lib).2) ∨
      ∃ m pending, s.writer = .single ∧ s.pending = m :: pending ∧
        (s.writer_step now fs).lib = (handle_op now fs m.op s.lib).2 := by
  have hother : s.writer ≠ .single → ∀ m pending, s.writer = .single → s.pending ≠ m :: pending :=
    fun hne _ _ heq => absurd heq hne
  unfold writer_step
  split
  · rename_i hwriter
    refine Or.inl ⟨?_, hother (by simp [hwriter])⟩
    split
    all_goals rfl
  · rename_i hwriter
    refine Or.inl ⟨?_, hother (by simp [hwriter])⟩
    split
    all_goals rfl
  · rename_i hwriter
    split
    · exact Or.inl ⟨rfl, hother (by simp [hwriter])⟩
    rename_i run hrun
    obtain ⟨m, hm⟩ := List.exists_mem_of_ne_nil _ hrun
    exact Or.inr (Or.inl ⟨_, _, ⟨m, List.takeWhile_subset _ hm,
      Message.refreshes_of_is_flush (List.mem_takeWhile_imp hm)⟩, rfl⟩)
  · rename_i hwriter
    split
    · rename_i hpending
      exact Or.inl ⟨rfl, fun m pending _ => by simp [hpending]⟩
    · rename_i m pending hpending
      exact Or.inr (Or.inr ⟨m, pending, hwriter, hpending, rfl⟩)
  · rename_i hwriter
    refine Or.inl ⟨?_, hother (by simp [hwriter])⟩
    split
    all_goals rfl
  · rename_i hwriter
    exact Or.inl ⟨rfl, hother (by simp [hwriter])⟩

/-- A step leaves the tables alone, or the writer handles an operation. -/
theorem lib_next (l : Label) :
    (s.next l).lib = s.lib ∨ ∃ now fs op, (s.next l).lib = (handle_op now fs op s.lib).2 := by
  cases l with
  | writer now fs =>
    rcases lib_writer_step (s := s) now fs with
      ⟨hsame, -⟩ | ⟨inserts, removes, -, hlib⟩ | ⟨m, -, -, -, hlib⟩
    · exact Or.inl hsame
    · exact Or.inr ⟨now, fs, .flush inserts removes, hlib⟩
    · exact Or.inr ⟨now, fs, m.op, hlib⟩
  | _ => exact Or.inl (next_of_not_writer rfl).1

/-- A step writes nothing, or the writer takes the messages at the front of its queue and has their
entry in hand. -/
theorem written_next (l : Label) : (s.next l).written = s.written ∨
    ∃ run entry, s.pending = run ++ (s.next l).pending ∧ EntryOf run entry ∧
      (s.next l).writer.in_hand = [entry] ∧ (s.next l).written = s.written ++ [entry] := by
  cases l with
  | writer now fs => exact written_writer_step now fs
  | _ => exact Or.inl (next_of_not_writer rfl).2

/-! ## The line knows the calls -/

/-- Whoever is in line has sent its message, and is in line once; messages and entries do what the
calls asked for. -/
structure InLine (s : SerialWriter) : Prop where
  once : s.order.Nodup
  sent : ∀ k ∈ s.order, ∃ c, s.calls[k]? = some c ∧ c.point.has_sent = true
  queue : ∀ m ∈ s.queue, ∃ c, s.calls[m.call]? = some c ∧ c.kind.op = m.op
  written : ∀ entry ∈ s.written, entry.op = .updateTreeChain →
    ∃ k ∈ entry.members, ∃ c, s.calls[k]? = some c ∧ c.kind.op.refreshes = true

theorem inLine_start (lib : Library) : (start lib).InLine := by
  refine ⟨List.nodup_nil, ?_, ?_, ?_⟩
  · exact fun k hk => absurd hk List.not_mem_nil
  · exact fun m hm => absurd hm List.not_mem_nil
  · exact fun entry hentry => absurd hentry List.not_mem_nil

/-- The calls keep what they asked for, so what was known of a message is known over a step. -/
theorem InLine.queue_kept (h : s.InLine) (l : Label) :
    ∀ m ∈ s.queue, ∃ c, (s.next l).calls[m.call]? = some c ∧ c.kind.op = m.op := by
  intro m hm
  obtain ⟨c, hc, hop⟩ := h.queue m hm
  obtain ⟨c', hc', hkind, -⟩ := call_move (move_next l) hc
  exact ⟨c', hc', hkind ▸ hop⟩

theorem InLine.written_kept (h : s.InLine) (l : Label) :
    ∀ entry ∈ (s.next l).written, entry.op = .updateTreeChain →
      ∃ k ∈ entry.members, ∃ c, (s.next l).calls[k]? = some c ∧ c.kind.op.refreshes = true := by
  have hold : ∀ entry ∈ s.written, entry.op = .updateTreeChain →
      ∃ k ∈ entry.members, ∃ c, (s.next l).calls[k]? = some c ∧ c.kind.op.refreshes = true := by
    intro entry hentry hop
    obtain ⟨k, hk, c, hc, hrefreshes⟩ := h.written entry hentry hop
    obtain ⟨c', hc', hkind, -⟩ := call_move (move_next l) hc
    exact ⟨k, hk, c', hc', hkind ▸ hrefreshes⟩
  rcases written_next (s := s) l with hsame | ⟨run, entry, hrun, hentry, -, hnew⟩
  · rw [hsame]
    exact hold
  · rw [hnew]
    intro e he hop
    rcases List.mem_append.mp he with he | he
    · exact hold e he hop
    -- the new entry follows a message that was in the queue
    obtain rfl := List.mem_singleton.mp he
    obtain ⟨m, hm, hrefreshes⟩ := hentry.op.mp hop
    have hwaiting : m ∈ s.queue := by
      rw [queue_of_pending hrun]
      exact List.mem_append_left _ hm
    obtain ⟨c, hc, hop'⟩ := h.queue_kept l m hwaiting
    refine ⟨m.call, ?_, c, hc, hop' ▸ hrefreshes⟩
    rw [hentry.members]
    exact List.mem_map_of_mem hm

theorem InLine.next (h : s.InLine) (l : Label) : (s.next l).InLine := by
  have hmove := move_next (s := s) l
  have hqueue := h.queue_kept l
  have hkept : ∀ k : Nat, (∃ c : Call, s.calls[k]? = some c ∧ c.point.has_sent = true) →
      ∃ c : Call, (s.next l).calls[k]? = some c ∧ c.point.has_sent = true := by
    rintro k ⟨c, hc, hsent⟩
    obtain ⟨c', hc', -, hsent'⟩ := call_move hmove hc
    exact ⟨c', hc', hsent' hsent⟩
  rcases order_move hmove with ⟨horder, hsub⟩ | ⟨n, seq, c, hc, hpoint, hset, hjoin, horder⟩
  · refine ⟨horder ▸ h.once, ?_, fun m hm => hqueue m (hsub m hm), h.written_kept l⟩
    rw [horder]
    exact fun k hk => hkept k (h.sent k hk)
  · -- a call that has not sent its message is not in line
    have hnew : n ∉ s.order := by
      intro hmem
      obtain ⟨d, hd, hsent⟩ := h.sent n hmem
      obtain rfl : c = d := Option.mem_unique hc hd
      rw [hpoint] at hsent
      cases hsent
    have hlt : n < s.calls.length := (List.getElem?_eq_some_iff.mp hc).1
    have hself : (s.next l).calls[n]? = some { c with point := .sent seq } := by
      rw [hset]
      exact List.getElem?_set_self hlt
    refine ⟨?_, ?_, ?_, h.written_kept l⟩
    · rw [horder]
      exact h.once.append (List.nodup_singleton n) (by simpa using hnew)
    · rw [horder]
      intro k hk
      rcases List.mem_append.mp hk with hk | hk
      · exact hkept k (h.sent k hk)
      · rw [List.mem_singleton.mp hk]
        exact ⟨_, hself, rfl⟩
    · rw [hjoin]
      intro m hm
      rcases List.mem_append.mp hm with hm | hm
      · exact hqueue m hm
      · rw [List.mem_singleton.mp hm]
        exact ⟨_, hself, rfl⟩

/-- What is executed does not wait any more. -/
theorem InLine.not_waiting (h : s.InLine) {k : Nat} (hdone : s.Cascaded k) :
    (∀ entry ∈ s.entries, k ∉ entry.members) ∧ ∀ m ∈ s.queue, m.call ≠ k := by
  obtain ⟨done, hmem, hk⟩ := hdone
  have hfirst : k ∈ s.cascaded.flatMap CascadeEntry.members := List.mem_flatMap.mpr ⟨done, hmem, hk⟩
  have honce := h.once
  rw [order, List.append_assoc] at honce
  have hrest := (List.nodup_append.mp honce).2.2 k hfirst
  constructor
  · intro entry hentry hk'
    exact hrest k (List.mem_append_left _ (List.mem_flatMap.mpr ⟨entry, hentry, hk'⟩)) rfl
  · rintro m hm rfl
    exact hrest m.call (List.mem_append_right _ (List.mem_map_of_mem hm)) rfl

/-! ## Rebuilds in line -/

/-- A message or an entry that waits asks for a rebuild of the tree. -/
def RefreshInLine (s : SerialWriter) : Prop :=
  (∃ m ∈ s.queue, m.op.refreshes = true) ∨
    ∃ entry ∈ s.cascade_inbox ++ s.writer.in_hand, entry.op = .updateTreeChain

theorem cascade_next (hl : l.is_cascade = false) : (s.next l).cascade = s.cascade := by
  have hmove := move_next (s := s) l
  generalize s.next l = s' at hmove
  cases hmove with
  | recv | execute | store => cases hl
  | _ => rfl

/-- The writer neither adds a rebuild to the line nor takes one out of it. -/
theorem refreshInLine_writer (now : Int) (fs : Fs) :
    (s.next (.writer now fs)).RefreshInLine ↔ s.RefreshInLine := by
  have hmove := move_next (s := s) (.writer now fs)
  have htaken := written_next (s := s) (.writer now fs)
  generalize s.next (.writer now fs) = s' at hmove htaken
  unfold RefreshInLine
  cases hmove with
  | stay => exact Iff.rfl
  | arrange hqueue hbefore hafter =>
    rw [WriterPoint.in_hand_eq_nil hbefore, WriterPoint.in_hand_eq_nil hafter, ← hqueue]
    exact Iff.rfl
  | @take _ _ run rest entry lib merged hpending hrun hseq hmembers hbefore =>
    rcases htaken with hsame | ⟨run', entry', hpending', hentry', hhand, -⟩
    · exact absurd (congrArg List.length hsame) (by simp)
    -- the entry in hand follows the messages that were taken
    obtain rfl : run' = run := List.append_cancel_right (hpending'.symm.trans hpending)
    obtain rfl : entry = entry' := (List.cons.inj hhand).1
    rw [WriterPoint.in_hand_eq_nil hbefore]
    simp only [queue, hpending, WriterPoint.in_hand, List.mem_append, or_and_right, exists_or,
      List.mem_singleton, exists_eq_left, hentry'.op, List.append_nil]
    simp only [or_assoc, or_comm, or_left_comm]
  | enqueueCascade hwriter =>
    rw [hwriter]
    simp only [WriterPoint.in_hand, List.append_nil]
    exact Iff.rfl
  | complete hwriter hafter =>
    rw [hwriter, WriterPoint.in_hand_eq_nil hafter]
    exact Iff.rfl

/-- A rebuild stays in line until the cascade task takes it. -/
theorem RefreshInLine.next (h : s.RefreshInLine) (hl : l.is_cascade = false) :
    (s.next l).RefreshInLine := by
  have hother : ∀ s', Move s l s' → l.is_writer = false → s'.RefreshInLine := by
    intro s' hmove hlabel
    cases hmove with
    | send hc hpoint hroom =>
      refine h.imp_left ?_
      rintro ⟨m, hm, hop⟩
      refine ⟨m, ?_, hop⟩
      rw [queue, ← List.append_assoc]
      exact List.mem_append_left _ hm
    | arrange | take | enqueueCascade | complete => cases hlabel
    | recv | execute | store => cases hl
    | _ => exact h
  cases l with
  | writer now fs => exact (refreshInLine_writer now fs).mpr h
  | cascade => cases hl
  | _ => exact hother _ (move_next _) rfl

/-- A step of the cascade task keeps the rebuilds in line, but for the one that it takes. -/
theorem RefreshInLine.cascade (h : s.RefreshInLine) :
    (s.next .cascade).RefreshInLine ∨
      ∃ entry, (s.next .cascade).cascade = .running entry ∧ entry.op = .updateTreeChain := by
  have hmove := move_next (s := s) .cascade
  generalize s.next .cascade = s' at hmove
  cases hmove with
  | stay | execute | store => exact Or.inl h
  | @recv entry rest hcascade hinbox =>
    rcases h with hmessage | ⟨e, he, hop⟩
    · exact Or.inl (Or.inl hmessage)
    rw [hinbox, List.cons_append] at he
    rcases List.mem_cons.mp he with rfl | he
    · exact Or.inr ⟨e, rfl, hop⟩
    · exact Or.inl (Or.inr ⟨e, he, hop⟩)

/-! ## All together -/

/-- What holds of the writer in every run. -/
structure Covering (s : SerialWriter) : Prop where
  numbered : s.Numbered
  covered : s.SentCovered
  inStep : s.InStep
  inLine : s.InLine

theorem Covering.next (h : s.Covering) (l : Label) : (s.next l).Covering :=
  ⟨h.numbered.move (move_next l), h.covered.move h.numbered (move_next l),
    h.inStep.move (move_next l), h.inLine.next l⟩

theorem covering_run (lib : Library) (labels : List Label) :
    (LTS.run SerialWriter.next (start lib) labels).Covering :=
  LTS.run_invariant ⟨numbered_start lib, fun _ _ hc => (by cases hc), inStep_start lib,
    inLine_start lib⟩ fun _ l _ h => h.next l

/-- The line does not depend on the tables. -/
theorem Covering.with_lib (h : s.Covering) (lib : Library) : Covering { s with lib } where
  numbered := { h.numbered with }
  covered n c hc hsent := ⟨(h.covered n c hc hsent).write, (h.covered n c hc hsent).cascade⟩
  inStep := { h.inStep with }
  inLine := { h.inLine with }

/-! ## The last barrier -/

structure LastBarrier (n : Nat) (s : SerialWriter) : Prop where
  last : s.calls.length = n + 1
  barrier : ∃ c, s.calls[n]? = some c ∧ c.kind = .barrier

theorem LastBarrier.next {n : Nat} (h : LastBarrier n s) (hl : l.is_call = false) :
    LastBarrier n (s.next l) := by
  have hmove := move_next (s := s) l
  constructor
  · have hlen : (s.next l).calls.length = s.calls.length := by
      generalize s.next l = s' at hmove
      cases hmove with
      | call kind => cases hl
      | draw | send | loadNext | pass | giveBack | again => exact List.length_set
      | _ => rfl
    rw [hlen, h.last]
  · obtain ⟨c, hc, hkind⟩ := h.barrier
    obtain ⟨c', hc', hkind', -⟩ := call_move hmove hc
    exact ⟨c', hc', hkind'.trans hkind⟩

/-- All but the last barrier are served: no rebuild waits. -/
theorem Covering.none_refreshes (h : s.Covering) {n : Nat} (hlast : LastBarrier n s)
    (hall : ∀ k < n, s.Cascaded k) : ¬ s.RefreshInLine ∧
      ∀ entry, s.cascade = .running entry → entry.op ≠ .updateTreeChain := by
  have hserved : ∀ (k : Nat) (c : Call), s.calls[k]? = some c → c.kind.op.refreshes = true →
      s.Cascaded k := by
    intro k c hc hrefreshes
    have hlt : k < s.calls.length := (List.getElem?_eq_some_iff.mp hc).1
    have hne : k ≠ n := by
      rintro rfl
      obtain ⟨d, hd, hkind⟩ := hlast.barrier
      obtain rfl : c = d := Option.mem_unique hc hd
      rw [hkind] at hrefreshes
      cases hrefreshes
    have hlen := hlast.last
    exact hall k (by omega)
  have hentries : ∀ entry ∈ s.entries, entry.op ≠ .updateTreeChain := by
    intro entry hentry hop
    have hwritten : entry ∈ s.written := by
      rw [h.inStep.logs]
      exact List.mem_append_right _ hentry
    obtain ⟨k, hk, c, hc, hrefreshes⟩ := h.inLine.written entry hwritten hop
    exact (h.inLine.not_waiting (hserved k c hc hrefreshes)).1 entry hentry hk
  constructor
  · rintro (⟨m, hm, hop⟩ | ⟨entry, hentry, hop⟩)
    · obtain ⟨c, hc, hkind⟩ := h.inLine.queue m hm
      exact (h.inLine.not_waiting (hserved m.call c hc (hkind ▸ hop))).2 m hm rfl
    · refine hentries entry ?_ hop
      rw [entries, List.append_assoc]
      exact List.mem_append_right _ hentry
  · intro entry hcascade
    apply hentries
    rw [entries, hcascade]
    exact List.mem_cons_self

theorem Late.with_lib {k bound first : Nat} (h : Late k bound first s) (lib : Library) :
    Late k bound first { s with lib } := by
  refine ⟨⟨h.covered.write, h.covered.cascade⟩, h.le_next, fun n c hn hc => ?_⟩
  have hknows := h.knows n c hn hc
  cases hpoint : c.point with
  | _ =>
    rw [hpoint] at hknows
    exact hknows

end SerialWriter
