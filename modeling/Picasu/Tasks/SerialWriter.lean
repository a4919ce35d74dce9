import Picasu.Framework.Run
import Picasu.Tasks.Writer

/-! # The Serial Writer

Background work writes through one task. A submit draws the next sequence number and then sends
its message to the writer's channel; the two steps are not one, so a later number may arrive
first. The writer takes everything that has arrived, merges the flushes at the front into one
write, and hands one entry for every write on to the cascade task. Each of the two tasks stores
the number of what it has finished in a watermark of its own.

A barrier sends a marker, reads the last number drawn, and waits until both watermarks have
reached it.

The system has the calls in the middle of which somebody is, the two channels with their
capacities, how far the two tasks are, and the watermarks. Every load and store is a step of its
own. The tables are there as the library that the writes change; what a cascade entry does is left
out. `written` and `cascaded` keep a record of what is finished.

`move_next` says once what a step can do; the invariants are derived from it.
-/

open PathBuf

/-! ## Messages -/

/-- `WriteOp`. Each insert of a flush comes with the id that is drawn for it if its path is new. -/
inductive WriteOp where
  | flush (inserts : List (String × AbstractData)) (removes : List AbstractData)
  | updateTree
  | expireCheck
  | sweepDirAlbums (entries : List (PathBuf × String))
  | pruneUsersRoot (users_root : PathBuf)
  | barrier

inductive CascadeOp where
  | updateTreeChain
  | expireRound
  | noop
  deriving DecidableEq, Repr

/-- What a submit sends to the writer. `call` is not sent: it records which call the message is
from. -/
structure Message where
  seq : Nat
  op : WriteOp
  call : Nat

/-- What the writer sends to the cascade task. `members` is not sent: it records the calls whose
messages the entry follows. -/
structure CascadeEntry where
  seq : Nat
  op : CascadeOp
  members : List Nat
  deriving DecidableEq, Repr

def handle_op (now : Int) (fs : Fs) (op : WriteOp) (lib : Library) : CascadeOp × Library :=
  match op with
  | .flush inserts removes =>
    (.updateTreeChain, { lib with store := flush_tables now fs inserts removes lib.store })
  | .updateTree => (.updateTreeChain, lib)
  | .expireCheck => (.expireRound, lib)
  | .sweepDirAlbums entries => (.noop, handle_sweep_dir_albums entries lib)
  | .pruneUsersRoot users_root => (.noop, handle_prune_users_root users_root lib)
  | .barrier => (.noop, lib)

/-- A message that joins the run of flushes at the front. -/
def Message.is_flush (m : Message) : Bool :=
  match m.op with
  | .flush _ _ => true
  | _ => false

def Message.inserts (m : Message) : List (String × AbstractData) :=
  match m.op with
  | .flush inserts _ => inserts
  | _ => []

def Message.removes (m : Message) : List AbstractData :=
  match m.op with
  | .flush _ removes => removes
  | _ => []

/-- The number at which a merged run completes, the largest of the run. -/
def flush_seq (run : List Message) : Nat := run.foldl (fun seq m => max seq m.seq) 0

/-- The write of a merged run. -/
def flush_run (now : Int) (fs : Fs) (run : List Message) (lib : Library) : Library :=
  { lib with
    store := flush_tables now fs (run.flatMap Message.inserts) (run.flatMap Message.removes)
      lib.store }

def run_entry (run : List Message) : CascadeEntry :=
  ⟨flush_seq run, .updateTreeChain, run.map Message.call⟩

/-! ## Calls -/

/-- Who calls: `submit` with an operation, or `barrier`. -/
inductive CallKind where
  | submit (op : WriteOp)
  | barrier

def CallKind.op : CallKind → WriteOp
  | submit op => op
  | barrier => .barrier

/-- How far a call is. -/
inductive CallPoint where
  | called
  /-- `fetch_add` has drawn the number. -/
  | drawn (seq : Nat)
  /-- The message is in the channel. This is where `submit` returns. -/
  | sent (seq : Nat)
  /-- A barrier has read the last number drawn, and waits for it. -/
  | waiting (seq target : Nat)
  /-- `COMPLETED_SEQ` was found to have reached it. -/
  | passed (seq target : Nat)
  /-- The barrier has returned. -/
  | returned (seq : Nat)
  deriving DecidableEq, Repr

def CallPoint.seq : CallPoint → Option Nat
  | called => none
  | drawn seq | sent seq | waiting seq _ | passed seq _ | returned seq => some seq

def CallPoint.has_sent : CallPoint → Bool
  | called | drawn _ => false
  | sent _ | waiting _ _ | passed _ _ | returned _ => true

structure Call where
  kind : CallKind
  point : CallPoint

/-! ## The system -/

def WRITER_CAPACITY : Nat := 1024

def CASCADE_CAPACITY : Nat := 1024

inductive WriterPoint where
  /-- The top of the loop; `recv` if nothing is pending. -/
  | top
  /-- The `try_recv` loop. -/
  | drain
  /-- Before the run of flushes at the front is merged. -/
  | merge
  /-- Before the next message is popped. -/
  | single
  /-- The tables are written; `merged` tells the two places apart. -/
  | sending (entry : CascadeEntry) (merged : Bool)
  /-- The entry is in the cascade channel. -/
  | completing (seq : Nat) (merged : Bool)
  deriving DecidableEq, Repr

/-- Where the loop of the cascade task is. -/
inductive CascadePoint where
  | recv
  | running (entry : CascadeEntry)
  /-- The entry is executed, its number not yet stored. -/
  | storing (seq : Nat)
  deriving DecidableEq, Repr

structure SerialWriter where
  /-- `NEXT_SEQ`. -/
  next_seq : Nat
  calls : List Call
  inbox : List Message
  /-- The writer's own queue. -/
  pending : List Message
  writer : WriterPoint
  /-- `COMPLETED_SEQ`. -/
  completed_seq : Nat
  cascade_inbox : List CascadeEntry
  cascade : CascadePoint
  /-- `CASCADE_COMPLETED_SEQ`. -/
  cascade_completed_seq : Nat
  lib : Library
  /-- The writes that are done, with the entry of each. -/
  written : List CascadeEntry
  /-- The entries that are fully executed. -/
  cascaded : List CascadeEntry

namespace SerialWriter

inductive Label where
  /-- Somebody calls `submit` or `barrier`. -/
  | call (kind : CallKind)
  /-- The `n`-th call draws its number. -/
  | fetchAdd (n : Nat)
  /-- The `n`-th call sends its message, unless the channel is full. -/
  | send (n : Nat)
  /-- The `n`-th call, a barrier, reads the last number drawn. -/
  | loadNext (n : Nat)
  /-- It looks at `COMPLETED_SEQ`. -/
  | loadCompleted (n : Nat)
  /-- It looks at `CASCADE_COMPLETED_SEQ`. -/
  | loadCascadeCompleted (n : Nat)
  /-- The writer goes on. -/
  | writer (now : Int) (fs : Fs)
  /-- The cascade task goes on. -/
  | cascade

variable (s : SerialWriter)

def set_call (n : Nat) (c : Call) (point : CallPoint) : List Call :=
  s.calls.set n { c with point }

/-- One step of a call that is begun. -/
def call_step (n : Nat) (c : Call) : Label → SerialWriter
  | .fetchAdd _ =>
    match c.point with
    | .called =>
      { s with next_seq := s.next_seq + 1, calls := s.set_call n c (.drawn s.next_seq) }
    | _ => s
  | .send _ =>
    match c.point with
    | .drawn seq =>
      if s.inbox.length < WRITER_CAPACITY then
        { s with inbox := s.inbox ++ [⟨seq, c.kind.op, n⟩], calls := s.set_call n c (.sent seq) }
      else s
    | _ => s
  | .loadNext _ =>
    match c.kind, c.point with
    | .barrier, .sent seq => { s with calls := s.set_call n c (.waiting seq (s.next_seq - 1)) }
    | _, _ => s
  | .loadCompleted _ =>
    match c.point with
    | .waiting seq target =>
      if target ≤ s.completed_seq then { s with calls := s.set_call n c (.passed seq target) }
      else s
    | _ => s
  | .loadCascadeCompleted _ =>
    match c.point with
    | .passed seq target =>
      if target ≤ s.cascade_completed_seq then { s with calls := s.set_call n c (.returned seq) }
      -- the next turn of the loop
      else { s with calls := s.set_call n c (.waiting seq target) }
    | _ => s
  | _ => s

/-- One step of `writer_loop`. -/
def writer_step (now : Int) (fs : Fs) : SerialWriter :=
  match s.writer with
  | .top =>
    match s.pending, s.inbox with
    | [], [] => s
    | [], m :: inbox => { s with pending := [m], inbox, writer := .drain }
    | _ :: _, _ => { s with writer := .drain }
  | .drain =>
    match s.inbox with
    | m :: inbox => { s with pending := s.pending ++ [m], inbox }
    | [] => { s with writer := .merge }
  | .merge =>
    match s.pending.takeWhile Message.is_flush with
    | [] => { s with writer := .single }
    | run =>
      { s with
        pending := s.pending.dropWhile Message.is_flush
        lib := flush_run now fs run s.lib
        written := s.written ++ [run_entry run]
        writer := .sending (run_entry run) true }
  | .single =>
    match s.pending with
    | [] => { s with writer := .top }
    | m :: pending =>
      let (op, lib) := handle_op now fs m.op s.lib
      { s with
        pending, lib
        written := s.written ++ [⟨m.seq, op, [m.call]⟩]
        writer := .sending ⟨m.seq, op, [m.call]⟩ false }
  | .sending entry merged =>
    if s.cascade_inbox.length < CASCADE_CAPACITY then
      { s with
        cascade_inbox := s.cascade_inbox ++ [entry], writer := .completing entry.seq merged }
    else s
  | .completing seq merged =>
    { s with completed_seq := seq, writer := if merged then .single else .top }

/-- One step of `cascade_loop`. -/
def cascade_step : SerialWriter :=
  match s.cascade with
  | .recv =>
    match s.cascade_inbox with
    | [] => s
    | entry :: cascade_inbox => { s with cascade_inbox, cascade := .running entry }
  | .running entry => { s with cascaded := s.cascaded ++ [entry], cascade := .storing entry.seq }
  | .storing seq => { s with cascade_completed_seq := seq, cascade := .recv }

def step_call (n : Nat) (l : Label) : SerialWriter :=
  match s.calls[n]? with
  | none => s
  | some c => s.call_step n c l

def next : Label → SerialWriter
  | .call kind => { s with calls := s.calls ++ [⟨kind, .called⟩] }
  | .fetchAdd n => s.step_call n (.fetchAdd n)
  | .send n => s.step_call n (.send n)
  | .loadNext n => s.step_call n (.loadNext n)
  | .loadCompleted n => s.step_call n (.loadCompleted n)
  | .loadCascadeCompleted n => s.step_call n (.loadCascadeCompleted n)
  | .writer now fs => s.writer_step now fs
  | .cascade => s.cascade_step

/-- The state before the first call. -/
def start (lib : Library) : SerialWriter where
  next_seq := 1
  calls := []
  inbox := []
  pending := []
  writer := .top
  completed_seq := 0
  cascade_inbox := []
  cascade := .recv
  cascade_completed_seq := 0
  lib
  written := []
  cascaded := []

end SerialWriter

/-! ## What a step can do -/

/-- The entry that the writer has not sent yet. -/
def WriterPoint.in_hand : WriterPoint → List CascadeEntry
  | sending entry _ => [entry]
  | _ => []

/-- The number that the writer stores next. -/
def WriterPoint.stores : WriterPoint → Option Nat
  | sending entry _ => some entry.seq
  | completing seq _ => some seq
  | _ => none

namespace SerialWriter

/-- The messages that wait for the writer. -/
def queue (s : SerialWriter) : List Message := s.pending ++ s.inbox

inductive Move (s : SerialWriter) : Label → SerialWriter → Prop where
  /-- There is nothing to do, or no room. -/
  | stay (l : Label) : Move s l s
  | call (kind : CallKind) : Move s (.call kind) { s with calls := s.calls ++ [⟨kind, .called⟩] }
  | draw {n : Nat} {c : Call} (hc : s.calls[n]? = some c) (hpoint : c.point = .called) :
    Move s (.fetchAdd n)
      { s with next_seq := s.next_seq + 1, calls := s.set_call n c (.drawn s.next_seq) }
  | send {n seq : Nat} {c : Call} (hc : s.calls[n]? = some c) (hpoint : c.point = .drawn seq)
    (hroom : s.inbox.length < WRITER_CAPACITY) :
    Move s (.send n)
      { s with inbox := s.inbox ++ [⟨seq, c.kind.op, n⟩], calls := s.set_call n c (.sent seq) }
  | loadNext {n seq : Nat} {c : Call} (hc : s.calls[n]? = some c) (hpoint : c.point = .sent seq) :
    Move s (.loadNext n) { s with calls := s.set_call n c (.waiting seq (s.next_seq - 1)) }
  | pass {n seq target : Nat} {c : Call} (hc : s.calls[n]? = some c)
    (hpoint : c.point = .waiting seq target) (hreached : target ≤ s.completed_seq) :
    Move s (.loadCompleted n) { s with calls := s.set_call n c (.passed seq target) }
  | giveBack {n seq target : Nat} {c : Call} (hc : s.calls[n]? = some c)
    (hpoint : c.point = .passed seq target) (hreached : target ≤ s.cascade_completed_seq) :
    Move s (.loadCascadeCompleted n) { s with calls := s.set_call n c (.returned seq) }
  | again {n seq target : Nat} {c : Call} (hc : s.calls[n]? = some c)
    (hpoint : c.point = .passed seq target) :
    Move s (.loadCascadeCompleted n) { s with calls := s.set_call n c (.waiting seq target) }
  /-- The writer receives a message, or goes on in its loop. -/
  | arrange {now : Int} {fs : Fs} {pending inbox : List Message} {point : WriterPoint}
    (hqueue : pending ++ inbox = s.queue) (hbefore : s.writer.stores = none)
    (hafter : point.stores = none) :
    Move s (.writer now fs) { s with pending, inbox, writer := point }
  /-- The writer takes the first messages and writes them as one. -/
  | take {now : Int} {fs : Fs} {run rest : List Message} {entry : CascadeEntry} {lib : Library}
    {merged : Bool} (hpending : s.pending = run ++ rest) (hrun : run ≠ [])
    (hseq : entry.seq = flush_seq run) (hmembers : entry.members = run.map Message.call)
    (hbefore : s.writer.stores = none) :
    Move s (.writer now fs) { s with
      pending := rest, lib, written := s.written ++ [entry], writer := .sending entry merged }
  | enqueueCascade {now : Int} {fs : Fs} {entry : CascadeEntry} {merged : Bool}
    (hwriter : s.writer = .sending entry merged) :
    Move s (.writer now fs) { s with
      cascade_inbox := s.cascade_inbox ++ [entry], writer := .completing entry.seq merged }
  | complete {now : Int} {fs : Fs} {seq : Nat} {merged : Bool} {point : WriterPoint}
    (hwriter : s.writer = .completing seq merged) (hafter : point.stores = none) :
    Move s (.writer now fs) { s with completed_seq := seq, writer := point }
  | recv {entry : CascadeEntry} {rest : List CascadeEntry} (hcascade : s.cascade = .recv)
    (hinbox : s.cascade_inbox = entry :: rest) :
    Move s .cascade { s with cascade_inbox := rest, cascade := .running entry }
  | execute {entry : CascadeEntry} (hcascade : s.cascade = .running entry) :
    Move s .cascade { s with cascaded := s.cascaded ++ [entry], cascade := .storing entry.seq }
  | store {seq : Nat} (hcascade : s.cascade = .storing seq) :
    Move s .cascade { s with cascade_completed_seq := seq, cascade := .recv }

variable {s : SerialWriter}

theorem move_writer_step (now : Int) (fs : Fs) :
    Move s (.writer now fs) (s.writer_step now fs) := by
  unfold writer_step
  split
  · rename_i hwriter
    have hstores : s.writer.stores = none := by rw [hwriter]; rfl
    split
    · exact .stay _
    · rename_i m inbox hpending hinbox
      exact .arrange (by rw [queue, hpending, hinbox]; rfl) hstores rfl
    · exact .arrange rfl hstores rfl
  · rename_i hwriter
    have hstores : s.writer.stores = none := by rw [hwriter]; rfl
    split
    · rename_i m inbox hinbox
      refine .arrange ?_ hstores (by rw [hwriter]; rfl)
      rw [queue, hinbox, List.append_assoc]
      rfl
    · exact .arrange rfl hstores rfl
  · rename_i hwriter
    have hstores : s.writer.stores = none := by rw [hwriter]; rfl
    split
    · exact .arrange rfl hstores rfl
    · rename_i run hrun
      exact .take List.takeWhile_append_dropWhile.symm hrun rfl rfl hstores
  · rename_i hwriter
    have hstores : s.writer.stores = none := by rw [hwriter]; rfl
    split
    · exact .arrange rfl hstores rfl
    · rename_i m pending hpending
      have hfront : s.pending = [m] ++ pending := hpending
      exact .take hfront (List.cons_ne_nil _ _) (Nat.zero_max _).symm rfl hstores
  · rename_i entry merged hwriter
    split
    · exact .enqueueCascade hwriter
    · exact .stay _
  · rename_i seq merged hwriter
    refine .complete hwriter ?_
    split
    · rfl
    · rfl

theorem move_cascade_step : Move s .cascade s.cascade_step := by
  unfold cascade_step
  split
  · rename_i hcascade
    split
    · exact .stay _
    · rename_i entry rest hinbox
      exact .recv hcascade hinbox
  · rename_i entry hcascade
    exact .execute hcascade
  · rename_i seq hcascade
    exact .store hcascade

theorem move_call_step (n : Nat) {c : Call} (hc : s.calls[n]? = some c) :
    Move s (.fetchAdd n) (s.call_step n c (.fetchAdd n)) ∧
      Move s (.send n) (s.call_step n c (.send n)) ∧
      Move s (.loadNext n) (s.call_step n c (.loadNext n)) ∧
      Move s (.loadCompleted n) (s.call_step n c (.loadCompleted n)) ∧
      Move s (.loadCascadeCompleted n) (s.call_step n c (.loadCascadeCompleted n)) := by
  refine ⟨?_, ?_, ?_, ?_, ?_⟩
  · simp only [call_step]
    split
    · rename_i hpoint
      exact .draw hc hpoint
    · exact .stay _
  · simp only [call_step]
    split
    · rename_i seq hpoint
      split
      · rename_i hroom
        exact .send hc hpoint hroom
      · exact .stay _
    · exact .stay _
  · simp only [call_step]
    split
    · rename_i seq hkind hpoint
      exact .loadNext hc hpoint
    · exact .stay _
  · simp only [call_step]
    split
    · rename_i seq target hpoint
      split
      · rename_i hreached
        exact .pass hc hpoint hreached
      · exact .stay _
    · exact .stay _
  · simp only [call_step]
    split
    · rename_i seq target hpoint
      split
      · rename_i hreached
        exact .giveBack hc hpoint hreached
      · exact .again hc hpoint
    · exact .stay _

theorem move_step_call {n : Nat} {l : Label}
    (h : ∀ c, s.calls[n]? = some c → Move s l (s.call_step n c l)) :
    Move s l (s.step_call n l) := by
  unfold step_call
  split
  · exact .stay _
  · rename_i c hc
    exact h c hc

theorem move_next (l : Label) : Move s l (s.next l) := by
  cases l with
  | call kind => exact .call kind
  | writer now fs => exact move_writer_step now fs
  | cascade => exact move_cascade_step
  | fetchAdd n => exact move_step_call fun _ hc => (move_call_step n hc).1
  | send n => exact move_step_call fun _ hc => (move_call_step n hc).2.1
  | loadNext n => exact move_step_call fun _ hc => (move_call_step n hc).2.2.1
  | loadCompleted n => exact move_step_call fun _ hc => (move_call_step n hc).2.2.2.1
  | loadCascadeCompleted n => exact move_step_call fun _ hc => (move_call_step n hc).2.2.2.2

end SerialWriter
