import Picasu.Framework.Run
import Picasu.Framework.Table

/-! # Batches in the Data Worker

The main thread asks the data worker for batches of the gallery, and the worker posts back what it
has. A handler of the worker gives way to others twice: when it waits for the server, and when it
has processed one item in a hundred. Only the six batches requested last are processed; a handler
that finds its batch gone stops, and posts what it has by then.

The main thread marks the batch of every message as fetched. A handler that was stopped between
two items has posted a part of its batch, and a request for a single item counts as a batch of
that number. Without these two, a batch marked as fetched is complete (`fetched_complete`).
-/

namespace Gallery

open LTS

def batchNumber : Nat := 20

inductive FetchDataMethod where
  | batch
  | single
  deriving DecidableEq, Repr

/-- The payload of a `fetchData` message. -/
structure DataRequest where
  fetchMethod : FetchDataMethod
  batch : Nat
  deriving DecidableEq, Repr

namespace DataRequest

/-- The first index. -/
def start (request : DataRequest) : Nat :=
  match request.fetchMethod with
  | .batch => request.batch * batchNumber
  | .single => request.batch

/-- The index after the last one. -/
def stop (request : DataRequest) : Nat :=
  match request.fetchMethod with
  | .batch => (request.batch + 1) * batchNumber
  | .single => request.batch + 1

/-- The test before each item. -/
def Stopped (shouldProcessBatch : List Nat) (request : DataRequest) : Prop :=
  request.fetchMethod = .batch ∧ request.start / batchNumber ∉ shouldProcessBatch

instance (shouldProcessBatch : List Nat) (request : DataRequest) :
    Decidable (request.Stopped shouldProcessBatch) :=
  inferInstanceAs (Decidable (_ ∧ _))

end DataRequest

section

variable {α : Type}

/-! ## The worker -/

inductive Progress (α : Type) where
  /-- It waits for the server. -/
  | waiting
  /-- It has the items, and gives way before the item `i`. -/
  | yielded (items : List α) (i : Nat) (data : Table Nat α)

structure DataHandler (α : Type) where
  request : DataRequest
  progress : Progress α

/-- What the loop over the items comes to. -/
inductive LoopResult (α : Type) where
  | yielded (i : Nat) (data : Table Nat α)
  | done (data : Table Nat α)

/-- The loop of `fetchData`, from the item `i` on. -/
def processItems (shouldProcessBatch : List Nat) (request : DataRequest) :
    Nat → List α → Table Nat α → LoopResult α
  | _, [], data => .done data
  | i, item :: rest, data =>
    if request.Stopped shouldProcessBatch then .done data
    else
      let data := data.insert (request.start + i) item
      if i % 100 = 0 then .yielded (i + 1) data
      else processItems shouldProcessBatch request (i + 1) rest data

/-- A `returnData` message. The items that the server returned are not part of it. -/
structure ReturnData (α : Type) where
  request : DataRequest
  items : List α
  slicedDataArray : List (Nat × α)

/-- The entries of a result that are in the range of the request. -/
def slicedData (request : DataRequest) (result : Table Nat α) : List (Nat × α) :=
  (List.range' request.start (request.stop - request.start)).filterMap fun index =>
    (result.lookup index).map fun getData => (index, getData)

/-- The end of the handler. -/
def postResult (request : DataRequest) (items : List α) (result : Table Nat α) :
    List (ReturnData α) :=
  if result.entries.length > 0 then [⟨request, items, slicedData request result⟩] else []

def activate (shouldProcessBatch : List Nat) (request : DataRequest) : List Nat :=
  match request.fetchMethod with
  | .batch =>
    let rest :=
      if shouldProcessBatch.length ≥ 6 then shouldProcessBatch.tail else shouldProcessBatch
    rest ++ [request.batch]
  | .single => shouldProcessBatch

/-! ## The two threads -/

/-- The worker and the main thread. -/
structure DataThreads (α : Type) where
  shouldProcessBatch : List Nat
  handlers : List (DataHandler α)
  /-- The messages that the main thread has not got yet. -/
  messages : List (ReturnData α)
  data : Table Nat α
  batchFetched : Table Nat Bool
  /-- The messages that it has got. -/
  delivered : List (ReturnData α)

inductive DataEvent (α : Type) where
  /-- The worker gets a request. -/
  | fetchData (request : DataRequest)
  /-- The server answers the request of a handler. -/
  | response (k : Nat) (items : List α)
  /-- A handler that gave way goes on. -/
  | resume (k : Nat)
  /-- A handler ends with an exception. -/
  | reject (k : Nat)
  /-- The main thread gets a message. -/
  | returnData

namespace DataThreads

def init : DataThreads α := ⟨[], [], [], ∅, ∅, []⟩

/-- The handler at `k` processes items until it gives way or is done. -/
def proceed (s : DataThreads α) (k : Nat) (request : DataRequest) (items : List α) (i : Nat)
    (data : Table Nat α) : DataThreads α :=
  match processItems s.shouldProcessBatch request i (items.drop i) data with
  | .yielded i data => { s with handlers := s.handlers.set k ⟨request, .yielded items i data⟩ }
  | .done result =>
    { s with
      handlers := s.handlers.eraseIdx k
      messages := s.messages ++ postResult request items result }

def receive (s : DataThreads α) (message : ReturnData α) : DataThreads α :=
  { s with
    data := message.slicedDataArray.foldl (fun data entry => data.insert entry.1 entry.2) s.data
    batchFetched := s.batchFetched.insert message.request.batch true
    delivered := message :: s.delivered }

def next (s : DataThreads α) : DataEvent α → DataThreads α
  | .fetchData request =>
    { s with
      shouldProcessBatch := activate s.shouldProcessBatch request
      handlers := s.handlers ++ [⟨request, .waiting⟩] }
  | .response k items =>
    match s.handlers[k]? with
    | some ⟨request, .waiting⟩ => s.proceed k request items 0 ∅
    | _ => s
  | .resume k =>
    match s.handlers[k]? with
    | some ⟨request, .yielded items i data⟩ => s.proceed k request items i data
    | _ => s
  | .reject k => { s with handlers := s.handlers.eraseIdx k }
  | .returnData =>
    match s.messages with
    | message :: messages => { s with messages := messages }.receive message
    | [] => s

end DataThreads

/-! ## The loop -/

/-- A table has the first `n` items of a request. -/
def HasFirst (request : DataRequest) (n : Nat) (data : Table Nat α) : Prop :=
  ∀ j < n, request.start + j ∈ data

variable {request : DataRequest} {data : Table Nat α} {shouldProcessBatch : List Nat}

theorem HasFirst.insert {i : Nat} (h : HasFirst request i data) (item : α) :
    HasFirst request (i + 1) (data.insert (request.start + i) item) := by
  intro j hj
  rw [AList.mem_insert]
  by_cases hlast : j = i
  · left
    rw [hlast]
  · right
    exact h j (by omega)

/-- A handler that is not stopped has all items up to where it is. -/
theorem processItems_hasFirst (hactive : ¬ request.Stopped shouldProcessBatch) {i : Nat}
    (rest : List α) (h : HasFirst request i data) :
    (∃ j data', processItems shouldProcessBatch request i rest data = .yielded j data' ∧
      HasFirst request j data') ∨
    ∃ data', processItems shouldProcessBatch request i rest data = .done data' ∧
      HasFirst request (i + rest.length) data' := by
  induction rest generalizing i data with
  | nil => exact .inr ⟨data, rfl, h⟩
  | cons item rest ih =>
    have hnext := h.insert item
    rw [processItems, if_neg hactive]
    by_cases hyield : i % 100 = 0
    · left
      refine ⟨i + 1, _, ?_, hnext⟩
      simp only [hyield, if_true]
    · simp only [hyield, if_false]
      have hrest := ih hnext
      rw [Nat.add_right_comm] at hrest
      exact hrest

theorem processItems_of_stopped (hstopped : request.Stopped shouldProcessBatch) (i : Nat)
    (rest : List α) (data : Table Nat α) :
    processItems shouldProcessBatch request i rest data = .done data := by
  cases rest with
  | nil => rfl
  | cons item rest => rw [processItems, if_pos hstopped]

/-- The message of a handler that has all items has all of them that are in its range. -/
theorem mem_slicedData {n : Nat} {result : Table Nat α}
    (h : HasFirst request n result) {j : Nat} (hj : j < n)
    (hstop : request.start + j < request.stop) :
    request.start + j ∈ (slicedData request result).map Prod.fst := by
  obtain ⟨item, hitem⟩ := Option.isSome_iff_exists.mp (AList.lookup_isSome.mpr (h j hj))
  apply List.mem_map.mpr
  refine ⟨(request.start + j, item), List.mem_filterMap.mpr ⟨request.start + j, ?_, ?_⟩, rfl⟩
  · rw [List.mem_range'_1]
    omega
  · rw [hitem]
    rfl

theorem mem_foldl_insert {entries : List (Nat × α)} {index : Nat} :
    index ∈ entries.foldl (fun data entry => data.insert entry.1 entry.2) data ↔
      index ∈ data ∨ index ∈ entries.map Prod.fst := by
  induction entries generalizing data with
  | nil => simp
  | cons entry entries ih =>
    rw [List.foldl_cons, ih, AList.mem_insert, List.map_cons, List.mem_cons]
    tauto

/-! ## Complete batches -/

/-- A message has all items that the server returned, as far as they are in the range of the
request. -/
def ReturnData.Whole (message : ReturnData α) : Prop :=
  ∀ j < message.items.length, message.request.start + j < message.request.stop →
    message.request.start + j ∈ message.slicedDataArray.map Prod.fst

/-- A batch that is marked as fetched has been requested as a batch, and the data has all indexes
that the server returned for the requests that the main thread has been answered. -/
structure DataThreads.Complete (s : DataThreads α) : Prop where
  requested : ∀ b, s.batchFetched.lookup b = some true →
    ∃ message ∈ s.delivered, message.request = ⟨.batch, b⟩
  held : ∀ message ∈ s.delivered, ∀ j < message.items.length,
    message.request.start + j < message.request.stop → message.request.start + j ∈ s.data

/-- A handler that goes on between two items is still to be processed, and a single item is not the
first to be reported under its number. -/
def DataThreads.Meets (s : DataThreads α) : DataEvent α → Prop
  | .resume k => ∀ request items i data,
    s.handlers[k]? = some ⟨request, .yielded items i data⟩ → i < items.length →
      ¬ request.Stopped s.shouldProcessBatch
  | .returnData => ∀ message, s.messages.head? = some message →
    message.request.fetchMethod = .single → s.batchFetched.lookup message.request.batch = some true
  | _ => True

namespace DataThreads

variable {s : DataThreads α}

/-- Handlers and messages have what they should. -/
structure Sound (s : DataThreads α) : Prop where
  handlers : ∀ request items i data, ⟨request, .yielded items i data⟩ ∈ s.handlers →
    HasFirst request i data
  messages : ∀ message ∈ s.messages, message.Whole
  complete : s.Complete

/-- The handler is dropped, and posts a whole message or none. -/
theorem Sound.finish (h : s.Sound) (k : Nat) {posted : List (ReturnData α)}
    (hposted : ∀ message ∈ posted, message.Whole) :
    Sound { s with handlers := s.handlers.eraseIdx k, messages := s.messages ++ posted } where
  handlers request items i data hmem :=
    h.handlers request items i data (List.mem_of_mem_eraseIdx hmem)
  messages message hmem := by
    obtain hmem | hmem := List.mem_append.mp hmem
    · exact h.messages message hmem
    · exact hposted message hmem
  complete := ⟨h.complete.requested, h.complete.held⟩

theorem whole_of_mem_postResult {request : DataRequest} {items : List α} {result : Table Nat α}
    (h : HasFirst request items.length result) :
    ∀ message ∈ postResult request items result, message.Whole := by
  intro message hmem
  unfold postResult at hmem
  split at hmem
  · rw [List.mem_singleton.mp hmem]
    intro j hj hstop
    exact mem_slicedData h hj hstop
  · exact absurd hmem List.not_mem_nil

/-- A handler that goes on, and is stopped only if it has no item yet or all of them. -/
theorem Sound.proceed (h : s.Sound) (k : Nat) {request : DataRequest} {items : List α} {i : Nat}
    {data : Table Nat α} (hdata : HasFirst request i data)
    (hactive : request.Stopped s.shouldProcessBatch → data = ∅ ∨ items.length ≤ i) :
    (s.proceed k request items i data).Sound := by
  unfold DataThreads.proceed
  by_cases hstopped : request.Stopped s.shouldProcessBatch
  · rw [processItems_of_stopped hstopped]
    apply h.finish k
    obtain hempty | hall := hactive hstopped
    · -- nothing to post
      rw [hempty]
      intro message hmem
      exact absurd hmem List.not_mem_nil
    · exact whole_of_mem_postResult fun j hj => hdata j (by omega)
  · obtain ⟨j, data', hloop, hdata'⟩ | ⟨data', hloop, hdata'⟩ :=
      processItems_hasFirst hstopped (items.drop i) hdata
    · rw [hloop]
      refine ⟨?_, h.messages, ⟨h.complete.requested, h.complete.held⟩⟩
      intro request' items' i' data'' hmem
      obtain hmem | heq := List.mem_or_eq_of_mem_set hmem
      · exact h.handlers request' items' i' data'' hmem
      · cases heq
        exact hdata'
    · rw [hloop]
      apply h.finish k
      apply whole_of_mem_postResult
      intro j hj
      apply hdata'
      rw [List.length_drop]
      omega

theorem Sound.receive (h : s.Sound) {message : ReturnData α} (hwhole : message.Whole)
    (hsingle : message.request.fetchMethod = .single →
      s.batchFetched.lookup message.request.batch = some true) : (s.receive message).Sound where
  handlers := h.handlers
  messages := h.messages
  complete := by
    constructor
    · intro b hb
      unfold DataThreads.receive at hb
      by_cases hbatch : b = message.request.batch
      · subst hbatch
        cases hmethod : message.request.fetchMethod with
        | batch =>
          refine ⟨message, List.mem_cons_self, ?_⟩
          rw [← hmethod]
        | single =>
          obtain ⟨earlier, hearlier, hrequest⟩ := h.complete.requested _ (hsingle hmethod)
          exact ⟨earlier, List.mem_cons_of_mem message hearlier, hrequest⟩
      · rw [AList.lookup_insert_ne hbatch] at hb
        obtain ⟨earlier, hearlier, hrequest⟩ := h.complete.requested b hb
        exact ⟨earlier, List.mem_cons_of_mem message hearlier, hrequest⟩
    · intro got hgot j hj hstop
      apply mem_foldl_insert.mpr
      obtain rfl | hgot := List.mem_cons.mp hgot
      · right
        exact hwhole j hj hstop
      · left
        exact h.complete.held got hgot j hj hstop

theorem Sound.next (h : s.Sound) {event : DataEvent α} (hmeets : s.Meets event) :
    (s.next event).Sound := by
  cases event with
  | fetchData request =>
    refine ⟨?_, h.messages, ⟨h.complete.requested, h.complete.held⟩⟩
    intro request' items i data hmem
    obtain hmem | hnew := List.mem_append.mp hmem
    · exact h.handlers request' items i data hmem
    · cases List.mem_singleton.mp hnew
  | response k items =>
    simp only [DataThreads.next]
    split
    · apply h.proceed k
      · intro j hj
        exact absurd hj (Nat.not_lt_zero j)
      · exact fun _ => .inl rfl
    · exact h
  | resume k =>
    simp only [DataThreads.next]
    split
    · next request items i data hhandler =>
      apply h.proceed k
      · exact h.handlers request items i data (List.mem_of_getElem? hhandler)
      · intro hstopped
        right
        apply Nat.le_of_not_lt
        intro hbetween
        exact hmeets request items i data hhandler hbetween hstopped
    · exact h
  | reject k =>
    have hdropped := h.finish k (List.forall_mem_nil ReturnData.Whole)
    rw [List.append_nil] at hdropped
    exact hdropped
  | returnData =>
    simp only [DataThreads.next]
    split
    · next message messages hmessages =>
      have hall := h.messages
      rw [hmessages] at hall
      obtain ⟨hwhole, hrest⟩ := List.forall_mem_cons.mp hall
      have hsound : Sound { s with messages := messages } :=
        ⟨h.handlers, hrest, ⟨h.complete.requested, h.complete.held⟩⟩
      apply hsound.receive hwhole
      exact hmeets message (by rw [hmessages]; rfl)
    · exact h

/-- If no handler goes on between two items after its batch was dropped, and no single item is the
first to be reported under its number, the batches that are marked as fetched are complete, in
every state of the run. -/
theorem fetched_complete {events : List (DataEvent α)}
    (hmeets : ∀ pre event, pre ++ [event] <+: events → (run next init pre).Meets event)
    {pre : List (DataEvent α)} (hpre : pre <+: events) : (run next init pre).Complete := by
  have hinit : Sound (init : DataThreads α) := by refine ⟨?_, ?_, ?_, ?_⟩ <;> simp [init]
  have hrun := run_induction (Q := fun _ s => Sound s) hinit
    fun before event hbefore hs => hs.next (hmeets before event (hbefore.trans hpre))
  exact hrun.complete

/-- A batch of two items, with another request between them. -/
def twoRequests : List (DataEvent Nat) :=
  [.fetchData ⟨.batch, 0⟩, .response 0 [7, 8], .fetchData ⟨.batch, 1⟩, .resume 0, .returnData]

theorem fetched_complete_two_requests :
    (run next init twoRequests).batchFetched.lookup 0 = some true ∧
      (run next init twoRequests).Complete := by
  refine ⟨by decide +kernel, fetched_complete ?_ (List.prefix_refl _)⟩
  unfold twoRequests
  rw [forall_step_cons, forall_step_cons, forall_step_cons, forall_step_cons, forall_step_cons,
    forall_step_nil]
  refine ⟨trivial, trivial, trivial, ?_, ?_, trivial⟩
  · intro request items i data hhandler _
    cases hhandler
    decide +kernel
  · intro message hmessage hsingle
    cases hmessage
    cases hsingle

/-- Six more requests while the first handler has given way. -/
def sevenRequests : List (DataEvent Nat) :=
  [.fetchData ⟨.batch, 0⟩, .response 0 [7, 8]] ++
    (List.range' 1 6).map (fun b => .fetchData ⟨.batch, b⟩) ++ [.resume 0, .returnData]

/-- One item, outside its batch. -/
def singleRequest : List (DataEvent Nat) :=
  [.fetchData ⟨.single, 30⟩, .response 0 [7], .resume 0, .returnData]

/-- A batch is marked as fetched with one of its two items, and another one after a single item. -/
theorem fetched_incomplete :
    ((run next init sevenRequests).batchFetched.lookup 0 = some true ∧
      ¬ (run next init sevenRequests).Complete) ∧
    (run next init singleRequest).batchFetched.lookup 30 = some true ∧
      ¬ (run next init singleRequest).Complete := by
  refine ⟨⟨by decide +kernel, ?_⟩, by decide +kernel, ?_⟩
  · intro h
    have hitem := h.held ⟨⟨.batch, 0⟩, [7, 8], [(0, 7)]⟩ (List.mem_singleton_self _) 1
      (by decide) (by decide)
    revert hitem
    decide +kernel
  · intro h
    obtain ⟨message, hmessage, hrequest⟩ := h.requested 30 (by decide +kernel)
    rw [List.mem_singleton.mp hmessage] at hrequest
    cases hrequest

end DataThreads

end

end Gallery
