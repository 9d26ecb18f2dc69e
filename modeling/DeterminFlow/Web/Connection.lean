/-
  Web.Connection
  **ONE CONNECTION SEES NO GAP.**

  Every WebSocket connection has a bounded queue, an ordered overflow and a
  consumer of its own.  Producers append to the queue while the overflow is
  empty and to the overflow otherwise; the consumer takes from the overflow
  only when the queue is empty.  The first message that is refused removes
  the connection from the bus, so that nothing is offered to it any more.
-/
import DeterminFlow.Library.Dict
import DeterminFlow.Library.Runs

namespace DeterminFlow.Web

open Library List Option

/-! ## A connection -/

/-- `id(ws)`. -/
abbrev WsId : Type := Nat

def terminalEventTypes : List String :=
  ["snapshot", "stream_end", "chain_end", "error", "rt_turn_end", "roundtable_summary",
    "roundtable_conclusion", "rt_ended"]

/-- `_WS_QUEUE_SIZE` and `_WS_OVERFLOW_SIZE`, as the environment gives them. -/
structure Limits where
  queueSize : Int := 1024
  overflowSize : Int := 1024
  deriving DecidableEq

/-- Where the consumer of a connection stands. -/
inductive Consumer where
  /-- At the head of its loop. -/
  | ready
  /-- In `queue.get()`. -/
  | waiting
  | sending
  | stopped
  deriving DecidableEq

/-- `_WsConnection`; ghost: every message offered to it with the answer, and
every message it handed to `send_text`. -/
structure WsConnection where
  ws : WsId
  queue : List String := []
  overflow : List (String × String) := []
  droppedCount : Nat := 0
  unhealthy : Bool := false
  consumer : Consumer := .ready
  /-- `cancel_consumer` has asked the task to end. -/
  cancelRequested : Bool := false
  offers : List (String × Bool) := []
  handed : List String := []
  deriving DecidableEq

namespace WsConnection

/-- `asyncio.Queue.full`: a queue without a positive size is never full. -/
def queueFull (limits : Limits) (c : WsConnection) : Bool :=
  0 < limits.queueSize && limits.queueSize ≤ c.queue.length

def refuse (message : String) (c : WsConnection) : WsConnection :=
  { c with
    droppedCount := c.droppedCount + 1
    unhealthy := true
    offers := c.offers ++ [(message, false)] }

def overflowed (message eventType : String) (c : WsConnection) : WsConnection :=
  { c with
    overflow := c.overflow ++ [(message, eventType)]
    offers := c.offers ++ [(message, true)] }

def queued (message : String) (c : WsConnection) : WsConnection :=
  { c with
    queue := c.queue ++ [message]
    offers := c.offers ++ [(message, true)] }

def enqueue (limits : Limits) (message eventType : String) (c : WsConnection) :
    WsConnection × Bool :=
  if c.overflow ≠ [] then
    if limits.overflowSize ≤ c.overflow.length then (c.refuse message, false)
    else (c.overflowed message eventType, true)
  else if c.queueFull limits = false then (c.queued message, true)
  else if eventType ∈ terminalEventTypes then (c.overflowed message eventType, true)
  else (c.refuse message, false)

/-- The consumer has the message and calls `send_text`. -/
def handOver (message : String) (c : WsConnection) : WsConnection :=
  { c with consumer := .sending, handed := c.handed ++ [message] }

/-- `queue.get()`: the first message, or it waits. -/
def getFromQueue (c : WsConnection) : WsConnection :=
  match c.queue with
  | [] => { c with consumer := .waiting }
  | message :: rest => { c with queue := rest }.handOver message

/-- The consumer runs: at the head of its loop it chooses a container, in
`queue.get()` it has chosen. -/
def consume (c : WsConnection) : Option WsConnection :=
  match c.consumer with
  | .ready =>
    match c.queue, c.overflow with
    | [], (message, _) :: rest => some ({ c with overflow := rest }.handOver message)
    | _, _ => some c.getFromQueue
  | .waiting => if c.queue = [] then none else some c.getFromQueue
  | _ => none

end WsConnection

/-! ## The bus -/

/-- `EventBus`, as far as it delivers; a connection object is known by its
number, since a WebSocket that is dropped and subscribes again has a new one. -/
structure EventBus where
  objects : List WsConnection := []
  connections : Dict WsId Nat := []
  channelSubscribers : Dict String (List WsId) := [("chat", []), ("events", [])]
  sessionSubscribers : Dict String (List WsId) := []
  roundtableSubscribers : Dict String (List WsId) := []
  deriving DecidableEq

namespace EventBus

def modifyObject (i : Nat) (f : WsConnection → WsConnection) (bus : EventBus) : EventBus :=
  { bus with objects := bus.objects.modify i f }

/-- The first lines of every `subscribe`: a WebSocket without a connection
gets one, its consumer started. -/
def connect (ws : WsId) (bus : EventBus) : EventBus :=
  if bus.connections.has ws then bus
  else
    { bus with
      objects := bus.objects ++ [{ ws := ws }]
      connections := bus.connections.set ws bus.objects.length }

/-- `d.setdefault(key, set()).add(ws)`. -/
def addSubscriber (d : Dict String (List WsId)) (key : String) (ws : WsId) :
    Dict String (List WsId) :=
  d.set key (((d.get? key).getD []).insert ws)

/-- `ids.discard(ws)` in every set. -/
def discardAll (d : Dict String (List WsId)) (ws : WsId) : Dict String (List WsId) :=
  d.mapValues (fun _ ids => ids.filter (· ≠ ws))

def dropEmpty (d : Dict String (List WsId)) : Dict String (List WsId) :=
  d.filter (fun entry => entry.2 ≠ [])

def subscribe (channel : String) (ws : WsId) (bus : EventBus) : EventBus :=
  let bus := bus.connect ws
  { bus with channelSubscribers := addSubscriber bus.channelSubscribers channel ws }

def subscribeSession (sessionId : String) (ws : WsId) (bus : EventBus) : EventBus :=
  let bus := bus.connect ws
  { bus with sessionSubscribers := addSubscriber bus.sessionSubscribers sessionId ws }

def subscribeRoundtable (roundtableId : String) (ws : WsId) (bus : EventBus) : EventBus :=
  let bus := bus.connect ws
  { bus with roundtableSubscribers := addSubscriber bus.roundtableSubscribers roundtableId ws }

/-- `cancel_consumer`; a consumer does not cancel itself. -/
def cancelConsumer (current : Option Nat) (i : Nat) (bus : EventBus) : EventBus :=
  if current = some i then bus
  else bus.modifyObject i (fun c =>
    { c with cancelRequested := c.cancelRequested || c.consumer ≠ .stopped })

def popConnection (current : Option Nat) (ws : WsId) (bus : EventBus) : EventBus :=
  match bus.connections.get? ws with
  | none => bus
  | some i =>
    { bus with connections := bus.connections.filter (fun entry => entry.1 ≠ ws) }.cancelConsumer
      current i

def removeDeadWs (ws : WsId) (bus : EventBus) : EventBus :=
  { bus with
    channelSubscribers := discardAll bus.channelSubscribers ws
    sessionSubscribers := dropEmpty (discardAll bus.sessionSubscribers ws)
    roundtableSubscribers := dropEmpty (discardAll bus.roundtableSubscribers ws) }

/-- `_drop_connection`, called by the consumer `current` or by a producer. -/
def dropConnection (current : Option Nat) (ws : WsId) (bus : EventBus) : EventBus :=
  (bus.popConnection current ws).removeDeadWs ws

def referenced (ws : WsId) (bus : EventBus) : Bool :=
  bus.channelSubscribers.any (fun entry => ws ∈ entry.2) ||
    bus.roundtableSubscribers.any (fun entry => ws ∈ entry.2) ||
    bus.sessionSubscribers.any (fun entry => ws ∈ entry.2)

def maybeCleanupConnection (ws : WsId) (bus : EventBus) : EventBus :=
  if bus.referenced ws then bus else bus.popConnection none ws

def unsubscribe (channel : String) (ws : WsId) (bus : EventBus) : EventBus :=
  let discarded := ((bus.channelSubscribers.get? channel).getD []).filter (· ≠ ws)
  { bus with
    channelSubscribers :=
      if bus.channelSubscribers.has channel then bus.channelSubscribers.set channel discarded
      else bus.channelSubscribers
    sessionSubscribers := dropEmpty (discardAll bus.sessionSubscribers ws)
    roundtableSubscribers :=
      dropEmpty (discardAll bus.roundtableSubscribers ws) }.maybeCleanupConnection ws

def unsubscribeSession (sessionId : String) (ws : WsId) (bus : EventBus) : EventBus :=
  let subscribers :=
    match bus.sessionSubscribers.get? sessionId with
    | none => bus.sessionSubscribers
    | some ids =>
      let left := ids.filter (· ≠ ws)
      if left = [] then bus.sessionSubscribers.filter (fun entry => entry.1 ≠ sessionId)
      else bus.sessionSubscribers.set sessionId left
  { bus with sessionSubscribers := subscribers }.maybeCleanupConnection ws

/-- A message for the connection object `i` of a WebSocket: `enqueue`, and
the connection is dropped when it refuses. -/
def offer (limits : Limits) (message eventType : String) (ws : WsId) (i : Nat)
    (bus : EventBus) : EventBus :=
  match bus.objects[i]? with
  | none => bus
  | some c =>
    let answer := c.enqueue limits message eventType
    let bus := { bus with objects := bus.objects.set i answer.1 }
    if answer.2 = false ∧ answer.1.unhealthy = true then bus.dropConnection none ws else bus

/-- `enqueue_to_ws`: to a WebSocket without a connection nothing is sent. -/
def enqueueToWs (limits : Limits) (message eventType : String) (ws : WsId) (bus : EventBus) :
    EventBus :=
  match bus.connections.get? ws with
  | none => bus
  | some i => bus.offer limits message eventType ws i

def enqueueToConnections (limits : Limits) (message eventType : String) (ids : List WsId)
    (bus : EventBus) : EventBus :=
  ids.foldl (fun bus ws =>
    match bus.connections.get? ws with
    | none => bus.removeDeadWs ws
    | some i => bus.offer limits message eventType ws i) bus

def subscribersOf (d : Dict String (List WsId)) (key : String) : List WsId := (d.get? key).getD []

def chatRecipients (sessionId roundtableId : String) (bus : EventBus) : List WsId :=
  let observers := subscribersOf bus.channelSubscribers "chat"
  let ofSession :=
    if sessionId = "" then [] else subscribersOf bus.sessionSubscribers sessionId
  let ofRoundtable :=
    if roundtableId = "" then [] else subscribersOf bus.roundtableSubscribers roundtableId
  (observers ++ ofSession ++ ofRoundtable).dedup

/-! ## Runs -/

/-- What happens to the bus. -/
inductive Event where
  | subscribe (channel : String) (ws : WsId)
  | subscribeSession (sessionId : String) (ws : WsId)
  | subscribeRoundtable (roundtableId : String) (ws : WsId)
  | unsubscribe (channel : String) (ws : WsId)
  | unsubscribeSession (sessionId : String) (ws : WsId)
  /-- `emit`, the event as its serialised message and its type. -/
  | emit (channel message eventType : String)
  | emitChat (sessionId roundtableId message eventType : String)
  /-- `enqueue_to_ws`. -/
  | control (ws : WsId) (message eventType : String)
  /-- The consumer of an object runs up to its next wait. -/
  | consume (i : Nat)
  /-- `send_text` returns. -/
  | sent (i : Nat)
  /-- `send_text` raises or times out. -/
  | sendFails (i : Nat)
  /-- A requested cancellation reaches the consumer. -/
  | cancelled (i : Nat)
  deriving DecidableEq

/-- One event; `none` when it cannot happen.  A consumer that is to be
cancelled may first come round once more: the wait for `send_text` can return
before the cancellation is delivered. -/
def step (limits : Limits) (bus : EventBus) : Event → Option EventBus
  | .subscribe channel ws => some (bus.subscribe channel ws)
  | .subscribeSession sessionId ws => some (bus.subscribeSession sessionId ws)
  | .subscribeRoundtable roundtableId ws => some (bus.subscribeRoundtable roundtableId ws)
  | .unsubscribe channel ws => some (bus.unsubscribe channel ws)
  | .unsubscribeSession sessionId ws => some (bus.unsubscribeSession sessionId ws)
  | .emit channel message eventType =>
    some (bus.enqueueToConnections limits message eventType
      (subscribersOf bus.channelSubscribers channel))
  | .emitChat sessionId roundtableId message eventType =>
    some (bus.enqueueToConnections limits message eventType
      (bus.chatRecipients sessionId roundtableId))
  | .control ws message eventType => some (bus.enqueueToWs limits message eventType ws)
  | .consume i =>
    (bus.objects[i]?).bind fun c =>
      c.consume.map fun c' => { bus with objects := bus.objects.set i c' }
  | .sent i =>
    (bus.objects[i]?).bind fun c =>
      if c.consumer = .sending then
        some (bus.modifyObject i (fun c => { c with consumer := .ready }))
      else none
  | .sendFails i =>
    (bus.objects[i]?).bind fun c =>
      if c.consumer = .sending then
        some ((bus.modifyObject i (fun c =>
          { c with consumer := .stopped, unhealthy := true })).dropConnection (some i) c.ws)
      else none
  | .cancelled i =>
    (bus.objects[i]?).bind fun c =>
      if c.cancelRequested = true ∧ c.consumer ≠ .stopped then
        some (bus.modifyObject i (fun c => { c with consumer := .stopped }))
      else none

/-! ## What every step keeps -/

end EventBus

namespace WsConnection

open EventBus

def pending (c : WsConnection) : List String := c.queue ++ c.overflow.map (·.1)

/-- Nothing was refused yet. -/
structure Whole (c : WsConnection) : Prop where
  offers : c.offers = (c.handed ++ c.pending).map (·, true)
  healthy : c.unhealthy = false

def Closed (c : WsConnection) : Prop :=
  ∃ refused : List String, refused.length ≤ 1 ∧
    c.offers = (c.handed ++ c.pending).map (·, true) ++ refused.map (·, false)

variable {c : WsConnection}

lemma Whole.closed (h : c.Whole) : c.Closed :=
  ⟨[], Nat.zero_le _, by rw [h.offers, map_nil, append_nil]⟩

lemma Whole.enqueue (h : c.Whole) (limits : Limits) (message eventType : String) :
    ((c.enqueue limits message eventType).2 = true ∧ (c.enqueue limits message eventType).1.Whole) ∨
      ((c.enqueue limits message eventType).2 = false ∧
        (c.enqueue limits message eventType).1.unhealthy = true ∧
        (c.enqueue limits message eventType).1.Closed) := by
  have hoverflowed : (c.overflowed message eventType).Whole := by
    refine ⟨?_, h.healthy⟩
    simp [overflowed, pending, h.offers]
  have hrefused : (c.refuse message).unhealthy = true ∧ (c.refuse message).Closed := by
    refine ⟨rfl, [message], Nat.le_refl 1, ?_⟩
    simp [refuse, pending, h.offers]
  unfold WsConnection.enqueue
  split
  · split
    · exact .inr ⟨rfl, hrefused⟩
    exact .inl ⟨rfl, hoverflowed⟩
  rename_i hempty
  split
  · -- the overflow is empty, so the end of the queue is the end of all
    refine .inl ⟨rfl, ?_, h.healthy⟩
    have hnone : c.overflow = [] := by simpa using hempty
    simp [queued, pending, h.offers, hnone]
  split
  · exact .inl ⟨rfl, hoverflowed⟩
  exact .inr ⟨rfl, hrefused⟩

lemma handed_consume {c' : WsConnection} (h : c.consume = some c') :
    c'.handed ++ c'.pending = c.handed ++ c.pending ∧ c'.offers = c.offers ∧
      c'.unhealthy = c.unhealthy ∧ c'.ws = c.ws := by
  have hget : (c.getFromQueue).handed ++ (c.getFromQueue).pending = c.handed ++ c.pending ∧
      (c.getFromQueue).offers = c.offers ∧ (c.getFromQueue).unhealthy = c.unhealthy ∧
      (c.getFromQueue).ws = c.ws := by
    unfold getFromQueue
    split
    · exact ⟨rfl, rfl, rfl, rfl⟩
    rename_i message rest hqueue
    refine ⟨?_, rfl, rfl, rfl⟩
    simp [handOver, pending, hqueue]
  unfold consume at h
  split at h
  · split at h
    · rename_i message eventType rest hqueue hoverflow
      obtain rfl := some.inj h
      refine ⟨?_, rfl, rfl, rfl⟩
      simp [handOver, pending, hqueue, hoverflow]
    obtain rfl := some.inj h
    exact hget
  · split at h
    · cases h
    obtain rfl := some.inj h
    exact hget
  cases h

end WsConnection

namespace EventBus

open WsConnection

def Registered (bus : EventBus) (i : Nat) (c : WsConnection) : Prop :=
  bus.connections.get? c.ws = some i

/-- **The invariant**: a registered connection has refused nothing, another
one at most the last message it was offered.  While a connection is being
dropped its WebSocket is `skipped`. -/
structure Sound (skipped : Option WsId) (bus : EventBus) : Prop where
  closed : ∀ (i : Nat) (c : WsConnection), bus.objects[i]? = some c → c.Closed
  whole : ∀ (i : Nat) (c : WsConnection), bus.objects[i]? = some c → bus.Registered i c →
    some c.ws ≠ skipped → c.Whole
  table : ∀ ws i, bus.connections.get? ws = some i → ∃ c, bus.objects[i]? = some c ∧ c.ws = ws

lemma sound_empty : Sound none {} where
  closed := by
    intro i c h
    simp at h
  whole := by
    intro i c h
    simp at h
  table := by
    intro _ i h
    cases h

section
variable {skipped : Option WsId} {bus : EventBus} {bus' : EventBus} {c c' : WsConnection} {i : Nat}

lemma Sound.congr (h : Sound skipped bus) (hobjects : bus'.objects = bus.objects)
    (hconnections : bus'.connections = bus.connections) : Sound skipped bus' where
  closed := by
    intro i c hi
    rw [hobjects] at hi
    exact h.closed i c hi
  whole := by
    intro i c hi hreg
    rw [hobjects] at hi
    unfold Registered at hreg
    rw [hconnections] at hreg
    exact h.whole i c hi hreg
  table := by
    intro ws i hi
    rw [hconnections] at hi
    rw [hobjects]
    exact h.table ws i hi

lemma Sound.set {skipped' : Option WsId} (h : Sound skipped bus) (hi : bus.objects[i]? = some c)
    (hws : c'.ws = c.ws) (hclosed : c'.Closed)
    (hwhole : bus.Registered i c → some c.ws ≠ skipped' → c'.Whole)
    (hskip : skipped' = skipped ∨ skipped' = some c.ws ∧ skipped = none) :
    Sound skipped' { bus with objects := bus.objects.set i c' } where
  closed := by
    intro j d hj
    rcases eq_or_ne i j with rfl | hne
    · obtain ⟨hlt, -⟩ := List.getElem?_eq_some_iff.1 hi
      rw [getElem?_set_self hlt, some.injEq] at hj
      exact hj ▸ hclosed
    rw [getElem?_set_ne hne] at hj
    exact h.closed j d hj
  whole := by
    intro j d hj hreg hnot
    rcases eq_or_ne i j with rfl | hne
    · obtain ⟨hlt, -⟩ := List.getElem?_eq_some_iff.1 hi
      rw [getElem?_set_self hlt, some.injEq] at hj
      subst hj
      rw [hws] at hnot
      unfold Registered at hreg
      rw [hws] at hreg
      exact hwhole hreg hnot
    rw [getElem?_set_ne hne] at hj
    refine h.whole j d hj hreg ?_
    rcases hskip with rfl | ⟨-, rfl⟩
    · exact hnot
    exact some_ne_none _
  table := by
    intro ws j hj
    obtain ⟨d, hd, hdws⟩ := h.table ws j hj
    rcases eq_or_ne i j with rfl | hne
    · obtain ⟨hlt, -⟩ := List.getElem?_eq_some_iff.1 hi
      refine ⟨c', getElem?_set_self hlt, ?_⟩
      rw [hi, some.injEq] at hd
      rw [hws, hd, hdws]
    exact ⟨d, by rw [getElem?_set_ne hne]; exact hd, hdws⟩

lemma modifyObject_of_none (f : WsConnection → WsConnection) (hi : bus.objects[i]? = none) :
    bus.modifyObject i f = bus := by
  unfold EventBus.modifyObject
  rw [modify_eq_self (getElem?_eq_none_iff.1 hi)]

lemma modifyObject_of_some (f : WsConnection → WsConnection) (hi : bus.objects[i]? = some c) :
    bus.modifyObject i f = { bus with objects := bus.objects.set i (f c) } := by
  obtain ⟨hlt, rfl⟩ := List.getElem?_eq_some_iff.1 hi
  unfold EventBus.modifyObject
  rw [modify_eq_set_get f hlt]
  rfl

lemma Sound.modifyConsumer (h : Sound skipped bus) (i : Nat) (f : WsConnection → WsConnection)
    (hf : ∀ c, ∃ consumer requested,
      f c = { c with consumer := consumer, cancelRequested := requested }) :
    Sound skipped (bus.modifyObject i f) := by
  rcases hi : bus.objects[i]? with _ | c
  · rw [modifyObject_of_none f hi]
    exact h
  rw [modifyObject_of_some f hi]
  obtain ⟨consumer, requested, hc⟩ := hf c
  rw [hc]
  exact h.set hi rfl (h.closed i c hi)
    (fun hreg hnot => ⟨(h.whole i c hi hreg hnot).offers, (h.whole i c hi hreg hnot).healthy⟩)
    (.inl rfl)

lemma Sound.cancelConsumer (h : Sound skipped bus) (current : Option Nat) (i : Nat) :
    Sound skipped (bus.cancelConsumer current i) := by
  unfold EventBus.cancelConsumer
  split
  · exact h
  exact h.modifyConsumer i _ (fun c => ⟨c.consumer, _, rfl⟩)

lemma Sound.unregister (h : Sound skipped bus) (ws : WsId)
    (hskip : skipped = none ∨ skipped = some ws) : Sound none
      { bus with connections := bus.connections.filter (fun entry => entry.1 ≠ ws) } where
  closed := h.closed
  whole := by
    intro i c hi hreg _
    -- what is still registered belongs to another WebSocket
    have hfilter := Dict.get?_filter_keys bus.connections (fun key => decide (key ≠ ws)) c.ws
    have hne : c.ws ≠ ws := by
      rintro heq
      rw [heq] at hfilter
      simp only [ne_eq, not_true_eq_false, decide_false, Bool.false_eq_true, if_false] at hfilter
      unfold Registered at hreg
      rw [heq] at hreg
      have hnone := hfilter.symm.trans hreg
      cases hnone
    have hreg' : bus.Registered i c := by
      rw [if_pos (decide_eq_true hne)] at hfilter
      exact hfilter.symm.trans hreg
    refine h.whole i c hi hreg' ?_
    rcases hskip with rfl | rfl
    · exact some_ne_none _
    exact fun heq => hne (some.inj heq)
  table := by
    intro key i hi
    have hfilter := Dict.get?_filter_keys bus.connections (fun key => decide (key ≠ ws)) key
    by_cases hne : key ≠ ws
    · rw [if_pos (decide_eq_true hne)] at hfilter
      exact h.table key i (hfilter.symm.trans hi)
    rw [if_neg (by simpa using hne)] at hfilter
    have hnone := hfilter.symm.trans hi
    cases hnone

lemma Sound.popConnection (h : Sound skipped bus) (current : Option Nat) (ws : WsId)
    (hskip : skipped = none ∨ skipped = some ws) : Sound none (bus.popConnection current ws) := by
  unfold EventBus.popConnection
  split
  · rename_i hnone
    -- a WebSocket without a connection owes nothing
    refine ⟨h.closed, fun i c hi hreg _ => h.whole i c hi hreg ?_, h.table⟩
    rcases hskip with rfl | rfl
    · exact some_ne_none _
    intro heq
    obtain rfl := some.inj heq
    exact nomatch hnone.symm.trans hreg
  exact (h.unregister ws hskip).cancelConsumer current _

lemma Sound.dropConnection (h : Sound skipped bus) (current : Option Nat) (ws : WsId)
    (hskip : skipped = none ∨ skipped = some ws) : Sound none (bus.dropConnection current ws) :=
  (h.popConnection current ws hskip).congr rfl rfl

lemma Sound.maybeCleanup (h : Sound none bus) (ws : WsId) :
    Sound none (bus.maybeCleanupConnection ws) := by
  unfold maybeCleanupConnection
  split
  · exact h
  exact h.popConnection none ws (.inl rfl)

lemma Sound.connect (h : Sound none bus) (ws : WsId) : Sound none (bus.connect ws) := by
  have hnew : ({ ws := ws } : WsConnection).Whole := ⟨rfl, rfl⟩
  unfold EventBus.connect
  split
  · exact h
  refine ⟨?_, ?_, ?_⟩
  · intro i c hi
    rw [getElem?_append] at hi
    split at hi
    · exact h.closed i c hi
    rw [getElem?_singleton] at hi
    split at hi
    · exact some.inj hi ▸ hnew.closed
    cases hi
  · intro i c hi hreg _
    rw [getElem?_append] at hi
    split at hi
    · rename_i hlt
      refine h.whole i c hi ?_ (some_ne_none _)
      -- an older object is registered only under another WebSocket
      have hget : (bus.connections.set ws bus.objects.length).get? c.ws = some i := hreg
      rw [Dict.get?_set] at hget
      split at hget
      · exact absurd (some.inj hget) (by omega)
      exact hget
    rw [getElem?_singleton] at hi
    split at hi
    · exact some.inj hi ▸ hnew
    cases hi
  intro key i hi
  have hget : (bus.connections.set ws bus.objects.length).get? key = some i := hi
  rw [Dict.get?_set] at hget
  split at hget
  · rename_i heq
    obtain rfl := some.inj hget
    exact ⟨{ ws := ws }, by simp, heq⟩
  obtain ⟨c, hc, hcws⟩ := h.table key i hget
  refine ⟨c, ?_, hcws⟩
  obtain ⟨hlt, -⟩ := List.getElem?_eq_some_iff.1 hc
  exact (getElem?_append_left hlt).trans hc

lemma Sound.offer (h : Sound none bus) (limits : Limits) (message eventType : String) {ws : WsId}
    (hreg : bus.connections.get? ws = some i) :
    Sound none (bus.offer limits message eventType ws i) := by
  obtain ⟨c, hi, rfl⟩ := h.table ws i hreg
  have hwhole := h.whole i c hi hreg (some_ne_none _)
  have hws : (c.enqueue limits message eventType).1.ws = c.ws := by
    unfold enqueue
    split <;> split
    · rfl
    · rfl
    · rfl
    split <;> rfl
  unfold EventBus.offer
  rw [hi]
  dsimp only
  rcases hwhole.enqueue limits message eventType with ⟨htaken, hnext⟩ | ⟨hrefused, hsick, hlast⟩
  · rw [if_neg (by rw [htaken]; exact fun hand => Bool.noConfusion hand.1)]
    exact h.set hi hws hnext.closed (fun _ _ => hnext) (.inl rfl)
  rw [if_pos ⟨hrefused, hsick⟩]
  have hskipped : Sound (some c.ws)
      { bus with objects := bus.objects.set i (c.enqueue limits message eventType).1 } :=
    h.set hi hws hlast (fun _ hnot => absurd rfl hnot) (.inr ⟨rfl, rfl⟩)
  exact hskipped.dropConnection none c.ws (.inr rfl)

lemma Sound.enqueueToWs (h : Sound none bus) (limits : Limits) (message eventType : String)
    (ws : WsId) : Sound none (bus.enqueueToWs limits message eventType ws) := by
  unfold EventBus.enqueueToWs
  split
  · exact h
  rename_i i hreg
  exact h.offer limits message eventType hreg

lemma Sound.enqueueToConnections (h : Sound none bus) (limits : Limits)
    (message eventType : String) (ids : List WsId) :
    Sound none (bus.enqueueToConnections limits message eventType ids) := by
  unfold EventBus.enqueueToConnections
  induction ids generalizing bus with
  | nil => exact h
  | cons ws rest ih =>
    rw [foldl_cons]
    refine ih ?_
    split
    · exact h.congr rfl rfl
    rename_i i hreg
    exact h.offer limits message eventType hreg

lemma Sound.consume (h : Sound none bus) (hi : bus.objects[i]? = some c)
    (hstep : c.consume = some c') : Sound none { bus with objects :=bus.objects.set i c' } := by
  obtain ⟨hmessages, hoffers, hhealth, hws⟩ := handed_consume hstep
  refine h.set hi hws ?_ ?_ (.inl rfl)
  · obtain ⟨refused, hlen, hrefused⟩ := h.closed i c hi
    exact ⟨refused, hlen, by rw [hoffers, hrefused, hmessages]⟩
  intro hreg hnot
  have hwhole := h.whole i c hi hreg hnot
  exact ⟨by rw [hoffers, hwhole.offers, hmessages], hhealth.trans hwhole.healthy⟩

lemma Sound.sendFails (h : Sound none bus) (hi : bus.objects[i]? = some c) :
    Sound none ((bus.modifyObject i (fun c =>
      { c with consumer := .stopped, unhealthy := true })).dropConnection (some i) c.ws) := by
  have hskipped : Sound (some c.ws) (bus.modifyObject i (fun c =>
      { c with consumer := .stopped, unhealthy := true })) := by
    rw [modifyObject_of_some _ hi]
    exact h.set hi rfl (h.closed i c hi) (fun _ hnot => absurd rfl hnot) (.inr ⟨rfl, rfl⟩)
  exact hskipped.dropConnection (some i) c.ws (.inr rfl)

lemma Sound.step (h : Sound none bus) (limits : Limits) {e : Event}
    (hstep : bus.step limits e = some bus') : Sound none bus' := by
  cases e with
  | subscribe channel ws =>
    obtain rfl := some.inj hstep
    exact (h.connect ws).congr rfl rfl
  | subscribeSession sessionId ws =>
    obtain rfl := some.inj hstep
    exact (h.connect ws).congr rfl rfl
  | subscribeRoundtable roundtableId ws =>
    obtain rfl := some.inj hstep
    exact (h.connect ws).congr rfl rfl
  | unsubscribe channel ws =>
    obtain rfl := some.inj hstep
    refine Sound.maybeCleanup ?_ ws
    exact h.congr rfl rfl
  | unsubscribeSession sessionId ws =>
    obtain rfl := some.inj hstep
    refine Sound.maybeCleanup ?_ ws
    exact h.congr rfl rfl
  | emit channel message eventType =>
    obtain rfl := some.inj hstep
    exact h.enqueueToConnections limits message eventType _
  | emitChat sessionId roundtableId message eventType =>
    obtain rfl := some.inj hstep
    exact h.enqueueToConnections limits message eventType _
  | control ws message eventType =>
    obtain rfl := some.inj hstep
    exact h.enqueueToWs limits message eventType ws
  | consume =>
    obtain ⟨c, hi, hrest⟩ := bind_eq_some_iff.1 hstep
    obtain ⟨_, hconsume, rfl⟩ := map_eq_some_iff.1 hrest
    exact h.consume hi hconsume
  | sent i =>
    obtain ⟨c, hi, hrest⟩ := bind_eq_some_iff.1 hstep
    split at hrest
    · obtain rfl := some.inj hrest
      exact h.modifyConsumer i _ (fun c => ⟨.ready, c.cancelRequested, rfl⟩)
    cases hrest
  | sendFails =>
    obtain ⟨c, hi, hrest⟩ := bind_eq_some_iff.1 hstep
    split at hrest
    · obtain rfl := some.inj hrest
      exact h.sendFails hi
    cases hrest
  | cancelled i =>
    obtain ⟨c, hi, hrest⟩ := bind_eq_some_iff.1 hstep
    split at hrest
    · obtain rfl := some.inj hrest
      exact h.modifyConsumer i _ (fun c => ⟨.stopped, c.cancelRequested, rfl⟩)
    cases hrest

end

/-! ## Every run -/

/-- **No connection has a gap**: what it handed over is a prefix of what it
was offered, a refused message is the last it was offered, and neither a
connection that refused one nor one whose sending failed is registered. -/
structure NoGap (bus : EventBus) : Prop where
  inOrder : ∀ c ∈ bus.objects, c.handed <+: c.offers.map (·.1)
  refusedLast : ∀ (i : Nat) (c : WsConnection) (k : Nat) (message : String),
    bus.objects[i]? = some c → c.offers[k]? = some (message, false) →
      k + 1 = c.offers.length ∧ ¬ bus.Registered i c
  unhealthyRemoved : ∀ (i : Nat) (c : WsConnection), bus.objects[i]? = some c →
    c.unhealthy = true → ¬ bus.Registered i c

lemma Sound.noGap {bus : EventBus} (h : Sound none bus) : bus.NoGap where
  inOrder := by
    intro c hc
    obtain ⟨i, hi⟩ := mem_iff_getElem?.1 hc
    obtain ⟨refused, -, hoffers⟩ := h.closed i c hi
    have hmap : c.offers.map (·.1) = c.handed ++ (c.pending ++ refused) := by
      rw [hoffers]
      simp [Function.comp_def]
    rw [hmap]
    exact prefix_append _ _
  refusedLast := by
    intro i c k _ hi hk
    obtain ⟨refused, _, hoffers⟩ := h.closed i c hi
    -- an entry with the answer `False` lies behind the accepted ones
    have hbehind : ((c.handed ++ c.pending).map (·, true)).length ≤ k := by
      by_contra hlt
      rw [hoffers, getElem?_append_left (by omega), getElem?_map] at hk
      obtain ⟨m, -, hm⟩ := map_eq_some_iff.1 hk
      exact Bool.noConfusion (congrArg Prod.snd hm)
    obtain ⟨hlt, -⟩ := List.getElem?_eq_some_iff.1 hk
    have hlength : c.offers.length = ((c.handed ++ c.pending).map (·, true)).length +
        refused.length := by
      rw [hoffers, length_append, length_map (fun m => (m, false))]
    refine ⟨by omega, fun hreg => ?_⟩
    -- and a registered connection has none
    have hwhole := h.whole i c hi hreg (some_ne_none _)
    rw [hwhole.offers] at hlt
    omega
  unhealthyRemoved := by
    intro i c hi hsick hreg
    have hwhole := h.whole i c hi hreg (some_ne_none _)
    exact absurd (hsick.symm.trans hwhole.healthy) (by decide)

end EventBus
end DeterminFlow.Web
