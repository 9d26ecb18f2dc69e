/-
  Web.ChatStream
  **THE SERVER'S DRAFT OF A GENERATION.**

  For every session the event bus keeps a revision number and, while a
  generation runs, a draft of what it has streamed so far.  `emit_chat` gives
  each event of the stream the next revision and folds it into the draft; a
  client that connects gets the draft in its snapshot.  Clearing a session
  forgets both.
-/
import DeterminFlow.Library.Dict

namespace DeterminFlow.Web

open Library

/-! ## What is sent -/

/-- What the protocol carries without looking into it, and the functions that
prepare it. -/
structure Payloads where
  /-- A message of `AgentSession.record`. -/
  Message : Type
  /-- The same, ready for the browser to show. -/
  NormalizedMessage : Type
  TokenUsage : Type
  FailedTurn : Type
  /-- The JSON object a tool is called with. -/
  Arguments : Type
  /-- `is_visible_to_frontend`. -/
  visible : Message → Bool
  normalizeMessages : List Message → List NormalizedMessage
  /-- `json.dumps(args, ensure_ascii=False)`. -/
  dumps : Arguments → String
  /-- `JSON.stringify(args)`. -/
  stringify : Arguments → String

inductive ToolStatus where
  | building
  | running
  | completed
  | failed
  | cancelled
  deriving DecidableEq

/-- How a tool ended: the three texts that `_finish_tool_run` is given, which
both sides read alike. -/
inductive ToolOutcome where
  | completed
  | failed
  | cancelled
  deriving DecidableEq

def ToolOutcome.status : ToolOutcome → ToolStatus
  | .completed => .completed
  | .failed => .failed
  | .cancelled => .cancelled

/-- A segment of a stream, over the tool records of one side. -/
inductive Segment (τ : Type) where
  | text (content : String)
  | reasoning (content : String)
  | tool (tool : τ)
  deriving DecidableEq

def Segment.tool? {τ : Type} : Segment τ → Option τ
  | .tool t => some t
  | _ => none

/-- A tool record of the server's draft. -/
structure ToolDraft where
  id : Option String := none
  runId : String
  index : Int
  name : String
  args : String
  status : ToolStatus
  result : Option String := none
  deriving DecidableEq

/-- What `get_active_stream` returns. -/
structure ActiveStream where
  generationId : String
  revision : Nat
  baselineRecordLength : Option Nat
  segments : List (Segment ToolDraft)
  deriving DecidableEq

structure Snapshot (P : Payloads) where
  messages : List P.Message
  status : String
  revision : Nat
  activeStream : Option ActiveStream
  tokenUsage : Option P.TokenUsage := none
  error : Option String := none
  /-- `last_error["message"]`. -/
  lastError : Option String := none
  failedTurn : Option P.FailedTurn := none

/-- A chat event of one session, as it is handed to `emit_chat`. -/
inductive ChatEvent (P : Payloads) where
  /-- `generationId` is the event's own or the new `uuid4().hex`. -/
  | streamStart (generationId : String) (baselineRecordLength : Option Nat)
  | token (content : Option String)
  | reasoningToken (content : Option String)
  | toolCallDelta (index : Int) (id name argsDelta : Option String)
  | toolStart (index : Int) (runId name : String) (args : P.Arguments)
  | toolEnd (runId name result : String) (outcome : ToolOutcome)
  | streamEnd
  | llmUsage (data : P.TokenUsage)
  | chainEnd (messages : List P.Message) (tokenUsage : Option P.TokenUsage)
  | error (message : String) (terminal : Bool) (sessionStatus : Option String)
      (messages : Option (List P.Message)) (failedTurn : Option P.FailedTurn)
  | snapshot (snapshot : Snapshot P)

/-- An event with what `_apply_chat_event` wrote on it. -/
structure WireEvent (P : Payloads) where
  event : ChatEvent P
  revision : Option Nat := none
  generationId : Option String := none

/-! ## The draft -/

def truthy : Option String → Option String
  | some "" => none
  | t => t

/-- `text or ""`. -/
def orEmpty (t : Option String) : String := t.getD ""

/-- `a and b and a != b`. -/
def differ (a b : Option String) : Bool :=
  match truthy a, truthy b with
  | some x, some y => x ≠ y
  | _, _ => false

def lastIndexWith {α : Type} (p : α → Bool) : List α → Option Nat
  | [] => none
  | a :: rest =>
    match lastIndexWith p rest with
    | some i => some (i + 1)
    | none => if p a then some 0 else none

/-- An entry of `_active_streams`. -/
structure Stream where
  generationId : String
  revision : Nat
  baselineRecordLength : Option Nat
  segments : List (Segment ToolDraft) := []
  /-- From the index of a tool call to the position of its segment. -/
  toolIndices : Dict Int Nat := []
  deriving DecidableEq

namespace Stream

def appendContent {τ : Type} (reasoning : Bool) (content : String)
    (segments : List (Segment τ)) : List (Segment τ) :=
  -- only the last segment counts: a tool in between begins a new text
  match segments.getLast?, reasoning with
  | some (.text shown), false => segments.dropLast ++ [.text (shown ++ content)]
  | some (.reasoning shown), true => segments.dropLast ++ [.reasoning (shown ++ content)]
  | _, false => segments ++ [.text content]
  | _, true => segments ++ [.reasoning content]

/-- `token` and `reasoning_token`. -/
def onContent (reasoning : Bool) (content : Option String) (d : Stream) : Stream :=
  -- `if content:` leaves out the empty text too
  if orEmpty content = "" then d
  else { d with segments := appendContent reasoning (orEmpty content) d.segments }

def slot (d : Stream) (index : Int) : Option (Nat × ToolDraft) :=
  (d.toolIndices.get? index).bind (fun position =>
    (d.segments[position]?.bind Segment.tool?).map (fun tool => (position, tool)))

def pushTool (index : Int) (tool : ToolDraft) (d : Stream) : Stream :=
  { d with
    segments := d.segments ++ [.tool tool]
    toolIndices := d.toolIndices.set index d.segments.length }

/-- `is_new_tool`. -/
def startsNewTool (id : Option String) (previous : ToolDraft) : Bool :=
  previous.status ≠ .building || differ id previous.id

def newTool (index : Int) (id name argsDelta : Option String) : ToolDraft :=
  { id := id
    runId := (truthy id).getD s!"delta_{index}"
    index := index
    name := orEmpty name
    args := orEmpty argsDelta
    status := .building }

def extendTool (id name argsDelta : Option String) (tool : ToolDraft) : ToolDraft :=
  { tool with
    id := (truthy id).orElse (fun _ => tool.id)
    runId := (truthy id).getD tool.runId
    name := (truthy name).getD tool.name
    args := tool.args ++ orEmpty argsDelta }

/-- `tool_call_delta`. -/
def onDelta (index : Int) (id name argsDelta : Option String) (d : Stream) : Stream :=
  match d.slot index with
  | some (position, tool) =>
    -- the index is used again: the older segment stays, without an index
    if startsNewTool id tool then d.pushTool index (newTool index id name argsDelta)
    else
      { d with segments := d.segments.set position (.tool (extendTool id name argsDelta tool)) }
  | none => d.pushTool index (newTool index id name argsDelta)

def startedTool (index : Int) (runId name args : String) : ToolDraft :=
  { runId := if runId = "" then s!"tool_{index}" else runId
    index := index
    name := name
    args := args
    status := .running }

/-- `tool_start`. -/
def onStart (index : Int) (runId name args : String) (d : Stream) : Stream :=
  let tool := startedTool index runId name args
  match d.slot index with
  | some (position, existing) =>
    -- whatever its status: a tool that has ended runs again in its place
    { d with
      segments := d.segments.set position (.tool { tool with id := truthy existing.id }) }
  | none => d.pushTool index tool

def hasRunId (runId : String) (segment : Segment ToolDraft) : Bool :=
  segment.tool?.any (fun tool => tool.runId = runId)

def finishTool (result : String) (outcome : ToolOutcome) (tool : ToolDraft) : ToolDraft :=
  { tool with result := some result, status := outcome.status }

/-- `tool_end`: the last segment with the run id. -/
def onEnd (runId result : String) (outcome : ToolOutcome) (d : Stream) : Stream :=
  match lastIndexWith (hasRunId runId) d.segments with
  | none => d
  | some position =>
    match d.segments[position]?.bind Segment.tool? with
    | none => d
    | some tool =>
      { d with
        segments := d.segments.set position (.tool (finishTool result outcome tool)) }

/-- `_update_stream_segments`. -/
def update {P : Payloads} (event : ChatEvent P) (d : Stream) : Stream :=
  match event with
  | .token content => d.onContent false content
  | .reasoningToken content => d.onContent true content
  | .toolCallDelta index id name argsDelta => d.onDelta index id name argsDelta
  | .toolStart index runId name args => d.onStart index runId name (P.dumps args)
  | .toolEnd runId _ result outcome => d.onEnd runId result outcome
  -- `stream_end`, `llm_usage` and the ends of the generation
  | _ => d

end Stream

/-! ## The session's stream on the bus -/

/-- `_session_revisions[session_id]` and `_active_streams[session_id]`. -/
structure SessionStream where
  revision : Option Nat := none
  active : Option Stream := none
  deriving DecidableEq

/-- In `_REVISIONED_CHAT_EVENT_TYPES`, and not an error that is marked as not
terminal. -/
def ChatEvent.revisioned {P : Payloads} : ChatEvent P → Bool
  | .error _ terminal _ _ _ => terminal
  | .snapshot _ => false
  | _ => true

def ChatEvent.endsGeneration {P : Payloads} : ChatEvent P → Bool
  | .chainEnd _ _ => true
  | .error _ terminal _ _ _ => terminal
  | _ => false

namespace SessionStream

def getSessionRevision (b : SessionStream) : Nat := b.revision.getD 0

def nextRevision (b : SessionStream) : Nat := b.getSessionRevision + 1

def getActiveStream (b : SessionStream) : Option ActiveStream :=
  b.active.map (fun d =>
    { generationId := d.generationId
      revision := d.revision
      baselineRecordLength := d.baselineRecordLength
      segments := d.segments })

def clearSession (_ : SessionStream) : SessionStream := {}

/-- `_apply_chat_event`: the stream after the event, and the event as it is
sent. -/
def applyChatEvent {P : Payloads} (event : ChatEvent P) (b : SessionStream) :
    SessionStream × WireEvent P :=
  if event.revisioned = false then (b, { event := event })
  else
    match event with
    | .streamStart generationId baseline =>
      -- a generation that is still active is replaced
      ({ revision := some b.nextRevision
         active := some
          { generationId := generationId
            revision := b.nextRevision
            baselineRecordLength := baseline } },
        { event := event, revision := some b.nextRevision, generationId := some generationId })
    | _ =>
      -- without an active stream the event has a revision and no generation
      let drafted := b.active.map (fun d => ({ d with revision := b.nextRevision }).update event)
      ({ revision := some b.nextRevision
         active := if event.endsGeneration then none else drafted },
        { event := event
          revision := some b.nextRevision
          generationId := b.active.map (·.generationId) })

end SessionStream

/-! ## Snapshots -/

/-- What a snapshot reads from a session. -/
structure SessionView (P : Payloads) where
  record : List P.Message
  status : String
  tokenUsage : Option P.TokenUsage := none
  /-- `last_error["message"]`. -/
  lastError : Option String := none
  failedTurn : Option P.FailedTurn := none

namespace SessionStream

variable {P : Payloads}

def buildSessionSnapshot (session : SessionView P) (b : SessionStream) : Snapshot P :=
  -- what the generation has written to the record since its start is in the draft
  let record :=
    match b.getActiveStream.bind (·.baselineRecordLength) with
    | some baseline => session.record.take baseline
    | none => session.record
  { messages := record.filter P.visible
    status := if session.status = "" then "running" else session.status
    revision := b.getSessionRevision
    activeStream := b.getActiveStream
    tokenUsage := session.tokenUsage
    lastError :=
      if session.status = "error" ∨ session.failedTurn.isSome then session.lastError else none
    failedTurn := session.failedTurn }

/-- `_build_unavailable_snapshot`, for a session id. -/
def unavailableSnapshot (sessionId : String) : Snapshot P :=
  { messages := []
    status := "error"
    revision := 0
    activeStream := none
    error := some s!"未找到会话 {sessionId}" }

/-- `_resolve_session_snapshot`, for a session id: a session that is not
there is cleared. -/
def resolveSessionSnapshot (sessionId : String) (session : Option (SessionView P))
    (b : SessionStream) : SessionStream × Snapshot P :=
  match session with
  | some view => (b, b.buildSessionSnapshot view)
  | none => (b.clearSession, unavailableSnapshot sessionId)

end SessionStream
end DeterminFlow.Web
