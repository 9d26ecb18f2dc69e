/-
  Web.Conversation
  **THE BROWSER'S VIEW OF A CONVERSATION.**

  The browser normalises each message of the socket to an event and folds the
  events into its own state.  It drops an event whose revision is not above
  the one it holds, asks for a new snapshot when a revision is missing, and
  keeps its own draft of the active generation.
-/
import DeterminFlow.Web.ChatStream

namespace DeterminFlow.Web

open Library

/-! ## The state -/

structure ToolCallState where
  id : Option String
  index : Option Nat
  runId : String
  name : String
  args : String
  status : ToolStatus
  result : Option String := none
  deriving DecidableEq

inductive ConversationPhase where
  | idle
  | loading
  | ready
  | streaming
  | reconnecting
  | error
  deriving DecidableEq

structure RevisionGap where
  expected : Nat
  received : Nat
  deriving DecidableEq

structure ConversationState (P : Payloads) where
  sessionId : Option String
  generationId : Option String := none
  revision : Option Nat := none
  status : Option String := none
  phase : ConversationPhase
  connected : Bool := false
  messages : List P.NormalizedMessage := []
  streamingSegments : List (Segment ToolCallState) := []
  isStreaming : Bool := false
  tokenUsage : Option P.TokenUsage := none
  needsResync : Bool := false
  syncIssue : Option RevisionGap := none
  error : Option String := none
  failedTurn : Option P.FailedTurn := none
  retryingFailureId : Option String := none
  /-- From the index of a tool call to the key of its segment. -/
  toolCallKeysByIndex : Dict Nat String := []

/-- `createConversationState`, for a session id. -/
def createConversationState (P : Payloads) (sessionId : String) : ConversationState P :=
  { sessionId := some sessionId
    phase := if sessionId = "" then .idle else .loading }

/-! ## Events -/

/-- The `activeStream` of a snapshot. -/
structure ClientStream where
  generationId : String
  revision : Option Nat
  segments : List (Segment ToolCallState)
  deriving DecidableEq

/-- The kinds of `ConversationServerEvent`, with the fields of each. -/
inductive EventKind (P : Payloads) where
  | snapshot (messages : List P.Message) (status : Option String)
      (activeStream : Option ClientStream) (tokenUsage : Option P.TokenUsage)
      (error : Option String) (failedTurn : Option P.FailedTurn) (legacy : Bool)
  | streamStart
  | textDelta (content : String)
  | reasoningDelta (content : String)
  | toolDelta (index : Nat) (callId name : Option String) (argumentsDelta : String)
  | toolStart (index : Option Nat) (runId name : String) (arguments : P.Arguments)
  | toolEnd (runId name result : String) (outcome : ToolOutcome)
  | chainEnd (messages : List P.Message) (tokenUsage : Option P.TokenUsage)
  | streamEnd
  | error (message : String) (terminal : Bool) (sessionStatus : Option String)
      (messages : Option (List P.Message)) (failedTurn : Option P.FailedTurn)
  | usage (tokenUsage : P.TokenUsage)

structure ConversationServerEvent (P : Payloads) where
  sessionId : String
  generationId : Option String
  revision : Option Nat
  kind : EventKind P

/-- `Number.MAX_SAFE_INTEGER`. -/
def maxSafeInteger : Nat := 9007199254740991

def asRevision (value : Option Nat) : Option Nat := value.filter (· ≤ maxSafeInteger)

def asIndex : Int → Option Nat
  | .ofNat n => if n ≤ maxSafeInteger then some n else none
  | .negSucc _ => none

def normalizeToolState (tool : ToolDraft) : Option ToolCallState :=
  if tool.runId = "" then none
  else
    some
      { id := tool.id
        index := asIndex tool.index
        runId := tool.runId
        name := tool.name
        args := tool.args
        status := tool.status
        result := tool.result }

/-- One segment of `normalizeSegments`. -/
def normalizeSegment : Segment ToolDraft → Option (Segment ToolCallState)
  | .text content => some (.text content)
  | .reasoning content => some (.reasoning content)
  | .tool tool => (normalizeToolState tool).map .tool

def normalizeSegments (segments : List (Segment ToolDraft)) : List (Segment ToolCallState) :=
  segments.filterMap normalizeSegment

/-- The `activeStream` of a normalised snapshot. -/
def normalizeActiveStream (stream : ActiveStream) : Option ClientStream :=
  if stream.generationId = "" then none
  else
    some
      { generationId := stream.generationId
        revision := asRevision (some stream.revision)
        segments := normalizeSegments stream.segments }

section
variable {P : Payloads}

/-- The kind of a normalised event; `none` for a message that is no
conversation event. -/
def normalizeKind : ChatEvent P → Option (EventKind P)
  | .streamStart _ _ => some .streamStart
  | .token content => content.map .textDelta
  | .reasoningToken content => content.map .reasoningDelta
  | .toolCallDelta index id name argsDelta =>
    -- an index below zero or a delta that is no text: the message is dropped
    match asIndex index, argsDelta with
    | some index, some argumentsDelta => some (.toolDelta index id name argumentsDelta)
    | _, _ => none
  | .toolStart index runId name args =>
    if runId = "" then none else some (.toolStart (asIndex index) runId name args)
  | .toolEnd runId name result outcome =>
    if runId = "" then none else some (.toolEnd runId name result outcome)
  | .streamEnd => some .streamEnd
  | .llmUsage data => some (.usage data)
  | .chainEnd messages tokenUsage => some (.chainEnd messages tokenUsage)
  | .error message terminal sessionStatus messages failedTurn =>
    some (.error message terminal sessionStatus messages failedTurn)
  | .snapshot s =>
    let error := (truthy s.error).orElse
      (fun _ => if s.status = "error" then s.lastError else none)
    some (.snapshot s.messages (some s.status) (s.activeStream.bind normalizeActiveStream)
      s.tokenUsage error s.failedTurn false)

def wireRevision (w : WireEvent P) : Option Nat :=
  match w.event with
  | .snapshot s => some s.revision
  | _ => w.revision

def wireGeneration (w : WireEvent P) : Option String :=
  match w.event with
  | .snapshot s => (s.activeStream.bind normalizeActiveStream).map (·.generationId)
  | _ => w.generationId

/-- `normalizeConversationEvent`, for messages of the session. -/
def normalizeConversationEvent (sessionId : String) (w : WireEvent P) :
    Option (ConversationServerEvent P) :=
  (normalizeKind w.event).map (fun kind =>
    { sessionId := sessionId
      generationId := wireGeneration w
      revision := asRevision (wireRevision w)
      kind := kind })

end

/-! ## The draft of the browser -/

def ToolCallState.hasKey (key : String) (tool : ToolCallState) : Bool :=
  tool.runId = key || tool.id = some key

/-- `!fallbackName || tool.name === fallbackName`. -/
def ToolCallState.nameFits (fallbackName : Option String) (tool : ToolCallState) : Bool :=
  (truthy fallbackName).all (fun name => tool.name = name)

/-- What `findToolSegmentIndex` looks for. -/
def toolMatches (key fallbackName : Option String) (segment : Segment ToolCallState) : Bool :=
  segment.tool?.any (fun tool =>
    match truthy key with
    | some k => tool.hasKey k
    | none => tool.status = .building && tool.nameFits fallbackName)

def findToolSegmentIndex (segments : List (Segment ToolCallState))
    (key fallbackName : Option String) : Option Nat :=
  lastIndexWith (toolMatches key fallbackName) segments

def toolAt (segments : List (Segment ToolCallState)) (position : Nat) : Option ToolCallState :=
  segments[position]?.bind Segment.tool?

def startsNewCall (callId name : Option String) (existing : ToolCallState) : Bool :=
  differ callId existing.id || differ name (some existing.name) || existing.status ≠ .building

section
variable {P : Payloads}

namespace ConversationState

/-- `toolCallKeysByIndex[index] || null`. -/
def slotKey (s : ConversationState P) (index : Nat) : Option String :=
  truthy (s.toolCallKeysByIndex.get? index)

def deltaTarget (s : ConversationState P) (index : Nat) (callId name : Option String) :
    Option Nat :=
  let slotKey := s.slotKey index
  -- `event.callId || slotKey`
  let byKey := findToolSegmentIndex s.streamingSegments ((truthy callId).orElse (fun _ => slotKey))
    none
  let bySlot :=
    match byKey, truthy callId, slotKey with
    | none, some _, some key => findToolSegmentIndex s.streamingSegments (some key) none
    | found, _, _ => found
  -- without an id any call that is still being built will do
  match bySlot, truthy callId with
  | none, none => findToolSegmentIndex s.streamingSegments none name
  | found, _ => found

def pendingKey (generationId : Option String) (index : Nat) (revision : Option Nat) : String :=
  let generation := (truthy generationId).getD "legacy"
  let revision := (revision.map toString).getD "x"
  s!"pending:{generation}:{index}:{revision}"

def firstDelta (generationId : Option String) (revision : Option Nat) (index : Nat)
    (callId name : Option String) (argumentsDelta : String) : ToolCallState :=
  { id := truthy callId
    index := some index
    runId := (truthy callId).getD (pendingKey generationId index revision)
    name := orEmpty name
    args := argumentsDelta
    status := .building }

def nextDelta (generationId : Option String) (revision : Option Nat) (index : Nat)
    (callId name : Option String) (argumentsDelta : String) (existing : ToolCallState) :
    ToolCallState :=
  { id := (truthy callId).orElse (fun _ => truthy existing.id)
    index := some index
    runId := ((truthy callId).orElse (fun _ => truthy (some existing.runId))).getD
      (pendingKey generationId index revision)
    name := (truthy name).getD existing.name
    args := existing.args ++ argumentsDelta
    status := .building }

def reduceToolDelta (generationId : Option String) (revision : Option Nat) (index : Nat)
    (callId name : Option String) (argumentsDelta : String) (s : ConversationState P) :
    ConversationState P :=
  let target := s.deltaTarget index callId name
  let existing := target.bind (fun position =>
    (toolAt s.streamingSegments position).map (fun tool => (position, tool)))
  match existing with
  | some (position, tool) =>
    -- a new call is appended, and takes nothing over from the one it was matched with
    if startsNewCall callId name tool then
      let first := firstDelta generationId revision index callId name argumentsDelta
      { s with
        streamingSegments := s.streamingSegments ++ [.tool first]
        toolCallKeysByIndex := s.toolCallKeysByIndex.set index first.runId }
    else
      let next := nextDelta generationId revision index callId name argumentsDelta tool
      { s with
        streamingSegments := s.streamingSegments.set position (.tool next)
        toolCallKeysByIndex := s.toolCallKeysByIndex.set index next.runId }
  | none =>
    let first := firstDelta generationId revision index callId name argumentsDelta
    { s with
      streamingSegments := s.streamingSegments ++ [.tool first]
      toolCallKeysByIndex := s.toolCallKeysByIndex.set index first.runId }

def startTarget (s : ConversationState P) (index : Option Nat) (name : String) : Option Nat :=
  let slotKey := index.bind s.slotKey
  -- the name counts only where the index has no key
  (findToolSegmentIndex s.streamingSegments slotKey (some name)).orElse
    (fun _ => findToolSegmentIndex s.streamingSegments none (some name))

def runningTool (index : Option Nat) (runId name args : String)
    (existing : Option ToolCallState) : ToolCallState :=
  { id := truthy (existing.bind (·.id))
    index := index.orElse (fun _ => existing.bind (·.index))
    runId := runId
    name := if name = "" then orEmpty (existing.map (·.name)) else name
    args := args
    status := .running }

def reduceToolStart (index : Option Nat) (runId name : String) (arguments : P.Arguments)
    (s : ConversationState P) : ConversationState P :=
  let existing := (s.startTarget index name).bind (fun position =>
    (toolAt s.streamingSegments position).map (fun tool => (position, tool)))
  let running := runningTool index runId name (P.stringify arguments) (existing.map (·.2))
  { s with
    streamingSegments :=
      match existing with
      | some (position, _) => s.streamingSegments.set position (.tool running)
      | none => s.streamingSegments ++ [.tool running]
    toolCallKeysByIndex :=
      match index with
      | some i => s.toolCallKeysByIndex.set i runId
      | none => s.toolCallKeysByIndex }

def finishSegment (runId result : String) (outcome : ToolOutcome) :
    Segment ToolCallState → Segment ToolCallState
  | .tool tool =>
    if tool.runId = runId then .tool { tool with result := some result, status := outcome.status }
    else .tool tool
  | segment => segment

/-! ## The reducer -/

def fallbackTerminalErrorMessage : String := "会话运行失败，请稍后再试"

/-- What the reducer does with an event. -/
inductive Outcome (P : Payloads) where
  /-- It returns the state it was given. -/
  | ignored
  /-- `markRevisionGap`. -/
  | gap (state : ConversationState P)
  | applied (state : ConversationState P)

/-- `toolCallKeysByIndex` of a snapshot. -/
def keysOfSegments (segments : List (Segment ToolCallState)) : Dict Nat String :=
  -- of two tools with one index the later one stays
  (segments.filterMap Segment.tool?).foldl
    (fun keys tool =>
      match tool.index with
      | some index => keys.set index tool.runId
      | none => keys) []

def fromSnapshot (revision : Option Nat) (messages : List P.Message) (status : Option String)
    (activeStream : Option ClientStream) (tokenUsage : Option P.TokenUsage)
    (error : Option String) (failedTurn : Option P.FailedTurn) (s : ConversationState P) :
    ConversationState P :=
  -- the session streams, but the bus has no draft of it
  let waitingForActiveStream := status = some "streaming" ∧ activeStream = none
  let segments := (activeStream.map (·.segments)).getD []
  { s with
    generationId := activeStream.map (·.generationId)
    revision := revision.orElse (fun _ => activeStream.bind (·.revision))
    status := status
    phase :=
      if status = some "error" then .error
      else if activeStream.isSome then .streaming
      else if waitingForActiveStream then .reconnecting
      else .ready
    messages := P.normalizeMessages messages
    streamingSegments := segments
    isStreaming := activeStream.isSome ∨ waitingForActiveStream
    tokenUsage := tokenUsage
    needsResync := waitingForActiveStream
    syncIssue := none
    error :=
      if status = some "error" then some ((truthy error).getD fallbackTerminalErrorMessage)
      else none
    failedTurn := failedTurn
    retryingFailureId := none
    toolCallKeysByIndex := keysOfSegments segments }

def eventHasWrongGeneration (s : ConversationState P) (e : ConversationServerEvent P) : Bool :=
  differ s.generationId e.generationId &&
    match e.kind with
    | .streamStart => false
    | _ => true

/-- `event.revision <= state.revision`, when both are there. -/
def staleRevision (s : ConversationState P) (received : Option Nat) : Bool :=
  match received, s.revision with
  | some r, some held => r ≤ held
  | _, _ => false

/-- `event.revision > state.revision + 1`, when both are there. -/
def skipsRevision (s : ConversationState P) (received : Option Nat) : Bool :=
  match received, s.revision with
  | some r, some held => held + 1 < r
  | _, _ => false

def markRevisionGap (received : Nat) (s : ConversationState P) : ConversationState P :=
  { s with
    needsResync := true
    syncIssue := some { expected := s.revision.getD 0 + 1, received := received }
    phase := .reconnecting }

def withAcceptedRevision (received : Option Nat) (s : ConversationState P) :
    ConversationState P :=
  { s with revision := received.orElse (fun _ => s.revision) }

def chainEnded (received : Option Nat) (messages : List P.Message)
    (tokenUsage : Option P.TokenUsage) (s : ConversationState P) : ConversationState P :=
  { s with
    generationId := none
    revision := received.orElse (fun _ => s.revision)
    status := some "completed"
    phase := .ready
    messages := P.normalizeMessages messages
    streamingSegments := []
    isStreaming := false
    tokenUsage := tokenUsage.orElse (fun _ => s.tokenUsage)
    needsResync := false
    syncIssue := none
    error := none
    failedTurn := none
    retryingFailureId := none
    toolCallKeysByIndex := [] }

def errored (message : String) (sessionStatus : Option String)
    (messages : Option (List P.Message)) (failedTurn : Option P.FailedTurn)
    (s : ConversationState P) : ConversationState P :=
  -- a turn that failed and can be tried again leaves the session ready
  if failedTurn.isSome ∧ sessionStatus ≠ some "error" then
    { s with
      generationId := none
      phase := .ready
      status := some ((truthy sessionStatus).getD "running")
      messages := (messages.map P.normalizeMessages).getD s.messages
      streamingSegments := []
      isStreaming := false
      error := none
      failedTurn := failedTurn
      retryingFailureId := none
      needsResync := messages.isNone
      syncIssue := none
      toolCallKeysByIndex := [] }
  else
    { s with
      generationId := none
      phase := .error
      status := some "error"
      streamingSegments := []
      isStreaming := false
      error := some message
      failedTurn := none
      retryingFailureId := none
      needsResync := true
      syncIssue := none
      toolCallKeysByIndex := [] }

/-- The state `next`, which holds the event's revision, with the event. -/
def applyKind (e : ConversationServerEvent P) (next : ConversationState P) :
    ConversationState P :=
  match e.kind with
  | .streamStart =>
    { next with
      generationId := e.generationId
      phase := .streaming
      status := some "streaming"
      streamingSegments := []
      isStreaming := true
      needsResync := false
      syncIssue := none
      error := none
      failedTurn := none
      retryingFailureId := none
      toolCallKeysByIndex := [] }
  | .textDelta content =>
    { next with
      phase := .streaming
      isStreaming := true
      streamingSegments := Stream.appendContent false content next.streamingSegments }
  | .reasoningDelta content =>
    { next with
      phase := .streaming
      isStreaming := true
      streamingSegments := Stream.appendContent true content next.streamingSegments }
  | .toolDelta index callId name argumentsDelta =>
    reduceToolDelta e.generationId e.revision index callId name argumentsDelta
      { next with phase := .streaming, isStreaming := true }
  | .toolStart index runId name arguments =>
    reduceToolStart index runId name arguments
      { next with phase := .streaming, isStreaming := true }
  | .toolEnd runId _ result outcome =>
    { next with
      streamingSegments := next.streamingSegments.map (finishSegment runId result outcome) }
  | .usage tokenUsage => { next with tokenUsage := some tokenUsage }
  | .error message terminal sessionStatus messages failedTurn =>
    if terminal then errored message sessionStatus messages failedTurn next
    else
      { next with
        error := some message
        needsResync := true
        syncIssue := none
        retryingFailureId := none }
  | _ => next

/-- The events that the phase `error` lets through. -/
def passesError : EventKind P → Bool
  | .streamStart => true
  | .chainEnd _ _ => true
  | _ => false

/-- The events that neither wait for a snapshot nor need the revision before
theirs. -/
def passesGap : EventKind P → Bool
  | .streamStart => true
  | .error _ _ _ _ _ => true
  | _ => false

/-- `reduceServerEvent` from the check of `needsResync` on. -/
def reduceDelta (e : ConversationServerEvent P) (s : ConversationState P) : Outcome P :=
  -- a gap that is known already: the snapshot is on its way
  if s.needsResync ∧ passesGap e.kind = false then .ignored
  else if s.staleRevision e.revision then .ignored
  else if s.skipsRevision e.revision ∧ passesGap e.kind = false then
    .gap (s.markRevisionGap (e.revision.getD 0))
  else .applied (applyKind e (s.withAcceptedRevision e.revision))

def reduceServerEvent (e : ConversationServerEvent P) (s : ConversationState P) : Outcome P :=
  if s.sessionId ≠ some e.sessionId then .ignored
  else
    match e.kind with
    | .snapshot messages status activeStream tokenUsage error failedTurn legacy =>
      -- a snapshot is taken at any revision, also an older one
      if legacy ∧ s.revision.isSome ∧ s.isStreaming then .ignored
      else
        .applied
          (s.fromSnapshot e.revision messages status activeStream tokenUsage error failedTurn)
    | kind =>
      if s.phase = .error ∧ passesError kind = false then .ignored
      else if s.eventHasWrongGeneration e then .ignored
      else
        match kind with
        | .chainEnd messages tokenUsage =>
          -- carries all messages, so that a gap before it does not matter
          if s.staleRevision e.revision then .ignored
          else .applied (s.chainEnded e.revision messages tokenUsage)
        | _ => reduceDelta e s

end ConversationState

end
end DeterminFlow.Web
