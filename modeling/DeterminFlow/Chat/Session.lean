/-
  Chat.Session
  **THE SESSION AND ITS TURNS.**

  A turn appends the user's message to both histories, shortens the model's
  context when it is too long, and runs the graph.  While the graph streams,
  replies are written to the record only; the context gets them at the end,
  from the graph's final state.  Every way in which a turn ends cleans up in
  its own way.

  Around a turn stand two checkpoints: the invocation restores one when it
  is cancelled, an interactive main session another when the turn raises.
-/
import DeterminFlow.Chat.Record

namespace DeterminFlow.Chat

open Context Library.PyText

/-! ## The session -/

inductive Status where
  | running
  | streaming
  | completed
  | error
  deriving DecidableEq

structure FailedTurn where
  content : String
  retryable : Bool
  deriving DecidableEq

/-- `AgentSession`. -/
structure Session where
  systemPrompt : String := ""
  /-- `session_type == "main"`. -/
  main : Bool := false
  /-- `runtime_scope == "interactive"`. -/
  interactive : Bool := false
  /-- `agent_type == "compressor"`. -/
  compressor : Bool := false
  /-- `compiled_graph is not None`. -/
  graphReady : Bool := true
  terminated : Bool := false
  status : Status := .running
  record : List Entry := []
  lcMessages : List Message := []
  /-- `context["messages"]`, with the ghosts of the messages it was made of. -/
  context : List Message := []
  msgCounter : Nat := 0
  failedTurn : Option FailedTurn := none
  activeTurnToolStarted : Bool := false
  /-- Ghost: the turns begun so far. -/
  turns : Nat := 0
  deriving DecidableEq

def newSession (systemPrompt : String) (main interactive compressor : Bool) : Session where
  systemPrompt := systemPrompt
  main := main
  interactive := interactive
  compressor := compressor
  lcMessages := promptMessages systemPrompt
  context := promptMessages systemPrompt

/-- `_supports_interactive_main_recovery`. -/
def Session.supportsRecovery (s : Session) : Bool := s.main && s.interactive

/-- `"running" if session_type == "main" else "completed"`. -/
def Session.restStatus (s : Session) : Status := if s.main then .running else .completed

def Session.append (s : Session) (entry : Nat → Entry) : Session :=
  { s with msgCounter := s.msgCounter + 1, record := s.record ++ [entry (s.msgCounter + 1)] }

/-- `add_message("user", content)`. -/
def Session.addUserMessage (s : Session) (content : String) : Session :=
  s.append (fun id => { id := id, type := .user, content := content, turn := s.turns })

def Session.addDisplayMessage (s : Session) (kind : Display) : Session :=
  s.append (fun id => { id := id, type := .display kind, turn := s.turns })

/-- `_append_to_record`; a system message is passed over. -/
def Session.appendToRecord (s : Session) (m : Message) : Session :=
  match entryOf (s.msgCounter + 1) m with
  | some entry => s.append (fun _ => entry)
  | none => s

def Session.syncContextSnapshot (s : Session) (force : Bool) : Session :=
  if force then { s with context := s.lcMessages }
  else if s.context.length ≤ (s.lcMessages.filter (·.role ≠ .system)).length then
    { s with context := s.lcMessages }
  else s

def popIf {α : Type} (p : α → Bool) (l : List α) : List α :=
  if l.getLast?.any p then l.dropLast else l

def Session.rollbackOnError (s : Session) (rollbackRecord sanitizePairs syncSnapshot : Bool) :
    Session :=
  let lc := popIf (fun m => m.role = .human) s.lcMessages
  let s := { s with
    lcMessages := if sanitizePairs then sanitizeToolPairs lc else lc
    record := if rollbackRecord then popIf Entry.isUser s.record else s.record }
  if syncSnapshot then s.syncContextSnapshot false else s

/-! ## Compression -/

/-- `CompressionStrategy`. -/
inductive Strategy where
  | none
  | micro
  | full
  | reactive
  deriving DecidableEq

/-- The settings of the compression, the decisions of its checker, and what a
compaction takes from outside. -/
structure Compression where
  cfg : CompressionConfig := {}
  maxToolResults : Nat := 50
  placeholder : String := ""
  preCheck : List Message → Strategy := fun _ => .none
  fullCheck : List Message → Strategy := fun _ => .none
  hardLimitExceeded : List Message → Bool := fun _ => false
  compressor : Compressor := {}
  reactiveRetries : Nat := 5
  /-- `MAX_CONTEXT_TOKENS` of the hard trim. -/
  maxContextTokens : Nat := 128000

/-- `CompressionScheduler.execute`. -/
def Compression.execute (c : Compression) : Strategy → List Message → List Message
  | .none, messages => messages
  | .micro, messages => microCompact c.cfg c.maxToolResults c.placeholder messages
  | .full, messages => executeFull c.cfg c.compressor messages
  | .reactive, messages => discardOldestRound messages

/-- A context in the course of a check, and whether a strategy has changed it. -/
structure Progress where
  messages : List Message
  applied : Bool := false

def Progress.become (p : Progress) (after : List Message) : Progress :=
  if after = p.messages then p else { messages := after, applied := true }

def Progress.apply (p : Progress) (c : Compression) (strategy : Strategy) : Progress :=
  p.become (c.execute strategy p.messages)

def Progress.react (c : Compression) : Nat → Progress → Progress
  | 0, p => p
  | retries + 1, p =>
    if c.hardLimitExceeded p.messages then
      if c.execute .reactive p.messages = p.messages then p
      else Progress.react c retries (p.apply c .reactive)
    else p

def Progress.checked (c : Compression) (isCompressor : Bool) (p : Progress) : Progress :=
  let decision := c.preCheck p.messages
  let cleared := if decision = .micro then p.apply c .micro else p
  let decision := if decision = .micro ∧ isCompressor = false then c.fullCheck cleared.messages
    else decision
  if isCompressor = false ∧ decision = .full then cleared.apply c .full else cleared

def Progress.hardLimited (c : Compression) (isCompressor : Bool) (p : Progress) : Progress :=
  if c.hardLimitExceeded p.messages then
    let clipped := p.become (compactForRequest c.cfg p.messages)
    if isCompressor then clipped else Progress.react c c.reactiveRetries clipped
  else p

/-- The context after `_check_and_compress_messages`. -/
def Compression.run (c : Compression) (forceFull isCompressor : Bool) (messages : List Message) :
    Progress :=
  let start : Progress := { messages := messages }
  let compressed :=
    if forceFull then (if isCompressor then start else start.apply c .full)
    else start.checked c isCompressor
  compressed.hardLimited c isCompressor

def Session.checkAndCompressMessages (s : Session) (c : Compression) (forceFull : Bool) :
    Session :=
  let progress := c.run forceFull s.compressor s.lcMessages
  if progress.applied then
    (({ s with lcMessages := progress.messages }).syncContextSnapshot true).addDisplayMessage
      .compressionDivider
  else s

def Session.trimContext (s : Session) (c : Compression) : Session :=
  if s.compressor then s
  else { s with lcMessages := trimMessages c.maxContextTokens s.lcMessages }

/-! ## The stream -/

/-- The events of the graph that change a session. -/
inductive StreamEvent where
  /-- `on_chat_model_end`. -/
  | modelEnd (content : Content) (toolCalls : List ToolCall)
  /-- `on_tool_start`. -/
  | toolStart
  /-- `on_tool_end` and `on_tool_error`. -/
  | toolEnd (result : Content) (toolCallId : String)
  /-- `on_chain_end` of the root: the final state has these replies after the
  messages it began with. -/
  | rootEnd (replies : List Reply)
  deriving DecidableEq

/-- The variables of the streaming loop. -/
structure Stream where
  session : Session
  incrementalSavedCount : Nat := 0
  finalMessages : Option (List Message) := none

def Stream.save (st : Stream) (r : Reply) : Stream :=
  { st with
    session := (st.session.appendToRecord (r.message st.session.turns)).syncContextSnapshot false
    incrementalSavedCount := st.incrementalSavedCount + 1 }

def Stream.feed (st : Stream) : StreamEvent → Stream
  | .modelEnd content toolCalls => st.save (.assistant content toolCalls)
  | .toolStart => { st with session := { st.session with activeTurnToolStarted := true } }
  | .toolEnd result toolCallId => st.save (.tool result toolCallId)
  | .rootEnd replies =>
    { st with
      finalMessages :=
        some (st.session.lcMessages ++ replies.map (Reply.message st.session.turns)) }

def turnMessages (messages : List Message) : List Message :=
  if messages.any (·.role = .human) then
    (messages.reverse.takeWhile (·.role ≠ .human)).reverse
  else []

def Session.syncMessages (s : Session) (final : List Message) (skipCount : Nat) : Session :=
  let s := { s with lcMessages := final }
  (((turnMessages final).drop skipCount).foldl Session.appendToRecord s).syncContextSnapshot false

def Stream.finish (st : Stream) : Session :=
  let s := match st.finalMessages with
    | some final => st.session.syncMessages (sanitizeToolPairs final) st.incrementalSavedCount
    | none => st.session
  { s with
    lcMessages := sanitizeToolPairs s.lcMessages
    status := if s.status = .streaming then s.restStatus else s.status }

/-! ## Turns -/

/-- How the streaming loop ends. -/
inductive Ending where
  /-- The graph has run to its end. -/
  | done
  /-- It has, and telling the user raises. -/
  | lateFailure
  /-- The user has asked to abort. -/
  | aborted
  /-- `GraphRecursionError`. -/
  | recursionLimit
  /-- `BadRequestError` for a content that exists as a risk. -/
  | contentRisk
  /-- `ContentFilterFinishReasonError`. -/
  | contentFilter
  /-- Another `BadRequestError`. -/
  | badRequest
  /-- Another exception. -/
  | failed
  | cancelled
  deriving DecidableEq

/-- Where an abort is noticed before the stream begins. -/
inductive Phase where
  | preparation
  | compression
  | beforeStream
  deriving DecidableEq

/-- How far a turn gets. -/
inductive Course where
  /-- An exception before the message is added. -/
  | unprepared
  | stopped (phase : Phase)
  /-- The invocation is cancelled before the stream begins. -/
  | cancelledEarly
  | streamed (events : List StreamEvent) (ending : Ending)

/-- A turn: the message, what is injected before it, and what happens. -/
structure Turn where
  content : String
  injection : String := ""
  /-- `source == "human"`, and no invocation context. -/
  fromUser : Bool := true
  compression : Compression := {}
  course : Course

inductive Outcome where
  | returned
  | raised
  | cancelled
  deriving DecidableEq

def Turn.fullContent (t : Turn) : String :=
  if t.injection = "" then t.content
  else "<SYSTEM_INJECTION>\n" ++ t.injection ++ "\n<USER_MESSAGE>\n" ++ t.content

def Session.addTurn (s : Session) (content : String) : Session :=
  let s := { s with turns := s.turns + 1 }
  let human : Message := { role := .human, content := .text content, origin := .turn s.turns }
  ({ s with lcMessages := s.lcMessages ++ [human] }).addUserMessage content

def Session.finishPreStreamAbort (s : Session) : Session :=
  ({ s with status := s.restStatus }).rollbackOnError true false true

def Session.prepare (s : Session) (t : Turn) : Session :=
  ((s.addTurn t.fullContent).checkAndCompressMessages t.compression false).trimContext
    t.compression

def Session.stream (s : Session) (events : List StreamEvent) : Stream :=
  events.foldl Stream.feed { session := { s with status := .streaming } }

def Session.warn (s : Session) (kind : Display) (rollbackRecord : Bool) : Session :=
  ({ s.addDisplayMessage kind with status := .running }).rollbackOnError rollbackRecord false true

/-- An exception: an interactive main session leaves the cleaning to its
checkpoint. -/
def Session.fail (s : Session) (syncSnapshot : Bool) : Session :=
  if s.supportsRecovery then s
  else ({ s with status := .error }).rollbackOnError true true syncSnapshot

def Stream.close (st : Stream) : Ending → Outcome × Session
  | .done => (.returned, st.finish)
  | .lateFailure => (.raised, st.finish)
  | .aborted =>
    (.returned, { st with session := st.session.rollbackOnError true false true }.finish)
  | .recursionLimit => (.returned, st.session.warn .recursionLimitReached true)
  | .contentRisk => (.returned, st.session.warn .contentSafetyWarning false)
  | .contentFilter => (.returned, st.session.warn .contentFilterWarning false)
  | .badRequest => (.raised, st.session.fail false)
  | .failed => (.raised, st.session.fail true)
  | .cancelled => (.cancelled, st.session)

def Session.invokeGraphOnce (s : Session) (t : Turn) : Outcome × Session :=
  match t.course with
  | .unprepared => (.raised, s)
  | .stopped .preparation => (.returned, (s.addTurn t.fullContent).finishPreStreamAbort)
  | .stopped .compression =>
    (.returned, ((s.addTurn t.fullContent).checkAndCompressMessages t.compression
      false).finishPreStreamAbort)
  | .stopped .beforeStream => (.returned, (s.prepare t).finishPreStreamAbort)
  | .cancelledEarly => (.cancelled, s.prepare t)
  | .streamed events ending => ((s.prepare t).stream events).close ending

/-- `record`, `lc_messages` and `context` as in a checkpoint. -/
def Session.restore (s checkpoint : Session) : Session :=
  { s with
    record := checkpoint.record
    lcMessages := checkpoint.lcMessages
    context := checkpoint.context }

def Session.keepFailedTurn (s : Session) (t : Turn) : Session :=
  { s with
    failedTurn := some { content := t.content,
                         retryable := t.fromUser && !s.activeTurnToolStarted }
    status := .running
    activeTurnToolStarted := false }

def Session.invokeGraph (s : Session) (t : Turn) : Outcome × Session :=
  if s.supportsRecovery then
    let start := { s with failedTurn := none, activeTurnToolStarted := false }
    match start.invokeGraphOnce t with
    | (.raised, s') => (.raised, (s'.restore s).keepFailedTurn t)
    | (.returned, s') => (.returned, { s' with failedTurn := none, activeTurnToolStarted := false })
    | (.cancelled, s') => (.cancelled, { s' with activeTurnToolStarted := false })
  else s.invokeGraphOnce t

/-- `_invocation_scope`: what is left of a body that began in `s`. -/
def Session.scoped (s : Session) : Outcome × Session → Outcome × Session
  | (.cancelled, s') => (.cancelled, s'.restore s)
  | result => result

/-! ## What can be asked of a session -/

/-- `send_message`, and a message of the inbox. -/
def Session.sendMessage (s : Session) (t : Turn) : Outcome × Session :=
  if s.graphReady = false ∨ s.terminated = true then (.raised, s)
  else s.scoped (s.invokeGraph t)

/-- `retry_failed_turn`, with the id of the failed turn. -/
def Session.retryFailedTurn (s : Session) (t : Turn) : Outcome × Session :=
  if s.supportsRecovery = false ∨ s.graphReady = false ∨ s.terminated = true then (.raised, s)
  else
    match s.failedTurn with
    | none => (.raised, s)
    | some failed =>
      if failed.retryable = false ∨ stripChars failed.content = [] then (.raised, s)
      else
        s.scoped ({ s with failedTurn := some { failed with retryable := false } }.invokeGraph
          { t with content := failed.content, fromUser := true })

/-- The index of the element that is the `n`-th with a property, counted from one. -/
def nthIndex {α : Type} (p : α → Bool) : Nat → List α → Option Nat
  | _, [] => none
  | n, a :: rest =>
    if p a then
      if n = 1 then some 0 else (nthIndex p (n - 1) rest).map (· + 1)
    else (nthIndex p n rest).map (· + 1)

/-- Why a message is not edited. -/
inductive EditError where
  | graphNotSetUp
  | streaming
  | terminated
  | messageNotFound
  | noHumanMessage
  deriving DecidableEq

/-- The places where `edit_message_and_resend` cuts the record and the context. -/
def Session.editPoint (s : Session) (messageId : Nat) : Except EditError (Nat × Nat) :=
  if s.graphReady = false then .error .graphNotSetUp
  else if s.status = .streaming then .error .streaming
  else if s.terminated = true then .error .terminated
  else
    match s.record.findIdx? (fun e => e.id = messageId && e.isUser) with
    | none => .error .messageNotFound
    | some target =>
      let userCount := (s.record.take (target + 1)).countP Entry.isUser
      match nthIndex (fun m : Message => m.role = .human) userCount s.lcMessages with
      | none => .error .noHumanMessage
      | some cut => .ok (target, cut)

def Session.truncate (s : Session) (target cut : Nat) : Session :=
  ({ s with record := s.record.take target, lcMessages := s.lcMessages.take cut
     }).syncContextSnapshot false

def Session.editMessageAndResend (s : Session) (messageId : Nat) (t : Turn) : Outcome × Session :=
  match s.editPoint messageId with
  | .error _ => (.raised, s)
  | .ok (target, cut) => s.scoped ((s.truncate target cut).invokeGraph t)

def Session.compress (s : Session) (c : Compression) : Session :=
  if s.status = .streaming ∨ s.terminated = true then s
  else s.checkAndCompressMessages c true

def maxId (record : List Entry) : Nat := (record.map (·.id)).foldr max 0

/-- `from_dict(to_dict())`, and the graph set up again. -/
def Session.reload (s : Session) : Session :=
  { s with
    graphReady := true
    terminated := false
    msgCounter := maxId s.record
    activeTurnToolStarted := false
    context := if s.record ≠ [] then [] else s.context
    lcMessages :=
      if s.record ≠ [] then restoreLcFromRecord s.systemPrompt s.record
      else if s.context ≠ [] then restoreLcFromContext s.systemPrompt s.context
      else promptMessages s.systemPrompt }

inductive SessionStep where
  | send (turn : Turn)
  | retry (turn : Turn)
  | edit (messageId : Nat) (turn : Turn)
  | compress (compression : Compression)
  /-- A message that only the user sees. -/
  | notice (kind : Display)
  | terminate
  | reload

def SessionStep.apply : SessionStep → Session → Session
  | .send t, s => (s.sendMessage t).2
  | .retry t, s => (s.retryFailedTurn t).2
  | .edit messageId t, s => (s.editMessageAndResend messageId t).2
  | .compress c, s => s.compress c
  | .notice kind, s => s.addDisplayMessage kind
  | .terminate, s => { s with terminated := true }
  | .reload, s => s.reload

def runSession (s : Session) (steps : List SessionStep) : Session :=
  steps.foldl (fun s step => step.apply s) s

end DeterminFlow.Chat
