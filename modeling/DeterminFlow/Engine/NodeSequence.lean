/-
  Engine.NodeSequence
  **EXECUTING NODES ONE AFTER ANOTHER.**

  `_save_task_state` and `_execute_node` of `workflow/engine.py`, and
  `_execute_node_sequence` of `workflow/execution_flow.py` with its three
  ways back: the retry of a rejected upstream node, the rollback of a
  rejected approval, and the failure policy.

  Everything between two `await`s that may suspend is one state update, so
  each update is a function on `World` under a name of its own, and the
  programs only say in which order they come.
-/
import DeterminFlow.Engine.Environment

namespace DeterminFlow.Engine

open Library Coop Workflow DeterminFlow.Runtime

/-! ## Saving the task -/

/-- **`_save_task_state`.**  Cancellation while the file is written is held
back until the write has ended. -/
def saveTaskState : EngineProg Unit := do
  let _ ← Prog.wait .saveLock
  Prog.modify World.takeSnapshot
  Prog.call .write fun
    | .ok _ => Prog.modify World.releaseSaveLock
    | .error (.error message) => do
        Prog.modify World.releaseSaveLock
        Prog.raise (.error message)
    | .error .cancelled =>
      Prog.call .write fun
        | .ok _ => do
            Prog.modify World.releaseSaveLock
            Prog.raise .cancelled
        | .error e => do
            Prog.modify World.releaseSaveLock
            Prog.raise e

/-! ## The input of an attempt -/

section
variable (E : Env)

/-- `_get_upstream_summary`. -/
def upstreamSummary (w : World) (nodeId : String) : String :=
  String.intercalate "\n\n" ((E.definition.sourcesOf nodeId).filterMap fun uid =>
    (w.stateOf uid).bind fun u =>
      if u.summary = "" then none else some ("节点 [" ++ uid ++ "] 的任务产出：\n" ++ u.summary))

def upstreamIds (nodeId : String) : List String :=
  E.setOrder ((search (E.definition.edges.map (fun e => (e.target, e.source))) .queue
    (fun _ => false) (fun seen s => !decide (s ∈ seen)) [nodeId]).filter (· ≠ nodeId))

def usableOutputs (state : NodeExecutionState) : Pool :=
  if state.status = .completed then
    state.outputs.filter (fun entry => entry.1 != "" && entry.2.truthy)
  else []

def enrichParameterValues (w : World) (nodeId : String) : Pool :=
  (upstreamIds E nodeId).foldl
    (fun pool nid => pool.update (((w.stateOf nid).map usableOutputs).getD []))
    w.task.parameterValues

/-- `_inject_system_variables`. -/
def systemVariables (w : World) : Pool :=
  [("_system.workspace_path", .str E.sharedWorkspace), ("_system.workflow_id", .str E.workflowId),
   ("_system.task_id", .str w.task.taskId), ("_system.task_name", .str w.task.name),
   ("_system.current_time", .str w.clock), ("_system.operator", .str "system")]

/-- The parameters and the upstream summary handed to the plugin: frozen
ones for a retry, fresh ones otherwise. -/
def attemptInput (w : World) (nodeId : String) (state : NodeExecutionState) : Pool × String :=
  if 0 < state.attemptCount ∧ state.nextAttemptTrigger ≠ .initial then
    (state.inputSnapshot, state.upstreamSummarySnapshot)
  else
    ((enrichParameterValues E w nodeId).update (systemVariables E w), upstreamSummary E w nodeId)

/-- `_with_rejection_feedback`: the first message of the node. -/
def withRejectionFeedback (node : WorkflowNode) (state : NodeExecutionState) : String :=
  match state.rejectionHistory.getLast? with
  | none => node.firstMessage
  | some event =>
    if node.nodeType ≠ "agent" ∨ event.resolution ≠ "retrying" then node.firstMessage
    else
      node.firstMessage ++ "\n\n## 下游校验反馈\n\n这是第 " ++ toString event.retryIndex ++ "/"
        ++ toString event.maxRetries ++ " 次重试。\n拒绝原因: " ++ event.reason
        ++ "\n\n请根据反馈重新完成完整任务，并按原要求提交产出。"

end

/-! ## One attempt -/

section
variable (E : Env) (t : Thread)

/-- The state an attempt on object `r` starts from. -/
def begunState (node : WorkflowNode) (r : Nat) (w : World) : NodeExecutionState :=
  let state := w.objects node.id r
  let input := attemptInput E w node.id state
  state.beginAttempt w.clock input.1 input.2

/-- Where and how a node is executed: its place in a sequence, the first
message, and the object of the enclosing loop when upstream nodes may be
rejected. -/
structure Call where
  order : List String
  index : Nat
  message : String
  outer : Option Nat

/-- The attempt that starts on object `r`. -/
def newAttempt (node : WorkflowNode) (r : Nat) (call : Call) (w : World) : Attempt where
  owner := t
  node := node.id
  live := w.allocated node.id
  outer := call.outer
  input := (attemptInput E w node.id (w.objects node.id r)).1
  message := call.message
  order := call.order
  index := call.index

/-- `begin_node_attempt` and the installation of the first checkpoint: a
copy of object `r` becomes the object of the attempt. -/
def beginNodeAttempt (node : WorkflowNode) (r : Nat) (call : Call) (w : World) : World :=
  let begun := begunState E node r w
  let attempt := newAttempt E t node r call w
  let w := w.installNew node.id begun
  { w with attempts := w.attempts ++ [attempt] }.record
    (.began t node.id begun.attemptCount attempt.input)

def mergedUsage (previous : NodeExecutionState) (result : NodeResult) :
    Option TokenUsage × List TokenCall :=
  if (previous.tokenUsage.filter (· ≠ [])).isSome ∧ previous.sessionId ≠ result.sessionId then
    (mergeTokenUsage previous.tokenUsage result.tokenUsage,
     mergeTokenUsageCalls previous.tokenUsageCalls result.tokenUsageCalls)
  else
    (if (result.tokenUsage.filter (· ≠ [])).isSome then result.tokenUsage else previous.tokenUsage,
     if result.tokenUsageCalls = [] then previous.tokenUsageCalls else result.tokenUsageCalls)

/-- The assignments after `plugin.execute`; `previous` is the state the
attempt started from. -/
def applyResult (now : Timestamp) (previous : NodeExecutionState) (result : NodeResult)
    (state : NodeExecutionState) : NodeExecutionState :=
  let usage := mergedUsage previous result
  { state with
    completedAt := some now
    summary := result.summary
    status := result.status.normalize
    error := result.error
    outputs := result.outputs
    stdout := result.stdout
    stderr := result.stderr
    tokenUsage := usage.1
    tokenUsageCalls := usage.2
    sessionId := if result.sessionId = "" then state.sessionId else result.sessionId }

def publishOutputs (result : NodeResult) (w : World) : World :=
  if result.status.normalize = .completed then
    { w with task :=
        { w.task with parameterValues := w.task.parameterValues.update result.outputs } }
  else w

/-- The end of `_execute_node`: the result is written to the object of the
attempt, and its recorded copy is a new object. -/
def finishAttempt (nodeId : String) (live : Nat) (previous : NodeExecutionState)
    (result : NodeResult) (w : World) : World :=
  let w := w.modifyObject nodeId live (applyResult w.clock previous result)
  let w := w.allocate nodeId (w.objects nodeId live).recordAttempt
  (publishOutputs result w).record (.ended t nodeId result.status.normalize)

/-- What `_execute_node` leaves: its state object, and the upstream node its
plugin has rejected. -/
structure Executed where
  object : Nat
  rejected : Option String

/-- `node_type or "agent"`. -/
def nodeTypeOf (node : WorkflowNode) : String :=
  if node.nodeType = "" then "agent" else node.nodeType

def failUnknownType (node : WorkflowNode) (r : Nat) (w : World) : World :=
  (w.modifyObject node.id r (fun s =>
    { s with status := .failed, error := "未知节点类型: " ++ nodeTypeOf node,
             completedAt := some w.clock })).record (.ended t node.id .failed)

/-- `except Exception as e` around the plugin. -/
def failedResult (message : String) : NodeResult := { status := .failed, error := message }

/-- The attempt numbered `a` ends with `result`. -/
def endAttempt (nodeId : String) (a live : Nat) (previous : NodeExecutionState)
    (result : NodeResult) : EngineProg Executed :=
  Prog.atomic (finishAttempt t nodeId live previous result) fun w =>
    Prog.ret { object := w.allocated nodeId, rejected := (w.attempts[a]?).bind (·.rejected) }

/-- **`_execute_node`** on object `r`. -/
def executeNode (node : WorkflowNode) (r : Nat) (call : Call) : EngineProg Executed :=
  if E.registered (nodeTypeOf node) = false then do
    Prog.modify (failUnknownType t node r)
    pure { object := r, rejected := none }
  else
    Prog.atomic (beginNodeAttempt E t node r call) fun w => do
      saveTaskState
      Prog.call (.plugin w.attempts.length) fun
        | .ok (.result result) =>
          endAttempt t node.id w.attempts.length (w.allocated node.id)
            (begunState E node r w) result
        | .error (.error message) =>
          endAttempt t node.id w.attempts.length (w.allocated node.id)
            (begunState E node r w) (failedResult message)
        | .error .cancelled => Prog.raise .cancelled
        | .ok .done => Prog.raise (.error "")

end

/-! ## After an attempt -/

def callIds (calls : List TokenCall) : List String := calls.map (·.callId)

def updateRejectionRetryAudit (now : Timestamp) (previousCallIds : List String)
    (willRetry : Bool) (state : NodeExecutionState) : NodeExecutionState :=
  match state.rejectionHistory.getLast? with
  | none => state
  | some event =>
    if event.resolution ≠ "retrying" then state
    else
      let fresh := (callIds state.tokenUsageCalls).filter
        (fun c => !decide (c ∈ previousCallIds) && c != "")
      let known := (event.retryCallIds.filter (· ≠ "")) ++ fresh
      let event :=
        { event with
          retrySessionId :=
            if state.sessionId = "" then event.retrySessionId else state.sessionId
          retryCallIds := known.dedup.insertionSort (fun a b => codePointLe a b = true)
          resolution :=
            if willRetry then "retrying"
            else if state.status.normalize = .failed then "failed" else "passed"
          resolvedAt := if willRetry then none else some now }
      { state with rejectionHistory := state.rejectionHistory.dropLast ++ [event] }

/-- What `_apply_failed_node_policy` decides. -/
inductive PolicyOutcome where
  | retryWaiting
  | skipped
  | failed
  deriving DecidableEq

/-- The decision on a failed state, and the state it leaves when it is a new
object; `none` stands for an exception while the deadline is computed. -/
def failedNodePolicy (E : Env) (node : WorkflowNode) (now : Timestamp)
    (state : NodeExecutionState) : Option (PolicyOutcome × Option NodeExecutionState) :=
  if canAutoRetry node state then
    (E.retryDeadline now node.autoRetryIntervalSeconds).bind fun deadline =>
      (state.prepareRetry .autoRetry (some deadline)).map fun next => (.retryWaiting, some next)
  else if shouldAutoSkip node state then some (.skipped, some (state.failureSkipped now))
  else some (.failed, none)

def installPolicy (nodeId : String) (r : Nat) (next : Option NodeExecutionState) (w : World) :
    World :=
  match next with
  | some state => w.installNew nodeId state
  | none => w.install nodeId r

/-- **`_apply_failed_node_policy`** on object `r`. -/
def applyFailedNodePolicy (E : Env) (node : WorkflowNode) (r : Nat) :
    EngineProg PolicyOutcome := do
  let w ← Prog.get
  match failedNodePolicy E node w.clock (w.objects node.id r) with
  | none => Prog.raise (.error "_retry_deadline")
  | some (outcome, next) => do
      Prog.modify (installPolicy node.id r next)
      saveTaskState
      pure outcome

/-! ## The node sequence -/

section
variable (E : Env) (t : Thread)

def skipDisabled (nodeId : String) (w : World) : World :=
  w.upsert nodeId (fun s => { s with status := .skipped, completedAt := some w.clock })

def normalizeStatus (nodeId : String) (w : World) : World :=
  match w.current? nodeId with
  | some r => w.modifyObject nodeId r (fun s => { s with status := s.status.normalize })
  | none => w

def enterNode (nodeId : String) (w : World) : World :=
  ({ w with task := { w.task with currentNodeId := some nodeId } }.upsert nodeId
    (fun s => { s with status := .running })).record (.entered t nodeId)

/-- The object returned by `_execute_node` is put into the task. -/
def installExecuted (node : WorkflowNode) (r : Nat) (previousCallIds : List String) (w : World) :
    World :=
  (w.install node.id r).modifyObject node.id r (fun s =>
    updateRejectionRetryAudit w.clock previousCallIds (canAutoRetry node s) s)

def prepareUpstreamRetry (upstreamId : String) (r : Nat) (w : World) : World :=
  w.installNew upstreamId
    ({ w.objects upstreamId r with status := .failed }.preparedRetry .validatorRetry none)

def awaitUpstream (nodeId : String) (r : Nat) (w : World) : World :=
  (w.modifyObject nodeId r (fun s =>
    { s with status := .pending, rejectionReason := "", completedAt := none,
             sessionId := "", error := "" })).install nodeId r

def skipWithUpstream (nodeId : String) (r : Nat) (w : World) : World :=
  (w.modifyObject nodeId r (fun s =>
    { s with status := .skipped, isSkipped := true, completedAt := some w.clock })).install nodeId r

def rollbackTarget (nodeId rejectedId : String) : String :=
  if rejectedId = "" then ((E.realUpstreamIds nodeId).head?).getD "" else rejectedId

/-- What one turn of the `while` loop leaves: the next index, or the outcome. -/
abbrev Turn : Type := Nat ⊕ Outcome

/-- `ids.index(id) if id in ids else 0`. -/
def indexIn (ids : List String) (id : String) : Nat := (ids.idxOf? id).getD 0

/-- What follows the retry of an upstream node; `r` is the object of the
rejecting node, `retried` that of the upstream node. -/
def afterUpstream (i : Nat) (node upstream : WorkflowNode) (r retried : Nat) :
    EngineProg Turn := do
  let w ← Prog.get
  if (w.objects upstream.id retried).status = .failed then do
    match ← applyFailedNodePolicy E upstream retried with
    | .retryWaiting => pure (.inr .retryWaiting)
    | .failed => pure (.inr .failed)
    | .skipped => do
        Prog.modify (skipWithUpstream node.id r)
        saveTaskState
        pure (.inl (i + 1))
  else do
    saveTaskState
    pure (.inl i)

def upstreamCall (ids : List String) (upstream : WorkflowNode) (r : Nat) (w : World) : Call where
  order := ids
  index := indexIn ids upstream.id
  message := withRejectionFeedback upstream
    ({ w.objects upstream.id r with status := .failed }.preparedRetry .validatorRetry none)
  outer := none

def retryUpstream (ids : List String) (i : Nat) (node upstream : WorkflowNode)
    (r upstreamObject : Nat) : EngineProg Turn :=
  Prog.atomic (prepareUpstreamRetry upstream.id upstreamObject) fun w => do
    saveTaskState
    let executed ← executeNode E t upstream (w.allocated upstream.id)
      (upstreamCall ids upstream upstreamObject w)
    Prog.modify (installExecuted upstream executed.object
      (callIds (w.objects upstream.id upstreamObject).tokenUsageCalls))
    Prog.modify (awaitUpstream node.id r)
    afterUpstream E i node upstream r executed.object

/-- `sessions.get(upstream_state.session_id)` of the node before an approval. -/
def liveUpstreamSession (ids : List String) (i : Nat) (w : World) : Option (String × Nat) :=
  (ids[i - 1]?).bind fun upstreamId =>
    (w.current? upstreamId).bind fun r =>
      let sessionId := (w.objects upstreamId r).sessionId
      if sessionId ≠ "" ∧ sessionId ∈ w.sessions.registered then some (upstreamId, r) else none

def countRejection (nodeId : String) (r : Nat) (w : World) : World :=
  w.modifyObject nodeId r (fun s => { s with rejectionCount := s.rejectionCount + 1 })

def rejectionMessage (count : Nat) (reason : String) : String :=
  "## 审批驳回\n\n你的产出被审批人驳回了（第 " ++ toString count ++ "/3 次）。\n驳回原因: " ++ reason
    ++ "\n\n请根据以上反馈重新完成任务，完成后再次调用 complete_node_task。"

def rollBackApproval (nodeId upstreamId : String) (r upstream : Nat) (w : World) : World :=
  let w := (w.modifyObject upstreamId upstream (fun s =>
    { s with status := .running, error := "" })).install upstreamId upstream
  (w.modifyObject nodeId r (fun s =>
    { s with status := .pending, rejectionReason := s.error })).install nodeId r

/-- `text.rstrip()`. -/
def rstrip (text : String) : String :=
  String.ofList (text.toList.reverse.dropWhile PyText.isSpace).reverse

def failRejected (nodeId : String) (r : Nat) (w : World) : World :=
  (w.modifyObject nodeId r (fun s =>
    { s with status := .failed,
             error := rstrip ("审批驳回已达到上限: " ++ s.error) })).install nodeId r

def endRejected (node : WorkflowNode) (r : Nat) : EngineProg Turn := do
  Prog.modify (failRejected node.id r)
  saveTaskState
  pure (.inr .failed)

def sendBack (i : Nat) (node : WorkflowNode) (r : Nat) (upstreamId : String) (upstream : Nat)
    (w : World) : EngineProg Turn := do
  let state := w.objects node.id r
  let _ ← Prog.wait (.enqueue (w.objects upstreamId upstream).sessionId
    (rejectionMessage state.rejectionCount state.error))
  Prog.modify (rollBackApproval node.id upstreamId r upstream)
  saveTaskState
  pure (.inl (i - 1))

/-- A node whose attempt ended `rejected`. -/
def handleRejected (ids : List String) (i : Nat) (node : WorkflowNode) (r : Nat) :
    EngineProg Turn :=
  if node.nodeType = "approval" ∧ 0 < i then do
    Prog.modify (countRejection node.id r)
    let w ← Prog.get
    if (w.objects node.id r).rejectionCount < 3 then
      match liveUpstreamSession ids i w with
      | some (upstreamId, upstream) => sendBack i node r upstreamId upstream w
      | none => endRejected node r
    else endRejected node r
  else endRejected node r

def handleStatus (ids : List String) (i : Nat) (node : WorkflowNode) (r : Nat) :
    EngineProg Turn := do
  let w ← Prog.get
  match (w.objects node.id r).status with
  | .rejected => handleRejected ids i node r
  | .failed => do
      match ← applyFailedNodePolicy E node r with
      | .retryWaiting => pure (.inr .retryWaiting)
      | .skipped => pure (.inl (i + 1))
      | .failed => pure (.inr .failed)
  | _ => do
      saveTaskState
      pure (.inl (i + 1))

def retryTarget (nodeId : String) (executed : Executed) : Option String :=
  (executed.rejected.map (rollbackTarget E nodeId)).filter (· ≠ "")

def afterAttempt (ids : List String) (i : Nat) (node : WorkflowNode) (executed : Executed) :
    EngineProg Turn :=
  match retryTarget E node.id executed with
  | none => handleStatus E ids i node executed.object
  | some upstreamId => do
      let w ← Prog.get
      match w.current? upstreamId, E.node? upstreamId with
      | some upstreamObject, some upstream =>
        retryUpstream E t ids i node upstream executed.object upstreamObject
      | _, _ => pure (.inr .failed)

def sequenceCall (ids : List String) (i : Nat) (node : WorkflowNode) (r : Nat) (w : World) :
    Call where
  order := ids
  index := i
  message := withRejectionFeedback node (w.objects node.id r)
  outer := some r

/-- The executor handles a node; `r` is its object. -/
def visitNode (ids : List String) (i : Nat) (node : WorkflowNode) (r : Nat) :
    EngineProg Turn := do
  let w ← Prog.get
  let executed ← executeNode E t node r (sequenceCall ids i node r w)
  Prog.modify (installExecuted node executed.object (callIds (w.objects node.id r).tokenUsageCalls))
  afterAttempt E t ids i node executed

/-- One turn of the `while` loop. -/
def sequenceTurn (disabled ids : List String) (i : Nat) : EngineProg Turn :=
  match ids[i]? with
  | none => pure (.inr .completed)
  | some nodeId =>
    match E.node? nodeId with
    | none => pure (.inl (i + 1))
    | some node =>
      if nodeId ∈ disabled then do
        Prog.modify (skipDisabled nodeId)
        saveTaskState
        pure (.inl (i + 1))
      else do
        let w ← Prog.get
        match (w.statusOf nodeId).map NodeStatus.normalize with
        | some .completed | some .skipped => do
            Prog.modify (normalizeStatus nodeId)
            pure (.inl (i + 1))
        | some .failed | some .rejected => pure (.inr .failed)
        | some .retryWaiting => pure (.inr .retryWaiting)
        | some .running => pure (.inr .failed)
        | _ => do
            Prog.modify (enterNode t nodeId)
            visitNode E t ids i node (w.currentOrNext nodeId)

def executeNodeSequence (disabled ids : List String) : EngineProg Outcome :=
  Prog.repeatUntil 0 (sequenceTurn E t disabled ids)

end
end DeterminFlow.Engine
