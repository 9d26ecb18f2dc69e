/-
  Engine.Environment
  **WHAT THE ENGINE WAITS FOR.**

  The scheduler of `workflow/engine.py` is one coroutine per task and one
  per parallel branch.  This file fixes what they wait for: the save lock
  and the file write, the node plugins, the sessions.  A plugin that runs
  may change the state of its attempt, have it checkpointed, and reject an
  upstream node (`_on_reject_upstream`, `_on_node_checkpoint`); these are
  the events of its pending operation.

  Expression evaluation, JSON and text conversion, and the order of Python
  sets are parameters (`Env`): the results hold whatever they are.
-/
import DeterminFlow.Runtime.World
import DeterminFlow.Workflow.ExecutionPlan
import Mathlib.Data.List.Sort
import Mathlib.Algebra.Order.Ring.Nat

namespace DeterminFlow.Engine

open Library Coop Workflow DeterminFlow.Runtime

/-! ## Parameters of an execution -/

/-- What `parse_loop_expression` returns. -/
inductive LoopExpression where
  | range (var : String) (start stop : Nat)
  | list (var source : String)
  | dict (keyVar valueVar source : String)

/-- The definition under execution, and the functions the engine calls. -/
structure Env where
  definition : WorkflowDef
  workflowId : String := ""
  /-- The start candidate `get_execution_plan` picks. -/
  candidate : String := "__start__"
  /-- Node types with a plugin in the registry. -/
  registered : String → Bool := fun _ => true
  mainSessionId : String := ""
  /-- `session_ws_path`. -/
  sharedWorkspace : String := ""
  /-- `evaluate_condition(await resolve_placeholders(expression, pool))`;
  `none` stands for an exception. -/
  holds : String → Pool → Option Bool
  /-- `parse_loop_expression`; `none` stands for `ValueError`. -/
  parseLoopExpression : String → Option LoopExpression
  /-- `_try_parse_json` on a text. -/
  parseJson : String → Option Json
  /-- `str(item)`, or `json.dumps(item)` for a list or dict. -/
  itemText : Json → String
  /-- `_retry_deadline(interval)` at a time; `none` stands for an exception. -/
  retryDeadline : Timestamp → PyValue → Option Timestamp
  /-- The order in which a set is enumerated. -/
  setOrder : List String → List String := id
  /-- How deep calls may nest before `RecursionError`. -/
  recursionLimit : Nat

def Env.EnumeratesSets (E : Env) : Prop := ∀ l, (E.setOrder l).Perm l

/-- `node.auto_retry_count` and the like belong to this node. -/
def Env.node? (E : Env) (id : String) : Option WorkflowNode := E.definition.getNode id

/-! ## Operations, answers, events -/

/-- Exceptions: `asyncio.CancelledError`, and everything `except Exception` catches. -/
inductive Exn where
  | cancelled
  | error (message : String)
  deriving DecidableEq

/-- What a task waits for. -/
inductive Op where
  /-- `async with save_lock`. -/
  | saveLock
  /-- The thread that replaces the task file. -/
  | write
  /-- `plugin.execute(ctx)` of an attempt. -/
  | plugin (attempt : Nat)
  /-- `sub_session.enqueue(...)`. -/
  | enqueue (sessionId message : String)
  /-- `asyncio.shield(sub_task)`. -/
  | subTask (sessionId : String)
  /-- `session.stop_consumer()` and the final save of a session. -/
  | closeSession (sessionId : String)
  /-- `init_workflow_main`. -/
  | openMain
  /-- `workflow_main.async_save()`. -/
  | saveMain
  /-- `release_workflow_task_sessions`. -/
  | releaseSessions
  deriving DecidableEq

/-- The statuses a plugin returns. -/
inductive ResultStatus where
  | success
  | completed
  | failed
  | rejected
  deriving DecidableEq

/-- `normalize_node_status(result.status)`. -/
def ResultStatus.normalize : ResultStatus → NodeStatus
  | .success => .completed
  | .completed => .completed
  | .failed => .failed
  | .rejected => .rejected

/-- `NodeResult`.  Token usage is that of the session where one is
registered, as `_execute_node` looks it up. -/
structure NodeResult where
  summary : String := ""
  status : ResultStatus := .success
  error : String := ""
  sessionId : String := ""
  outputs : Pool := []
  stdout : String := ""
  stderr : String := ""
  tokenUsage : Option TokenUsage := none
  tokenUsageCalls : List TokenCall := []

inductive Resp where
  | done
  | result (value : NodeResult)

/-- What the plugins assign to the fields of their state object. -/
inductive LivePatch where
  | session (sessionId : String)
  | fail (error : String)
  | awaitApproval (summary : Option String)
  | resume
  | feedback (counted : Bool) (reason : String)
  | children (states : List (String × NodeExecutionState))
  | subprocessSnapshot (value : Json)

def subprocessSnapshotKey : String := "__ai_company_subprocess_checkpoint_v1__"

def LivePatch.apply : LivePatch → NodeExecutionState → NodeExecutionState
  | .session sessionId, s => { s with sessionId := sessionId }
  | .fail error, s => { s with status := .failed, error := error }
  | .awaitApproval summary, s =>
    { s with status := .waitingApproval, summary := summary.getD s.summary }
  | .resume, s => { s with status := .running }
  | .feedback counted reason, s =>
    { s with rejectionReason := reason,
             rejectionCount := if counted then s.rejectionCount + 1 else s.rejectionCount }
  | .children states, s => { s with childStates := states }
  | .subprocessSnapshot value, s =>
    { s with inputSnapshot := s.inputSnapshot.set subprocessSnapshotKey value }

/-- What may happen while an operation is pending. -/
inductive Ev where
  /-- Time passes. -/
  | clock (now : Timestamp)
  /-- Sessions come and go. -/
  | sessions (known : Sessions)
  /-- The disk fills up, or has room again. -/
  | disk (writable : Bool)
  /-- The file is replaced. -/
  | land
  /-- A plugin changes its state object. -/
  | patch (p : LivePatch)
  /-- A plugin calls `checkpoint`. -/
  | checkpoint
  /-- A checkpoint gets the save lock. -/
  | saveStart
  /-- It releases the lock, the file written. -/
  | saveDone
  /-- It releases the lock, the write failed. -/
  | saveFailed
  /-- A plugin calls `reject_upstream`. -/
  | reject (reason targetNodeId : String)

/-- A parallel branch, and the nodes disabled in this execution. -/
structure Branch where
  nodes : List String
  disabled : List String

def engineSig : Sig where
  State := World
  Op := Op
  Resp := Resp
  Ev := Ev
  Exn := Exn
  Arg := Branch
  Out := Outcome

abbrev EngineProg (α : Type) : Type 1 := Prog engineSig α

/-- `if condition: …`. -/
def whenever (condition : Bool) (p : EngineProg Unit) : EngineProg Unit :=
  if condition then p else pure ()

/-! ## Rejecting an upstream node -/

/-- What the reject callback answers. -/
inductive RejectReply where
  | conflict (message : String)
  | refused (message : String)
  | accepted (message upstreamId : String) (attempt maxRejectCount : Nat)

/-- The codes `[a-z][a-z0-9_]*` in brackets, in order. -/
def bracketCodes : List Char → List String
  | [] => []
  | c :: rest =>
    let code := rest.takeWhile (fun x => x.isLower || x.isDigit || x == '_')
    let found := c == '[' && (code.head?.any Char.isLower)
      && (rest.drop code.length).head? == some ']'
    (if found then [String.ofList code] else []) ++ bracketCodes rest

def codePointLe (a b : String) : Bool :=
  let x := a.toList.map Char.toNat
  let y := b.toList.map Char.toNat
  decide (x < y) || decide (x = y)

/-- `sorted(set(re.findall(...)))`. -/
def errorCodes (reason : String) : List String :=
  (bracketCodes reason.toList).dedup.insertionSort (fun a b => codePointLe a b = true)

def getMaxRejectCount (node : WorkflowNode) : Nat :=
  match node.paramMaxRejectCount with
  | some raw => (raw.toInt?.map Int.toNat).getD 3
  | none => node.maxRejectCount.toNat

def rejectionEvent (w : World) (nodeId upstreamId reason : String) (maxReject : Nat)
    (state : NodeExecutionState) : RejectionEvent :=
  let sequence := (state.iterationHistory.map (·.rejectionHistory.length)).sum
    + state.rejectionHistory.length + 1
  let codes := errorCodes reason
  { rejectionId := w.task.taskId ++ ":" ++ nodeId ++ ":" ++ upstreamId ++ ":" ++ toString sequence
    occurredAt := w.clock
    validatorNodeId := nodeId
    targetNodeId := upstreamId
    retryIndex := state.rejectUpstreamCount + 1
    maxRetries := maxReject
    errorCodes := if codes.isEmpty then ["unclassified"] else codes
    reason := reason }

def rejectedState (w : World) (nodeId upstreamId reason : String) (maxReject : Nat)
    (state : NodeExecutionState) : NodeExecutionState :=
  { state with
    rejectUpstreamCount := state.rejectUpstreamCount + 1
    rejectionHistory := state.rejectionHistory ++
      [rejectionEvent w nodeId upstreamId reason maxReject state]
    status := .waitingRetry
    error := "" }

/-- The accepted case: upstream state, then both table entries.  The entry of
the rejecting node is the object of the enclosing loop, not the one the
attempt works on. -/
def acceptReject (w : World) (a : Nat) (attempt : Attempt) (outer upstream : Nat)
    (upstreamId reason : String) (maxReject : Nat) : World :=
  ((((w.modifyObject upstreamId upstream
      (rejectedState w attempt.node upstreamId reason maxReject)).install upstreamId
        upstream).install attempt.node outer).modifyAttempt a
      (fun x => { x with rejected := some upstreamId })).record
    (.rejected attempt.owner attempt.node upstreamId)

namespace Env

variable (E : Env)

/-- The upstream nodes of a node that are neither `__start__` nor gateways. -/
def realUpstreamIds (nodeId : String) : List String :=
  (E.definition.sourcesOf nodeId).filter
    (fun uid => uid != "__start__" && !decide (uid ∈ E.definition.gatewayIds))

def rejectTarget (nodeId targetNodeId : String) : Option String :=
  if targetNodeId ≠ "" then some targetNodeId else (E.realUpstreamIds nodeId).head?

/-- **`_on_reject_upstream`** of attempt `a`, whose enclosing loop holds object `outer`. -/
def onRejectUpstream (a : Nat) (attempt : Attempt) (outer : Nat) (reason targetNodeId : String)
    (w : World) : RejectReply × World :=
  match attempt.rejected with
  | some rejectedId =>
    (.conflict ("reject_upstream conflict: 当前下游节点的本次执行已接受对上游节点 " ++ rejectedId ++ " 的打回请求"), w)
  | none =>
    match E.rejectTarget attempt.node targetNodeId with
    | none =>
      (.refused ("reject_upstream: 从 definition.edges 无法确定上游节点 (node=" ++ attempt.node ++ ")"), w)
    | some upstreamId =>
      match w.current? upstreamId with
      | none => (.refused ("reject_upstream: 上游节点 " ++ upstreamId ++ " 尚未执行"), w)
      | some upstream =>
        if (E.node? upstreamId).isNone then
          (.refused ("reject_upstream: 上游节点 " ++ upstreamId ++ " 不在工作流定义中"), w)
        else
          let state := w.objects upstreamId upstream
          let maxReject := ((E.node? attempt.node).map getMaxRejectCount).getD 3
          if maxReject ≤ state.rejectUpstreamCount then
            (.refused ("reject_upstream: 上游节点 " ++ upstreamId ++ " 已被拒绝 "
              ++ toString state.rejectUpstreamCount ++ " 次，达到上限 " ++ toString maxReject), w)
          else
            (.accepted ("已打回上游节点 " ++ upstreamId ++ "，第 "
                ++ toString (state.rejectUpstreamCount + 1) ++ "/" ++ toString maxReject
                ++ " 次") upstreamId (state.rejectUpstreamCount + 1) maxReject,
              acceptReject w a attempt outer upstream upstreamId reason maxReject)

end Env

/-! ## The machine -/

def accepts (op : Op) (r : Except Exn Resp) (w : World) : Bool :=
  match op with
  | .saveLock =>
    match r with
    | .ok .done => w.writing.isNone
    | .error .cancelled => true
    | _ => false
  | .write =>
    match r with
    | .ok .done => w.landed
    | .error .cancelled => true
    | .error (.error _) => !w.landed
    | _ => false
  | .plugin a =>
    match w.attempts[a]? with
    | none => false
    | some attempt =>
      match r with
      | .ok (.result _) => !attempt.saving && attempt.queued == 0
      | .error _ => !attempt.saving
      | _ => false
  | _ =>
    match r with
    | .ok .done => true
    | .error _ => true
    | _ => false

namespace Env

variable (E : Env)

def firePlugin (a : Nat) (attempt : Attempt) (w : World) : Ev → Option World
  | .patch p => some (w.modifyObject attempt.node attempt.live p.apply)
  | .checkpoint =>
    some ((w.install attempt.node attempt.live).modifyAttempt a
      (fun x => { x with queued := x.queued + 1 }))
  | .saveStart =>
    if w.writing.isNone ∧ attempt.saving = false ∧ 0 < attempt.queued then
      some (w.takeSnapshot.modifyAttempt a
        (fun x => { x with queued := x.queued - 1, saving := true }))
    else none
  | .land => if attempt.saving then some w.land else none
  | .saveDone =>
    if attempt.saving ∧ w.landed = true then
      some (w.releaseSaveLock.modifyAttempt a (fun x => { x with saving := false }))
    else none
  | .saveFailed =>
    if attempt.saving ∧ w.landed = false then
      some (w.releaseSaveLock.modifyAttempt a (fun x => { x with saving := false }))
    else none
  | .reject reason targetNodeId =>
    attempt.outer.map fun outer =>
      (E.onRejectUpstream a attempt outer reason targetNodeId w).2
  | _ => none

def fire (op : Op) (e : Ev) (w : World) : Option World :=
  match e with
  | .clock now => some { w with clock := now }
  | .sessions known => some { w with sessions := known }
  | .disk writable => some { w with writable := writable }
  | e =>
    match op with
    | .write =>
      match e with
      | .land => some w.land
      | _ => none
    | .plugin a => (w.attempts[a]?).bind (fun attempt => E.firePlugin a attempt w e)
    | _ => none

end Env

def noteCancelled (w : World) : World :=
  { w with stopping := w.stopping.or (some w.task.status) }

def cancelNote : Thread → World → World
  | .main, w => noteCancelled w
  | .kid _, w => w

def settle (t : Thread) (_ : Op) (r : Except Exn Resp) (w : World) : World :=
  match r with
  | .error .cancelled => cancelNote t w
  | _ => w

end DeterminFlow.Engine
