/-
  Runtime.NodeState
  **NODE STATES AND THE FAILURE POLICY.**

  `NodeExecutionState` of `workflow/runtime_models.py` with every field the
  engine reads or copies, and the pure functions of
  `workflow/failure_policy.py` on it: beginning an attempt, recording it,
  preparing a retry, skipping after a failure.

  A policy function copies the state it is given, so on values it is an
  ordinary update; where the engine shares one state object between two
  places is modelled in `Runtime.World`.
-/
import DeterminFlow.Library.Dict
import DeterminFlow.Workflow.Definition

namespace DeterminFlow.Runtime

open Library Workflow

/-! ## Values -/

/-- JSON values, as parameters, outputs and loop items carry them. -/
inductive Json where
  | null
  | bool (value : Bool)
  | int (value : Int)
  | float (value : Rat)
  | str (value : String)
  | list (items : List Json)
  | dict (entries : List (String × Json))

/-- `bool(value)`. -/
def Json.truthy : Json → Bool
  | .null => false
  | .bool b => b
  | .int i => i != 0
  | .float q => q != 0
  | .str s => s != ""
  | .list items => !items.isEmpty
  | .dict entries => !entries.isEmpty

abbrev Pool : Type := Dict String Json

abbrev Timestamp : Type := String

inductive NodeStatus where
  | pending
  | running
  | completed
  | failed
  | skipped
  | retryWaiting
  | rejected
  /-- Set on an upstream node by an accepted `reject_upstream`. -/
  | waitingRetry
  | waitingApproval
  /-- The plugins' older name for `completed`. -/
  | success
  | other (text : String)
  deriving DecidableEq

/-- `normalize_node_status`. -/
def NodeStatus.normalize : NodeStatus → NodeStatus
  | .success => .completed
  | s => s

def NodeStatus.terminal (s : NodeStatus) : Bool := s == .completed || s == .skipped

/-- Why the next attempt is made. -/
inductive Trigger where
  | initial
  | autoRetry
  | manualRetry
  | validatorRetry
  | recoveryReissue
  | other (text : String)
  deriving DecidableEq

/-- One call of the token ledger: its id, and its JSON text for calls without one. -/
structure TokenCall where
  callId : String
  dump : String
  deriving DecidableEq

abbrev TokenUsage : Type := Dict String (Dict String Rat)

/-- An entry of `rejection_history`. -/
structure RejectionEvent where
  rejectionId : String
  occurredAt : Timestamp
  validatorNodeId : String
  targetNodeId : String
  retryIndex : Nat
  maxRetries : Nat
  errorCodes : List String
  reason : String
  resolution : String := "retrying"
  resolvedAt : Option Timestamp := none
  retrySessionId : String := ""
  retryCallIds : List String := []

/-- An entry of `iteration_history`. -/
structure IterationSnapshot where
  iteration : Nat
  status : NodeStatus
  summary : String
  outputs : Pool
  startedAt : Option Timestamp
  completedAt : Option Timestamp
  error : String
  rejectionCount : Nat
  rejectionReason : String
  rejectUpstreamCount : Nat
  rejectionHistory : List RejectionEvent

/-- An entry of `attempt_history`. -/
structure AttemptRecord where
  attemptNumber : Nat
  trigger : Trigger
  status : NodeStatus
  automaticRetryCount : Nat
  sessionId : String
  startedAt : Option Timestamp
  completedAt : Option Timestamp
  error : String

structure NodeExecutionState where
  nodeId : String := ""
  status : NodeStatus := .pending
  sessionId : String := ""
  startedAt : Option Timestamp := none
  completedAt : Option Timestamp := none
  summary : String := ""
  error : String := ""
  rejectionCount : Nat := 0
  rejectionReason : String := ""
  rejectUpstreamCount : Nat := 0
  outputs : Pool := []
  stdout : String := ""
  stderr : String := ""
  tokenUsage : Option TokenUsage := none
  tokenUsageCalls : List TokenCall := []
  rejectionHistory : List RejectionEvent := []
  iterationHistory : List IterationSnapshot := []
  childStates : List (String × NodeExecutionState) := []
  isSkipped : Bool := false
  attemptCount : Nat := 0
  automaticRetryCount : Nat := 0
  nextRetryAt : Option Timestamp := none
  attemptHistory : List AttemptRecord := []
  inputSnapshot : Pool := []
  upstreamSummarySnapshot : String := ""
  nextAttemptTrigger : Trigger := .initial

/-! ## The failure policy -/

/-- `automatic_retries_remaining`: settings that are no integers give none. -/
def automaticRetriesRemaining (node : WorkflowNode) (state : NodeExecutionState) : Nat :=
  match node.autoRetryCount with
  | .int configured => (min configured 20 - state.automaticRetryCount).toNat
  | _ => 0

def canAutoRetry (node : WorkflowNode) (state : NodeExecutionState) : Bool :=
  state.status.normalize == .failed && decide (0 < automaticRetriesRemaining node state)

def shouldAutoSkip (node : WorkflowNode) (state : NodeExecutionState) : Bool :=
  state.status.normalize == .failed && node.failAutoSkip && !canAutoRetry node state

namespace NodeExecutionState

def freezesInput (state : NodeExecutionState) : Bool :=
  state.attemptCount == 0 || state.nextAttemptTrigger == .initial

/-- `begin_node_attempt`, with the input and upstream summary the engine passes. -/
def beginAttempt (state : NodeExecutionState) (startedAt : Timestamp) (input : Pool)
    (upstreamSummary : String) : NodeExecutionState :=
  let reissuing := state.nextAttemptTrigger == .recoveryReissue
  { state with
    status := .running
    sessionId := if reissuing then state.sessionId else ""
    startedAt := some startedAt
    completedAt := none
    summary := if reissuing then state.summary else ""
    error := ""
    outputs := []
    stdout := ""
    stderr := ""
    isSkipped := false
    attemptCount := state.attemptCount + 1
    nextRetryAt := none
    inputSnapshot := if state.freezesInput then input else state.inputSnapshot
    upstreamSummarySnapshot :=
      if state.freezesInput then upstreamSummary else state.upstreamSummarySnapshot }

def attemptRecord (state : NodeExecutionState) : AttemptRecord where
  attemptNumber := state.attemptCount
  trigger := state.nextAttemptTrigger
  status := state.status.normalize
  automaticRetryCount := state.automaticRetryCount
  sessionId := state.sessionId
  startedAt := state.startedAt
  completedAt := state.completedAt
  error := state.error

/-- `record_attempt` with the state's own status and completion time: the
entry of the same attempt is overwritten, otherwise one is appended. -/
def recordAttempt (state : NodeExecutionState) : NodeExecutionState :=
  let last := state.attemptHistory.getLast?.map (·.attemptNumber)
  { state with
    status := state.status.normalize
    attemptHistory :=
      if last = some state.attemptCount then
        state.attemptHistory.dropLast ++ [state.attemptRecord]
      else state.attemptHistory ++ [state.attemptRecord] }

/-- The state `prepare_node_retry` builds: transient data cleared, ledger,
histories and frozen input kept.  An automatic retry consumes budget, the
other triggers start a new chain. -/
def preparedRetry (state : NodeExecutionState) (trigger : Trigger)
    (nextRetryAt : Option Timestamp) : NodeExecutionState :=
  { state with
    status := if nextRetryAt.isSome then .retryWaiting else .pending
    sessionId := ""
    startedAt := none
    completedAt := none
    summary := ""
    error := ""
    rejectionReason := ""
    outputs := []
    stdout := ""
    stderr := ""
    isSkipped := false
    automaticRetryCount := if trigger = .autoRetry then state.automaticRetryCount + 1 else 0
    nextRetryAt := nextRetryAt
    nextAttemptTrigger := trigger }

/-- The triggers `prepare_node_retry` accepts. -/
def isRetryTrigger (trigger : Trigger) : Bool :=
  trigger == .autoRetry || trigger == .manualRetry || trigger == .validatorRetry

/-- `prepare_node_retry` with `preserve_child_runtime`; `none` stands for its
`ValueError`s.  Scheduling the same automatic retry again changes nothing. -/
def prepareRetry (state : NodeExecutionState) (trigger : Trigger)
    (nextRetryAt : Option Timestamp) : Option NodeExecutionState :=
  if isRetryTrigger trigger = false then none
  else if trigger = .autoRetry ∧ state.status = .retryWaiting
      ∧ state.nextAttemptTrigger = trigger ∧ state.nextRetryAt = nextRetryAt then some state
  else if state.status.normalize ≠ .failed then none
  else some (state.preparedRetry trigger nextRetryAt)

def activateScheduledRetry (state : NodeExecutionState) : Option NodeExecutionState :=
  if state.status = .retryWaiting then
    some { state with status := .pending, nextRetryAt := none }
  else none

/-- `apply_failure_skip` on a failed state. -/
def failureSkipped (state : NodeExecutionState) (completedAt : Timestamp) :
    NodeExecutionState :=
  { state with
    status := .skipped
    sessionId := ""
    completedAt := some completedAt
    summary := ""
    outputs := []
    stdout := ""
    stderr := ""
    isSkipped := true
    nextRetryAt := none }

/-- `_snapshot_node_for_iteration`. -/
def snapshotForIteration (state : NodeExecutionState) (iteration : Nat) : NodeExecutionState :=
  { state with
    iterationHistory := state.iterationHistory ++
      [{ iteration := iteration, status := state.status, summary := state.summary,
         outputs := state.outputs, startedAt := state.startedAt,
         completedAt := state.completedAt, error := state.error,
         rejectionCount := state.rejectionCount, rejectionReason := state.rejectionReason,
         rejectUpstreamCount := state.rejectUpstreamCount,
         rejectionHistory := state.rejectionHistory }] }

/-- What `_reset_node_for_loop_iteration` leaves: ledger, attempts and
iteration history are kept, everything of the last round is cleared. -/
def resetForIteration (state : NodeExecutionState) : NodeExecutionState :=
  { state with
    status := .pending
    startedAt := none
    completedAt := none
    summary := ""
    error := ""
    sessionId := ""
    outputs := []
    stdout := ""
    stderr := ""
    childStates := []
    isSkipped := false
    automaticRetryCount := 0
    nextRetryAt := none
    inputSnapshot := []
    upstreamSummarySnapshot := ""
    nextAttemptTrigger := .initial
    rejectionCount := 0
    rejectionReason := ""
    rejectUpstreamCount := 0
    rejectionHistory := [] }

end NodeExecutionState

/-! ## Token ledgers -/

def mergeCounters (target values : Dict String Rat) : Dict String Rat :=
  values.foldl (fun acc entry => acc.set entry.1 ((acc.get? entry.1).getD 0 + entry.2)) target

/-- `_merge_token_usage`; an empty ledger counts as none. -/
def mergeTokenUsage (previous current : Option TokenUsage) : Option TokenUsage :=
  match previous.filter (· ≠ []), current.filter (· ≠ []) with
  | none, _ => current
  | some _, none => previous
  | some p, some c =>
    some (c.foldl
      (fun acc entry => acc.set entry.1 (mergeCounters ((acc.get? entry.1).getD []) entry.2)) p)

def TokenCall.key (call : TokenCall) : String := if call.callId = "" then call.dump else call.callId

/-- `_merge_token_usage_calls`: the first call of each identity, in order. -/
def mergeTokenUsageCalls (previous current : List TokenCall) : List TokenCall :=
  (previous ++ current).foldl
    (fun acc call => if call.key ∈ acc.map TokenCall.key then acc else acc ++ [call]) []

/-! ## Lemmas on statuses -/

lemma NodeStatus.normalize_eq_running {s : NodeStatus} : s.normalize = .running ↔ s = .running := by
  cases s <;> simp [NodeStatus.normalize]

end DeterminFlow.Runtime
