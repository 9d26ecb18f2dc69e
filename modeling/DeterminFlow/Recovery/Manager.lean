/-
  Recovery.Manager
  **A TASK UNDER ITS MANAGER.**

  What `WorkflowManager` keeps of one task in one process, and the operations
  on it that are handled locally: `run_task`, `retry_node`, `skip_node` and
  the recovery of the task.  Each runs under the control lock of the task or
  without an `await` in between, so each is one function of the state it
  finds.
-/
import DeterminFlow.Recovery.TaskRecovery

namespace DeterminFlow.Recovery

open Library Workflow DeterminFlow.Runtime

/-! ## The state of a manager -/

structure ExecutorIdentity where
  executorId : String
  epoch : String
  deriving DecidableEq

/-- The part of a manager that concerns one task. -/
structure Manager where
  workflowId : String := ""
  taskId : String := ""
  now : Timestamp := ""
  /-- `is_workflow_owner_enabled`. -/
  ownerEnabled : Bool := true
  /-- `accepting_new_tasks`. -/
  admits : Bool := true
  /-- The ids in `_session_manager.sessions`. -/
  sessions : List String := []
  /-- The identity of this executor, in an executor process. -/
  identity : Option ExecutorIdentity := none
  /-- The current definition of a workflow. -/
  workflow : String → Option WorkflowDef := fun _ => none
  /-- The task file. -/
  disk : Option StoredTask := none
  /-- `_running_tasks` holds a runner of the task that is not done. -/
  running : Bool := false
  /-- `_retry_timer_generations`. -/
  generation : Nat := 0

def statusText : TaskStatus → String
  | .preRunning => "pre_running"
  | .pending => "pending"
  | .running => "running"
  | .completed => "completed"
  | .failed => "failed"
  | .retryWaiting => "retry_waiting"
  | .stopped => "stopped"
  | .resumePending => "resume_pending"
  | .other text => text

def nodeStatusText : NodeStatus → String
  | .pending => "pending"
  | .running => "running"
  | .completed => "completed"
  | .failed => "failed"
  | .skipped => "skipped"
  | .retryWaiting => "retry_waiting"
  | .rejected => "rejected"
  | .waitingRetry => "waiting_retry"
  | .waitingApproval => "waiting_approval"
  | .success => "success"
  | .other text => text

/-- What an operation answers. -/
structure Reply where
  success : Bool
  error : String := ""
  message : String := ""
  deriving DecidableEq

namespace Manager

variable (M : Manager)

/-- `_save_task`. -/
def save (task : StoredTask) : Manager := { M with disk := some { task with updatedAt := M.now } }

/-- `_workflow_read_only_result`. -/
def readOnlyReply : Reply where
  success := false
  message := "工作流 " ++ M.workflowId ++ " 所属扩展未处于运行状态，" ++ "当前仅允许读取历史任务"

/-- `_task_ownership_error` finds nothing. -/
def owns (task : StoredTask) : Bool :=
  M.identity.all (fun identity => task.executorId == some identity.executorId
    && task.executorEpoch == some identity.epoch)

def staleReply : Reply where
  success := false
  error := "executor_epoch_stale"
  message := "Task 不属于当前 Workflow Executor 世代"

def assignController (task : StoredTask) : StoredTask × Manager :=
  if task.executorId.isNone then
    let task := { task with executorId := some "controller", executorEpoch := some "inline" }
    (task, M.save task)
  else (task, M)

def mainAlive (task : StoredTask) : Bool := task.mainSessionId.any (· ∈ M.sessions)

/-! ## Starting a task -/

def definitionOf (task : StoredTask) : Option WorkflowDef :=
  task.snapshotDefinition.or (M.workflow M.workflowId)

/-- The checks of `run_task` on a task with a settled owner; `none` when it starts. -/
def startRefusal (task : StoredTask) : Option Reply :=
  if M.owns task = false then some staleReply
  else if task.status ≠ .pending ∧ task.status ≠ .resumePending then
    some { success := false, error := "task_state_conflict",
           message := "任务状态为 " ++ statusText task.status
             ++ "；仅待启动任务可以启动。" ++ "失败节点请使用节点重试或跳过操作" }
  else if task.status = .pending ∧ M.admits = false then
    some { success := false, error := "runtime_draining",
           message := "运行时正在排空，暂不接受新的工作流任务" }
  else if task.mainTakeover ∧ M.mainAlive task = false then
    some { success := false, error := "main_takeover_unavailable",
           message := "Main 接管审批不可用：任务所属 Main Session 不在运行期" }
  else if M.running then some { success := false, message := "任务已在运行中" }
  else if (M.definitionOf task).isNone then
    some { success := false, message := "工作流 " ++ M.workflowId ++ " 不存在" }
  else none

def startedTask (task : StoredTask) : StoredTask :=
  { task with status := .running, startedAt := some M.now, completedAt := none,
              currentNodeId := none, runId := none }

/-- **`run_task`** of a task that is not delegated, from its start. -/
def runTask : Reply × Manager :=
  if M.ownerEnabled = false then (M.readOnlyReply, M)
  else
    match M.disk with
    | none => ({ success := false, message := "任务 " ++ M.taskId ++ " 不存在" }, M)
    | some task =>
      let (task, M) := if task.mainTakeover then M.assignController task else (task, M)
      match M.startRefusal task with
      | some reply => (reply, M)
      | none =>
        ({ success := true, message := "任务已启动" },
         { M.save (M.startedTask task) with running := true })

/-! ## Retrying and skipping a node -/

/-- The two operations on a failed node. -/
inductive NodeControl where
  | retry
  | skip
  deriving DecidableEq

def controlError (error message : String) : Reply :=
  { success := false, error := error, message := message }

/-- `failed` or `retry_waiting`, of a task. -/
def controllableTask (status : TaskStatus) : Bool := status == .failed || status == .retryWaiting

/-- `failed` or `retry_waiting`, of a node. -/
def controllableNode (status : NodeStatus) : Bool := status == .failed || status == .retryWaiting

/-- `expected_attempt_count`, when it is a non-negative integer. -/
def expectedCount (expected : PyValue) : Option Int :=
  match expected with
  | .int n => if 0 ≤ n then some n else none
  | _ => none

/-- **`_validate_node_control`**: the task and the node state, or the refusal. -/
def validateNodeControl (nodeId : String) (expected : PyValue) :
    Except Reply (StoredTask × NodeExecutionState) :=
  match M.disk with
  | none => .error (controlError "task_not_found" ("任务 " ++ M.taskId ++ " 不存在"))
  | some task =>
    if controllableTask task.status = false then
      .error (controlError "node_control_conflict" ("任务状态为 " ++ statusText task.status
        ++ "；仅 failed 或 retry_waiting " ++ "任务允许修改失败节点"))
    else
      match task.nodeStates.get? nodeId with
      | none => .error (controlError "node_not_found" ("任务中不存在节点 " ++ nodeId))
      | some state =>
        if M.running then
          .error (controlError "node_control_conflict" "任务正在执行，不能同时修改节点状态")
        else if controllableNode state.status = false then
          .error (controlError "node_control_conflict" ("节点状态为 "
            ++ nodeStatusText state.status ++ "；仅 failed 或 retry_waiting " ++ "节点允许此操作"))
        else
          match expectedCount expected with
          | none =>
            .error (controlError "node_control_invalid" "expected_attempt_count 必须是非负整数")
          | some n =>
            if (state.attemptCount : Int) ≠ n then
              .error (controlError "node_control_stale"
                ("节点已产生新的执行尝试；请刷新详情后再操作 " ++ "(expected=" ++ toString n
                  ++ ", current=" ++ toString state.attemptCount ++ ")"))
            else .ok (task, state)

def asControlled (state : NodeExecutionState) : NodeExecutionState :=
  if state.status = .retryWaiting then asFailed state else state

def controlledState (op : NodeControl) (state : NodeExecutionState) : Option NodeExecutionState :=
  match op with
  | .retry => (asControlled state).prepareRetry .manualRetry none
  | .skip => some ((asControlled state).failureSkipped M.now)

def controlledTask (task : StoredTask) (nodeId : String) (state : NodeExecutionState) :
    StoredTask :=
  prepareForResume { task with nodeStates := task.nodeStates.set nodeId state }

def controlNode (op : NodeControl) (nodeId : String) (expected : PyValue) : Reply × Manager :=
  match M.validateNodeControl nodeId expected with
  | .error reply => (reply, M)
  | .ok (task, state) =>
    match M.controlledState op state with
    -- the `ValueError` of `prepare_node_retry`; the state counts as failed, so it is not raised
    | none => (controlError "" "只有 failed 节点可以准备重试", M)
    | some next =>
      ({ M with generation := M.generation + 1 }.save
        (controlledTask task nodeId next)).runTask

/-- **`retry_node` and `skip_node`**, handled locally.  `called` is the state
at the call, `M` the one found when the control lock is taken. -/
def nodeControl (called : Manager) (op : NodeControl) (nodeId : String) (expected : PyValue) :
    Reply × Manager :=
  if called.ownerEnabled = false then (called.readOnlyReply, M)
  else if (called.disk.all called.owns) = false then (staleReply, M)
  else M.controlNode op nodeId expected

/-! ## Recovering -/

/-- `_recover_task` with the start it ends with; an exception leaves the file alone. -/
def recover (R : RecoveryEnv) : Manager :=
  match M.disk with
  | none => M
  | some task =>
    if recoverableStatus task.status = false then M
    else
      match recoverTask R task with
      | none => M
      | some (.resume, task) => (M.save task).runTask.2
      | some (.scheduled, task) => { M.save task with generation := M.generation + 1 }
      | some (.failed, task) => M.save task

/-- The file of one pass of `recover_workflow_tasks`: tasks of a switched-off
extension, and those of another executor generation, are passed over. -/
def recoverPass (R : RecoveryEnv) (executor : Option ExecutorIdentity) : Manager :=
  if M.ownerEnabled = false then M
  else if executor.any (fun identity => M.disk.any (fun task =>
      task.executorId != some identity.executorId || task.executorEpoch != some identity.epoch))
    then M
  else M.recover R

/-! ## What starting a task does -/

def persisted : Option (TaskStatus × Dict String NodeExecutionState
    × Dict String ConditionState × Dict String LoopCursor) :=
  M.disk.map (fun task => (task.status, task.nodeStates, task.conditions, task.loops))

variable {M}

lemma startRefusal_fails {task : StoredTask} {reply : Reply}
    (h : M.startRefusal task = some reply) : reply.success = false := by
  unfold startRefusal at h
  split at h
  · cases h
    rfl
  split at h
  · cases h
    rfl
  split at h
  · cases h
    rfl
  split at h
  · cases h
    rfl
  split at h
  · cases h
    rfl
  split at h
  · cases h
    rfl
  cases h

lemma startRefusal_eq_none_iff {task : StoredTask} (hstatus : task.status = .resumePending)
    (hidle : M.running = false) : M.startRefusal task = none ↔ M.owns task = true
      ∧ (task.mainTakeover = true → M.mainAlive task = true)
      ∧ (M.definitionOf task).isSome := by
  unfold startRefusal
  by_cases howns : M.owns task = false
  · rw [if_pos howns]
    simp [howns]
  rw [if_neg howns, if_neg (by simp [hstatus]), if_neg (by simp [hstatus])]
  simp only [Bool.not_eq_false] at howns
  by_cases halive : task.mainTakeover = true ∧ M.mainAlive task = false
  · rw [if_pos halive]
    simp [halive.1, halive.2]
  rw [if_neg halive, if_neg (by simp [hidle])]
  have hmain : task.mainTakeover = true → M.mainAlive task = true := by
    intro htakeover
    by_contra hdead
    exact halive ⟨htakeover, by simpa using hdead⟩
  cases hdef : M.definitionOf task with
  | none => simp
  | some =>
    rw [if_neg (by simp)]
    exact ⟨fun _ => ⟨howns, hmain, rfl⟩, fun _ => rfl⟩

def settleOwner (M : Manager) (task : StoredTask) : StoredTask × Manager :=
  if task.mainTakeover then M.assignController task else (task, M)

lemma settleOwner_spec (M : Manager) (task : StoredTask) :
    (settleOwner M task).1.status = task.status
      ∧ (settleOwner M task).1.mainTakeover = task.mainTakeover
      ∧ (settleOwner M task).1.mainSessionId = task.mainSessionId
      ∧ (settleOwner M task).1.snapshotDefinition = task.snapshotDefinition
      ∧ (settleOwner M task).2.running = M.running
      ∧ (settleOwner M task).2.sessions = M.sessions
      ∧ (settleOwner M task).2.identity = M.identity
      ∧ (settleOwner M task).2.workflow = M.workflow
      ∧ (settleOwner M task).2.workflowId = M.workflowId
      ∧ (M.disk = some task → (settleOwner M task).2.persisted = M.persisted) := by
  have hkeep : M.disk = some task → M.persisted = some (task.status, task.nodeStates,
      task.conditions, task.loops) := by
    intro hdisk
    unfold persisted
    rw [hdisk]
    rfl
  unfold settleOwner assignController
  split
  · split
    · exact ⟨rfl, rfl, rfl, rfl, rfl, rfl, rfl, rfl, rfl, fun hdisk => (hkeep hdisk).symm⟩
    exact ⟨rfl, rfl, rfl, rfl, rfl, rfl, rfl, rfl, rfl, fun _ => rfl⟩
  exact ⟨rfl, rfl, rfl, rfl, rfl, rfl, rfl, rfl, rfl, fun _ => rfl⟩

lemma runTask_eq {task : StoredTask} (howner : M.ownerEnabled = true)
    (hdisk : M.disk = some task) :
    M.runTask = match (settleOwner M task).2.startRefusal (settleOwner M task).1 with
      | some reply => (reply, (settleOwner M task).2)
      | none => ({ success := true, message := "任务已启动" },
          { (settleOwner M task).2.save ((settleOwner M task).2.startedTask (settleOwner M task).1)
            with running := true }) := by
  unfold runTask
  rw [if_neg (by simp [howner]), hdisk]
  rfl

lemma runTask_refused (h : M.runTask.1.success = false) : M.runTask.2.persisted = M.persisted := by
  by_cases howner : M.ownerEnabled = true
  · cases hdisk : M.disk with
    | none =>
      unfold runTask
      rw [if_neg (by simp [howner])]
      simp only [hdisk]
    | some task =>
      rw [runTask_eq howner hdisk] at h ⊢
      cases hrefusal : (settleOwner M task).2.startRefusal (settleOwner M task).1 with
      | none =>
        rw [hrefusal] at h
        cases h
      | some => exact (settleOwner_spec M task).2.2.2.2.2.2.2.2.2 hdisk
  unfold runTask
  rw [if_pos (by simpa using howner)]

/-- Nothing stands against the start of a task. -/
structure Startable (M : Manager) (task : StoredTask) : Prop where
  owner : M.ownerEnabled = true
  owned : M.owns (settleOwner M task).1 = true
  main : task.mainTakeover = true → M.mainAlive task = true
  defined : (M.definitionOf task).isSome

lemma runTask_succeeds_iff {task : StoredTask} (hdisk : M.disk = some task)
    (hstatus : task.status = .resumePending) (hidle : M.running = false) :
    M.runTask.1.success = true ↔ M.Startable task := by
  obtain ⟨hstatus', htakeover, hsession, hsnapshot, hrunning, hsessions, hidentity, hworkflow,
    hid, _⟩ := settleOwner_spec M task
  have howns : (settleOwner M task).2.owns (settleOwner M task).1
      = M.owns (settleOwner M task).1 := by
    unfold owns
    rw [hidentity]
  have halive : (settleOwner M task).2.mainAlive (settleOwner M task).1 = M.mainAlive task := by
    unfold mainAlive
    rw [hsessions, hsession]
  have hdefined : (settleOwner M task).2.definitionOf (settleOwner M task).1
      = M.definitionOf task := by
    unfold definitionOf
    rw [hsnapshot, hworkflow, hid]
  have hnone := startRefusal_eq_none_iff (hstatus'.trans hstatus) (hrunning.trans hidle)
  rw [howns, htakeover, halive, hdefined] at hnone
  by_cases howner : M.ownerEnabled = true
  · rw [runTask_eq howner hdisk]
    cases hrefusal : (settleOwner M task).2.startRefusal (settleOwner M task).1 with
    | none =>
      obtain ⟨h₁, h₂, h₃⟩ := hnone.1 hrefusal
      exact ⟨fun _ => ⟨howner, h₁, h₂, h₃⟩, fun _ => rfl⟩
    | some =>
      refine ⟨?_, ?_⟩
      · intro hsuccess
        rw [startRefusal_fails hrefusal] at hsuccess
        cases hsuccess
      intro hstart
      rw [hnone.2 ⟨hstart.owned, hstart.main, hstart.defined⟩] at hrefusal
      cases hrefusal
  refine ⟨?_, fun hstart => absurd hstart.owner howner⟩
  intro hsuccess
  unfold runTask at hsuccess
  rw [if_pos (by simpa using howner)] at hsuccess
  cases hsuccess

end Manager
end DeterminFlow.Recovery
