/-
  Engine.TaskRun
  **RUNNING A TASK.**

  `execute_task` of `workflow/engine.py`, and `_run_task_coroutine` with
  what `stop_task` does around it in `workflow/manager.py`.

  `engineMachine` puts the parts together: the runner is the main task, the
  branches of parallel gateways are its children.
-/
import DeterminFlow.Engine.ControlFlow

namespace DeterminFlow.Engine

open Library Coop Workflow DeterminFlow.Runtime

section
variable (E : Env)

/-! ## `execute_task` -/

def startTask (w : World) : World :=
  { w with task := { w.task with
      status := .running
      startedAt := w.task.startedAt.or (some w.clock)
      currentNodeId := none } }

def markDisabled (w : World) (nodeId : String) : World :=
  w.upsert nodeId (fun s => { s with status := .skipped, completedAt := some w.clock })

def markAllDisabled (disabled : List String) (w : World) : World :=
  (E.setOrder disabled).foldl markDisabled w

def skipToNode (plan : List PlanStep) (fromNodeId : String) : Nat :=
  (plan.findIdx? (fun step => decide (fromNodeId ∈ step.scheduled))).getD 0

def outcomeStatus : Outcome → TaskStatus
  | .completed => .completed
  | .failed => .failed
  | .retryWaiting => .retryWaiting

/-- The plan has been executed, or `none`: an exception was raised. -/
def finishPlan (outcome : Option Outcome) (w : World) : World :=
  match outcome with
  | none => { w with task := { w.task with status := .failed } }
  | some .completed =>
    { w with task := { w.task with status := .completed, currentNodeId := none } }
  | some outcome => { w with task := { w.task with status := outcomeStatus outcome } }

/-- `task.completed_at` at the end of a run. -/
def stampCompletion (w : World) : World :=
  { w with task := { w.task with
      completedAt := if w.task.status = .retryWaiting then none else some w.clock } }

def taskPlan : List PlanStep := E.definition.getExecutionPlan E.candidate none none

def planStart (fromNodeId : Option String) : Nat :=
  match fromNodeId.filter (· ≠ "") with
  | some nodeId => skipToNode (taskPlan E) nodeId
  | none => 0

/-- The part of `execute_task` inside `try … except Exception`. -/
def executePlan (disabled : List String) (fromNodeId : Option String) : EngineProg Unit :=
  Prog.tryCatch
    (do
      let outcome ← executePlanSegment E disabled E.recursionLimit (taskPlan E) none
        (planStart E fromNodeId)
      Prog.modify (finishPlan (some outcome)))
    fun
      | .cancelled => Prog.raise .cancelled
      | .error _ => Prog.modify (finishPlan none)

def finalizeRun : EngineProg Unit :=
  Prog.call .saveMain fun
    | .error .cancelled => Prog.raise .cancelled
    | _ => pure ()

def executeTask (fromNodeId : Option String) : EngineProg Unit := do
  Prog.modify startTask
  let _ ← Prog.wait .openMain
  let w ← Prog.get
  let disabled := w.task.disabledNodeIds.dedup
  Prog.modify (markAllDisabled E disabled)
  whenever (!disabled.isEmpty) saveTaskState
  executePlan E disabled fromNodeId
  Prog.modify stampCompletion
  finalizeRun

/-! ## `_run_task_coroutine` -/

/-- `_save_task` where the file can be written: no thread, no lock. -/
def saveNow (w : World) : World :=
  let w := { w with task := { w.task with updatedAt := w.clock } }
  { w with disk := some w.snapshot, snapshots := w.snapshot :: w.snapshots }

def saveTask : EngineProg Unit := do
  let w ← Prog.get
  if w.writable then Prog.modify saveNow else Prog.raise (.error "_save_task")

def closeTask (status : TaskStatus) (w : World) : World :=
  { w with task := { w.task with status := status, completedAt := some w.clock } }

/-- `_release_terminal_task_sessions`. -/
def releaseSessions : EngineProg Unit :=
  Prog.call .releaseSessions fun
    | .error .cancelled => Prog.raise .cancelled
    | _ => pure ()

def runTaskCoroutine (fromNodeId : Option String) : EngineProg Unit := do
  let result ← Prog.attempt (do
    let w ← Prog.get
    if w.task.mainTakeover ∧ w.task.mainSessionId.all (· ∉ w.sessions.registered) then
      Prog.raise (.error "Main 接管审批不可用：任务所属 Main Session 不在运行期")
    else executeTask E fromNodeId)
  match result with
  | .ok _ => Prog.tryCatch saveTask fun
      | .cancelled => Prog.raise .cancelled
      | .error _ => pure ()
  | .error .cancelled => do
      Prog.modify (closeTask .stopped)
      saveTask
      releaseSessions
      Prog.raise .cancelled
  | .error (.error _) => do
      Prog.modify (closeTask .failed)
      saveTask
      releaseSessions

/-! ## The machine of a task -/

def engineMachine : Machine engineSig where
  accepts := accepts
  fire := E.fire
  settle := settle
  settleCancel := noteCancelled
  body := fun i branch => executeNodeSequence E (.kid i) branch.disabled branch.nodes
  cancelled := .cancelled

/-- The statuses `stop_task` leaves on disk as they are. -/
def endedOnDisk (status : TaskStatus) : Bool :=
  status == .completed || status == .failed || status == .stopped || status == .other "cancelled"

/-- What `stop_task` does after the runner has ended. -/
def stopTaskEpilogue (w : World) : World :=
  match w.disk with
  | none => w
  | some data =>
    if endedOnDisk data.status then w
    else
      { w with disk := some { data with
          status := .stopped, completedAt := some w.clock, updatedAt := w.clock } }

end

/-! ## Replaying runs -/

def plainEnv (d : WorkflowDef) : Env where
  definition := d
  holds := fun _ _ => some true
  parseLoopExpression := fun _ => none
  parseJson := fun _ => none
  itemText := fun _ => ""
  retryDeadline := fun now _ => some now
  recursionLimit := 1000

def launch (E : Env) (w : World) : Config engineSig Unit :=
  Machine.initial w (executeTask E none)

def retried (nodeId : String) (data : TaskData) : TaskData :=
  { data with
    status := .resumePending
    nodeStates := data.nodeStates.mapValues (fun id s =>
      if id = nodeId then s.preparedRetry .manualRetry none else s) }

def resumedWorld (nodeId : String) (w : World) : World :=
  { World.load (retried nodeId (w.disk.getD {})) with log := w.log }

/-- `execute_task` has returned. -/
def returned (c : Config engineSig Unit) : Bool :=
  c.running.isNone && (c.main.result?).any (fun | .ok _ => true | .error _ => false)

lemma returned_iff {c : Config engineSig Unit} :
    returned c = true ↔ c.running = none ∧ c.main.result? = some (.ok ()) := by
  unfold returned
  cases hresult : c.main.result? with
  | none => simp
  | some r => cases r <;> simp

/-- `asyncio.CancelledError`. -/
def Exn.isCancelled : Exn → Bool
  | .cancelled => true
  | .error _ => false

def wasCancelled (c : Config engineSig Unit) : Bool :=
  c.running.isNone && (c.main.result?).any (fun | .ok _ => false | .error e => Exn.isCancelled e)

lemma wasCancelled_iff {c : Config engineSig Unit} :
    wasCancelled c = true ↔ c.running = none ∧ c.main.result? = some (.error .cancelled) := by
  unfold wasCancelled
  cases hresult : c.main.result? with
  | none => simp
  | some r =>
    cases r with
    | ok => simp
    | error e =>
      cases e with
      | cancelled => simp [Exn.isCancelled]
      | error m =>
        have hne : (Except.error (Exn.error m) : Except Exn Unit) ≠ .error .cancelled := by
          intro h
          cases h
        simp only [Option.any_some, Exn.isCancelled, Bool.and_false, Bool.false_eq_true,
          Option.some.injEq, false_iff, not_and]
        exact fun _ => hne

/-- A wait of task `t` ends. -/
def proceed (t : Thread) : Move engineSig := .answer t (.ok .done)

def save (t : Thread) : List (Move engineSig) := [proceed t, .event t .land, proceed t]

/-- The plugin of task `t` returns. -/
def finish (t : Thread) (result : NodeResult) : Move engineSig := .answer t (.ok (.result result))

end DeterminFlow.Engine
