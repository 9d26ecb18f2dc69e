/-
  Routing.Ownership
  **WHO EXECUTES A TASK.**

  With a pool of executor processes a task file carries the id and the epoch
  of the executor it belongs to.  The controller assigns tasks, routes
  operations to their owners and rewrites the epochs when an executor has
  been respawned or the pool has been started anew; an executor checks the
  identity in the request against its own, and its own against the file.

  `workflow/execution_routing.py`, `executor_pool.py`,
  `executor_supervisor.py`, `executor_protocol.py` and what `web_server.py`
  does at the start of the pool and after a restart of an executor.
-/
import DeterminFlow.Recovery.Manager

namespace DeterminFlow.Routing

open Library DeterminFlow.Runtime Recovery

/-! ## Task files -/

def ownerOf (task : StoredTask) : Option ExecutorIdentity :=
  match task.executorId, task.executorEpoch with
  | some executorId, some epoch => some { executorId := executorId, epoch := epoch }
  | _, _ => none

/-- `task.executor_id`, `task.executor_epoch` and `_save_task`. -/
def bindTo (now : Timestamp) (task : StoredTask) (current : ExecutorIdentity) : StoredTask :=
  { task with
    executorId := some current.executorId
    executorEpoch := some current.epoch
    updatedAt := now }

def inlineController : ExecutorIdentity where
  executorId := "controller"
  epoch := "inline"

/-- `recoverable` of the two scans. -/
def reassignable (status : TaskStatus) : Bool :=
  status == .pending || status == .running || status == .retryWaiting
    || status == .resumePending || status == .failed

def reassignExecutorTasks (now : Timestamp) (predicate : StoredTask → Bool)
    (current : ExecutorIdentity) (tasks : Dict String StoredTask) : Dict String StoredTask :=
  tasks.mapValues fun _ task =>
    if reassignable task.status && predicate task then bindTo now task current else task

def reassignDeadExecutorGeneration (now : Timestamp) (previous current : ExecutorIdentity)
    (tasks : Dict String StoredTask) : Dict String StoredTask :=
  reassignExecutorTasks now
    (fun task => task.executorId == some previous.executorId
      && task.executorEpoch != some current.epoch) current tasks

/-- `_should_delegate_task`, with a delegate attached. -/
def shouldDelegateTask (task : StoredTask) : Bool :=
  task.executorId != some "controller" && !task.mainTakeover && task.status != .preRunning

/-! ## The pool -/

def executorIds (count : Nat) : List String :=
  (List.range count).map fun index => "workflow-executor-" ++ toString index

/-- A `WorkflowExecutorSupervisor`. -/
structure Supervisor where
  /-- The epoch of the process it has started last. -/
  process : Option String := none
  /-- The epoch of its client, which is updated in place. -/
  client : Option String := none
  ready : Bool := false
  /-- Ghost: the tasks have been scanned since the client has its epoch. -/
  settled : Bool := false
  deriving DecidableEq

/-- A `WorkflowExecutorPool`. -/
structure Pool where
  executorIds : List String
  supervisors : Dict String Supervisor := []
  started : Bool := false
  /-- The executors whose leases the pool holds itself. -/
  retired : List String := []
  selectionIndex : Nat := 0

def Pool.identityOf (pool : Pool) (executorId : String) : Option ExecutorIdentity :=
  ((pool.supervisors.get? executorId).bind (·.client)).map
    fun epoch => { executorId := executorId, epoch := epoch }

inductive Operation where
  /-- `run_task`, `stop_task`, `retry_node`, `skip_node` or `approve_node`. -/
  | task (key : String)
  | recoverOwnedTasks

/-- A request on its way to an executor. -/
structure Frame where
  identity : ExecutorIdentity
  operation : Operation

def validateExecutorGeneration (frame : Frame) (expected : ExecutorIdentity) : Bool :=
  frame.identity.executorId == expected.executorId && frame.identity.epoch == expected.epoch

/-- The task files, the controller, and the executor processes. -/
structure Fleet where
  tasks : Dict String StoredTask := []
  /-- `load_recorded_executor_ids`. -/
  recorded : List String := ["workflow-executor-0"]
  /-- The pool of the controller, when there is a controller. -/
  pool : Option Pool := none
  /-- Processes that wait for their lease. -/
  waiting : List ExecutorIdentity := []
  /-- Processes that hold their lease and serve requests. -/
  live : List ExecutorIdentity := []
  /-- Processes that have served and ended. -/
  dead : List ExecutorIdentity := []
  frames : List Frame := []
  now : Timestamp := ""
  /-- Ghost: the identities clients have had. -/
  adopted : List ExecutorIdentity := []
  /-- Ghost: what executors have accepted. -/
  accepted : List (String × ExecutorIdentity) := []

namespace Fleet

variable (s : Fleet)

def isAlive (g : ExecutorIdentity) : Bool := decide (g ∈ s.waiting) || decide (g ∈ s.live)

/-- `is_ready` and the client of a supervisor. -/
def readyIdentity (pool : Pool) (executorId : String) : Option ExecutorIdentity :=
  match pool.supervisors.get? executorId with
  | none => none
  | some supervisor =>
    if supervisor.ready && supervisor.process.any
        (fun epoch => s.isAlive { executorId := executorId, epoch := epoch })
    then pool.identityOf executorId
    else none

/-- The loop of `select_client`. -/
def selectFrom (pool : Pool) : Nat → Nat → Option (ExecutorIdentity × Nat)
  | 0, _ => none
  | tries + 1, index =>
    match (pool.executorIds[index % pool.executorIds.length]?).bind (s.readyIdentity pool) with
    | some identity => some (identity, index + 1)
    | none => selectFrom pool tries (index + 1)

/-- `select_client`, the identity of the client and the new index. -/
def selectClient (pool : Pool) (index : Nat) : Option (ExecutorIdentity × Nat) :=
  s.selectFrom pool pool.executorIds.length index

/-! ## Reconciling -/

def settleTask (task : StoredTask) (current : ExecutorIdentity) : StoredTask :=
  if task.executorId = some current.executorId ∧ task.executorEpoch = some current.epoch then task
  else bindTo s.now task current

/-- One task of `reconcile_executor_pool`; `none` stands for the exception of
`select_client`. -/
def reconcileTask (pool : Pool) (index : Nat) (task : StoredTask) : Option (StoredTask × Nat) :=
  if reassignable task.status = false then some (task, index)
  else if task.mainTakeover ∨ task.executorId = some "controller" then
    if task.executorId.isNone then some (bindTo s.now task inlineController, index)
    else some (task, index)
  else
    match task.executorId.bind pool.identityOf with
    | some current => some (s.settleTask task current, index)
    | none => (s.selectClient pool index).map fun found => (s.settleTask task found.1, found.2)

/-- **`reconcile_executor_pool`**: the files it leaves, the index, and whether
it has come to its end. -/
def reconcileFiles (pool : Pool) : Nat → Dict String StoredTask → Dict String StoredTask × Nat × Bool
  | index, [] => ([], index, true)
  | index, (key, task) :: rest =>
    match s.reconcileTask pool index task with
    | none => ((key, task) :: rest, index, false)
    | some (task, index) =>
      let (files, index, complete) := reconcileFiles pool index rest
      ((key, task) :: files, index, complete)

/-! ## Events -/

/-- Something happens. -/
inductive Event where
  /-- A controller starts, with a pool of that size. -/
  | launch (count : Nat)
  /-- The controller ends, in whatever way. -/
  | halt
  /-- `start` acquires the lease of an executor that is no longer in the pool. -/
  | retire (executorId : String)
  /-- `start` makes a supervisor. -/
  | supervise (executorId : String)
  /-- `_spawn` starts a process, with a fresh epoch. -/
  | spawn (executorId epoch : String)
  /-- A process takes its lease and serves. -/
  | acquire (g : ExecutorIdentity)
  /-- A process ends. -/
  | exit (g : ExecutorIdentity)
  /-- `_spawn` has found the endpoint of its process: `update_identity`. -/
  | adopt (executorId : String)
  /-- A supervisor is marked ready while the pool is being started. -/
  | ready (executorId : String)
  /-- `start` ends, and the tasks are reconciled. -/
  | opened
  /-- `_monitor` has noticed the end of its process. -/
  | restarting (executorId : String)
  /-- `_recover_after_executor_restart`, up to its request. -/
  | handOff (executorId previousEpoch : String)
  /-- Its request has been answered, and the supervisor is marked ready. -/
  | handedOff (executorId : String)
  | create (key : String) (task : StoredTask)
  | delete (key : String)
  /-- The controller writes a task file itself. -/
  | edit (key : String) (task : StoredTask)
  /-- The controller routes an operation on a task. -/
  | route (key : String)
  /-- A request arrives at a process. -/
  | deliver (frame : Nat) (g : ExecutorIdentity)
  /-- An executor starts a task on its own, when a retry is due. -/
  | awake (g : ExecutorIdentity) (key : String)
  /-- An executor writes the file of a task it has accepted. -/
  | write (g : ExecutorIdentity) (key : String) (task : StoredTask)

def withSupervisor (executorId : String) (update : Supervisor → Option Supervisor) : Option Fleet :=
  s.pool.bind fun pool =>
    (pool.supervisors.get? executorId).bind fun supervisor =>
      (update supervisor).map fun supervisor =>
        { s with pool := some { pool with
            supervisors := pool.supervisors.set executorId supervisor } }

def freshEpoch (epoch : String) : Bool :=
  (s.waiting ++ s.live ++ s.dead).all (fun g => g.epoch != epoch)
    && s.tasks.all (fun entry => entry.2.executorEpoch != some epoch)

/-- `start` may end: every executor of the pool is supervised and has a
client, and the leases of the retired ones are held. -/
def mayOpen (pool : Pool) : Bool :=
  !pool.started && pool.executorIds.all (fun executorId => (pool.identityOf executorId).isSome)
    && s.recorded.all (fun executorId =>
      decide (executorId ∈ pool.executorIds) || decide (executorId ∈ pool.retired))

/-- `start` ends: the pool is recorded, then reconciled; an exception there
ends the controller. -/
def openPool (pool : Pool) : Fleet :=
  let pool := { pool with started := true }
  let (files, index, complete) := s.reconcileFiles pool pool.selectionIndex s.tasks
  { s with
    recorded := pool.executorIds
    tasks := files
    pool := if complete then some { pool with
        selectionIndex := index
        supervisors := pool.supervisors.mapValues (fun _ sup => { sup with settled := true }) }
      else none }

def locallyRun (task : StoredTask) : Bool := !shouldDelegateTask task

/-- A write of the controller: it executes the task itself, with
`_assign_controller`, or leaves owner and status alone. -/
def mayEdit (task task' : StoredTask) : Bool :=
  task'.mainTakeover == task.mainTakeover
    && ((task'.executorId == task.executorId && task'.executorEpoch == task.executorEpoch
          && (locallyRun task || task'.status == task.status))
      || (locallyRun task && task.executorId.isNone && ownerOf task' == some inlineController))

/-- `_route_async_task_operation` and `_route_sync_task_operation`. -/
def routeTask (pool : Pool) (key : String) (task : StoredTask) : Fleet :=
  match task.executorId with
  | some executorId =>
    match pool.identityOf executorId with
    | none => s
    | some identity =>
      if ownerOf task = some identity then
        { s with frames := { identity := identity, operation := .task key } :: s.frames }
      else s
  | none =>
    match s.selectClient pool pool.selectionIndex with
    | none => s
    | some (identity, index) =>
      { s with
        tasks := s.tasks.set key (bindTo s.now task identity)
        pool := some { pool with selectionIndex := index }
        frames := { identity := identity, operation := .task key } :: s.frames }

def acceptFrame (g : ExecutorIdentity) (frame : Frame) : List (String × ExecutorIdentity) :=
  if validateExecutorGeneration frame g = false then []
  else
    match frame.operation with
    | .task key =>
      if (s.tasks.get? key).any (fun task => ownerOf task = some g) then [(key, g)] else []
    | .recoverOwnedTasks =>
      (s.tasks.keys.filter fun key => (s.tasks.get? key).any fun task =>
        decide (ownerOf task = some g) && recoverableStatus task.status).map fun key => (key, g)

/-- **What an event leaves**; `none`: it cannot happen. -/
def step : Event → Option Fleet
  | .launch count =>
    if s.pool.isNone ∧ 1 ≤ count ∧ count ≤ 32 then
      some { s with pool := some { executorIds := executorIds count } }
    else none
  | .halt => some { s with pool := none }
  | .retire executorId =>
    s.pool.bind fun pool =>
      if executorId ∈ s.recorded ∧ executorId ∉ pool.executorIds
          ∧ s.live.all (fun g => g.executorId != executorId) then
        some { s with pool := some { pool with retired := executorId :: pool.retired } }
      else none
  | .supervise executorId =>
    s.pool.bind fun pool =>
      if executorId ∈ pool.executorIds ∧ (pool.supervisors.get? executorId).isNone then
        some { s with pool := some { pool with
          supervisors := pool.supervisors.set executorId {} } }
      else none
  | .spawn executorId epoch =>
    if s.freshEpoch epoch then
      (s.withSupervisor executorId fun sup => some { sup with process := some epoch }).map
        fun s => { s with waiting := { executorId := executorId, epoch := epoch } :: s.waiting }
    else none
  | .acquire g =>
    -- the lease is exclusive
    if g ∈ s.waiting ∧ s.live.all (fun other => other.executorId != g.executorId)
        ∧ s.pool.all (fun pool => decide (g.executorId ∉ pool.retired)) then
      some { s with waiting := s.waiting.filter (· ≠ g), live := g :: s.live }
    else none
  | .exit g =>
    if g ∈ s.live then
      some { s with live := s.live.filter (· ≠ g), dead := g :: s.dead }
    else if g ∈ s.waiting then some { s with waiting := s.waiting.filter (· ≠ g) }
    else none
  | .adopt executorId =>
    s.pool.bind fun pool =>
      (pool.supervisors.get? executorId).bind fun sup =>
        sup.process.bind fun epoch =>
          let g : ExecutorIdentity := { executorId := executorId, epoch := epoch }
          -- the endpoint file is written by a process that serves
          let sup := { sup with client := some epoch, settled := false }
          if g ∈ s.live ∨ g ∈ s.dead then
            some { s with
              pool := some { pool with supervisors := pool.supervisors.set executorId sup }
              adopted := g :: s.adopted }
          else none
  | .ready executorId =>
    s.pool.bind fun pool =>
      if pool.started then none
      else s.withSupervisor executorId fun sup =>
        if sup.client.isSome ∧ sup.client = sup.process then some { sup with ready := true }
        else none
  | .opened => s.pool.bind fun pool => if s.mayOpen pool then some (s.openPool pool) else none
  | .restarting executorId =>
    s.withSupervisor executorId fun sup => some { sup with ready := false }
  | .handOff executorId previousEpoch =>
    s.pool.bind fun pool =>
      if pool.started then
        (pool.identityOf executorId).bind fun current =>
          (s.withSupervisor executorId fun sup => some { sup with settled := true }).map fun s =>
            { s with
              tasks := reassignDeadExecutorGeneration s.now
                { executorId := executorId, epoch := previousEpoch } current s.tasks
              frames := { identity := current, operation := .recoverOwnedTasks } :: s.frames }
      else none
  | .handedOff executorId =>
    s.pool.bind fun pool =>
      if pool.started then
        s.withSupervisor executorId fun sup =>
          if sup.settled then some { sup with ready := true } else none
      else none
  | .create key task =>
    if (s.tasks.get? key).isNone ∧ s.accepted.all (fun entry => entry.1 != key)
        ∧ task.executorId = none ∧ task.executorEpoch = none then
      some { s with tasks := s.tasks.set key task }
    else none
  | .delete key => some { s with tasks := s.tasks.filter (fun entry => entry.1 != key) }
  | .edit key task' =>
    s.pool.bind fun pool =>
      (s.tasks.get? key).bind fun task =>
        if pool.started ∧ mayEdit task task' then
          some { s with tasks := s.tasks.set key task' }
        else none
  | .route key =>
    s.pool.bind fun pool =>
      (s.tasks.get? key).bind fun task =>
        if pool.started ∧ shouldDelegateTask task then some (s.routeTask pool key task) else none
  | .deliver frame g =>
    (s.frames[frame]?).bind fun request =>
      if g ∈ s.live then
        some { s with
          frames := s.frames.eraseIdx frame
          accepted := s.acceptFrame g request ++ s.accepted }
      else none
  | .awake g key =>
    if g ∈ s.live ∧ (s.tasks.get? key).any (fun task => ownerOf task = some g) then
      some { s with accepted := (key, g) :: s.accepted }
    else none
  | .write g key task =>
    -- the ids are those of the copy it has loaded; what it works on was delegated
    if g ∈ s.live ∧ (key, g) ∈ s.accepted ∧ ownerOf task = some g ∧ task.mainTakeover = false
        ∧ task.status ≠ .preRunning then
      some { s with tasks := s.tasks.set key task }
    else none

end Fleet
end DeterminFlow.Routing
