/-
  Recovery.ControlRuns
  **CONTROLLING ONE TASK IN ONE PROCESS.**

  Requests to retry or skip a node, `stop_task`, retry timers, and the ends
  of runners, in any order.  What keeps them apart is the control lock of the
  task, the generation of its timers, the entry in `_running_tasks`, the
  status in the file, and the attempt count a request expects.
-/
import DeterminFlow.Recovery.NodeControl
import DeterminFlow.Recovery.LiveRunner
import DeterminFlow.Engine.TaskRun

namespace DeterminFlow.Recovery

open Library Coop Workflow DeterminFlow.Runtime Manager List Option
open Engine (endedOnDisk engineSig engineMachine)

/-! ## The state of a process -/

/-- A retry timer that has not ended. -/
structure Timer where
  generation : Nat
  due : Nat
  deriving DecidableEq

/-- What a process keeps to control one task. -/
structure Control where
  /-- The manager; its `running` is computed from the runners, by `view`. -/
  M : Manager
  /-- The runners that are not done. -/
  live : List Nat := []
  /-- The runner in `_running_tasks`. -/
  entry : Option Nat := none
  /-- The number of the next runner. -/
  fresh : Nat := 0
  timers : List Timer := []
  /-- The runner a `stop_task` waits for, with the control lock held. -/
  stopping : Option Nat := none
  /-- `_task_recovery_stopping`. -/
  recoveryStopping : Bool := false
  clock : Nat := 0
  /-- Ghost: the requests acknowledged since the last attempt of their node. -/
  acked : List (String × PyValue) := []

namespace Control

variable (parse : Timestamp → Option Nat) (s : Control)

def running : Bool := s.entry.any (· ∈ s.live)

def view : Manager := { s.M with running := s.running }

/-- An operation has ended with a call of `run_task`. -/
def afterRun (answer : Reply × Manager) : Control :=
  if answer.1.success then
    { s with M := answer.2, live := s.live ++ [s.fresh], entry := some s.fresh,
             fresh := s.fresh + 1 }
  else { s with M := answer.2 }

/-! ## Retry timers -/

def dueAt (state : NodeExecutionState) : Option Nat :=
  if state.status = .retryWaiting then state.nextRetryAt.bind parse else none

/-- `_retry_waiting_states`, the times. -/
def retryTimes (states : Dict String NodeExecutionState) : List Nat :=
  states.filterMap (fun entry => dueAt parse entry.2)

/-- **`_schedule_retry_for_task`**: a new generation, and a timer for the
earliest retry. -/
def scheduleRetry : Control :=
  let s := { s with M := { s.M with generation := s.M.generation + 1 } }
  match s.M.disk with
  | none => s
  | some task =>
    if s.recoveryStopping ∨ task.status ≠ .retryWaiting then s
    else
      match (retryTimes parse task.nodeStates).min? with
      | none => s
      | some earliest =>
        { s with timers := s.timers ++ [{ generation := s.M.generation, due := earliest }] }

def activateDue (now : Nat) (state : NodeExecutionState) : NodeExecutionState :=
  if (dueAt parse state).any (· ≤ now) then state.activateScheduledRetry.getD state else state

def activatedTask (task : StoredTask) : StoredTask :=
  prepareForResume { task with
    nodeStates := task.nodeStates.mapValues (fun _ => activateDue parse s.clock) }

/-- **`_activate_due_retries`**, under the control lock. -/
def activateDueRetries (generation : Nat) : Control :=
  if s.recoveryStopping then s
  else if s.M.generation ≠ generation then s
  else if s.M.ownerEnabled = false then s
  else if s.running then s
  else
    match s.M.disk with
    | none => s
    | some task =>
      if task.status ≠ .retryWaiting then s
      else if (retryTimes parse task.nodeStates).all (s.clock < ·) then s.scheduleRetry parse
      else s.afterRun ((s.view.save (s.activatedTask parse task)).runTask)

/-! ## Stopping -/

def stoppedTask (task : StoredTask) : StoredTask :=
  { task with status := .stopped, currentNodeId := none, completedAt := some s.M.now }

/-- `stop_task` without an entry in `_running_tasks`. -/
def stopIdle : Reply × Control :=
  match s.M.disk with
  | none => ({ success := false, message := "任务未在运行" }, s)
  | some task =>
    match task.status with
    | .preRunning =>
      ({ success := true, message := "预启动任务已停止" }, { s with M := s.M.save (s.stoppedTask task) })
    | .pending =>
      ({ success := true, message := "未启动任务已丢弃" },
        { s with M := { s.M with disk := none }, acked := [] })
    | .running | .retryWaiting | .resumePending =>
      ({ success := true, message := "进程重启遗留任务已停止" },
        { s with M := { s.M with generation := s.M.generation + 1 }.save (s.stoppedTask task) })
    | _ => ({ success := false, message := "任务未在运行" }, s)

/-- **`stop_task`** under the control lock, up to its waiting for the runner;
`called` is the state at the call.  There is no answer yet while it waits. -/
def stopTask (called : Manager) : Option Reply × Control :=
  if called.ownerEnabled = false then (some called.readOnlyReply, s)
  else if called.disk.all called.owns = false then (some staleReply, s)
  else
    match s.entry with
    | none => (some s.stopIdle.1, s.stopIdle.2)
    | some runner =>
      if runner ∈ s.live then
        (none, { s with M := { s.M with generation := s.M.generation + 1 },
                        stopping := some runner })
      else (some { success := true, message := "任务已完成" }, { s with entry := none })

/-- The rest of `stop_task`, when the runner is done. -/
def stopRest : Control :=
  let s := { s with entry := none, stopping := none }
  match s.M.disk with
  | none => s
  | some task =>
    if endedOnDisk task.status then s
    else { s with M := s.M.save { task with status := .stopped, completedAt := some s.M.now } }

/-! ## Events -/

/-- Something happens to the task. -/
inductive Event where
  /-- Time passes. -/
  | tick (now : Nat)
  /-- `retry_node` or `skip_node` takes the control lock. -/
  | request (called : Manager) (op : NodeControl) (nodeId : String) (expected : PyValue)
  /-- `stop_task` takes the control lock. -/
  | stop (called : Manager)
  /-- The runner `stop_task` waits for is done. -/
  | stopped
  /-- A timer expires and takes the control lock. -/
  | expire (timer : Timer)
  /-- A cancelled timer ends. -/
  | drop (timer : Timer)
  /-- The retry of the task is scheduled anew. -/
  | reschedule
  /-- A runner writes the task file. -/
  | write (runner : Nat) (task : StoredTask)
  /-- A runner ends; `waits`: its task has ended with `retry_waiting`. -/
  | ended (runner : Nat) (waits : Bool)
  /-- A runner is cancelled before its first step. -/
  | neverRan (runner : Nat)

def attemptsOf (disk : Option StoredTask) (nodeId : String) : Option Nat :=
  disk.bind fun task => (task.nodeStates.get? nodeId).map (·.attemptCount)

def requestAnswer (called : Manager) (op : NodeControl) (nodeId : String)
    (expected : PyValue) : Reply × Manager :=
  s.view.nodeControl called op nodeId expected

def afterRequest (called : Manager) (op : NodeControl) (nodeId : String) (expected : PyValue) :
    Control :=
  let answer := s.requestAnswer called op nodeId expected
  let s' := s.afterRun answer
  if answer.1.success then { s' with acked := (nodeId, expected) :: s'.acked } else s'

def stillAcked (task : StoredTask) : List (String × PyValue) :=
  s.acked.filter (fun request =>
    attemptsOf s.M.disk request.1 == attemptsOf (some task) request.1)

/-- **What an event leaves.** -/
def Fires : Event → Control → Prop
  | .tick now, s' => s' = { s with clock := now }
  | .request called op nodeId expected, s' =>
    s.stopping = none ∧ s' = s.afterRequest called op nodeId expected
  | .stop called, s' => s.stopping = none ∧ s' = (s.stopTask called).2
  | .stopped, s' => (∃ runner, s.stopping = some runner ∧ runner ∉ s.live) ∧ s' = s.stopRest
  | .expire timer, s' =>
    (timer ∈ s.timers ∧ s.stopping = none)
      ∧ s' = { s with timers := s.timers.erase timer }.activateDueRetries parse timer.generation
  | .drop timer, s' => s' = { s with timers := s.timers.erase timer }
  | .reschedule, s' => s' = s.scheduleRetry parse
  | .write runner task, s' =>
    runner ∈ s.live
      ∧ s' = { s with M := { s.M with disk := some task }, acked := s.stillAcked task }
  | .ended runner waits, s' =>
    runner ∈ s.live ∧
      let rest := { s with live := s.live.erase runner, entry := none }
      s' = if waits then rest.scheduleRetry parse else rest
  | .neverRan runner, s' => runner ∈ s.live ∧ s' = { s with live := s.live.erase runner }

/-! ## What should hold -/

def nodeOnDisk (disk : Option StoredTask) (nodeId : String) : Option NodeExecutionState :=
  disk.bind fun task => task.nodeStates.get? nodeId

/-- **What should hold of an event**, the acknowledgements apart. -/
structure Kept (e : Event) (s' : Control) : Prop where
  /-- At most one runner is live. -/
  oneRunner : s'.live.length ≤ 1
  /-- A timer whose generation is no longer current changes nothing. -/
  stale : ∀ timer, e = .expire timer → timer.generation ≠ s.M.generation →
    s'.M = s.M ∧ s'.live = s.live
  /-- A node that is not due is left alone by a timer. -/
  notEarly : ∀ timer, e = .expire timer → ∀ nodeId state, nodeOnDisk s.M.disk nodeId = some state →
    (dueAt parse state).any (· ≤ s.clock) = false → nodeOnDisk s'.M.disk nodeId = some state

def OnceAcked (e : Event) : Prop :=
  ∀ called op nodeId expected, e = .request called op nodeId expected →
    (s.requestAnswer called op nodeId expected).1.success = true → (nodeId, expected) ∉ s.acked

/-- **The condition**: a runner that writes a node with an acknowledged request
as failed, or waiting for a retry, has begun a new attempt of it. -/
def CountsAttempts : Event → Prop
  | .write _ task => ∀ nodeId state, (nodeId, .int state.attemptCount) ∈ s.acked →
      task.nodeStates.get? nodeId = some state → controllableNode state.status = false
  | _ => True

def Run : Control → Control → Prop :=
  Relation.ReflTransGen (fun s s' => ∃ e, s.Fires parse e s')

def MeetingRun : Control → Control → Prop :=
  Relation.ReflTransGen (fun s s' => ∃ e, s.Fires parse e s' ∧ s.CountsAttempts e)

end Control

/-! ## What the operations of the manager do -/

namespace Manager

variable {M : Manager}

lemma nodeStates_runTask (M : Manager) :
    M.runTask.2.disk.map (·.nodeStates) = M.disk.map (·.nodeStates) := by
  by_cases howner : M.ownerEnabled = true
  · cases hdisk : M.disk with
    | none =>
      unfold runTask
      rw [if_neg (by simp [howner])]
      simp only [hdisk]
    | some task =>
      have hsettled : (settleOwner M task).1.nodeStates = task.nodeStates
          ∧ (settleOwner M task).2.disk.map (·.nodeStates) = some task.nodeStates := by
        unfold settleOwner assignController
        split
        · split
          · exact ⟨rfl, rfl⟩
          exact ⟨rfl, by rw [hdisk]; rfl⟩
        exact ⟨rfl, by rw [hdisk]; rfl⟩
      rw [runTask_eq howner hdisk]
      split
      · exact hsettled.2
      show some (settleOwner M task).1.nodeStates = some task.nodeStates
      rw [hsettled.1]
  unfold runTask
  rw [if_pos (by simpa using howner)]

variable {nodeId : String} {expected : PyValue} {state : NodeExecutionState}

lemma validateNodeControl_error {reply : Reply}
    (h : M.validateNodeControl nodeId expected = .error reply) : reply.success = false := by
  unfold validateNodeControl at h
  repeat' split at h
  all_goals cases h
  all_goals rfl

lemma validateNodeControl_node {task : StoredTask}
    (h : M.validateNodeControl nodeId expected = .ok (task, state)) :
    task.nodeStates.get? nodeId = some state ∧ expected = .int state.attemptCount := by
  unfold validateNodeControl at h
  cases hdisk : M.disk with
  | none =>
    rw [hdisk] at h
    cases h
  | some found =>
    rw [hdisk] at h
    simp only at h
    split at h
    · cases h
    split at h
    · cases h
    rename_i foundState hget
    split at h
    · cases h
    split at h
    · cases h
    split at h
    · cases h
    rename_i n hexpected
    split at h
    · cases h
    rename_i hcount
    cases h
    refine ⟨hget, ?_⟩
    have hn : (state.attemptCount : Int) = n := by simpa using hcount
    rw [hn]
    unfold expectedCount at hexpected
    split at hexpected
    · split at hexpected
      · rw [some.inj hexpected]
      cases hexpected
    cases hexpected

lemma controlledState_spec {op : NodeControl} {next : NodeExecutionState}
    (h : M.controlledState op state = some next) :
    next.attemptCount = state.attemptCount ∧ controllableNode next.status = false := by
  have hcount : (asControlled state).attemptCount = state.attemptCount := by
    unfold asControlled
    split
    all_goals rfl
  unfold controlledState at h
  cases op with
  | retry =>
    simp only at h
    unfold NodeExecutionState.prepareRetry at h
    split at h
    · cases h
    split at h
    · rename_i hauto
      cases hauto.1
    split at h
    · cases h
    rw [← some.inj h]
    exact ⟨hcount, rfl⟩
  | skip =>
    rw [← some.inj h]
    exact ⟨hcount, rfl⟩

lemma nodeControl_effect (called M : Manager) (op : NodeControl) (nodeId : String)
    (expected : PyValue) : ((M.nodeControl called op nodeId expected).1.success = false
        ∧ (M.nodeControl called op nodeId expected).2.disk.map (·.nodeStates)
          = M.disk.map (·.nodeStates))
      ∨ (M.running = false ∧ ∃ task state next, M.disk = some task
          ∧ task.nodeStates.get? nodeId = some state ∧ expected = .int state.attemptCount
          ∧ controllableNode state.status = true
          ∧ next.attemptCount = state.attemptCount ∧ controllableNode next.status = false
          ∧ (M.nodeControl called op nodeId expected).2.disk.map (·.nodeStates)
            = some (task.nodeStates.set nodeId next)) := by
  unfold nodeControl
  split
  · exact .inl ⟨rfl, rfl⟩
  split
  · exact .inl ⟨rfl, rfl⟩
  unfold controlNode
  cases hvalidate : M.validateNodeControl nodeId expected with
  | error =>
    left
    constructor
    · exact validateNodeControl_error hvalidate
    rfl
  | ok found =>
    obtain ⟨task, state⟩ := found
    obtain ⟨hdisk, _, hidle, hnode⟩ := validateNodeControl_ok hvalidate
    obtain ⟨hget, hcount⟩ := validateNodeControl_node hvalidate
    obtain ⟨next, hnext⟩ := exists_controlledState M op hnode
    obtain ⟨hsame, hcontrolled⟩ := controlledState_spec hnext
    right
    refine ⟨hidle, task, state, next, hdisk, hget, hcount, hnode, hsame, hcontrolled, ?_⟩
    simp only [hnext]
    rw [nodeStates_runTask]
    rfl

end Manager

/-! ## What every event keeps -/

namespace Control

variable {p : Timestamp → Option Nat} {s s' : Control} {e : Event}

/-- **The runner in `_running_tasks` is the only one**, and `stop_task` waits
for no other. -/
structure Controlled (s : Control) : Prop where
  oneRunner : s.live = [] ∨ ∃ runner, s.live = [runner] ∧ s.entry = some runner
  stopping : ∀ runner, s.stopping = some runner → ∀ other ∈ s.live, other = runner

/-- The node of an acknowledged request is still at the attempt it has named,
and out of control. -/
def AckedHeld (s : Control) : Prop :=
  ∀ nodeId expected, (nodeId, expected) ∈ s.acked → ∃ state,
    nodeOnDisk s.M.disk nodeId = some state ∧ expected = .int state.attemptCount
      ∧ controllableNode state.status = false

lemma nodeOnDisk_congr {disk disk' : Option StoredTask}
    (h : disk.map (·.nodeStates) = disk'.map (·.nodeStates)) (nodeId : String) :
    nodeOnDisk disk nodeId = nodeOnDisk disk' nodeId := by
  have hmap : ∀ d : Option StoredTask,
      nodeOnDisk d nodeId = (d.map (·.nodeStates)).bind (fun states => states.get? nodeId) := by
    intro d
    cases d with
    | _ => rfl
  rw [hmap, hmap, h]

lemma Controlled.idle (h : Controlled s) (hidle : s.running = false) : s.live = [] := by
  cases h.oneRunner with
  | inl hnone => exact hnone
  | inr hone =>
    obtain ⟨_, hlive, hentry⟩ := hone
    unfold running at hidle
    rw [hentry, hlive] at hidle
    simp at hidle

lemma Controlled.length_le (h : Controlled s) : s.live.length ≤ 1 := by
  cases h.oneRunner with
  | inl hnone =>
    rw [hnone]
    exact Nat.zero_le 1
  | inr hone =>
    obtain ⟨_, hlive, _⟩ := hone
    rw [hlive]
    exact Nat.le_refl 1

lemma controlled_afterRun (h : Controlled s) (hstop : s.stopping = none)
    {answer : Reply × Manager} (hidle : answer.1.success = true → s.running = false) :
    Controlled (s.afterRun answer) := by
  unfold afterRun
  split
  · rename_i hsuccess
    have hnone : s.live = [] := h.idle (hidle hsuccess)
    constructor
    · right
      refine ⟨s.fresh, ?_, rfl⟩
      show s.live ++ [s.fresh] = [s.fresh]
      rw [hnone]
      rfl
    intro runner hstopping
    rw [hstop] at hstopping
    cases hstopping
  exact ⟨h.oneRunner, h.stopping⟩

lemma disk_afterRun (s : Control) (answer : Reply × Manager) :
    (s.afterRun answer).M = answer.2 ∧ (s.afterRun answer).acked = s.acked := by
  unfold afterRun
  split
  all_goals exact ⟨rfl, rfl⟩

lemma scheduleRetry_keeps (s : Control) :
    (s.scheduleRetry p).M.disk = s.M.disk ∧ (s.scheduleRetry p).live = s.live
      ∧ (s.scheduleRetry p).entry = s.entry ∧ (s.scheduleRetry p).stopping = s.stopping
      ∧ (s.scheduleRetry p).acked = s.acked := by
  unfold scheduleRetry
  simp only
  split
  · exact ⟨rfl, rfl, rfl, rfl, rfl⟩
  split
  · exact ⟨rfl, rfl, rfl, rfl, rfl⟩
  split
  all_goals exact ⟨rfl, rfl, rfl, rfl, rfl⟩

lemma controlled_scheduleRetry (h : Controlled s) : Controlled (s.scheduleRetry p) := by
  obtain ⟨_, hlive, hentry, hstopping, _⟩ := scheduleRetry_keeps (p := p) s
  constructor
  · rw [hlive, hentry]
    exact h.oneRunner
  rw [hlive, hstopping]
  exact h.stopping

lemma activateDueRetries_cases (s : Control) (generation : Nat) :
    (s.activateDueRetries p generation = s)
      ∨ (s.M.generation = generation ∧ s.activateDueRetries p generation = s.scheduleRetry p)
      ∨ (s.M.generation = generation ∧ s.running = false ∧ ∃ task, s.M.disk = some task
        ∧ s.activateDueRetries p generation
          = s.afterRun ((s.view.save (s.activatedTask p task)).runTask)) := by
  unfold activateDueRetries
  split
  · exact .inl rfl
  split
  · exact .inl rfl
  rename_i hgeneration
  have hcurrent : s.M.generation = generation := by simpa using hgeneration
  split
  · exact .inl rfl
  split
  · exact .inl rfl
  rename_i hidle
  cases hdisk : s.M.disk with
  | none => exact .inl rfl
  | some task =>
    simp only
    split
    · exact .inl rfl
    split
    · exact .inr (.inl ⟨hcurrent, rfl⟩)
    exact .inr (.inr ⟨hcurrent, by simpa using hidle, task, rfl, rfl⟩)

lemma nodeOnDisk_activated {task : StoredTask} (hdisk : s.M.disk = some task) (nodeId : String) :
    nodeOnDisk (s.afterRun ((s.view.save (s.activatedTask p task)).runTask)).M.disk nodeId
      = (nodeOnDisk s.M.disk nodeId).map (activateDue p s.clock) := by
  rw [(disk_afterRun s _).1, nodeOnDisk_congr (nodeStates_runTask _), hdisk]
  show (task.nodeStates.mapValues (fun _ => activateDue p s.clock)).get? nodeId
    = (task.nodeStates.get? nodeId).map (activateDue p s.clock)
  rw [Dict.get?_mapValues]

variable {now : Nat} {state : NodeExecutionState} {timer : Timer} {s₀ : Control}

lemma activateDue_early (h : (dueAt p state).any (· ≤ now) = false) :
    activateDue p now state = state := by
  unfold activateDue
  rw [if_neg (by simp [h])]

lemma activateDue_uncontrolled (h : controllableNode state.status = false) :
    activateDue p now state = state := by
  apply activateDue_early
  have hwaiting : state.status ≠ .retryWaiting := by
    intro hwaiting
    rw [hwaiting] at h
    cases h
  unfold dueAt
  rw [if_neg hwaiting]
  rfl

/-! ## One event -/

lemma acked_afterRequest (called : Manager) (op : NodeControl) (nodeId : String)
    (expected : PyValue) :
    (s.afterRequest called op nodeId expected).M = (s.requestAnswer called op nodeId expected).2
      ∧ (s.afterRequest called op nodeId expected).acked
        = if (s.requestAnswer called op nodeId expected).1.success
          then (nodeId, expected) :: s.acked else s.acked := by
  obtain ⟨hM, hacked⟩ := disk_afterRun s (s.requestAnswer called op nodeId expected)
  unfold afterRequest
  simp only
  split
  · refine ⟨hM, ?_⟩
    show (nodeId, expected) :: (s.afterRun _).acked = _
    rw [hacked]
  exact ⟨hM, hacked⟩

lemma controlled_afterRequest (h : Controlled s) (hstop : s.stopping = none) (called : Manager)
    (op : NodeControl) (nodeId : String) (expected : PyValue) :
    Controlled (s.afterRequest called op nodeId expected) := by
  have hidle : (s.requestAnswer called op nodeId expected).1.success = true →
      s.running = false := by
    intro hsuccess
    cases nodeControl_effect called s.view op nodeId expected with
    | inl hrefused =>
      have hfails : (s.requestAnswer called op nodeId expected).1.success = false := hrefused.1
      rw [hfails] at hsuccess
      cases hsuccess
    | inr hgranted => exact hgranted.1
  have hran := controlled_afterRun h hstop hidle
  unfold afterRequest
  simp only
  split
  · exact ⟨hran.oneRunner, hran.stopping⟩
  exact hran

lemma held_afterRequest (h : AckedHeld s) (called : Manager) (op : NodeControl)
    (nodeId : String) (expected : PyValue) :
    ((s.requestAnswer called op nodeId expected).1.success = true → (nodeId, expected) ∉ s.acked)
      ∧ AckedHeld (s.afterRequest called op nodeId expected) := by
  obtain ⟨hM, hacked⟩ := acked_afterRequest (s := s) called op nodeId expected
  have heffect := nodeControl_effect called s.view op nodeId expected
  cases heffect with
  | inl hrefused =>
    have hfails : (s.requestAnswer called op nodeId expected).1.success = false := hrefused.1
    have hkept : (s.requestAnswer called op nodeId expected).2.disk.map (·.nodeStates)
        = s.M.disk.map (·.nodeStates) := hrefused.2
    constructor
    · intro hsuccess
      rw [hfails] at hsuccess
      cases hsuccess
    intro other number hmem
    rw [hacked, if_neg (by simp [hfails])] at hmem
    rw [hM, nodeOnDisk_congr hkept]
    exact h other number hmem
  | inr hgranted =>
    obtain ⟨_, task, state, next, hdisk, hget, hexpected, hcontrollable, hsame, hcontrolled,
      hafter⟩ := hgranted
    have hfound : nodeOnDisk s.M.disk nodeId = some state := by
      have hview : s.M.disk = some task := hdisk
      rw [hview]
      exact hget
    -- the node is under control, so no request of it is held
    have hfree : ∀ number, (nodeId, number) ∉ s.acked := by
      intro number hmem
      obtain ⟨_, hheld, _, hout⟩ := h nodeId number hmem
      rw [hfound] at hheld
      rw [some.inj hheld, hout] at hcontrollable
      cases hcontrollable
    have hnode : ∀ other, nodeOnDisk (s.requestAnswer called op nodeId expected).2.disk other
        = if other = nodeId then some next else nodeOnDisk s.M.disk other := by
      intro other
      have hstates : (s.requestAnswer called op nodeId expected).2.disk.map (·.nodeStates)
          = (some { task with nodeStates := task.nodeStates.set nodeId next }
            : Option StoredTask).map (·.nodeStates) := hafter
      rw [nodeOnDisk_congr hstates]
      show (task.nodeStates.set nodeId next).get? other = _
      have hview : s.M.disk = some task := hdisk
      rw [hview]
      by_cases hother : other = nodeId
      · rw [if_pos hother, hother, Dict.get?_set_self]
      rw [if_neg hother, Dict.get?_set_ne _ _ (fun heq => hother heq.symm)]
      rfl
    refine ⟨fun _ => hfree expected, ?_⟩
    intro other number hmem
    rw [hacked] at hmem
    rw [hM, hnode]
    by_cases hother : other = nodeId
    · rw [if_pos hother]
      have hhead : (other, number) = (nodeId, expected) := by
        split at hmem
        · cases mem_cons.1 hmem with
          | inl heq => exact heq
          | inr hold => exact absurd (hother ▸ hold) (hfree number)
        exact absurd (hother ▸ hmem) (hfree number)
      refine ⟨next, rfl, ?_, hcontrolled⟩
      rw [(Prod.mk.inj hhead).2, hexpected, hsame]
    rw [if_neg hother]
    apply h other number
    split at hmem
    · cases mem_cons.1 hmem with
      | inl heq => exact absurd (Prod.mk.inj heq).1 hother
      | inr hold => exact hold
    exact hmem

lemma held_of_same (h : AckedHeld s) (hacked : ∀ request ∈ s'.acked, request ∈ s.acked)
    (hstates : s'.acked ≠ [] → s'.M.disk.map (·.nodeStates) = s.M.disk.map (·.nodeStates)) :
    AckedHeld s' := by
  intro nodeId expected hmem
  have hnonempty : s'.acked ≠ [] := by
    intro hnil
    rw [hnil] at hmem
    cases hmem
  rw [nodeOnDisk_congr (hstates hnonempty)]
  exact h nodeId expected (hacked _ hmem)

lemma stopIdle_keeps (s : Control) : s.stopIdle.2.live = s.live ∧ s.stopIdle.2.entry = s.entry
      ∧ s.stopIdle.2.stopping = s.stopping
      ∧ (∀ request ∈ s.stopIdle.2.acked, request ∈ s.acked)
      ∧ (s.stopIdle.2.acked ≠ [] →
        s.stopIdle.2.M.disk.map (·.nodeStates) = s.M.disk.map (·.nodeStates)) := by
  unfold stopIdle
  cases hdisk : s.M.disk with
  | none => exact ⟨rfl, rfl, rfl, fun _ h => h, fun _ => by rw [hdisk]⟩
  | some =>
    simp only
    split
    · exact ⟨rfl, rfl, rfl, fun _ h => h, fun _ => rfl⟩
    · exact ⟨rfl, rfl, rfl, nofun, fun h => absurd rfl h⟩
    · exact ⟨rfl, rfl, rfl, fun _ h => h, fun _ => rfl⟩
    · exact ⟨rfl, rfl, rfl, fun _ h => h, fun _ => rfl⟩
    · exact ⟨rfl, rfl, rfl, fun _ h => h, fun _ => rfl⟩
    exact ⟨rfl, rfl, rfl, fun _ h => h, fun _ => by rw [hdisk]⟩

lemma stopTask_keeps (s : Control) (called : Manager) : (s.stopTask called).2.live = s.live
      ∧ (∀ request ∈ (s.stopTask called).2.acked, request ∈ s.acked)
      ∧ ((s.stopTask called).2.acked ≠ [] →
        (s.stopTask called).2.M.disk.map (·.nodeStates) = s.M.disk.map (·.nodeStates)) := by
  obtain ⟨hlive, _, _, hacked, hstates⟩ := stopIdle_keeps s
  unfold stopTask
  split
  · exact ⟨rfl, fun _ h => h, fun _ => rfl⟩
  split
  · exact ⟨rfl, fun _ h => h, fun _ => rfl⟩
  split
  · exact ⟨hlive, hacked, hstates⟩
  split
  all_goals exact ⟨rfl, fun _ h => h, fun _ => rfl⟩

lemma controlled_stopTask (h : Controlled s) (called : Manager) :
    Controlled (s.stopTask called).2 := by
  obtain ⟨hlive, hentry, hstopping, _, _⟩ := stopIdle_keeps s
  unfold stopTask
  split
  · exact h
  split
  · exact h
  cases hregistered : s.entry with
  | none =>
    constructor
    · show s.stopIdle.2.live = [] ∨ ∃ runner, s.stopIdle.2.live = [runner]
        ∧ s.stopIdle.2.entry = some runner
      rw [hlive, hentry]
      exact h.oneRunner
    show ∀ runner, s.stopIdle.2.stopping = some runner →
      ∀ other ∈ s.stopIdle.2.live, other = runner
    rw [hlive, hstopping]
    exact h.stopping
  | some runner =>
    simp only
    have hsame : ∀ other ∈ s.live, other = runner := by
      intro other hother
      cases h.oneRunner with
      | inl hnone =>
        rw [hnone] at hother
        cases hother
      | inr hone =>
        obtain ⟨only, honly, hentry⟩ := hone
        rw [honly] at hother
        rw [mem_singleton.1 hother]
        rw [hregistered] at hentry
        exact (some.inj hentry).symm
    have hone := h.oneRunner
    rw [hregistered] at hone
    split
    · constructor
      · exact hone
      intro waited hwaited
      rw [← some.inj hwaited]
      exact hsame
    rename_i hdone
    have hnone : s.live = [] := by
      rw [eq_nil_iff_forall_not_mem]
      intro other hother
      rw [hsame other hother] at hother
      exact hdone hother
    exact ⟨.inl hnone, h.stopping⟩

lemma controlled_stopRest (h : Controlled s) {runner : Nat} (hwaits : s.stopping = some runner)
    (hdone : runner ∉ s.live) : Controlled s.stopRest := by
  have hnone : s.live = [] := by
    rw [eq_nil_iff_forall_not_mem]
    intro other hother
    rw [h.stopping runner hwaits other hother] at hother
    exact hdone hother
  have hlive : s.stopRest.live = [] := by
    unfold stopRest
    simp only
    split
    · exact hnone
    split
    all_goals exact hnone
  constructor
  · exact .inl hlive
  intro _ _ other hother
  rw [hlive] at hother
  cases hother

lemma stopRest_keeps (s : Control) : s.stopRest.acked = s.acked
      ∧ s.stopRest.M.disk.map (·.nodeStates) = s.M.disk.map (·.nodeStates) := by
  unfold stopRest
  simp only
  split
  · exact ⟨rfl, rfl⟩
  rename_i task hdisk
  split
  · exact ⟨rfl, rfl⟩
  refine ⟨rfl, ?_⟩
  rw [hdisk]
  rfl

lemma controlled_done (h : Controlled s) {runner : Nat} (hmem : runner ∈ s.live)
    {next : Control} (hlive : next.live = s.live.erase runner) : Controlled next := by
  have hnone : s.live.erase runner = [] := by
    cases h.oneRunner with
    | inl hnil =>
      rw [hnil] at hmem
      cases hmem
    | inr hone =>
      obtain ⟨_, honly, _⟩ := hone
      rw [honly] at hmem
      rw [honly, mem_singleton.1 hmem]
      simp
  constructor
  · exact .inl (hlive.trans hnone)
  intro _ _ _ hother
  rw [hlive, hnone] at hother
  cases hother

lemma controlled_step (h : Controlled s) (hstep : s.Fires p e s') : Controlled s' := by
  cases e with
  | tick now =>
    rw [show s' = { s with clock := now } from hstep]
    exact ⟨h.oneRunner, h.stopping⟩
  | request called op nodeId expected =>
    obtain ⟨hstop, hs'⟩ := hstep
    rw [hs']
    exact controlled_afterRequest h hstop called op nodeId expected
  | stop called =>
    rw [hstep.2]
    exact controlled_stopTask h called
  | stopped =>
    obtain ⟨⟨runner, hwaits, hdone⟩, hs'⟩ := hstep
    rw [hs']
    exact controlled_stopRest h hwaits hdone
  | expire timer =>
    obtain ⟨⟨_, hstop⟩, hs'⟩ := hstep
    rw [hs']
    have hstart : Controlled { s with timers := s.timers.erase timer } :=
      ⟨h.oneRunner, h.stopping⟩
    have hcases := activateDueRetries_cases (p := p)
      { s with timers := s.timers.erase timer } timer.generation
    obtain hsame | ⟨_, hagain⟩ | ⟨_, hidle, task, _, hran⟩ := hcases
    · rw [hsame]
      exact hstart
    · rw [hagain]
      exact controlled_scheduleRetry hstart
    rw [hran]
    exact controlled_afterRun hstart hstop (fun _ => hidle)
  | drop timer =>
    rw [show s' = { s with timers := s.timers.erase timer } from hstep]
    exact ⟨h.oneRunner, h.stopping⟩
  | reschedule =>
    rw [show s' = s.scheduleRetry p from hstep]
    exact controlled_scheduleRetry h
  | write =>
    rw [hstep.2]
    exact ⟨h.oneRunner, h.stopping⟩
  | ended runner =>
    obtain ⟨hmem, hs'⟩ := hstep
    have hdone : Controlled { s with live := s.live.erase runner, entry := none } :=
      controlled_done h hmem rfl
    rw [hs']
    split
    · exact controlled_scheduleRetry hdone
    exact hdone
  | neverRan =>
    obtain ⟨hmem, hs'⟩ := hstep
    rw [hs']
    exact controlled_done h hmem rfl

lemma nodeOnDisk_expire (hstep : s.Fires p (.expire timer) s') {nodeId : String}
    (hnode : nodeOnDisk s.M.disk nodeId = some state)
    (hstays : activateDue p s.clock state = state) : nodeOnDisk s'.M.disk nodeId = some state := by
  rw [hstep.2]
  have hcases := activateDueRetries_cases (p := p)
    { s with timers := s.timers.erase timer } timer.generation
  obtain hsame | ⟨_, hagain⟩ | ⟨_, _, task, hdisk, hran⟩ := hcases
  · rw [hsame]
    exact hnode
  · rw [hagain, (scheduleRetry_keeps _).1]
    exact hnode
  rw [hran, nodeOnDisk_activated hdisk]
  show (nodeOnDisk s.M.disk nodeId).map (activateDue p s.clock) = some state
  rw [hnode]
  show some (activateDue p s.clock state) = some state
  rw [hstays]

lemma acked_expire (hstep : s.Fires p (.expire timer) s') : s'.acked = s.acked := by
  rw [hstep.2]
  have hcases := activateDueRetries_cases (p := p)
    { s with timers := s.timers.erase timer } timer.generation
  obtain hsame | ⟨_, hagain⟩ | ⟨_, _, task, _, hran⟩ := hcases
  · rw [hsame]
  · rw [hagain, (scheduleRetry_keeps _).2.2.2.2]
  rw [hran, (disk_afterRun _ _).2]

lemma held_step (h : AckedHeld s) (hstep : s.Fires p e s') (hcounts : s.CountsAttempts e) :
    AckedHeld s' := by
  cases e with
  | tick now =>
    rw [show s' = { s with clock := now } from hstep]
    exact h
  | request called op nodeId expected =>
    rw [hstep.2]
    exact (held_afterRequest h called op nodeId expected).2
  | stop called =>
    obtain ⟨_, hacked, hstates⟩ := stopTask_keeps s called
    rw [hstep.2]
    exact held_of_same h hacked hstates
  | stopped =>
    obtain ⟨hacked, hstates⟩ := stopRest_keeps s
    rw [hstep.2]
    exact held_of_same h (fun _ hmem => hacked ▸ hmem) (fun _ => hstates)
  | expire =>
    intro nodeId expected hmem
    rw [acked_expire hstep] at hmem
    obtain ⟨state, hnode, hexpected, hout⟩ := h nodeId expected hmem
    exact ⟨state, nodeOnDisk_expire hstep hnode (activateDue_uncontrolled hout), hexpected, hout⟩
  | drop timer =>
    rw [show s' = { s with timers := s.timers.erase timer } from hstep]
    exact h
  | reschedule =>
    obtain ⟨hdisk, _, _, _, hacked⟩ := scheduleRetry_keeps (p := p) s
    rw [show s' = s.scheduleRetry p from hstep]
    exact held_of_same h (fun _ hmem => hacked ▸ hmem) (fun _ => by rw [hdisk])
  | write runner task =>
    rw [hstep.2]
    intro nodeId expected hmem
    obtain ⟨hacked, hsame⟩ := mem_filter.1 hmem
    obtain ⟨state, hnode, hexpected, _⟩ := h nodeId expected hacked
    have hbefore : attemptsOf s.M.disk nodeId = some state.attemptCount := by
      have hmap : attemptsOf s.M.disk nodeId
          = (nodeOnDisk s.M.disk nodeId).map (·.attemptCount) := by
        unfold attemptsOf nodeOnDisk
        cases s.M.disk with
        | _ => rfl
      rw [hmap, hnode]
      rfl
    -- no attempt has overtaken the request, so the write is one of the same attempt
    have hafter : (task.nodeStates.get? nodeId).map (·.attemptCount) = some state.attemptCount := by
      have heq : attemptsOf s.M.disk nodeId = attemptsOf (some task) nodeId := by
        simpa using hsame
      rw [hbefore] at heq
      exact heq.symm
    obtain ⟨written, hwritten, hcount⟩ := map_eq_some_iff.1 hafter
    have hnumber : expected = .int written.attemptCount := by
      rw [hexpected, hcount]
    refine ⟨written, hwritten, hnumber, ?_⟩
    exact hcounts nodeId written (hnumber ▸ hacked) hwritten
  | ended runner =>
    rw [hstep.2]
    split
    · obtain ⟨hdisk, _, _, _, hacked⟩ := scheduleRetry_keeps (p := p)
        { s with live := s.live.erase runner, entry := none }
      exact held_of_same h (fun _ hmem => hacked ▸ hmem) (fun _ => by rw [hdisk])
    exact h
  | neverRan =>
    rw [hstep.2]
    exact h

/-! ## Any run -/

lemma controlled_run (h : Controlled s₀) (hrun : Run p s₀ s) : Controlled s := by
  induction hrun with
  | refl => exact h
  | tail _ hstep ih =>
    obtain ⟨_, hfires⟩ := hstep
    exact controlled_step ih hfires

lemma held_run (h : AckedHeld s₀) (hrun : MeetingRun p s₀ s) : AckedHeld s := by
  induction hrun with
  | refl => exact h
  | tail _ hstep ih =>
    obtain ⟨_, hfires, hcounts⟩ := hstep
    exact held_step ih hfires hcounts

/-- **In every run**, from a process in which the registered runner is the only
one: no event leaves two runners, a timer of an old generation changes nothing,
and no timer touches a node before its time.  Where runners count the attempts
of the nodes they fail, no request is acknowledged twice between two attempts. -/
theorem control_kept {s₀ : Control} (hstart : Controlled s₀) (hnone : s₀.acked = [])
    (hrun : Run p s₀ s) (hstep : s.Fires p e s') :
    s.Kept p e s' ∧ (MeetingRun p s₀ s → s.OnceAcked e) := by
  have hnext := controlled_step (controlled_run hstart hrun) hstep
  constructor
  · constructor
    · exact hnext.length_le
    · intro timer he hstale
      rw [he] at hstep
      rw [hstep.2]
      have hcases := activateDueRetries_cases (p := p)
        { s with timers := s.timers.erase timer } timer.generation
      obtain hsame | ⟨hcurrent, _⟩ | ⟨hcurrent, _⟩ := hcases
      · rw [hsame]
        exact ⟨rfl, rfl⟩
      all_goals exact absurd hcurrent.symm hstale
    intro timer he nodeId _ hnode hearly
    rw [he] at hstep
    exact nodeOnDisk_expire hstep hnode (activateDue_early hearly)
  intro hmeets called op nodeId expected he hsuccess
  have hheld : AckedHeld s := by
    apply held_run _ hmeets
    intro nodeId expected hmem
    rw [hnone] at hmem
    cases hmem
  exact (held_afterRequest hheld called op nodeId expected).1 hsuccess

/-- A failed task whose node is of the type `nodeType`. -/
def failedTask (nodeType : String) (attempts : Nat) : StoredTask where
  status := .failed
  nodeStates := [("a", { nodeId := "a", status := .failed, attemptCount := attempts })]
  snapshotDefinition := some
    { nodes := [{ id := "a", nodeType := nodeType }]
      edges := [{ source := "__start__", target := "a" }, { source := "a", target := "__end__" }] }

def caretaker (nodeType : String) (attempts : Nat) : Control where
  M := { disk := some (failedTask nodeType attempts) }

/-- The first request for an agent node that has failed once. -/
theorem caretaker_kept : let s :=caretaker "agent" 1
    let e : Event := .request s.M .retry "a" (.int 1)
    s.Kept (fun _ => none) e (s.afterRequest s.M .retry "a" (.int 1)) ∧ s.OnceAcked e := by
  have hcontrolled : Controlled (caretaker "agent" 1) := by
    constructor
    · exact .inl rfl
    intro _ hstopping
    cases hstopping
  have hkept := control_kept (p := fun _ => none)
    (e := .request (caretaker "agent" 1).M .retry "a" (.int 1))
    hcontrolled rfl Relation.ReflTransGen.refl ⟨rfl, rfl⟩
  exact ⟨hkept.1, hkept.2 Relation.ReflTransGen.refl⟩

/-! ## After a stop -/

def Event.asks : Event → Bool
  | .request _ _ _ _ => true
  | _ => false

/-- A run without `retry_node` and `skip_node`. -/
def Unasked (p : Timestamp → Option Nat) : Control → Control → Prop :=
  Relation.ReflTransGen (fun s s' => ∃ e, s.Fires p e s' ∧ e.asks = false)

/-- Nothing runs, and the file is the one that is left at an end. -/
structure Ended (disk : Option StoredTask) (s : Control) : Prop where
  live : s.live = []
  entry : s.entry = none
  stopping : s.stopping = none
  kept : s.M.disk = disk
  atEnd : ∀ task, disk = some task → endedOnDisk task.status = true

variable {disk : Option StoredTask}

lemma ended_stopRest (h : Controlled s) {runner : Nat} (hwaits : s.stopping = some runner)
    (hdone : runner ∉ s.live) : Ended s.stopRest.M.disk s.stopRest := by
  have hnone : s.live = [] :=
    eq_nil_iff_forall_not_mem.2 (fun other hother =>
      hdone (h.stopping runner hwaits other hother ▸ hother))
  unfold stopRest
  simp only
  split
  · next hdisk => exact ⟨hnone, rfl, rfl, rfl, fun _ htask => absurd (hdisk.symm.trans htask) nofun⟩
  next task hdisk =>
  split
  · next hover =>
    refine ⟨hnone, rfl, rfl, rfl, fun other hother => ?_⟩
    rw [← some.inj (hdisk.symm.trans hother)]
    exact hover
  refine ⟨hnone, rfl, rfl, rfl, fun other hother => ?_⟩
  rw [← some.inj hother]
  rfl

lemma ended_stopIdle (h : Ended disk s) : Ended disk s.stopIdle.2 := by
  unfold stopIdle
  split
  · exact h
  next task hdisk =>
  have hover := h.atEnd task (h.kept ▸ hdisk)
  -- the states that `stop_task` changes are not at an end
  cases hstatus : task.status with
  | preRunning | pending | running | retryWaiting | resumePending =>
    rw [hstatus] at hover
    cases hover
  | _ => exact h

lemma ended_step (h : Ended disk s) (hstep : s.Fires p e s') (hasks : e.asks = false) :
    Ended disk s' := by
  cases e with
  | request => cases hasks
  | stop called =>
    rw [hstep.2]
    unfold stopTask
    split
    · exact h
    split
    · exact h
    rw [h.entry]
    exact ended_stopIdle h
  | stopped =>
    obtain ⟨⟨_, hwaits, -⟩, -⟩ := hstep
    cases h.stopping.symm.trans hwaits
  | expire timer =>
    have hbase : Ended disk { s with timers := s.timers.erase timer } :=
      ⟨h.live, h.entry, h.stopping, h.kept, h.atEnd⟩
    rw [hstep.2]
    unfold activateDueRetries
    iterate 5
      split
      · exact hbase
    next task hdisk =>
    have hover := h.atEnd task (h.kept ▸ hdisk)
    rw [if_pos (fun hwaits => by rw [hwaits] at hover; cases hover)]
    exact hbase
  | reschedule =>
    obtain ⟨hdisk, hlive, hentry, hstopping, -⟩ := scheduleRetry_keeps (p := p) s
    rw [show s' = s.scheduleRetry p from hstep]
    exact ⟨hlive.trans h.live, hentry.trans h.entry, hstopping.trans h.stopping,
      hdisk.trans h.kept, h.atEnd⟩
  | tick | drop =>
    rw [show s' = _ from hstep]
    exact ⟨h.live, h.entry, h.stopping, h.kept, h.atEnd⟩
  | write | ended | neverRan =>
    -- only a live runner writes or ends
    have hmem := hstep.1
    rw [h.live] at hmem
    cases hmem

lemma ended_run (h : Ended disk s) (hrun : Unasked p s s') : Ended disk s' := by
  induction hrun with
  | refl => exact h
  | tail _ hstep ih =>
    obtain ⟨_, hfires, hasks⟩ := hstep
    exact ended_step ih hfires hasks

def stopped : Control :=
  { caretaker "agent" 1 with live := [0], entry := some 0, stopping := some 0 }

def stoppedRest : Control := { stopped with live := [], entry := none }.stopRest

def goneEnv : Engine.Env :=
  { Engine.plainEnv ((failedTask "gone" 0).snapshotDefinition.getD {}) with
    registered := fun nodeType => nodeType != "gone" }

def requested : Control :=
  (caretaker "gone" 0).afterRequest (caretaker "gone" 0).M .retry "a" (.int 0)

def launched : Config engineSig Unit :=
  Machine.initial (World.load (requested.M.disk.getD {}).toTask)
    (Engine.runTaskCoroutine goneEnv none)

def broke (w : World) : StoredTask := { requested.M.disk.getD {} with toTask := w.disk.getD {} }

def retriedOnce (w : World) : Control :=
  { requested with
    M := { requested.M with disk := some (broke w) }
    acked := requested.stillAcked (broke w)
    live := requested.live.erase 0
    entry := none }

/-- **The same request is acknowledged twice** and no attempt lies in between:
the retried node fails because its type is unknown, which counts no attempt. -/
theorem unknownType_acked_twice : ∃ c : Config engineSig Unit,
      (engineMachine goneEnv).Reachable (fun _ _ => True) launched c
      ∧ Engine.returned c = true
      ∧ Run (fun _ => none) (caretaker "gone" 0) (retriedOnce c.state)
      ∧ ¬ (retriedOnce c.state).OnceAcked
          (.request (retriedOnce c.state).M .retry "a" (.int 0)) := by
  have hruns : ((engineMachine goneEnv).replay 200 launched
      ([Engine.proceed .main] ++ Engine.save .main ++ [Engine.proceed .main])).map (fun c =>
        (Engine.returned c, (retriedOnce c.state).acked.map (·.1),
          ((retriedOnce c.state).requestAnswer (retriedOnce c.state).M .retry "a" (.int 0)).1.success))
      = some (true, ["a"], true) := by
    decide +kernel
  obtain ⟨c, hc, hfacts⟩ := map_eq_some_iff.1 hruns
  simp only [Prod.mk.injEq] at hfacts
  obtain ⟨hreturned, hheld, hagain⟩ := hfacts
  have hrequested : requested.acked = [("a", .int 0)] := rfl
  refine ⟨c, ?_, hreturned, ?_, ?_⟩
  · exact Machine.reachable_of_replay _ (fun _ => trivial) (fun _ _ _ => trivial) hc
  · have hrequest : (caretaker "gone" 0).Fires (fun _ => none)
        (.request (caretaker "gone" 0).M .retry "a" (.int 0)) requested := ⟨rfl, rfl⟩
    have hlive : (0 : Nat) ∈ requested.live := by decide +kernel
    have hwrite : requested.Fires (fun _ => none) (.write 0 (broke c.state))
        { requested with M := { requested.M with disk := some (broke c.state) },
                         acked := requested.stillAcked (broke c.state) } := ⟨hlive, rfl⟩
    have hended : Control.Fires (fun _ => none)
        { requested with M := { requested.M with disk := some (broke c.state) },
                         acked := requested.stillAcked (broke c.state) }
        (.ended 0 false) (retriedOnce c.state) := ⟨hlive, rfl⟩
    exact ((Relation.ReflTransGen.single ⟨_, hrequest⟩).tail ⟨_, hwrite⟩).tail ⟨_, hended⟩
  intro honce
  have hfree := honce _ _ _ _ rfl hagain
  apply hfree
  have hacked : (retriedOnce c.state).acked = requested.stillAcked (broke c.state) := rfl
  rw [hacked] at hheld ⊢
  unfold stillAcked at hheld ⊢
  rw [hrequested] at hheld ⊢
  by_cases hsame : (attemptsOf requested.M.disk "a" == attemptsOf (some (broke c.state)) "a")
  · simp [hsame]
  simp [hsame] at hheld

end Control
end DeterminFlow.Recovery
