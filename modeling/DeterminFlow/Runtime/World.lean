/-
  Runtime.World
  **THE STATE AN EXECUTION WORKS ON.**

  `WorkflowTask` in memory and on disk, and what the engine keeps around it.
  In memory `task.node_states` maps a node to a state *object*, and the
  engine aliases these objects: an attempt keeps the object of its enclosing
  loop and the object it executes on, a callback may put either back.  So
  the memory holds numbered objects per node, and the task maps each node to
  the number of its current one.  On disk there are values only.

  `log` is a ghost: a history for statements about runs that no modelled
  function reads.
-/
import DeterminFlow.Runtime.NodeState
import DeterminFlow.Library.Coop.Machine

namespace DeterminFlow.Runtime

open Library Coop Workflow

/-! ## Tasks -/

inductive TaskStatus where
  | preRunning
  | pending
  | running
  | completed
  | failed
  | retryWaiting
  | stopped
  | resumePending
  | other (text : String)
  deriving DecidableEq

/-- What a scheduler function returns. -/
inductive Outcome where
  | completed
  | failed
  | retryWaiting
  deriving DecidableEq

/-- `outcome in {"failed", "retry_waiting"}`. -/
def Outcome.halts : Outcome → Bool
  | .completed => false
  | _ => true

/-- The `"phase"` of a loop cursor and the `"status"` of a condition state. -/
inductive Phase where
  | ready
  | running
  | finished (outcome : Outcome)
  deriving DecidableEq

/-- The frozen choice of a condition gateway. -/
structure ConditionState where
  selectedTarget : String := ""
  convergenceNodeId : String := ""
  status : Phase := .running

inductive LoopMode where
  | range
  | list
  | dict
  deriving DecidableEq

/-- An element of a frozen item sequence. -/
inductive LoopItem where
  | value (item : Json)
  | pair (key : String) (item : Json)

/-- A loop cursor.  Loop gateways and condition loops share one dictionary;
each reads its own keys, with the defaults here. -/
structure LoopCursor where
  mode : Option LoopMode := none
  items : Option (List LoopItem) := none
  nextIndex : Nat := 0
  activeIndex : Option Nat := none
  nextIteration : Nat := 1
  activeIteration : Option Nat := none
  phase : Phase := .ready
  iterationValues : Pool := []

/-- `WorkflowTask`, over a representation of node states. -/
structure Task (ν : Type) where
  taskId : String := ""
  workflowId : String := ""
  name : String := ""
  status : TaskStatus := .pending
  mainSessionId : Option String := none
  mainTakeover : Bool := false
  currentNodeId : Option String := none
  updatedAt : Timestamp := ""
  startedAt : Option Timestamp := none
  completedAt : Option Timestamp := none
  nodeStates : Dict String ν := []
  parameterValues : Pool := []
  disabledNodeIds : List String := []
  conditions : Dict String ConditionState := []
  loops : Dict String LoopCursor := []

def Task.mapStates {ν μ : Type} (task : Task ν) (f : String → ν → μ) : Task μ where
  taskId := task.taskId
  workflowId := task.workflowId
  name := task.name
  status := task.status
  mainSessionId := task.mainSessionId
  mainTakeover := task.mainTakeover
  currentNodeId := task.currentNodeId
  updatedAt := task.updatedAt
  startedAt := task.startedAt
  completedAt := task.completedAt
  nodeStates := task.nodeStates.mapValues f
  parameterValues := task.parameterValues
  disabledNodeIds := task.disabledNodeIds
  conditions := task.conditions
  loops := task.loops

/-- A task as a value: what `to_dict` writes and `from_dict` reads. -/
abbrev TaskData : Type := Task NodeExecutionState

/-! ## Attempts and the log -/

/-- One call of `_execute_node` that reached a plugin: the closures the
plugin gets, and what they have done so far. -/
structure Attempt where
  owner : Thread
  node : String
  /-- The object the attempt executes on. -/
  live : Nat
  /-- The object of the enclosing loop, when the reject callback is passed. -/
  outer : Option Nat
  /-- The parameters handed to the plugin. -/
  input : Pool
  /-- The first message handed to the plugin. -/
  message : String := ""
  /-- The sequence the node is executed in, and its place there. -/
  order : List String := []
  index : Nat := 0
  /-- The upstream node of the accepted `reject_upstream` call. -/
  rejected : Option String := none
  /-- Checkpoints of this attempt that wait for the save lock. -/
  queued : Nat := 0
  /-- A checkpoint of this attempt holds the save lock. -/
  saving : Bool := false

/-- Entries of the ghost history. -/
inductive LogEntry where
  /-- The sequence executor turns to a node it has to execute. -/
  | entered (t : Thread) (node : String)
  /-- An attempt begins: its number, the input handed to the plugin. -/
  | began (t : Thread) (node : String) (count : Nat) (input : Pool)
  /-- The plugin of a node rejects an upstream node. -/
  | rejected (t : Thread) (node upstream : String)
  /-- An attempt ends. -/
  | ended (t : Thread) (node : String) (status : NodeStatus)
  /-- The condition of an out-edge has been evaluated. -/
  | evaluated (gateway target : String) (truth : Bool)
  /-- A condition gateway has chosen. -/
  | chose (gateway target : String)
  /-- A node of an unselected branch has been skipped. -/
  | skipped (node : String)
  /-- A loop has reset a node for a new iteration. -/
  | reset (node : String)

/-- What is known about sessions, by id. -/
structure Sessions where
  /-- Registered with the session manager. -/
  registered : List String := []
  /-- Held by the persistence manager. -/
  persisted : List String := []
  /-- With a running task of their own. -/
  subTasks : List String := []
  /-- Whose task has been cancelled. -/
  cancelled : List String := []

/-- `detach_saved_runtime_session`. -/
def Sessions.detach (s : Sessions) (sessionId : String) : Sessions where
  registered := s.registered.filter (· ≠ sessionId)
  persisted := s.persisted.filter (· ≠ sessionId)
  subTasks := s.subTasks.filter (· ≠ sessionId)
  cancelled := s.cancelled

/-- The state of an execution. -/
structure World where
  task : Task Nat
  /-- State objects of each node, by number. -/
  objects : String → Nat → NodeExecutionState := fun _ _ => {}
  /-- How many objects each node has. -/
  allocated : String → Nat := fun _ => 0
  /-- Attempts so far, in order; their number is their place. -/
  attempts : List Attempt := []
  /-- The snapshot being written by the holder of the save lock. -/
  writing : Option TaskData := none
  /-- That snapshot has replaced the file. -/
  landed : Bool := false
  /-- The task file. -/
  disk : Option TaskData := none
  /-- The task file can be written. -/
  writable : Bool := true
  sessions : Sessions := {}
  clock : Timestamp := ""
  /-- Ghost: the task's status when the runner was first cancelled. -/
  stopping : Option TaskStatus := none
  /-- Ghost: every snapshot taken, newest first. -/
  snapshots : List TaskData := []
  /-- Ghost: the history, newest first. -/
  log : List LogEntry := []

namespace World

variable (w : World)

/-! ## Node states in memory -/

def current? (node : String) : Option Nat := w.task.nodeStates.get? node

/-- `task.node_states.get(node)`. -/
def stateOf (node : String) : Option NodeExecutionState := (w.current? node).map (w.objects node)

def statusOf (node : String) : Option NodeStatus := (w.stateOf node).map (·.status)

/-- Change object `r` of a node in place. -/
def modifyObject (node : String) (r : Nat) (f : NodeExecutionState → NodeExecutionState) :
    World :=
  { w with objects :=
      Function.update w.objects node (Function.update (w.objects node) r (f (w.objects node r))) }

/-- A new object of a node; its number is `w.allocated node`. -/
def allocate (node : String) (state : NodeExecutionState) : World :=
  { w with
    objects := Function.update w.objects node
      (Function.update (w.objects node) (w.allocated node) state)
    allocated := Function.update w.allocated node (w.allocated node + 1) }

/-- `task.node_states[node] = object`. -/
def install (node : String) (r : Nat) : World :=
  { w with task := { w.task with nodeStates := w.task.nodeStates.set node r } }

/-- `task.node_states[node] = NodeExecutionState(...)`. -/
def installNew (node : String) (state : NodeExecutionState) : World :=
  (w.allocate node state).install node (w.allocated node)

/-- The object of `task.node_states.get(node, NodeExecutionState(node_id=node))`. -/
def currentOrNext (node : String) : Nat := (w.current? node).getD (w.allocated node)

def materialize (node : String) : World :=
  match w.current? node with
  | some _ => w
  | none => w.allocate node { nodeId := node }

/-- `task.node_states.setdefault(node, NodeExecutionState(node_id=node))`. -/
def ensureState (node : String) : World :=
  match w.current? node with
  | some _ => w
  | none => w.installNew node { nodeId := node }

def upsert (node : String) (f : NodeExecutionState → NodeExecutionState) : World :=
  ((w.materialize node).modifyObject node (w.currentOrNext node) f).install node
    (w.currentOrNext node)

def record (entry : LogEntry) : World := { w with log := entry :: w.log }

def modifyAttempt (a : Nat) (f : Attempt → Attempt) : World :=
  { w with attempts := w.attempts.modify a f }

/-! ## Saving -/

/-- `task.to_dict()`. -/
def snapshot : TaskData := w.task.mapStates (fun node r => w.objects node r)

def takeSnapshot : World :=
  let w := { w with task := { w.task with updatedAt := w.clock } }
  { w with writing := some w.snapshot, landed := false, snapshots := w.snapshot :: w.snapshots }

def land : World :=
  match w.writing with
  | some data => { w with disk := some data, landed := true }
  | none => w

def releaseSaveLock : World := { w with writing := none, landed := false }

/-- `from_dict` on the task file: a fresh memory with one object per node. -/
def load (data : TaskData) : World :=
  { task := data.mapStates (fun _ _ => 0)
    objects := fun node _ => (data.nodeStates.get? node).getD {}
    allocated := fun node => if data.nodeStates.has node then 1 else 0
    disk := some data }

end World
end DeterminFlow.Runtime
