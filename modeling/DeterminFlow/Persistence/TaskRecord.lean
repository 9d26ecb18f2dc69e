/-
  Persistence.TaskRecord
  **WHAT A TASK STORES OF ITSELF.**

  `WorkflowTask.to_dict` writes a task and the states of its nodes, with the
  states of the child tasks inside them, and `from_dict` reads them back.
  Fields without entries are left out, the actions of a failed node are written
  beside its state, and a task of an older version has its takeover inferred.

  Fields that are passed through unread are JSON values of any kind.
-/
import DeterminFlow.Library.PyJson
import DeterminFlow.Library.PyText

namespace DeterminFlow.Persistence.Records

open Library PyJson

/-! ## Reading values -/

section
variable {F : Type}

/-- `int(value)`; `none` stands for an exception. -/
def intOf (rt : PyRuntime F) : PyJson F → Option Int
  | .bool b => some b.toNat
  | .int i => some i
  | .float f =>
    match rt.floatInt f with
    | .finite i => some i
    | .nan | .infinite => none
  | .str text => PyText.intOf? text
  | .null | .list _ | .dict _ => none

/-- `_non_negative_int(value)`; `none` stands for `OverflowError`. -/
def nonNegativeInt (rt : PyRuntime F) : PyJson F → Option Nat
  | .bool _ => some 0
  | .int i => some i.toNat
  | .float f =>
    match rt.floatInt f with
    | .finite i => some i.toNat
    | .nan => some 0
    | .infinite => none
  | .str text => some (((PyText.intOf? text).getD 0).toNat)
  | .null | .list _ | .dict _ => some 0

/-- `value` when `isinstance(value, dict)`. -/
def asDict? : PyJson F → Option (Dict String (PyJson F))
  | .dict entries => some entries
  | _ => none

/-- The dicts among the items of a value; `none` stands for `TypeError`. -/
def dictItems? : PyJson F → Option (List (Dict String (PyJson F)))
  | .list items => some (items.filterMap asDict?)
  -- the keys of a dict and the characters of a text are no dicts
  | .dict _ | .str _ => some []
  | .null | .bool _ | .int _ | .float _ => none

/-- `value if isinstance(value, str) else default` -/
def textOr (default : String) : PyJson F → String
  | .str text => text
  | _ => default

/-- `value if isinstance(value, str) else None` -/
def text? : PyJson F → Option String
  | .str text => some text
  | _ => none

/-- `value if isinstance(value, dict) else {}` -/
def dictOrEmpty : PyJson F → Dict String (PyJson F)
  | .dict entries => entries
  | _ => []

def ofText? : Option String → PyJson F
  | some text => .str text
  | none => .null

lemma text?_ofText? (text : Option String) : text? (ofText? text : PyJson F) = text := by
  cases text <;> rfl

lemma filterMap_asDict? (items : List (Dict String (PyJson F))) :
    (items.map PyJson.dict).filterMap asDict? = items := by
  induction items with
  | nil => rfl
  | cons item rest ih =>
    have hfirst : asDict? (PyJson.dict item) = some item := rfl
    rw [List.map_cons, List.filterMap_cons_some hfirst, ih]

lemma dictItems?_map (items : List (Dict String (PyJson F))) :
    dictItems? (.list (items.map .dict)) = some items := by
  rw [dictItems?, filterMap_asDict?]

/-! ## The state of a node -/

/-- `NodeExecutionState`, without the child states. -/
structure NodeRecord (F : Type) where
  nodeId : PyJson F
  status : PyJson F
  sessionId : PyJson F
  startedAt : PyJson F
  completedAt : PyJson F
  summary : PyJson F
  error : PyJson F
  rejectionCount : PyJson F
  rejectionReason : PyJson F
  rejectUpstreamCount : PyJson F
  outputs : PyJson F
  stdout : PyJson F
  stderr : PyJson F
  tokenUsage : PyJson F
  tokenUsageCalls : List (Dict String (PyJson F))
  rejectionHistory : List (Dict String (PyJson F))
  iterationHistory : PyJson F
  isSkipped : PyJson F
  attemptCount : Nat
  automaticRetryCount : Nat
  nextRetryAt : Option String
  attemptHistory : List (Dict String (PyJson F))
  inputSnapshot : Dict String (PyJson F)
  upstreamSummarySnapshot : String
  nextAttemptTrigger : String

/-- `NodeExecutionState` -/
inductive NodeState (F : Type) where
  | mk (record : NodeRecord F) (childStates : List (String × NodeState F))

/-- `value in {"failed", "retry_waiting"}` -/
def isFailedOrWaiting : PyJson F → Bool
  | .str status => status = "failed" || status = "retry_waiting"
  | _ => false

def NodeRecord.baseFields (r : NodeRecord F) : Dict String (PyJson F) :=
  [("node_id", r.nodeId), ("status", r.status), ("session_id", r.sessionId),
    ("started_at", r.startedAt), ("completed_at", r.completedAt), ("summary", r.summary),
    ("error", r.error), ("rejection_count", r.rejectionCount),
    ("rejection_reason", r.rejectionReason), ("reject_upstream_count", r.rejectUpstreamCount),
    ("outputs", r.outputs), ("stdout", r.stdout), ("stderr", r.stderr),
    ("attempt_count", .int r.attemptCount), ("automatic_retry_count", .int r.automaticRetryCount),
    ("next_retry_at", ofText? r.nextRetryAt), ("attempt_history", .list (r.attemptHistory.map .dict)),
    ("input_snapshot", .dict r.inputSnapshot),
    ("upstream_summary_snapshot", .str r.upstreamSummarySnapshot),
    ("next_attempt_trigger", .str r.nextAttemptTrigger)]

def NodeRecord.lastFields (rt : PyRuntime F) (r : NodeRecord F) (actionsEnabled : Bool) :
    Dict String (PyJson F) :=
  optField (r.isSkipped.truthy rt.toPyFormat) "is_skipped" (.bool true)
    ++ optField (isFailedOrWaiting r.status) "available_actions"
      (.list (if actionsEnabled then [.str "retry", .str "skip"] else []))

/-- What `_node_state_to_dict` writes, given the child states as written. -/
def NodeRecord.fields (rt : PyRuntime F) (r : NodeRecord F) (actionsEnabled : Bool)
    (childStates : Dict String (PyJson F)) : Dict String (PyJson F) :=
  r.baseFields
    ++ (optField (r.tokenUsage.truthy rt.toPyFormat) "token_usage" r.tokenUsage
    ++ (optField (!r.tokenUsageCalls.isEmpty) "token_usage_calls"
        (.list (r.tokenUsageCalls.map .dict))
    ++ (optField (!r.rejectionHistory.isEmpty) "rejection_history"
        (.list (r.rejectionHistory.map .dict))
    ++ (optField (r.iterationHistory.truthy rt.toPyFormat) "iteration_history" r.iterationHistory
    ++ (optField (!childStates.isEmpty) "child_states" (.dict childStates)
    ++ r.lastFields rt actionsEnabled)))))

mutual

def nodeStateToDict (rt : PyRuntime F) (actionsEnabled : Bool) : NodeState F → PyJson F
  | .mk record childStates =>
    .dict (record.fields rt actionsEnabled (nodeStatesToDict rt actionsEnabled childStates))

def nodeStatesToDict (rt : PyRuntime F) (actionsEnabled : Bool) :
    List (String × NodeState F) → List (String × PyJson F)
  | [] => []
  | (childId, state) :: rest =>
    (childId, nodeStateToDict rt actionsEnabled state) :: nodeStatesToDict rt actionsEnabled rest

end

/-- What `_node_state_from_dict` reads besides the child states; `none` stands
for an exception. -/
def nodeRecordFromDict (rt : PyRuntime F) (data : Dict String (PyJson F)) (nodeId : String) :
    Option (NodeRecord F) := do
  let tokenUsageCalls ← dictItems? (getD data "token_usage_calls" (.list []))
  let rejectionHistory ← dictItems? (getD data "rejection_history" (.list []))
  let attemptCount ← nonNegativeInt rt (getD data "attempt_count" (.int 0))
  let automaticRetryCount ← nonNegativeInt rt (getD data "automatic_retry_count" (.int 0))
  let attemptHistory ← dictItems? (getD data "attempt_history" (.list []))
  return {
    nodeId := getD data "node_id" (.str nodeId)
    status := getD data "status" (.str "pending")
    sessionId := getD data "session_id" (.str "")
    startedAt := getD data "started_at" .null
    completedAt := getD data "completed_at" .null
    summary := getD data "summary" (.str "")
    error := getD data "error" (.str "")
    rejectionCount := getD data "rejection_count" (.int 0)
    rejectionReason := getD data "rejection_reason" (.str "")
    rejectUpstreamCount := getD data "reject_upstream_count" (.int 0)
    outputs := getD data "outputs" (.dict [])
    stdout := getD data "stdout" (.str "")
    stderr := getD data "stderr" (.str "")
    tokenUsage := getD data "token_usage" .null
    tokenUsageCalls := tokenUsageCalls
    rejectionHistory := rejectionHistory
    iterationHistory := getD data "iteration_history" (.list [])
    isSkipped := getD data "is_skipped" (.bool false)
    attemptCount := attemptCount
    automaticRetryCount := automaticRetryCount
    nextRetryAt := text? (getD data "next_retry_at" .null)
    attemptHistory := attemptHistory
    inputSnapshot := dictOrEmpty (getD data "input_snapshot" .null)
    upstreamSummarySnapshot := textOr "" (getD data "upstream_summary_snapshot" (.str ""))
    nextAttemptTrigger := textOr "initial" (getD data "next_attempt_trigger" (.str "initial")) }

mutual

/-- `_node_state_from_dict`; `none` stands for an exception. -/
def nodeStateFromDict (rt : PyRuntime F) (nodeId : String) : PyJson F → Option (NodeState F)
  | .dict data => do
      let childStates ← childStatesIn rt data
      let record ← nodeRecordFromDict rt data nodeId
      return .mk record childStates
  | _ => none

/-- The states under `data.get("child_states", {})`. -/
def childStatesIn (rt : PyRuntime F) :
    List (String × PyJson F) → Option (List (String × NodeState F))
  | [] => some []
  | (key, value) :: rest => if key = "child_states" then childStatesOf rt value else childStatesIn rt rest

def childStatesOf (rt : PyRuntime F) : PyJson F → Option (List (String × NodeState F))
  | .dict entries => nodeStatesFromDict rt entries
  | _ => none

def nodeStatesFromDict (rt : PyRuntime F) :
    List (String × PyJson F) → Option (List (String × NodeState F))
  | [] => some []
  | (childId, childData) :: rest => do
      let state ← nodeStateFromDict rt childId childData
      let states ← nodeStatesFromDict rt rest
      return (childId, state) :: states

end

/-! ## What is read back -/

lemma childStatesIn_eq (rt : PyRuntime F) (data : Dict String (PyJson F)) :
    childStatesIn rt data = childStatesOf rt (getD data "child_states" (.dict [])) := by
  induction data with
  | nil => rfl
  | cons entry rest ih =>
    by_cases h : entry.1 = "child_states"
    · simp [childStatesIn, getD, Dict.get?_cons, h]
    simp only [childStatesIn, if_neg h, ih, getD, Dict.get?_cons]

/-- The values a record holds by its declaration, with a `token_usage` that is
absent or filled. -/
structure NodeRecord.Storable (rt : PyRuntime F) (r : NodeRecord F) : Prop where
  tokenUsage : r.tokenUsage = .null ∨ r.tokenUsage.truthy rt.toPyFormat = true
  iterationHistory : ∃ items, r.iterationHistory = .list items
  isSkipped : ∃ b, r.isSkipped = .bool b

mutual

def NodeState.Storable (rt : PyRuntime F) : NodeState F → Prop
  | .mk record childStates => record.Storable rt ∧ AllStorable rt childStates

def AllStorable (rt : PyRuntime F) : List (String × NodeState F) → Prop
  | [] => True
  | (_, state) :: rest => state.Storable rt ∧ AllStorable rt rest

end

section
variable (rt : PyRuntime F) (r : NodeRecord F) (actionsEnabled : Bool)
  (childStates : Dict String (PyJson F))

lemma getD_fields_of_base {key : String} (d : PyJson F) (h : (r.baseFields).get? key = none) :
    getD (r.fields rt actionsEnabled childStates) key d
      = getD (optField (r.tokenUsage.truthy rt.toPyFormat) "token_usage" r.tokenUsage
        ++ (optField (!r.tokenUsageCalls.isEmpty) "token_usage_calls"
            (.list (r.tokenUsageCalls.map .dict))
        ++ (optField (!r.rejectionHistory.isEmpty) "rejection_history"
            (.list (r.rejectionHistory.map .dict))
        ++ (optField (r.iterationHistory.truthy rt.toPyFormat) "iteration_history" r.iterationHistory
        ++ (optField (!childStates.isEmpty) "child_states" (.dict childStates)
        ++ r.lastFields rt actionsEnabled))))) key d :=
  getD_append_of_get?_none _ d h

lemma getD_lastFields {key : String} (d : PyJson F) (hskip : "is_skipped" ≠ key)
    (hactions : "available_actions" ≠ key) : getD (r.lastFields rt actionsEnabled) key d = d := by
  rw [NodeRecord.lastFields, getD_optField_ne _ _ _ hskip, ← List.append_nil (optField _ _ _),
    getD_optField_ne _ _ _ hactions]
  rfl

lemma getD_tokenUsage (h : r.Storable rt) :
    getD (r.fields rt actionsEnabled childStates) "token_usage" .null = r.tokenUsage := by
  rw [getD_fields_of_base _ _ _ _ _ rfl, getD_optField_self]
  cases h.tokenUsage with
  | inr hfilled => rw [if_pos hfilled]
  | inl habsent =>
    rw [if_neg (by rw [habsent]; exact Bool.false_ne_true),
      getD_optField_ne _ _ _ (by decide), getD_optField_ne _ _ _ (by decide),
      getD_optField_ne _ _ _ (by decide), getD_optField_ne _ _ _ (by decide),
      getD_lastFields _ _ _ _ (by decide) (by decide), habsent]

lemma if_dictItems (items : List (Dict String (PyJson F))) :
    (if !items.isEmpty then PyJson.list (items.map PyJson.dict) else .list [])
      = PyJson.list (items.map .dict) := by
  cases items <;> rfl

lemma getD_tokenUsageCalls :
    getD (r.fields rt actionsEnabled childStates) "token_usage_calls" (.list [])
      = .list (r.tokenUsageCalls.map .dict) := by
  rw [getD_fields_of_base _ _ _ _ _ rfl, getD_optField_ne _ _ _ (by decide), getD_optField_self,
    getD_optField_ne _ _ _ (by decide), getD_optField_ne _ _ _ (by decide),
    getD_optField_ne _ _ _ (by decide), getD_lastFields _ _ _ _ (by decide) (by decide),
    if_dictItems]

lemma getD_rejectionHistory :
    getD (r.fields rt actionsEnabled childStates) "rejection_history" (.list [])
      = .list (r.rejectionHistory.map .dict) := by
  rw [getD_fields_of_base _ _ _ _ _ rfl, getD_optField_ne _ _ _ (by decide),
    getD_optField_ne _ _ _ (by decide), getD_optField_self, getD_optField_ne _ _ _ (by decide),
    getD_optField_ne _ _ _ (by decide), getD_lastFields _ _ _ _ (by decide) (by decide),
    if_dictItems]

lemma getD_iterationHistory (h : r.Storable rt) :
    getD (r.fields rt actionsEnabled childStates) "iteration_history" (.list [])
      = r.iterationHistory := by
  rw [getD_fields_of_base _ _ _ _ _ rfl, getD_optField_ne _ _ _ (by decide),
    getD_optField_ne _ _ _ (by decide), getD_optField_ne _ _ _ (by decide), getD_optField_self,
    getD_optField_ne _ _ _ (by decide), getD_lastFields _ _ _ _ (by decide) (by decide)]
  obtain ⟨items, hitems⟩ := h.iterationHistory
  rw [hitems]
  cases items <;> rfl

lemma getD_childStates : getD (r.fields rt actionsEnabled childStates) "child_states" (.dict [])
      = .dict childStates := by
  rw [getD_fields_of_base _ _ _ _ _ rfl, getD_optField_ne _ _ _ (by decide),
    getD_optField_ne _ _ _ (by decide), getD_optField_ne _ _ _ (by decide),
    getD_optField_ne _ _ _ (by decide), getD_optField_self,
    getD_lastFields _ _ _ _ (by decide) (by decide)]
  cases childStates <;> rfl

lemma getD_isSkipped (h : r.Storable rt) :
    getD (r.fields rt actionsEnabled childStates) "is_skipped" (.bool false) = r.isSkipped := by
  rw [getD_fields_of_base _ _ _ _ _ rfl, getD_optField_ne _ _ _ (by decide),
    getD_optField_ne _ _ _ (by decide), getD_optField_ne _ _ _ (by decide),
    getD_optField_ne _ _ _ (by decide), getD_optField_ne _ _ _ (by decide),
    NodeRecord.lastFields, getD_optField_self, ← List.append_nil (optField _ _ _),
    getD_optField_ne _ _ _ (by decide)]
  obtain ⟨b, hb⟩ := h.isSkipped
  rw [hb]
  cases b <;> rfl

lemma nodeRecordFromDict_fields (h : r.Storable rt) (nodeId : String) :
    nodeRecordFromDict rt (r.fields rt actionsEnabled childStates) nodeId = some r := by
  have hattempts : nonNegativeInt rt (.int r.attemptCount) = some r.attemptCount := rfl
  have hretries : nonNegativeInt rt (.int r.automaticRetryCount) = some r.automaticRetryCount := rfl
  -- the fields that are always there are found by computation
  have hattempt : getD (r.fields rt actionsEnabled childStates) "attempt_count" (.int 0)
      = .int r.attemptCount := rfl
  have hretry : getD (r.fields rt actionsEnabled childStates) "automatic_retry_count" (.int 0)
      = .int r.automaticRetryCount := rfl
  have hhistory : getD (r.fields rt actionsEnabled childStates) "attempt_history" (.list [])
      = .list (r.attemptHistory.map .dict) := rfl
  have hnext : getD (r.fields rt actionsEnabled childStates) "next_retry_at" .null
      = ofText? r.nextRetryAt := rfl
  simp only [nodeRecordFromDict, getD_tokenUsageCalls, getD_rejectionHistory, hattempt, hretry,
    hhistory, hnext, dictItems?_map, hattempts, hretries, text?_ofText?,
    getD_tokenUsage rt r actionsEnabled childStates h,
    getD_iterationHistory rt r actionsEnabled childStates h,
    getD_isSkipped rt r actionsEnabled childStates h, Option.bind_eq_bind, Option.bind_some]
  rfl

end

mutual

lemma nodeStateFromDict_toDict (rt : PyRuntime F) (actionsEnabled : Bool) :
    ∀ (state : NodeState F), state.Storable rt → ∀ nodeId : String,
      nodeStateFromDict rt nodeId (nodeStateToDict rt actionsEnabled state) = some state
  | .mk record childStates, h, nodeId => by
      have hchildren := nodeStatesFromDict_toDict rt actionsEnabled childStates h.2
      simp only [nodeStateToDict, nodeStateFromDict, childStatesIn_eq, getD_childStates,
        childStatesOf, hchildren, nodeRecordFromDict_fields rt record actionsEnabled _ h.1,
        Option.bind_eq_bind, Option.bind_some, Option.pure_def]

lemma nodeStatesFromDict_toDict (rt : PyRuntime F) (actionsEnabled : Bool) :
    ∀ states : List (String × NodeState F), AllStorable rt states →
      nodeStatesFromDict rt (nodeStatesToDict rt actionsEnabled states) = some states
  | [], _ => rfl
  | (childId, state) :: rest, h => by
      have hstate := nodeStateFromDict_toDict rt actionsEnabled state h.1 childId
      have hrest := nodeStatesFromDict_toDict rt actionsEnabled rest h.2
      simp only [nodeStatesToDict, nodeStatesFromDict, hstate, hrest, Option.bind_eq_bind,
        Option.bind_some, Option.pure_def]

end

/-! ## The task -/

structure WorkflowTask (F : Type) where
  taskId : PyJson F
  workflowId : PyJson F
  name : PyJson F
  status : PyJson F
  mainSessionId : PyJson F
  mainTakeover : Bool
  currentNodeId : PyJson F
  runId : PyJson F
  createdAt : PyJson F
  updatedAt : PyJson F
  startedAt : PyJson F
  completedAt : PyJson F
  nodeStates : List (String × NodeState F)
  snapshotDefinition : PyJson F
  parameterValues : PyJson F
  snapshotVariables : PyJson F
  workspaceOverride : PyJson F
  workspaceMode : PyJson F
  workspaceRef : PyJson F
  disabledNodeIds : PyJson F
  schemeId : PyJson F
  controlFlowState : Dict String (PyJson F)
  executorId : PyJson F
  executorEpoch : PyJson F

def WorkflowTask.toDict (rt : PyRuntime F) (task : WorkflowTask F) : Dict String (PyJson F) :=
  [("task_id", task.taskId), ("workflow_id", task.workflowId), ("name", task.name),
    ("status", task.status), ("current_node_id", task.currentNodeId), ("run_id", task.runId),
    ("created_at", task.createdAt), ("updated_at", task.updatedAt),
    ("started_at", task.startedAt), ("completed_at", task.completedAt),
    ("node_states", .dict (nodeStatesToDict rt (isFailedOrWaiting task.status) task.nodeStates)),
    ("snapshot_definition", task.snapshotDefinition), ("parameter_values", task.parameterValues),
    ("snapshot_variables", task.snapshotVariables), ("main_session_id", task.mainSessionId),
    ("main_takeover", .bool task.mainTakeover), ("disabled_node_ids", task.disabledNodeIds),
    ("scheme_id", task.schemeId), ("workspace_override", task.workspaceOverride),
    ("workspace_mode", task.workspaceMode), ("workspace_ref", task.workspaceRef),
    ("control_flow_state", .dict task.controlFlowState), ("executor_id", task.executorId),
    ("executor_epoch", task.executorEpoch)]

def hashable : PyJson F → Bool
  | .list _ | .dict _ => false
  | _ => true

/-- The items of an iteration over a value; `none` stands for `TypeError`. -/
def itemsOf? : PyJson F → Option (List (PyJson F))
  | .list items => some items
  | .dict entries => some (entries.map (fun entry => .str entry.1))
  | .str text => some (text.toList.map (fun c => .str (String.singleton c)))
  | .null | .bool _ | .int _ | .float _ => none

/-- `value == text` -/
def isText (text : String) : PyJson F → Bool
  | .str other => other = text
  | _ => false

/-- The types of the nodes by id, as far as the ids are texts: an id of another
kind equals the key of no state. -/
def nodeTypesOf (rt : PyRuntime F) :
    List (PyJson F) → Dict String (PyJson F) → Option (Dict String (PyJson F))
  | [], types => some types
  | .dict node :: rest, types =>
    if ((getD node "id" .null).truthy rt.toPyFormat) then
      match getD node "id" .null with
      | .str id => nodeTypesOf rt rest (types.set id (getD node "node_type" (.str "agent")))
      | id => if hashable id then nodeTypesOf rt rest types else none
    else nodeTypesOf rt rest types
  | _ :: rest, types => nodeTypesOf rt rest types

def showsTakeover (types : Dict String (PyJson F)) : String × PyJson F → Bool
  | (nodeId, .dict state) =>
    isText "agent" (getD types nodeId (.str "agent"))
      && (isText "waiting_approval" (getD state "status" .null)
        || isText "recovery_reissue" (getD state "next_attempt_trigger" .null))
  | _ => false

/-- `main_takeover` of a task that was stored without it. -/
def legacyTakeover (rt : PyRuntime F) (data : Dict String (PyJson F)) : Option Bool := do
  let snapshot := getD data "snapshot_definition" .null
  -- `data.get("snapshot_definition") or {}`
  let definition ← if snapshot.truthy rt.toPyFormat then asDict? snapshot else some []
  let nodes ← itemsOf? (getD definition "nodes" (.list []))
  let types ← nodeTypesOf rt nodes []
  let states ← asDict? (getD data "node_states" (.dict []))
  return states.any (showsTakeover types)

/-- `main_takeover` as `from_dict` finds it; `none` stands for an exception. -/
def takeoverIn (rt : PyRuntime F) (data : Dict String (PyJson F)) : Option Bool :=
  match data.get? "main_takeover" with
  | some value => some (match value with | .bool true => true | _ => false)
  | none =>
    if (getD data "main_session_id" .null).truthy rt.toPyFormat then legacyTakeover rt data
    else some false

/-- What a task receives that was stored without an id or a time. -/
structure GeneratedTask where
  taskId : String
  createdAt : String
  updatedAt : String

/-- `WorkflowTask.from_dict`; `none` stands for an exception. -/
def WorkflowTask.fromDict (rt : PyRuntime F) (generated : GeneratedTask)
    (data : Dict String (PyJson F)) : Option (WorkflowTask F) := do
  let mainTakeover ← takeoverIn rt data
  let states ← asDict? (getD data "node_states" (.dict []))
  let nodeStates ← nodeStatesFromDict rt states
  return {
    taskId := getD data "task_id" (.str generated.taskId)
    workflowId := getD data "workflow_id" (.str "")
    name := getD data "name" (.str "")
    status := getD data "status" (.str "running")
    mainSessionId := getD data "main_session_id" .null
    mainTakeover := mainTakeover
    currentNodeId := getD data "current_node_id" .null
    runId := getD data "run_id" .null
    createdAt := getD data "created_at" (.str generated.createdAt)
    updatedAt := getD data "updated_at" (getD data "created_at" (.str generated.updatedAt))
    startedAt := getD data "started_at" .null
    completedAt := getD data "completed_at" .null
    nodeStates := nodeStates
    snapshotDefinition := getD data "snapshot_definition" .null
    parameterValues := getD data "parameter_values" (.dict [])
    snapshotVariables := getD data "snapshot_variables" .null
    workspaceOverride := getD data "workspace_override" .null
    workspaceMode := getD data "workspace_mode" (.str "legacy_shared")
    workspaceRef := getD data "workspace_ref" .null
    disabledNodeIds := getD data "disabled_node_ids" (.list [])
    schemeId := getD data "scheme_id" .null
    controlFlowState := dictOrEmpty (getD data "control_flow_state" .null)
    executorId := getD data "executor_id" .null
    executorEpoch := getD data "executor_epoch" .null }

lemma WorkflowTask.fromDict_toDict (rt : PyRuntime F) (generated : GeneratedTask)
    (task : WorkflowTask F) (h : AllStorable rt task.nodeStates) :
    WorkflowTask.fromDict rt generated (task.toDict rt) = some task := by
  have htakeover : takeoverIn rt (task.toDict rt) = some task.mainTakeover := by
    have hfound : (task.toDict rt).get? "main_takeover" = some (.bool task.mainTakeover) := rfl
    rw [takeoverIn, hfound]
    cases task.mainTakeover <;> rfl
  have hstates : asDict? (getD (task.toDict rt) "node_states" (.dict []))
      = some (nodeStatesToDict rt (isFailedOrWaiting task.status) task.nodeStates) := rfl
  simp only [WorkflowTask.fromDict, htakeover, hstates,
    nodeStatesFromDict_toDict rt _ task.nodeStates h, Option.bind_eq_bind, Option.bind_some]
  rfl

end
end DeterminFlow.Persistence.Records
