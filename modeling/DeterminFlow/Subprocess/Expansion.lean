/-
  Subprocess.Expansion
  **HOW A SUB-WORKFLOW NODE IS EXPANDED.**

  `nodes/subprocess.py`: a sub-workflow node loads the definition stored
  under its target id, checks it, and executes its plan in place.  A node of
  that plan may be a sub-workflow node again, so the definitions under
  expansion form a chain, the innermost first.

  Plugins answer what they like, and so do the expressions of condition
  branches.  An expansion starts from the child states and the branch choices
  that earlier attempts have left, whatever they are.  Parameters, outputs and
  summaries are left out: no check that decides about an expansion reads them.
-/
import DeterminFlow.Workflow.ExecutionPlan
import DeterminFlow.Recovery.Manager
import DeterminFlow.Library.Runs

namespace DeterminFlow.Subprocess

open Library Runs Workflow DeterminFlow.Runtime
open Recovery

/-! ## Stored definitions -/

structure ExecutionScheme where
  id : String
  selectedNodeIds : List String

/-- A `definition.json`: the definition, and what only its use as a
sub-workflow reads of it. -/
structure Template where
  workflowId : String
  definition : WorkflowDef
  executionSchemes : List ExecutionScheme := []
  /-- `sub_scheme_id` of the nodes that have one. -/
  subSchemeIds : Dict String String := []

/-- What surrounds an execution: the files below `WORKFLOWS_DIR` by directory
name, the start `get_execution_plan` picks, and the registry of node types. -/
structure Platform where
  workflows : Dict String Template
  candidate : WorkflowDef → String := fun _ => "__start__"
  registered : String → Bool := fun _ => true

/-- `re.sub(r"[^a-zA-Z0-9_\-]", "", sub_workflow_id)`. -/
def safeId (id : String) : String :=
  String.ofList (id.toList.filter (fun c => c.isAlphanum || c == '_' || c == '-'))

/-- `_load_child_definition`.  A name of safe characters stays below the
directory. -/
def loadChildDefinition (P : Platform) (subWorkflowId : String) : Option (String × Template) :=
  let id := safeId subWorkflowId
  if id = "" then none else (P.workflows.get? id).map (fun t => (id, t))

/-- `_child_policy_error`; `none` for the empty text. -/
def childPolicyError (parent child : Template) : Option String :=
  let childPolicy := child.definition.httpExecutionPolicy
  if childPolicy ≠ "public" ∧ childPolicy ≠ "internal_only" then
    some ("workflow_execution_policy_invalid: 子流程 " ++ child.workflowId
      ++ " 的 http_execution_policy 无效")
  else if childPolicy = "internal_only" ∧ parent.definition.httpExecutionPolicy ≠ "internal_only" then
    some ("workflow_internal_only: public 工作流 " ++ parent.workflowId
      ++ " 不能执行 internal_only 子流程 " ++ child.workflowId)
  else none

/-- `child_disabled_ids`: what the chosen scheme leaves out. -/
def childDisabledIds (child : Template) (subSchemeId : String) : List String :=
  if subSchemeId = "" then []
  else
    match child.executionSchemes.find? (·.id = subSchemeId) with
    | some scheme => child.definition.executableIds.filter (· ∉ scheme.selectedNodeIds)
    | none => []

/-! ## Opening a definition -/

/-- A definition that passed the checks of `execute`, with its plan. -/
structure Opening where
  /-- The directory it was read from. -/
  id : String
  template : Template
  disabledIds : List String
  plan : List PlanStep

def gatewayTypeText : GatewayType → String
  | .parallel => "parallel"
  | .converge => "converge"
  | .condition => "condition"
  | .loop => "loop"
  | .other name => name

/-- `step.get("type") == "condition_gateway" and step.get("loop")`. -/
def isConditionLoop : PlanStep → Bool
  | .conditionGateway _ _ loop _ => loop.isSome
  | _ => false

/-- **The checks of `execute`** on the way to `_execute_child_plan`. -/
def openChild (P : Platform) (parent : Template) (node : WorkflowNode) : Except String Opening :=
  let subWorkflowId := node.subWorkflowId.getD ""
  if subWorkflowId = "" then .error "子流程节点未指定目标流程"
  else
    match loadChildDefinition P subWorkflowId with
    | none => .error ("子流程 " ++ subWorkflowId ++ " 不存在")
    | some (id, child) =>
      -- compares the child with its parent only, not with the definitions further out
      match childPolicyError parent child with
      | some message => .error message
      | none =>
        let plan := child.definition.getExecutionPlan (P.candidate child.definition) none none
        if plan = [] then .error ("子流程 " ++ subWorkflowId ++ " 无节点")
        else
          -- what cannot be resumed is refused before anything runs
          match child.definition.gateways.find? (·.gatewayType ≠ .condition) with
          | some gateway =>
            .error ("subprocess_control_flow_unsupported: 子流程暂不支持可恢复的 "
              ++ gatewayTypeText gateway.gatewayType ++ " 网关 (" ++ gateway.id ++ ")")
          | none =>
            if plan.any isConditionLoop then
              .error "subprocess_control_flow_unsupported: 子流程暂不支持 condition loop"
            else
              .ok { id, template := child, plan
                    disabledIds := childDisabledIds child
                      ((parent.subSchemeIds.get? node.id).getD "") }

/-! ## One definition under expansion -/

/-- What earlier attempts have left: `child_states`, and the choices of the
snapshot. -/
structure Remains where
  childStates : Dict String NodeStatus := []
  conditionChoices : Dict String String := []

/-- A running `_execute_child_plan`; `plan` begins at `plan_index`. -/
structure Frame where
  opening : Opening
  childStates : Dict String NodeStatus
  conditionChoices : Dict String String
  plan : List PlanStep

namespace Frame

def definition (f : Frame) : WorkflowDef := f.opening.template.definition

/-- `child_states.get(id, NodeExecutionState(node_id=id)).status`. -/
def statusOf (f : Frame) (id : String) : NodeStatus := (f.childStates.get? id).getD .pending

end Frame

/-- `_execute_child_plan` begins: every executable node has a state. -/
def Opening.enter (o : Opening) (left : Remains) : Frame where
  opening := o
  childStates := o.template.definition.executableIds.foldl
    (fun states id => states.setDefault id .pending) left.childStates
  conditionChoices := left.conditionChoices
  plan := o.plan

/-- The branch of a condition gateway that is taken: the frozen one, else the
first whose expression holds, else the default one. -/
def selectBranch (choices : Dict String String) (holds : BranchInfo → Bool) (gatewayId : String)
    (branches : List BranchInfo) : Option BranchInfo :=
  let isDefault (b : BranchInfo) : Bool := b.condition.any (·.isDefault)
  let hasText (b : BranchInfo) : Bool := b.condition.any (fun c => PyText.hasText c.expression)
  -- a frozen choice that is no target any more is not an error
  (branches.find? (fun b => decide (choices.get? gatewayId = some b.target))).or
    ((branches.find? (fun b => !isDefault b && hasText b && holds b)).or
      (branches.find? isDefault))

def branchPath (d : WorkflowDef) (convergence : String) (visited : List String)
    (current : String) : Except String (List String) :=
  if current = convergence ∨ current = "__end__" then .ok []
  else if _h : current ∈ visited ∨ current ∉ d.nodeIds then
    .error ("subprocess_condition_invalid: 分支路径无效: " ++ current)
  else
    match d.targetsOf current with
    | [next] => (branchPath d convergence (visited ++ [current]) next).map (current :: ·)
    | _ => .error ("subprocess_condition_invalid: 分支不是串行路径: " ++ current)
termination_by (d.nodeIds.filter (· ∉ visited)).length
decreasing_by
  obtain ⟨hfresh, hnode⟩ := not_or.1 _h
  have hsub : d.nodeIds.filter (· ∉ visited ++ [current]) =
      (d.nodeIds.filter (· ∉ visited)).filter (· ≠ current) := by
    rw [List.filter_filter]
    refine List.filter_congr fun id _ => ?_
    simp [and_comm]
  rw [hsub]
  refine List.length_filter_lt_length_iff_exists.2 ⟨current, ?_, by simp⟩
  simpa [hfresh] using hnode

/-- `execution_plan[tail_index:]`: the plan from the convergence node on,
nothing at the end of the workflow, `none` when the node does not follow. -/
def planTail (convergence : String) (rest : List PlanStep) : Option (List PlanStep) :=
  if convergence = "__end__" then some []
  else
    match rest.dropWhile (fun step => decide (step ≠ .node convergence)) with
    | [] => none
    | tail => some tail

def skipOthers (d : WorkflowDef) (branches : List BranchInfo) (target convergence : String)
    (states : Dict String NodeStatus) : Dict String NodeStatus :=
  ((branches.filter (·.target ≠ target)).flatMap
      (fun b => d.collectBranchNodes states.keys b.target convergence)).foldl
    (fun states id =>
      if states.get? id = some .pending then states.set id .skipped else states) states

/-- `str(step.get("convergence_node_id") or "__end__")`. -/
def convergenceOf (convergenceNodeId : String) : String :=
  if convergenceNodeId = "" then "__end__" else convergenceNodeId

/-- What one round of the loop of `_execute_child_plan` comes to. -/
inductive Turn where
  /-- The text it returns, empty on success. -/
  | returns (error : String)
  | goesOn (f : Frame)
  /-- The plugin of a node is called. -/
  | starts (node : WorkflowNode)

def Frame.nodeTurn (f : Frame) (id : String) (rest : List PlanStep) : Turn :=
  match f.definition.getNode id with
  | none => .goesOn { f with plan := rest }
  | some node =>
    if isReserved id then .goesOn { f with plan := rest }
    else if id ∈ f.opening.disabledIds then
      .goesOn { f with childStates := f.childStates.set id .skipped, plan := rest }
    else
      -- a node that was running when the attempt ended may not be run again
      match (f.statusOf id).normalize with
      | .completed => .goesOn { f with childStates := f.childStates.set id .completed, plan := rest }
      | .skipped => .goesOn { f with plan := rest }
      | .pending => .starts node
      | .failed => .starts node
      | status => .returns ("subprocess_child_state_uncertain: 子节点状态不可安全重放: "
          ++ id ++ "=" ++ nodeStatusText status)

/-- A `condition_gateway` step. -/
def Frame.gatewayTurn (f : Frame) (holds : BranchInfo → Bool) (gatewayId : String)
    (branches : List BranchInfo) (convergenceNodeId : String) (rest : List PlanStep) : Turn :=
  if branches = [] then .returns "subprocess_condition_invalid: 条件网关没有分支"
  else
    match selectBranch f.conditionChoices holds gatewayId branches with
    | none => .returns "subprocess_condition_invalid: 条件网关没有可用分支"
    | some selected =>
      let convergence := convergenceOf convergenceNodeId
      match branchPath f.definition convergence [] selected.target with
      | .error message => .returns message
      | .ok path =>
        match planTail convergence rest with
        | none => .returns ("subprocess_condition_invalid: 缺少汇合节点 " ++ convergence)
        | some tail => .goesOn
            { f with
              childStates := skipOthers f.definition branches selected.target convergence
                f.childStates
              conditionChoices := f.conditionChoices.set gatewayId selected.target
              plan := path.map .node ++ tail }

/-- **One round of the loop**; `holds` is what the expressions evaluate to. -/
def Frame.turn (f : Frame) (holds : BranchInfo → Bool) : Turn :=
  match f.plan with
  | [] => .returns ""
  | .node id :: rest => f.nodeTurn id rest
  | .conditionGateway gatewayId branches _ convergenceNodeId :: rest =>
    f.gatewayTurn holds gatewayId branches convergenceNodeId rest
  | .parallelGateway _ _ :: _ => .returns "subprocess_control_flow_unsupported: parallel_gateway"
  -- the `else` of the loop: any other step is passed over
  | _ :: rest => .goesOn { f with plan := rest }

/-- `begin_node_attempt` on the node of the current step. -/
def Frame.begin (f : Frame) (id : String) : Frame :=
  { f with childStates := f.childStates.set id .running }

def Frame.complete (f : Frame) : Frame :=
  match f.plan with
  | .node id :: rest => { f with childStates := f.childStates.set id .completed, plan := rest }
  | _ => f

/-! ## The chain of expansions -/

/-- The definitions under expansion below one node of the task, the innermost
first.  The nodes of parallel branches have chains of their own. -/
abbrev Chain : Type := List Frame

inductive Event where
  /-- The engine executes a sub-workflow node of the task. -/
  | start (nodeId : String) (left : Remains)
  /-- The innermost expansion goes on.  `completed` is the answer of a plugin;
  a sub-workflow node finds what `left` says. -/
  | turn (holds : BranchInfo → Bool) (completed : Bool) (left : Remains)
  /-- An exception in the innermost expansion. -/
  | raise

/-- `node_type or "agent"`. -/
def nodeTypeOf (node : WorkflowNode) : String :=
  if node.nodeType = "" then "agent" else node.nodeType

def finished : Chain → Chain
  | [] => []
  | f :: rest => f.complete :: rest

/-- The plugin of a node of `f` is called.  The error of a node is the error
of every expansion around it. -/
def startNode (P : Platform) (f : Frame) (rest : Chain) (node : WorkflowNode) (completed : Bool)
    (left : Remains) : Chain :=
  let f := f.begin node.id
  if !P.registered (nodeTypeOf node) then []
  else if nodeTypeOf node = "subprocess" then
    -- the chain is not looked at: nothing asks whether the child is under expansion
    match openChild P f.opening.template node with
    | .ok o => o.enter left :: f :: rest
    | .error _ => []
  else if completed then f.complete :: rest
  else []

/-- **One step of the chain**; `none` when the event cannot happen. -/
def step (P : Platform) (task : Template) : Chain → Event → Option Chain
  | [], .start nodeId left =>
    match task.definition.getNode nodeId with
    | none => none
    | some node =>
      if isReserved nodeId ∨ nodeTypeOf node ≠ "subprocess" ∨ !P.registered "subprocess" then none
      else
        match openChild P task node with
        | .ok o => some [o.enter left]
        | .error _ => some []
  | f :: rest, .turn holds completed left =>
    match f.turn holds with
    | .goesOn f' => some (f' :: rest)
    | .starts node => some (startNode P f rest node completed left)
    | .returns error => if error = "" then some (finished rest) else some []
  | _ :: _, .raise => some []
  | _, _ => none

end DeterminFlow.Subprocess
