/-
  Workflow.ExecutionPlan
  **THE EXECUTION PLAN OF A DEFINITION.**

  `get_execution_plan` of `workflow/definition.py`: one walk along first
  out-edges that turns every gateway it meets into plan steps.  Two sets
  drive it, `visited` (every id laid out so far, branch nodes included) and
  `visited_order` (the main line only, used to cut out the body of a
  condition loop).

  Python picks the start of the walk with `next(iter(...))` on a set, so the
  choice is a parameter here: any member of `startChoices`.
-/
import DeterminFlow.Workflow.Definition

namespace DeterminFlow.Workflow

open Library

/-! ## Plan steps -/

/-- One out-edge of a condition gateway, as the plan records it. -/
structure BranchInfo where
  target : String
  condition : Option EdgeCondition
  deriving DecidableEq

/-- The loop part of a condition step: its body, the out-edge that goes
back, and the first out-edge that does not. -/
structure LoopInfo where
  bodyNodes : List String
  continueBranch : BranchInfo
  exitBranch : Option BranchInfo
  deriving DecidableEq

/-- The step dictionaries of the plan, one constructor for each `"type"`. -/
inductive PlanStep where
  | node (nodeId : String)
  | parallelGateway (gatewayId convergeGatewayId : String)
  | branch (nodes : List String) (branchIndex : Nat)
  | convergeGateway (gatewayId parallelGatewayId : String)
  | conditionGateway (gatewayId : String) (branches : List BranchInfo)
      (loop : Option LoopInfo) (convergenceNodeId : String)
  | loopGateway (gatewayId : String) (loopBodyNodes : List String)
      (continueTarget exitTarget : Option String)
  deriving DecidableEq

/-- `step.get("node_id")` or `step.get("gateway_id")`. -/
def PlanStep.stepId? : PlanStep → Option String
  | .node id => some id
  | .parallelGateway id _ => some id
  | .branch _ _ => none
  | .convergeGateway id _ => some id
  | .conditionGateway id _ _ _ => some id
  | .loopGateway id _ _ _ => some id

/-- The node ids a `node` or `branch` step schedules. -/
def PlanStep.scheduled : PlanStep → List String
  | .node id => [id]
  | .branch nodes _ => nodes
  | _ => []

/-- Every node id scheduled by the `node` and `branch` steps of a plan. -/
def scheduledIds (plan : List PlanStep) : List String :=
  plan.flatMap PlanStep.scheduled

@[simp] lemma scheduledIds_nil : scheduledIds [] = [] := rfl

@[simp] lemma scheduledIds_cons (s : PlanStep) (plan : List PlanStep) :
    scheduledIds (s :: plan) = s.scheduled ++ scheduledIds plan := by
  simp [scheduledIds]

@[simp] lemma scheduledIds_append (p q : List PlanStep) :
    scheduledIds (p ++ q) = scheduledIds p ++ scheduledIds q := by
  simp [scheduledIds]

namespace WorkflowDef

variable (d : WorkflowDef)

/-- `id in {g.id: g for g in gateways if g.gateway_type == kind}`. -/
def isGatewayOf (kind : GatewayType) (id : String) : Bool :=
  (d.gatewayOfType kind id).isSome

def walkFuel : Nat := d.edges.length + 2

/-! ## Branches of a parallel gateway -/

def branchHead (cid : Option String) (target : String) : Option String :=
  if target = "" ∨ some target = cid then none else some target

/-- Where the walk goes from `bc`: nowhere from a converge gateway (`break`),
else along the first out-edge. -/
def branchNext (cid : Option String) (bc : String) : Option String :=
  if d.isGatewayOf .converge bc then none
  else (d.firstTarget bc).bind (branchHead cid)

/-- The ids on the branch that starts at `target`. -/
def branchLine (cid : Option String) (target : String) : List String :=
  walk (d.branchNext cid) d.walkFuel [] (branchHead cid target)

/-- The node ids of the branch: a converge gateway is never one, even when a
node has its id. -/
def branchNodes (cid : Option String) (target : String) : List String :=
  (d.branchLine cid target).filter
    (fun bc => !d.isGatewayOf .converge bc && (d.getNode bc).isSome)

/-! ## Condition gateways and loop gateways -/

/-- The branches of a condition gateway; the condition is the one of the
first edge with this source and target. -/
def conditionBranches (gatewayId : String) : List BranchInfo :=
  (d.targetsOf gatewayId).map (fun t =>
    { target := t, condition := (d.edgeBetween gatewayId t).bind (·.condition) })

/-- The body of a condition loop: the main line from the target of the back
edge up to the gateway.  A target that lies in `visited` only as a branch
node is not on the main line (`ValueError`), and the body is empty. -/
def conditionLoopBody (order : List String) (gatewayId target : String) : List String :=
  match order.idxOf? target, order.idxOf? gatewayId with
  | some start, some stop =>
    ((order.take stop).drop start).filter
      (fun id => (d.getNode id).isSome && !decide (id ∈ d.gatewayIds))
  | _, _ => []

def backBranch (visited : List String) (gatewayId : String) : Option BranchInfo :=
  ((d.conditionBranches gatewayId).filter
    (fun b => decide (b.target ∈ visited) && b.target != gatewayId)).getLast?

def exitBranch (gatewayId : String) (back : BranchInfo) : Option BranchInfo :=
  (d.conditionBranches gatewayId).find? (fun b => b.target != back.target)

def loopInfo (visited order : List String) (gatewayId : String) : Option LoopInfo :=
  (d.backBranch visited gatewayId).bind fun back =>
    let body := d.conditionLoopBody order gatewayId back.target
    if body = [] then none
    else some { bodyNodes := body, continueBranch := back,
                exitBranch := d.exitBranch gatewayId back }

/-- Whether the first edge from the gateway to `target` is the default one. -/
def targetIsDefault (gatewayId target : String) : Bool :=
  (d.edgeBetween gatewayId target).any (·.isDefault)

def loopExitTarget (gatewayId : String) : Option String :=
  ((d.targetsOf gatewayId).filter (d.targetIsDefault gatewayId)).getLast?

def loopContinueTarget (gatewayId : String) : Option String :=
  match ((d.targetsOf gatewayId).filter (fun t => !d.targetIsDefault gatewayId t)).getLast? with
  | some t => if t = "" then d.firstTarget gatewayId else some t
  | none => d.firstTarget gatewayId

/-- Ids reached from `start` without passing the loop gateway, depth first. -/
def loopRegion (gatewayId start : String) : List String :=
  search d.arcs .stack (· == gatewayId) (fun _ t => t != gatewayId) [start]

def loopBodyNodes (gatewayId : String) : List String :=
  match d.loopContinueTarget gatewayId with
  | none => []
  | some start =>
    if start = "" then []
    else (d.loopRegion gatewayId start).filter
      (fun id => (d.getNode id).isSome && !decide (id ∈ d.gatewayIds))

/-! ## The main walk -/

/-- The main walk goes on from `current` unless it is missing, empty, laid
out before, or the id to stop at. -/
def halts (stop : Option String) (visited : List String) (current : String) : Bool :=
  decide (current = "") || decide (current ∈ visited) || decide (some current = stop)

/-- `parallel_gw_map[current].converge_gateway_id`. -/
def convergeOf (gatewayId : String) : Option String :=
  (d.gatewayOfType .parallel gatewayId).bind (·.convergeGatewayId)

/-- The `branch` steps of a parallel gateway. -/
def branchSteps (gatewayId : String) : List PlanStep :=
  (d.targetsOf gatewayId).mapIdx
    (fun index t => .branch (d.branchNodes (d.convergeOf gatewayId) t) index)

def branchNodeIds (gatewayId : String) : List String :=
  (d.targetsOf gatewayId).flatMap (d.branchNodes (d.convergeOf gatewayId))

/-- **The main loop of `get_execution_plan`.** -/
def planLoop (stop : Option String) :
    Nat → List String → List String → Option String → List PlanStep
  | 0, _, _, _ => []
  | _ + 1, _, _, none => []
  | fuel + 1, seen, seenOrder, some current =>
    if halts stop seen current then []
    else
      let visited := seen ++ [current]
      let order := seenOrder ++ [current]
      if d.isGatewayOf .parallel current then
        let cid := (d.convergeOf current).getD ""
        let steps := .parallelGateway current cid :: d.branchSteps current
        let visited := visited ++ d.branchNodeIds current
        if cid = "" then steps
        else
          steps ++ .convergeGateway cid current ::
            planLoop stop fuel (visited ++ [cid]) (order ++ [cid]) (d.firstTarget cid)
      else if d.isGatewayOf .condition current then
        let branches := d.conditionBranches current
        match d.backBranch visited current with
        | some back =>
          .conditionGateway current branches (d.loopInfo visited order current) "" ::
            planLoop stop fuel visited order
              ((d.exitBranch current back).map (·.target))
        | none =>
          .conditionGateway current branches none
              (d.findConvergenceNode (branches.map (·.target))) ::
            planLoop stop fuel visited order (d.firstTarget current)
      else if d.isGatewayOf .loop current then
        .loopGateway current (d.loopBodyNodes current) (d.loopContinueTarget current)
            (d.loopExitTarget current) ::
          planLoop stop fuel visited order (d.loopExitTarget current)
      else if d.isGatewayOf .converge current then
        planLoop stop fuel visited order (d.firstTarget current)
      else
        ((d.getNode current).map (fun _ => PlanStep.node current)).toList ++
          planLoop stop fuel visited order (d.firstTarget current)

def serialPlan (stop : Option String) (start : String) : List PlanStep :=
  let head (id : String) : Option String :=
    if id = "" ∨ some id = stop then none else some id
  ((walk (fun id => (d.firstTarget id).bind head) d.walkFuel [] (head start)).filter
    (fun id => (d.getNode id).isSome)).map .node

/-- Ids with an out-edge and no in-edge; `__start__` when there is none. -/
def startChoices : List String :=
  let candidates := (d.edges.map (·.source)).dedup.filter
    (fun s => !decide (s ∈ d.edges.map (·.target)))
  if candidates = [] then ["__start__"] else candidates

/-- **`get_execution_plan`.**  `candidate` is the member of `startChoices`
that `next(iter(...))` yields; it is read only without `start_node_id`. -/
def getExecutionPlan (candidate : String) (startNodeId stopBeforeNodeId : Option String) :
    List PlanStep :=
  let given := startNodeId.filter (· != "")
  if d.edges = [] then
    (d.executableNodes.filter (fun n =>
      (startNodeId.all (n.id = ·)) && decide (some n.id ≠ stopBeforeNodeId))).map (.node ·.id)
  else
    let start := given.getD candidate
    if startNodeId = none ∧ start = "__start__" ∧ d.targetsOf "__start__" = [] then
      d.executableNodes.map (.node ·.id)
    else if d.gateways = [] then d.serialPlan stopBeforeNodeId start
    else d.planLoop stopBeforeNodeId d.walkFuel [] [] (some start)

end WorkflowDef
end DeterminFlow.Workflow
