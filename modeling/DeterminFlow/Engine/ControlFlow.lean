/-
  Engine.ControlFlow
  **GATEWAYS AND LOOPS.**

  `_execute_plan_segment`, `_execute_parallel_branches` and
  `_evaluate_condition_gateway` of `workflow/execution_flow.py`, and
  `_execute_loop`, `_execute_loop_gateway` and `_execute_loop_body` of
  `workflow/execution_loop.py`.  All of it runs in the main task; only the
  branches of a parallel gateway are tasks of their own.

  A condition gateway on the main plan executes a plan of its own, so the
  calls nest; `RecursionError` ends a nesting that is too deep, as Python
  does.
-/
import DeterminFlow.Engine.NodeSequence

namespace DeterminFlow.Engine

open Library Coop Workflow DeterminFlow.Runtime

def maxLoopIterations : Nat := 100

section
variable (E : Env) (disabled : List String)

/-! ## Choosing a branch -/

def gatewayPool (w : World) : Pool :=
  w.task.nodeStates.foldl (fun pool entry =>
    let state := w.objects entry.1 entry.2
    if state.status = .completed then pool.update state.outputs else pool) w.task.parameterValues

def loopPool (w : World) : Pool :=
  w.task.nodeStates.foldl (fun pool entry =>
    pool.update (usableOutputs (w.objects entry.1 entry.2))) w.task.parameterValues

def conditionHolds (pool : Pool) (condition : Option EdgeCondition) : Bool :=
  condition.any (fun c => !c.isDefault && PyText.hasText c.expression
    && E.holds c.expression pool == some true)

def selectBranch (pool : Pool) (branches : List BranchInfo) : Option BranchInfo :=
  (branches.find? (fun b => conditionHolds E pool b.condition)).or
    (branches.find? (fun b => b.condition.any (·.isDefault)))

def skipBranchNode (w : World) (nodeId : String) : World :=
  (w.upsert nodeId (fun s =>
    { s with status := .skipped, completedAt := some w.clock, outputs := [] })).record
    (.skipped nodeId)

def unselectedNodes (convergence : String) (branch : BranchInfo) : List String :=
  E.definition.collectBranchNodes E.definition.nodeIds branch.target convergence

def skipUnselected (branches : List BranchInfo) (selected convergence : String) (w : World) :
    World :=
  ((branches.filter (·.target ≠ selected)).flatMap (unselectedNodes E convergence)).foldl
    skipBranchNode w

def freezeChoice (gatewayId : String) (branches : List BranchInfo) (selected convergence : String)
    (w : World) : World :=
  let frozen : ConditionState :=
    { selectedTarget := selected, convergenceNodeId := convergence, status := .running }
  let conditions := w.task.conditions.set gatewayId frozen
  let w := { w with task := { w.task with conditions := conditions } }
  skipUnselected E branches selected convergence (w.record (.chose gatewayId selected))

def frozenChoice (w : World) (gatewayId : String) : Option String :=
  ((w.task.conditions.get? gatewayId).map (·.selectedTarget)).filter (· ≠ "")

def modifyCondition (gatewayId : String) (f : ConditionState → ConditionState) (w : World) :
    World :=
  let conditions :=
    w.task.conditions.set gatewayId (f ((w.task.conditions.get? gatewayId).getD {}))
  { w with task := { w.task with conditions := conditions } }

/-! ## Parallel branches -/

def branchOutcome : Except Exn Outcome → Outcome
  | .ok outcome => outcome
  | .error _ => .failed

/-- `for coro in asyncio.as_completed(...)` on the main plan: every
exception, cancellation too, is a failed branch. -/
def collectOutcomes (first count : Nat) : Nat → List Outcome → EngineProg (List Outcome)
  | 0, outcomes => pure outcomes
  | left + 1, outcomes =>
    Prog.join first count fun r =>
      collectOutcomes first count left (outcomes ++ [branchOutcome r])

/-- The same loop inside a loop body: `CancelledError` is raised. -/
def collectBodyOutcomes (first count : Nat) : Nat → List Outcome → EngineProg (List Outcome)
  | 0, outcomes => pure outcomes
  | left + 1, outcomes =>
    Prog.join first count fun
      | .error .cancelled => Prog.raise .cancelled
      | r => collectBodyOutcomes first count left (outcomes ++ [branchOutcome r])

def joinedOutcome (outcomes : List Outcome) : Outcome :=
  if .retryWaiting ∈ outcomes then .retryWaiting
  else if .failed ∈ outcomes then .failed
  else .completed

def branchSummaries (branches : List (List String)) (w : World) : List String :=
  (branches.mapIdx (fun index nodes => (index, nodes))).filterMap fun branch =>
    branch.2.getLast?.bind fun last => (w.stateOf last).bind fun state =>
      if state.summary = "" then none
      else some ("并行分支" ++ toString (branch.1 + 1) ++ " (节点 " ++ last ++ "):\n" ++ state.summary)

def writeMerged (convergeId : String) (parts : List String) (w : World) : World :=
  w.upsert convergeId (fun s =>
    { s with summary := String.intercalate "\n\n" parts, status := .completed })

def mergeBranchSummaries (branches : List (List String)) (convergeId : String) :
    EngineProg Unit := do
  let w ← Prog.get
  let parts := branchSummaries branches w
  if convergeId = "" ∨ parts = [] then pure ()
  else do
    Prog.modify (writeMerged convergeId parts)
    saveTaskState

def executeParallelBranches (branches : List (List String)) (convergeId : String) :
    EngineProg Outcome :=
  Prog.spawn (branches.map (fun nodes => { nodes := nodes, disabled := disabled })) fun first => do
    let outcomes ← collectOutcomes first branches.length branches.length []
    match joinedOutcome outcomes with
    | .completed => do
        mergeBranchSummaries branches convergeId
        pure .completed
    | outcome => pure outcome

/-! ## Loops -/

def modifyCursor (gatewayId : String) (f : LoopCursor → LoopCursor) (w : World) : World :=
  let loops := w.task.loops.set gatewayId (f ((w.task.loops.get? gatewayId).getD {}))
  { w with task := { w.task with loops := loops } }

def cursorOf (w : World) (gatewayId : String) : LoopCursor :=
  (w.task.loops.get? gatewayId).getD {}

def awaitSubTask (sessionId : String) : EngineProg Unit :=
  Prog.call (.subTask sessionId) fun
    | .error .cancelled => do
        let w ← Prog.get
        if sessionId ∈ w.sessions.cancelled then pure () else Prog.raise .cancelled
    | _ => pure ()

def closeSession (sessionId : String) : EngineProg Unit := do
  let _ ← Prog.wait (.closeSession sessionId)
  pure ()

def holdsSession (w : World) (sessionId : String) : Bool :=
  decide (sessionId ∈ w.sessions.registered) || decide (sessionId ∈ w.sessions.persisted)

/-- `_cleanup_loop_session` for the session of a node. -/
def cleanupLoopSession (sessionId : String) : EngineProg Unit := do
  let w ← Prog.get
  whenever (decide (sessionId ∈ w.sessions.subTasks)) (awaitSubTask sessionId)
  let w ← Prog.get
  whenever (holdsSession w sessionId) (closeSession sessionId)
  Prog.modify (fun w => { w with sessions := w.sessions.detach sessionId })

/-- The fields `_reset_node_for_loop_iteration` clears. -/
def resetObject (nodeId : String) (r : Nat) (w : World) : World :=
  (w.modifyObject nodeId r NodeExecutionState.resetForIteration).record (.reset nodeId)

def resetNode (nodeId : String) : EngineProg Unit :=
  Prog.atomic (World.ensureState · nodeId) fun w => do
    let sessionId := ((w.stateOf nodeId).map (·.sessionId)).getD ""
    whenever (sessionId != "" && sessionId != E.mainSessionId) (cleanupLoopSession sessionId)
    Prog.modify (resetObject nodeId (w.currentOrNext nodeId))

def snapshotBody (body : List String) (iteration : Nat) (w : World) : World :=
  body.foldl (fun w nodeId =>
    match w.current? nodeId with
    | some r => w.modifyObject nodeId r (·.snapshotForIteration iteration)
    | none => w) w

def executeExit (exitTarget : Option String) : EngineProg Outcome :=
  match exitTarget with
  | none => pure .completed
  | some target =>
    if target = "" ∨ target ∈ disabled ∨ (E.node? target).isNone then pure .completed
    else executeNodeSequence E .main disabled [target]

def continues (gatewayId : String) (branch : BranchInfo) (w : World) : World × Bool :=
  match branch.condition with
  | none => (w, false)
  | some c =>
    if c.isDefault ∨ PyText.hasText c.expression = false then (w, false)
    else
      let truth := E.holds c.expression (loopPool w) == some true
      (w.record (.evaluated gatewayId branch.target truth), truth)

/-- One iteration of a condition loop: the next one, or `none` with the last
one when the loop is left, or the outcome it stops with. -/
def conditionIteration (gatewayId : String) (loop : LoopInfo) (iteration : Nat) :
    EngineProg (Nat ⊕ (Nat ⊕ Outcome)) := do
  let w ← Prog.get
  if (cursorOf w gatewayId).phase = .finished .completed ∨ maxLoopIterations < iteration then
    pure (.inr (.inl iteration))
  else do
    whenever ((cursorOf w gatewayId).activeIteration != some iteration)
      (Prog.forEach (resetNode E) loop.bodyNodes)
    Prog.modify (modifyCursor gatewayId (fun c =>
      { c with activeIteration := some iteration, phase := .running }))
    saveTaskState
    let outcome ← executeNodeSequence E .main disabled loop.bodyNodes
    if outcome.halts then do
      Prog.modify (modifyCursor gatewayId (fun c => { c with phase := .finished outcome }))
      saveTaskState
      pure (.inr (.inr outcome))
    else do
      Prog.modify (snapshotBody loop.bodyNodes iteration)
      let again ← Prog.atomic (fun w => (continues E gatewayId loop.continueBranch w).1)
        (fun w => pure (continues E gatewayId loop.continueBranch w).2)
      if again then do
        Prog.modify (modifyCursor gatewayId (fun c =>
          { c with activeIteration := none, nextIteration := iteration + 1, phase := .ready }))
        saveTaskState
        pure (.inl (iteration + 1))
      else do
        Prog.modify (modifyCursor gatewayId (fun c => { c with phase := .finished .completed }))
        pure (.inr (.inl iteration))

def firstIteration (cursor : LoopCursor) : Nat :=
  if cursor.phase = .finished .completed then cursor.nextIteration - 1
  else cursor.activeIteration.getD cursor.nextIteration

def executeLoop (gatewayId : String) (loop : LoopInfo) : EngineProg Outcome := do
  Prog.modify (modifyCursor gatewayId id)
  if loop.bodyNodes = [] then pure .failed
  else do
    let w ← Prog.get
    match ← Prog.repeatUntil (firstIteration (cursorOf w gatewayId))
        (conditionIteration E disabled gatewayId loop) with
    | .inr outcome => pure outcome
    | .inl iteration => do
        Prog.modify (modifyCursor gatewayId (fun c =>
          { c with phase := if maxLoopIterations < iteration then .finished .completed else c.phase,
                   activeIteration := none, nextIteration := iteration + 1 }))
        saveTaskState
        executeExit E disabled (loop.exitBranch.map (·.target))

/-! ## The body of a loop gateway -/

def bodyTargets (body : List String) (id : String) : List String :=
  let inside (x : String) : Bool := decide (x ∈ body) || decide (x ∈ E.definition.gatewayIds)
  if inside id then (E.definition.targetsOf id).filter inside else []

def bodyNext (body : List String) (id : String) : Option String := (bodyTargets E body id).head?

def bodyEntry (body : List String) : Option String :=
  (body.find? (fun id =>
    (E.definition.sourcesOf id).all (fun s => decide (s ∈ E.definition.gatewayIds)))).or body.head?

def bodyBranchLine (body : List String) (cid : Option String) (target : String) : List String :=
  walk (fun bc => (bodyNext E body bc).bind (WorkflowDef.branchHead cid)) E.definition.walkFuel []
    (WorkflowDef.branchHead cid target)

def bodyBranchNodes (body : List String) (cid : Option String) (target : String) : List String :=
  (bodyBranchLine E body cid target).filter
    (fun bc => (E.definition.getNode bc).isSome && !decide (bc ∈ E.definition.gatewayIds))

def edgeCondition (source target : String) : Option EdgeCondition :=
  (E.definition.edgeBetween source target).bind (·.condition)

/-- The target a condition gateway in a loop body selects: the first that is
not default and true, else the last default one before it. -/
def selectBodyTarget (pool : Pool) (gatewayId : String) (targets : List String) : Option String :=
  (targets.find? (fun t => conditionHolds E pool (edgeCondition E gatewayId t))).or
    (targets.filter (fun t => (edgeCondition E gatewayId t).any (·.isDefault))).getLast?

/-- Where the walk through a loop body stands. -/
structure BodyPlace where
  executed : List String := []
  current : Option String

/-- The walk goes on from `id` when that is a new place. -/
def BodyPlace.goOn (executed : List String) (next : Option String) : BodyPlace where
  executed := executed
  current := next.filter (fun id => !decide (id ∈ executed))

def bodyBranches (body : List String) (gateway : WorkflowGateway) : List (List String) :=
  (bodyTargets E body gateway.id).map (bodyBranchNodes E body gateway.convergeGatewayId)

def bodyParallel (body : List String) (place : BodyPlace) (gateway : WorkflowGateway) :
    EngineProg (BodyPlace ⊕ Outcome) :=
  let branches := bodyBranches E body gateway
  Prog.spawn (branches.map (fun nodes => { nodes := nodes, disabled := disabled })) fun first => do
    let outcomes ← collectBodyOutcomes first branches.length branches.length []
    match joinedOutcome outcomes with
    | .completed =>
      let executed := place.executed ++ branches.flatten
      match gateway.convergeGatewayId.filter (· ≠ "") with
      | some cid =>
        pure (.inl { executed := executed ++ [cid], current := bodyNext E body cid })
      | none => pure (.inl { executed := executed, current := none })
    | outcome => pure (.inr outcome)

def bodyNode (body : List String) (executed : List String) (nodeId : String) :
    EngineProg (BodyPlace ⊕ Outcome) := do
  let outcome ← executeNodeSequence E .main disabled [nodeId]
  if outcome.halts then pure (.inr outcome)
  else pure (.inl (.goOn executed (bodyNext E body nodeId)))

def bodyCondition (body : List String) (place : BodyPlace) (gatewayId : String) :
    EngineProg (BodyPlace ⊕ Outcome) := do
  let w ← Prog.get
  match selectBodyTarget E (loopPool w) gatewayId (bodyTargets E body gatewayId) with
  | none => pure (.inr .failed)
  | some target => do
      Prog.modify (fun w => w.record (.chose gatewayId target))
      let executed := place.executed ++ [gatewayId]
      if (E.node? target).isSome ∧ target ∉ disabled then bodyNode E disabled body executed target
      else pure (.inl (.goOn executed (bodyNext E body target)))

def bodyStep (body : List String) (place : BodyPlace) : EngineProg (BodyPlace ⊕ Outcome) :=
  match place.current with
  | none => pure (.inr .completed)
  | some current =>
    if current = "" ∨ current ∈ place.executed then pure (.inr .completed)
    else
      let executed := place.executed ++ [current]
      if current ∈ disabled then
        pure (.inl { executed := executed, current := bodyNext E body current })
      else
        let plain : EngineProg (BodyPlace ⊕ Outcome) :=
          if (E.node? current).isSome then bodyNode E disabled body executed current
          else pure (.inl (.goOn executed (bodyNext E body current)))
        match E.definition.getGateway current with
        | none => plain
        | some gateway =>
          match gateway.gatewayType with
          | .parallel => bodyParallel E disabled body place gateway
          | .condition => bodyCondition E disabled body place current
          | _ => plain

def executeLoopBody (body : List String) : EngineProg Outcome :=
  if body = [] then pure .completed
  else Prog.repeatUntil { current := bodyEntry E body } (bodyStep E disabled body)

/-! ## Loop gateways -/

/-- `loop_info["mode"]`. -/
def LoopExpression.mode : LoopExpression → LoopMode
  | .range .. => .range
  | .list .. => .list
  | .dict .. => .dict

def LoopExpression.vars : LoopExpression → List String
  | .range var _ _ => [var]
  | .list var _ => [var]
  | .dict keyVar valueVar _ => [keyVar, valueVar]

def LoopExpression.bindItem (expression : LoopExpression) (item : LoopItem) : Option Pool :=
  match expression, item with
  | .range var _ _, .value v => some [(var, .str (E.itemText v))]
  | .list var _, .value v => some [(var, .str (E.itemText v))]
  | .dict keyVar valueVar _, .pair k v => some [(keyVar, .str k), (valueVar, .str (E.itemText v))]
  | _, _ => none

/-- The collection a loop iterates over: a parameter, else the first
completed output of that name. -/
def loopSource (w : World) (source : String) : Json :=
  let raw := (w.task.parameterValues.get? source).getD (.str "")
  if raw.truthy then raw
  else
    ((w.task.nodeStates.filter (fun entry =>
        (w.objects entry.1 entry.2).status = .completed
          && ((w.objects entry.1 entry.2).outputs.has source))).head?.bind
      (fun entry => (w.objects entry.1 entry.2).outputs.get? source)).getD raw

/-- What the item sequence of a loop is built from. -/
inductive LoopItems where
  | items (values : List LoopItem)
  /-- Not a JSON collection of the right kind. -/
  | invalid
  /-- `_try_parse_json` on a value that is no text. -/
  | raises

def freshItems (w : World) : LoopExpression → LoopItems
  | .range _ start stop =>
    .items ((List.range (stop - start)).map (fun (i : Nat) =>
      .value (.int (((start + i : Nat) : Int)))))
  | .list _ source =>
    match loopSource w source with
    | .str text =>
      match E.parseJson text with
      | some (.list values) => .items (values.map .value)
      | _ => .invalid
    | _ => .raises
  | .dict _ _ source =>
    match loopSource w source with
    | .str text =>
      match E.parseJson text with
      | some (.dict entries) => .items (entries.map (fun entry => .pair entry.1 entry.2))
      | _ => .invalid
    | _ => .raises

def bindIteration (values : Pool) (w : World) : World :=
  { w with task := { w.task with parameterValues := w.task.parameterValues.update values } }

def openIteration (gatewayId : String) (vars : List String) (index : Nat) (w : World) : World :=
  modifyCursor gatewayId (fun c =>
    { c with activeIndex := some index, phase := .running,
             iterationValues := w.task.parameterValues.filter (fun entry => entry.1 ∈ vars) }) w

def closeIteration (gatewayId : String) (body : List String) (index : Nat) (w : World) : World :=
  modifyCursor gatewayId (fun c =>
    { c with activeIndex := none, nextIndex := index + 1, phase := .ready })
    (snapshotBody body index w)

/-- One iteration of a loop gateway; `none` when the items are used up. -/
def loopIteration (gatewayId : String) (body : List String) (expression : LoopExpression)
    (items : List LoopItem) (index : Nat) : EngineProg (Nat ⊕ Option Outcome) :=
  match items[index]? with
  | none => pure (.inr none)
  | some item =>
    match expression.bindItem E item with
    | none => Prog.raise (.error "iteration item")
    | some values => do
        Prog.modify (bindIteration values)
        let w ← Prog.get
        whenever ((cursorOf w gatewayId).activeIndex != some index)
          (Prog.forEach (resetNode E) body)
        Prog.modify (openIteration gatewayId expression.vars index)
        saveTaskState
        let outcome ← executeLoopBody E disabled body
        if outcome.halts then do
          Prog.modify (modifyCursor gatewayId (fun c => { c with phase := .finished outcome }))
          saveTaskState
          pure (.inr (some outcome))
        else do
          Prog.modify (closeIteration gatewayId body index)
          saveTaskState
          pure (.inl (index + 1))

def iterateLoop (gatewayId : String) (body : List String) (exitTarget : Option String)
    (expression : LoopExpression) (items : List LoopItem) : EngineProg Outcome := do
  let w ← Prog.get
  let cursor := cursorOf w gatewayId
  if items = [] ∨ cursor.phase = .finished .completed then executeExit E disabled exitTarget
  else do
    match ← Prog.repeatUntil (cursor.activeIndex.getD cursor.nextIndex)
        (loopIteration E disabled gatewayId body expression items) with
    | some outcome => pure outcome
    | none => do
        Prog.modify (modifyCursor gatewayId (fun c =>
          { c with phase := .finished .completed, activeIndex := none }))
        saveTaskState
        executeExit E disabled exitTarget

def loopExpressionOf (gatewayId : String) (continueTarget : Option String) :
    Option LoopExpression :=
  (continueTarget.bind (edgeCondition E gatewayId)).bind fun c =>
    if PyText.hasText c.expression then E.parseLoopExpression c.expression else none

def executeLoopGateway (gatewayId : String) (body : List String)
    (continueTarget exitTarget : Option String) : EngineProg Outcome :=
  if body = [] ∨ (exitTarget.filter (· ≠ "")).isNone then pure .failed
  else
    match loopExpressionOf E gatewayId continueTarget with
    | none => pure .failed
    | some expression => do
        let w ← Prog.get
        match ((cursorOf w gatewayId).items.map LoopItems.items).getD (freshItems E w expression) with
        | .raises => Prog.raise (.error "_try_parse_json")
        | .invalid => pure .failed
        | .items items =>
          if maxLoopIterations < items.length then pure .failed
          else if w.task.loops.has gatewayId then
            iterateLoop E disabled gatewayId body exitTarget expression items
          else do
            Prog.modify (modifyCursor gatewayId (fun _ =>
              { mode := some expression.mode, items := some items }))
            saveTaskState
            iterateLoop E disabled gatewayId body exitTarget expression items

/-! ## Plan segments -/

def findPlanStepIndex (plan : List PlanStep) (id : String) (start : Nat) : Option Nat :=
  ((plan.drop start).findIdx? (fun step => step.stepId? = some id)).map (start + ·)

/-- The branch steps from `index` on, and the converge gateway after them. -/
def takeBranches (plan : List PlanStep) (index : Nat) : List (List String) × String × Nat :=
  let branches := (plan.drop index).takeWhile (fun | .branch _ _ => true | _ => false)
  let next := index + branches.length
  let nodes := branches.flatMap (fun | .branch nodes _ => [nodes] | _ => [])
  match plan[next]? with
  | some (.convergeGateway id _) => (nodes, id, next + 1)
  | _ => (nodes, "", next)

def branchPlan (selected convergence : String) : List PlanStep :=
  E.definition.getExecutionPlan E.candidate (some selected)
    (if convergence = "" then none else some convergence)

/-- The branch plan is executed; an empty one is an error unless the branch
is empty. -/
def executeBranch (executeSegment : List PlanStep → Option String → EngineProg Outcome)
    (selected convergence : String) : EngineProg Outcome :=
  if branchPlan E selected convergence = [] ∧ selected ≠ convergence then pure .failed
  else executeSegment (branchPlan E selected convergence)
    (if convergence = "" then none else some convergence)

def executeSelected (executeSegment : List PlanStep → Option String → EngineProg Outcome)
    (gatewayId selected convergence : String) : EngineProg Outcome := do
  Prog.modify (modifyCondition gatewayId (fun c => { c with convergenceNodeId := convergence }))
  let outcome ← executeBranch E executeSegment selected convergence
  Prog.modify (modifyCondition gatewayId (fun c => { c with status := .finished outcome }))
  saveTaskState
  pure outcome

/-- `_evaluate_condition_gateway`, with the executor for its branch. -/
def evaluateConditionGateway (executeSegment : List PlanStep → Option String → EngineProg Outcome)
    (gatewayId : String) (branches : List BranchInfo) (convergence : String) :
    EngineProg Outcome :=
  if branches = [] then pure .failed
  else do
    let w ← Prog.get
    match frozenChoice w gatewayId with
    | some selected => executeSelected E executeSegment gatewayId selected convergence
    | none =>
      match selectBranch E (gatewayPool w) branches with
      | none => pure .failed
      | some branch => do
          Prog.modify (freezeChoice E gatewayId branches branch.target convergence)
          saveTaskState
          executeSelected E executeSegment gatewayId branch.target convergence

def planTurn (executeSegment : List PlanStep → Option String → EngineProg Outcome)
    (plan : List PlanStep) (stopBefore : Option String) (index : Nat) : EngineProg Turn := do
  let goOn (outcome : Outcome) (next : Nat) : EngineProg Turn :=
    if outcome.halts then pure (.inr outcome) else pure (.inl next)
  match plan[index]? with
  | none => pure (.inr .completed)
  | some (.parallelGateway _ _) => do
      let (branches, convergeId, next) := takeBranches plan (index + 1)
      let outcome ← executeParallelBranches disabled branches convergeId
      goOn outcome next
  | some (.conditionGateway gatewayId _ (some loop) _) => do
      let outcome ← executeLoop E disabled gatewayId loop
      goOn outcome (index + 1)
  | some (.conditionGateway gatewayId branches none convergence) => do
      let outcome ← evaluateConditionGateway E executeSegment gatewayId branches convergence
      if outcome.halts then pure (.inr outcome)
      else if convergence = "" then pure (.inl (index + 1))
      else if convergence = "__end__" ∨ some convergence = stopBefore then pure (.inr .completed)
      else
        match findPlanStepIndex plan convergence (index + 1) with
        | none => pure (.inr .failed)
        | some next => pure (.inl next)
  | some (.loopGateway gatewayId body continueTarget exitTarget) => do
      let outcome ← executeLoopGateway E disabled gatewayId body continueTarget exitTarget
      goOn outcome (index + 1)
  | some (.node nodeId) =>
    if (E.node? nodeId).isNone ∨ nodeId ∈ disabled then pure (.inl (index + 1))
    else do
      let outcome ← executeNodeSequence E .main disabled [nodeId]
      goOn outcome (index + 1)
  | some (.branch _ _) | some (.convergeGateway _ _) => pure (.inl (index + 1))

/-- **`_execute_plan_segment`**, with at most `depth` nested calls. -/
def executePlanSegment : Nat → List PlanStep → Option String → Nat → EngineProg Outcome
  | 0, _, _, _ => Prog.raise (.error "maximum recursion depth exceeded")
  | depth + 1, plan, stopBefore, startIndex =>
    Prog.repeatUntil startIndex
      (planTurn E disabled (fun p s => executePlanSegment depth p s 0) plan stopBefore)

end
end DeterminFlow.Engine
