/-
  Workflow.SerialOrder
  **THE SERIAL ORDER OF THE NODES.**

  `_get_serial_execution_order` of `workflow/runtime_models.py`: the node ids
  of the plan in one list, or the chain along first out-edges when there are
  no gateways.  `run_task` cuts it at the node a partial run starts from.
-/
import DeterminFlow.Workflow.PlanCoverage

namespace DeterminFlow.Workflow

open Library List

/-! ## The order -/

def PlanStep.ordered : PlanStep → List String
  | .node id => [id]
  | .branch nodes _ => nodes
  | .conditionGateway _ _ loop _ => (loop.map (·.bodyNodes)).getD []
  | .loopGateway _ body _ _ => body
  | _ => []

namespace WorkflowDef

variable (d : WorkflowDef)

/-- `while current` goes on from `id`. -/
def nonEmpty (id : String) : Option String := if id = "" then none else some id

/-- `_get_serial_execution_order`. -/
def serialExecutionOrder (candidate : String) : List String :=
  if d.edges = [] then d.nodeIds
  else if d.gateways ≠ [] then
    (d.getExecutionPlan candidate none none).flatMap PlanStep.ordered
  else if (d.edges.map (·.source)).all (fun s => decide (s ∈ d.edges.map (·.target))) then d.nodeIds
  else walk (fun id => (d.firstTarget id).bind nonEmpty) d.walkFuel [] (nonEmpty candidate)

variable {d}

/-! ## Plan and order -/

lemma ne_empty_of_mem_planLoop {n : String} (stop : Option String) :
    ∀ (fuel : Nat) (seen order : List String) (current : Option String),
      PlanStep.node n ∈ d.planLoop stop fuel seen order current → n ≠ "" := by
  intro fuel
  induction fuel with
  | zero =>
    intro seen order current hmem
    simp [planLoop] at hmem
  | succ fuel ih =>
    intro seen order current hmem
    cases current with
    | none => simp [planLoop] at hmem
    | some current =>
      have hbranches : PlanStep.node n ∉ d.branchSteps current := by
        unfold branchSteps
        intro hmem
        obtain ⟨_, _, hstep⟩ := mem_mapIdx.1 hmem
        cases hstep
      unfold planLoop at hmem
      split at hmem
      · simp at hmem
      rename_i hgo
      dsimp only at hmem
      split at hmem
      · split at hmem
        · simp [hbranches] at hmem
        simp only [cons_append, mem_cons, reduceCtorEq, mem_append, hbranches, false_or] at hmem
        exact ih _ _ _ hmem
      split at hmem
      · split at hmem
        all_goals exact ih _ _ _ (by simpa using hmem)
      split at hmem
      · exact ih _ _ _ (by simpa using hmem)
      split at hmem
      · exact ih _ _ _ hmem
      rcases mem_append.1 hmem with hnode | hrest
      · -- the node the walk stands on
        have hn : current = n := by
          cases hget : d.getNode current with
          | none => simp [hget] at hnode
          | some => simpa [hget, eq_comm] using hnode
        rintro rfl
        simp [halts, hn] at hgo
      exact ih _ _ _ hrest

lemma mem_serialExecutionOrder (he : d.edges ≠ []) (hs : d.targetsOf "__start__" ≠ [])
    {candidate n : String} (hmem : PlanStep.node n ∈ d.getExecutionPlan candidate none none) :
    n ∈ d.serialExecutionOrder candidate := by
  unfold serialExecutionOrder
  rw [if_neg he]
  by_cases hgateways : d.gateways = []
  · have hplan : d.getExecutionPlan candidate none none = d.serialPlan none candidate := by
      unfold getExecutionPlan
      simp [he, hs, hgateways]
    have hnext : nonEmpty = fun id => if id = "" then none else some id := rfl
    rw [hplan] at hmem
    simp only [serialPlan, mem_map, mem_filter, PlanStep.node.injEq, exists_eq_right] at hmem
    obtain ⟨hwalk, hnode⟩ := hmem
    rw [if_neg (by simp [hgateways])]
    split
    · exact d.getNode_isSome_iff.1 hnode
    simpa [hnext] using hwalk
  rw [if_pos hgateways]
  exact mem_flatMap.2 ⟨.node n, hmem, by simp [PlanStep.ordered]⟩

end WorkflowDef
end DeterminFlow.Workflow
