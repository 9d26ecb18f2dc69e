/-
  Engine.BranchSkipping
  **WHAT A CONDITION GATEWAY SKIPS.**

  When a condition gateway of the main plan has chosen a branch, it walks
  every other branch up to the convergence node and sets what it meets to
  `skipped`.  The convergence node is never a branch target, so a branch
  that leads straight to the join makes the join part of that branch.
-/
import DeterminFlow.Engine.TaskRun
import DeterminFlow.Runtime.WorldFacts
import DeterminFlow.Workflow.Validation

namespace DeterminFlow.Engine

open Library Coop Workflow DeterminFlow.Runtime

section
variable (E : Env)

/-! ## The update of a choice -/

lemma statusOf_skipBranchNode (w : World) (n m : String) :
    (skipBranchNode w n).statusOf m = if n = m then some .skipped else w.statusOf m := by
  unfold World.statusOf
  rw [skipBranchNode, World.stateOf_record, World.stateOf_upsert]
  by_cases h : n = m
  · rw [if_pos h, if_pos h]
    rfl
  rw [if_neg h, if_neg h]

lemma statusOf_foldl_skipBranchNode (nodes : List String) (w : World) (m : String) :
    (nodes.foldl skipBranchNode w).statusOf m
      = if m ∈ nodes then some .skipped else w.statusOf m := by
  induction nodes generalizing w with
  | nil => simp
  | cons n rest ih =>
    rw [List.foldl_cons, ih, statusOf_skipBranchNode]
    by_cases hrest : m ∈ rest
    · simp [hrest]
    by_cases hn : n = m
    · simp [hn]
    simp [hrest, hn, Ne.symm hn]

def skippedNodes (branches : List BranchInfo) (selected convergence : String) : List String :=
  (branches.filter (·.target ≠ selected)).flatMap (unselectedNodes E convergence)

lemma statusOf_freezeChoice (gatewayId : String) (branches : List BranchInfo)
    (selected convergence : String) (w : World) (n : String) :
    (freezeChoice E gatewayId branches selected convergence w).statusOf n
      = if n ∈ skippedNodes E branches selected convergence then some .skipped
        else w.statusOf n := by
  unfold freezeChoice skipUnselected
  rw [statusOf_foldl_skipBranchNode]
  rfl

lemma mem_skippedNodes {branches : List BranchInfo} {selected convergence n : String} :
    n ∈ skippedNodes E branches selected convergence
      ↔ ∃ b ∈ branches, b.target ≠ selected ∧ n ∈ E.definition.nodeIds
          ∧ Reaches E.definition.arcs (· == convergence) b.target n := by
  simp only [skippedNodes, List.mem_flatMap, List.mem_filter, unselectedNodes,
    WorkflowDef.mem_collectBranchNodes, decide_eq_true_eq]
  constructor
  · rintro ⟨b, ⟨hb, hne⟩, hn⟩
    exact ⟨b, hb, hne, hn⟩
  rintro ⟨b, hb, hne, hn⟩
  exact ⟨b, ⟨hb, hne⟩, hn⟩

/-! ## Skipping dead nodes only -/

/-- **A choice skips only dead nodes**: a node that becomes `skipped` is not
reached from the selected target before the convergence node, and had not
been completed. -/
def SkipsOnlyDead (gatewayId : String) (branches : List BranchInfo)
    (selected convergence : String) (w : World) : Prop :=
  ∀ n, w.statusOf n ≠ some .skipped →
    (freezeChoice E gatewayId branches selected convergence w).statusOf n = some .skipped →
    ¬ Reaches E.definition.arcs (· == convergence) selected n ∧ w.statusOf n ≠ some .completed

/-- The other branches share no open node with the selected one, and lead
back to no completed node, before the convergence node. -/
def BranchesApart (branches : List BranchInfo) (selected convergence : String) (w : World) :
    Prop :=
  ∀ b ∈ branches, b.target ≠ selected → ∀ n ∈ E.definition.nodeIds,
    Reaches E.definition.arcs (· == convergence) b.target n →
      w.statusOf n ≠ some .completed ∧
        (w.statusOf n = some .skipped ∨ ¬ Reaches E.definition.arcs (· == convergence) selected n)

/-- **A choice skips only dead nodes iff the branches are apart.** -/
theorem skipsOnlyDead_iff (gatewayId : String) (branches : List BranchInfo)
    (selected convergence : String) (w : World) :
    SkipsOnlyDead E gatewayId branches selected convergence w
      ↔ BranchesApart E branches selected convergence w := by
  constructor
  · intro hdead b hb hne n hn hreach
    have hmem : n ∈ skippedNodes E branches selected convergence :=
      (mem_skippedNodes E).2 ⟨b, hb, hne, hn, hreach⟩
    have hafter : (freezeChoice E gatewayId branches selected convergence w).statusOf n
        = some .skipped := by
      rw [statusOf_freezeChoice, if_pos hmem]
    by_cases hskipped : w.statusOf n = some .skipped
    · exact ⟨by rw [hskipped]; simp, .inl hskipped⟩
    obtain ⟨hfar, hopen⟩ := hdead n hskipped hafter
    exact ⟨hopen, .inr hfar⟩
  intro hapart n hskipped hafter
  rw [statusOf_freezeChoice] at hafter
  by_cases hmem : n ∈ skippedNodes E branches selected convergence
  · obtain ⟨b, hb, hne, hn, hreach⟩ := (mem_skippedNodes E).1 hmem
    obtain ⟨hopen, hfar⟩ := hapart b hb hne n hn hreach
    exact ⟨hfar.resolve_left hskipped, hopen⟩
  rw [if_neg hmem] at hafter
  exact absurd hafter hskipped

end

/-! ## A condition without an else branch -/

/-- `check` leads to `work` or, by default, straight to `join`. -/
def ifWithoutElse : WorkflowDef where
  nodes := [{ id := "first" }, { id := "work" }, { id := "join" }]
  gateways := [{ id := "check", gatewayType := .condition }]
  edges := [{ source := "__start__", target := "first" },
    { source := "first", target := "check" },
    { source := "check", target := "work", condition := some { expression := "1 == 1" } },
    { source := "check", target := "join", condition := some { isDefault := true } },
    { source := "work", target := "join" }, { source := "join", target := "__end__" }]

/-- The step of `check`: the join is a branch target, so the branches
converge only in `__end__`. -/
def ifWithoutElseBranches : List BranchInfo :=
  [{ target := "work", condition := some { expression := "1 == 1" } },
   { target := "join", condition := some { isDefault := true } }]

/-- The task when `check` is evaluated. -/
def ifWithoutElseWorld : World where
  task := { nodeStates := [("first", 0)] }
  objects := fun _ _ => { status := .completed }
  allocated := fun n => if n = "first" then 1 else 0

/-- **The node after an if without else is skipped before it could run.** -/
theorem ifWithoutElse_skips_join : ifWithoutElse.Accepted
      ∧ .conditionGateway "check" ifWithoutElseBranches none "__end__"
          ∈ taskPlan (plainEnv ifWithoutElse)
      ∧ (selectBranch (plainEnv ifWithoutElse) (gatewayPool ifWithoutElseWorld)
          ifWithoutElseBranches).map (·.target) = some "work"
      ∧ ¬ SkipsOnlyDead (plainEnv ifWithoutElse) "check" ifWithoutElseBranches "work" "__end__"
          ifWithoutElseWorld := by
  refine ⟨by decide, by decide, by decide, ?_⟩
  intro hdead
  have hreach : Reaches ifWithoutElse.arcs (· == "__end__") "work" "join" :=
    (Reaches.refl (by decide)).tail ⟨by decide, by decide⟩
  exact (hdead "join" (by decide) (by decide)).1 hreach

end DeterminFlow.Engine
