/-
  Recovery.NodeControl
  **REFUSED NODE OPERATIONS.**

  `retry_node` and `skip_node` change the node, mark the task
  `resume_pending` and save it before they call `run_task`, which has
  refusals of its own.
-/
import DeterminFlow.Recovery.Manager

namespace DeterminFlow.Recovery

open Library Workflow DeterminFlow.Runtime Manager

def RefusalHarmless (M : Manager) (answer : Reply × Manager) : Prop :=
  answer.1.success = false → answer.2.persisted = M.persisted

def Granted (called M : Manager) (nodeId : String) (expected : PyValue) (task : StoredTask) :
    Prop :=
  called.ownerEnabled = true ∧ called.disk.all called.owns = true
    ∧ ∃ state, M.validateNodeControl nodeId expected = .ok (task, state)

lemma validateNodeControl_ok {M : Manager} {nodeId : String} {expected : PyValue}
    {task : StoredTask} {state : NodeExecutionState}
    (h : M.validateNodeControl nodeId expected = .ok (task, state)) :
    M.disk = some task ∧ controllableTask task.status = true ∧ M.running = false
      ∧ controllableNode state.status = true := by
  unfold validateNodeControl at h
  cases hdisk : M.disk with
  | none =>
    rw [hdisk] at h
    cases h
  | some found =>
    rw [hdisk] at h
    simp only at h
    split at h
    · cases h
    rename_i htask
    split at h
    · cases h
    rename_i foundState _
    split at h
    · cases h
    rename_i hrunning
    split at h
    · cases h
    rename_i hnode
    split at h
    · cases h
    split at h
    · cases h
    cases h
    exact ⟨rfl, by simpa using htask, by simpa using hrunning, by simpa using hnode⟩

lemma exists_controlledState (M : Manager) (op : NodeControl) {state : NodeExecutionState}
    (h : controllableNode state.status = true) : ∃ next, M.controlledState op state = some next := by
  have hfailed : (asControlled state).status = .failed := by
    unfold asControlled
    by_cases hwaiting : state.status = .retryWaiting
    · rw [if_pos hwaiting]
      rfl
    rw [if_neg hwaiting]
    unfold controllableNode at h
    simpa [hwaiting] using h
  cases op with
  | retry =>
    refine ⟨(asControlled state).preparedRetry .manualRetry none, ?_⟩
    show (asControlled state).prepareRetry .manualRetry none = _
    unfold NodeExecutionState.prepareRetry
    rw [if_neg (by decide), if_neg (by simp), if_neg (by simp [hfailed, NodeStatus.normalize])]
  | skip => exact ⟨_, rfl⟩

lemma startable_controlledTask (M : Manager) (task : StoredTask) (nodeId : String)
    (next : NodeExecutionState) : ({ M with generation :=M.generation + 1 }.save (controlledTask task nodeId next)).Startable
        { controlledTask task nodeId next with updatedAt := M.now } ↔ M.Startable task := by
  have hsettle : ∀ (N : Manager) (t : StoredTask), (settleOwner N t).1
      = if t.mainTakeover ∧ t.executorId.isNone then
          { t with executorId := some "controller", executorEpoch := some "inline" } else t := by
    intro N t
    unfold settleOwner assignController
    by_cases htakeover : t.mainTakeover = true
    · rw [if_pos htakeover]
      by_cases hnone : t.executorId.isNone = true
      · rw [if_pos hnone, if_pos ⟨htakeover, hnone⟩]
      rw [if_neg hnone, if_neg (fun h => hnone h.2)]
    rw [if_neg htakeover, if_neg (fun h => htakeover h.1)]
  have howns : ({ M with generation := M.generation + 1 }.save
        (controlledTask task nodeId next)).owns
        (settleOwner ({ M with generation := M.generation + 1 }.save
          (controlledTask task nodeId next))
          { controlledTask task nodeId next with updatedAt := M.now }).1
      = M.owns (settleOwner M task).1 := by
    rw [hsettle, hsettle]
    unfold owns controlledTask prepareForResume
    simp only [save]
    split
    all_goals rfl
  refine ⟨?_, ?_⟩
  · intro h
    exact ⟨h.owner, howns ▸ h.owned, h.main, h.defined⟩
  intro h
  exact ⟨h.owner, howns.symm ▸ h.owned, h.main, h.defined⟩

/-- **A refused request is harmless** exactly when each granted request finds a
task that can start. -/
theorem refusal_harmless_iff (called M : Manager) (op : NodeControl) (nodeId : String)
    (expected : PyValue) : RefusalHarmless M (M.nodeControl called op nodeId expected)
      ↔ ∀ task, Granted called M nodeId expected task → M.Startable task := by
  unfold RefusalHarmless nodeControl
  by_cases howner : called.ownerEnabled = true
  · rw [if_neg (by simp [howner])]
    by_cases howned : called.disk.all called.owns = true
    · rw [if_neg (by simp [howned])]
      unfold controlNode
      cases hvalidate : M.validateNodeControl nodeId expected with
      | error =>
        refine ⟨?_, fun _ _ => rfl⟩
        intro _ task hgranted
        obtain ⟨_, _, state, hok⟩ := hgranted
        rw [hvalidate] at hok
        cases hok
      | ok found =>
        obtain ⟨task, state⟩ := found
        obtain ⟨hdisk, hstatus, hidle, hnode⟩ := validateNodeControl_ok hvalidate
        obtain ⟨next, hnext⟩ := exists_controlledState M op hnode
        simp only [hnext]
        -- the file as it is saved before the start is tried
        have hsaved : ({ M with generation := M.generation + 1 }.save
            (controlledTask task nodeId next)).disk
              = some { controlledTask task nodeId next with updatedAt := M.now } := rfl
        have hstarts := (runTask_succeeds_iff hsaved rfl hidle).trans
          (startable_controlledTask M task nodeId next)
        refine ⟨?_, ?_⟩
        · intro hharmless _ hgranted
          obtain ⟨_, _, _, hok⟩ := hgranted
          rw [hvalidate] at hok
          cases hok
          apply hstarts.1
          by_contra hfails
          have hrefused := hharmless (by simpa using hfails)
          rw [runTask_refused (by simpa using hfails)] at hrefused
          -- the refused start has left the task waiting for its start
          have hsame : TaskStatus.resumePending = task.status := by
            have hboth : some (TaskStatus.resumePending) = some task.status := by
              have hmap := congrArg (Option.map Prod.fst) hrefused
              unfold persisted at hmap
              rw [hsaved, hdisk] at hmap
              exact hmap
            exact Option.some.inj hboth
          unfold controllableTask at hstatus
          rw [← hsame] at hstatus
          cases hstatus
        intro hall hfails
        have hstart := hall task ⟨howner, howned, state, hvalidate⟩
        rw [hstarts.2 hstart] at hfails
        cases hfails
    rw [if_pos (by simpa using howned)]
    refine ⟨?_, fun _ _ => rfl⟩
    intro _ task hgranted
    exact absurd hgranted.2.1 howned
  rw [if_pos (by simpa using howner)]
  refine ⟨?_, fun _ _ => rfl⟩
  intro _ task hgranted
  exact absurd hgranted.1 howner

/-! ## A task whose main session is gone -/

/-- A failed task under the main session `m`, which is no longer in the runtime. -/
def deadMain : Manager where
  workflowId := "w"
  taskId := "t"
  disk := some {
    status := .failed
    mainSessionId := some "m"
    mainTakeover := true
    executorId := some "controller"
    executorEpoch := some "inline"
    snapshotDefinition := some oneNode
    nodeStates := [("a", { nodeId := "a", status := .failed, attemptCount := 1 })] }

/-- **The request is refused and the task is changed**: it waits for its start,
where the same request is refused for its status. -/
theorem deadMain_half_changed :
    ¬ RefusalHarmless deadMain (deadMain.nodeControl deadMain .retry "a" (.int 1))
      ∧ (deadMain.nodeControl deadMain .retry "a" (.int 1)).1.error = "main_takeover_unavailable"
      ∧ ((deadMain.nodeControl deadMain .retry "a" (.int 1)).2.nodeControl
          (deadMain.nodeControl deadMain .retry "a" (.int 1)).2 .retry "a" (.int 1)).1.error
          = "node_control_conflict" := by
  refine ⟨?_, by decide +kernel, by decide +kernel⟩
  intro hharmless
  have hsame := congrArg (Option.map Prod.fst) (hharmless (by decide +kernel))
  exact absurd hsame (by decide +kernel)

end DeterminFlow.Recovery
