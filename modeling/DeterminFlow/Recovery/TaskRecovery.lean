/-
  Recovery.TaskRecovery
  **RECOVERING A TASK.**

  `_recover_task` of `workflow/task_recovery.py`: two passes over the node
  states (running nodes, lost approvals), one over retries without a valid
  time, and the decision what becomes of the task.
-/
import DeterminFlow.Recovery.NodeRecovery

namespace DeterminFlow.Recovery

open Library Workflow DeterminFlow.Runtime List Option NodeExecutionState Dict

/-! ## Stored tasks -/

/-- A task file: the fields the scheduler works on, and those the managers
route and resume it by. -/
structure StoredTask extends TaskData where
  runId : Option String := none
  snapshotDefinition : Option WorkflowDef := none
  executorId : Option String := none
  executorEpoch : Option String := none

/-- What recovery reads of its surroundings. -/
structure RecoveryEnv where
  now : Timestamp
  /-- `(_utc_now() + timedelta(seconds=max(0, interval))).isoformat()`;
  `none` stands for an exception. -/
  retryDeadline : Timestamp → PyValue → Option Timestamp
  /-- `_parse_datetime(value) is not None`. -/
  validTime : Timestamp → Bool
  /-- The current definition of a workflow, when it has one. -/
  workflow : String → Option WorkflowDef

/-- `_task_definition`; `none` stands for its `ValueError`. -/
def taskDefinition (R : RecoveryEnv) (task : StoredTask) : Option WorkflowDef :=
  task.snapshotDefinition.or (R.workflow task.workflowId)

/-- `{node.id: node for node in definition.nodes}`: the last one counts. -/
def nodeById (d : WorkflowDef) (id : String) : Option WorkflowNode :=
  d.nodes.reverse.find? (·.id = id)

/-! ## The passes -/

def closeRunning (R : RecoveryEnv) (node? : Option WorkflowNode) (state : NodeExecutionState) :
    Option NodeExecutionState :=
  let failed := interruptedState state R.now interruptedError
  if childReissued failed then some (prepareRecoveryReissue failed false)
  else
    match node? with
    | none => some failed
    | some node =>
      if canAutoRetry node failed then
        (R.retryDeadline R.now node.autoRetryIntervalSeconds).bind fun due =>
          failed.prepareRetry .autoRetry (some due)
      else if shouldAutoSkip node failed then some (failed.failureSkipped R.now)
      else some failed

/-- One node of `_recover_interrupted_nodes`. -/
def recoverRunning (R : RecoveryEnv) (d : WorkflowDef) (id : String)
    (state : NodeExecutionState) : Option NodeExecutionState :=
  let state := recoverChildStates R.now state
  if state.status ≠ .running then some state else closeRunning R (nodeById d id) state

/-- `_recover_interrupted_nodes`; `none` stands for an exception. -/
def recoverInterruptedNodes (R : RecoveryEnv) (d : WorkflowDef)
    (states : Dict String NodeExecutionState) : Option (Dict String NodeExecutionState) :=
  states.mapValues? (recoverRunning R d)

/-- One node of `_recover_waiting_approval_nodes`. -/
def recoverApproval (R : RecoveryEnv) (d : WorkflowDef) (id : String)
    (state : NodeExecutionState) : NodeExecutionState :=
  let state := recoverChildStates R.now state
  if state.status ≠ .waitingApproval then state
  else
    let closed := interruptedState state R.now interruptedApprovalError
    prepareRecoveryReissue closed
      ((nodeById d id).any (·.nodeType = "agent") && hasResult closed)

def recoverWaitingApprovalNodes (R : RecoveryEnv) (d : WorkflowDef)
    (states : Dict String NodeExecutionState) : Dict String NodeExecutionState :=
  states.mapValues (recoverApproval R d)

def recoverNodes (R : RecoveryEnv) (d : WorkflowDef) (states : Dict String NodeExecutionState) :
    Option (Dict String NodeExecutionState) :=
  (recoverInterruptedNodes R d states).map (recoverWaitingApprovalNodes R d)

/-- `text.strip()`. -/
def strip (text : String) : String := String.ofList (PyText.stripChars text)

def hasValidTime (R : RecoveryEnv) (state : NodeExecutionState) : Bool :=
  state.nextRetryAt.any R.validTime

def failUntimed (R : RecoveryEnv) (state : NodeExecutionState) : NodeExecutionState :=
  if state.status = .retryWaiting ∧ hasValidTime R state = false then
    { state with
      status := .failed
      completedAt := some R.now
      nextRetryAt := none
      error := strip (state.error ++ "\n" ++ "retry_waiting 节点缺少有效 next_retry_at，无法恢复") }
  else state

/-! ## The decision -/

/-- What becomes of the task. -/
inductive RecoveryAction where
  /-- A retry timer is set. -/
  | scheduled
  | failed
  /-- `run_task` is called. -/
  | resume
  deriving DecidableEq

/-- `_RECOVERABLE_TASK_STATUSES`. -/
def recoverableStatus (status : TaskStatus) : Bool :=
  status == .running || status == .retryWaiting || status == .resumePending

/-- `_PENDING_RESUME_TRIGGERS`. -/
def resumesWith (trigger : Trigger) : Bool :=
  trigger == .autoRetry || trigger == .manualRetry || trigger == .recoveryReissue

def resumeRequested (status : TaskStatus) (states : Dict String NodeExecutionState) : Bool :=
  status == .resumePending ||
    states.any (fun entry => entry.2.status == .pending && resumesWith entry.2.nextAttemptTrigger)

def someNode (status : NodeStatus) (states : Dict String NodeExecutionState) : Bool :=
  states.any (fun entry => entry.2.status == status)

/-- `_prepare_task_for_resume`. -/
def prepareForResume (task : StoredTask) : StoredTask :=
  { task with status := .resumePending, currentNodeId := none, runId := none, completedAt := none }

def decideTask (R : RecoveryEnv) (task : StoredTask) : RecoveryAction × StoredTask :=
  if resumeRequested task.status task.nodeStates = false ∧ someNode .retryWaiting task.nodeStates then
    (.scheduled, { task with status := .retryWaiting, completedAt := none, currentNodeId := none })
  else if resumeRequested task.status task.nodeStates = false ∧ someNode .failed task.nodeStates then
    (.failed, { task with status := .failed, completedAt := some R.now, currentNodeId := none })
  else (.resume, prepareForResume task)

def recoveredStates (R : RecoveryEnv) (d : WorkflowDef) (states : Dict String NodeExecutionState) :
    Option (Dict String NodeExecutionState) :=
  (recoverNodes R d states).map (·.mapValues (fun _ => failUntimed R))

/-- **`_recover_task`** up to the call of `run_task`: the action and the file
it saves; `none` stands for an exception.  A task that has come to rest in the
meantime counts as failed and is left alone. -/
def recoverTask (R : RecoveryEnv) (task : StoredTask) : Option (RecoveryAction × StoredTask) :=
  if recoverableStatus task.status = false then some (.failed, task)
  else
    (taskDefinition R task).bind fun d =>
      (recoveredStates R d task.nodeStates).map fun states =>
        decideTask R { task with nodeStates := states }

/-! ## One node through the passes -/

variable {s' s : NodeExecutionState} {R : RecoveryEnv} {d : WorkflowDef}

lemma closeRunning_spec {node? : Option WorkflowNode} (h : closeRunning R node? s = some s') :
    s'.childStates = s.childStates ∧ s'.interrupted = false := by
  unfold closeRunning at h
  simp only at h
  split at h
  · cases h
    exact ⟨rfl, rfl⟩
  split at h
  · cases h
    exact ⟨rfl, rfl⟩
  split at h
  · obtain ⟨_, _, hretry⟩ := bind_eq_some_iff.1 h
    unfold prepareRetry at hretry
    rw [if_neg (by decide), if_neg (by simp), if_neg (by simp [NodeStatus.normalize])] at hretry
    cases hretry
    exact ⟨rfl, rfl⟩
  split at h
  all_goals
    cases h
    exact ⟨rfl, rfl⟩

lemma recoverRunning_spec {id : String} (h : recoverRunning R d id s = some s') :
    s'.childStates = (recoverChildStates R.now s).childStates ∧ s'.status ≠ .running
      ∧ (s.status ≠ .running → s' = recoverChildStates R.now s) := by
  unfold recoverRunning at h
  simp only [status_recoverChildStates] at h
  by_cases hrunning : s.status = .running
  · rw [if_neg (by simp [hrunning])] at h
    obtain ⟨hchildren, hquiet⟩ := closeRunning_spec h
    refine ⟨hchildren, (interrupted_eq_false.1 hquiet).1, ?_⟩
    intro hne
    exact absurd hrunning hne
  rw [if_pos hrunning] at h
  cases h
  refine ⟨rfl, ?_, fun _ => rfl⟩
  rw [status_recoverChildStates]
  exact hrunning

lemma recoverApproval_spec {id : String} (hbelow : ∀ entry ∈ s.childStates, entry.2.calm)
    (hrunning : s.status ≠ .running) :
    (recoverApproval R d id s).childStates = s.childStates ∧ (recoverApproval R d id s).calm
      ∧ (s.status ≠ .waitingApproval → recoverApproval R d id s = s) := by
  have hcalm : ∀ t : NodeExecutionState, t.childStates = s.childStates →
      t.interrupted = false → t.calm := by
    intro t hchildren hquiet
    refine calm_iff.2 ⟨hquiet, ?_⟩
    rw [hchildren]
    exact hbelow
  unfold recoverApproval
  simp only [recoverChildStates_of_calm hbelow]
  by_cases happroval : s.status = .waitingApproval
  · rw [if_neg (by simp [happroval])]
    refine ⟨rfl, hcalm _ rfl rfl, ?_⟩
    intro hne
    exact absurd happroval hne
  rw [if_pos happroval]
  exact ⟨rfl, hcalm s rfl (interrupted_eq_false.2 ⟨hrunning, happroval⟩), fun _ => rfl⟩

def passNode (R : RecoveryEnv) (d : WorkflowDef) (id : String) (state : NodeExecutionState) :
    Option NodeExecutionState :=
  (recoverRunning R d id state).map (recoverApproval R d id)

lemma recoverNodes_eq (R : RecoveryEnv) (d : WorkflowDef)
    (states : Dict String NodeExecutionState) :
    recoverNodes R d states = states.mapValues? (passNode R d) :=
  mapValues?_map states (recoverRunning R d) (recoverApproval R d)

lemma passNode_spec {id : String} (h : passNode R d id s = some s') :
    s'.calm ∧ s'.childStates = (recoverChildStates R.now s).childStates
      ∧ (s.interrupted = false → s' = recoverChildStates R.now s) := by
  obtain ⟨t, ht, rfl⟩ := map_eq_some_iff.1 h
  obtain ⟨hchildren, hrunning, hsame⟩ := recoverRunning_spec ht
  have hbelow : ∀ entry ∈ t.childStates, entry.2.calm := by
    rw [hchildren]
    exact recoverChildStates_calm R.now s
  obtain ⟨hkeep, hcalm, hstays⟩ := recoverApproval_spec (d := d) (R := R) hbelow hrunning
  refine ⟨hcalm, hkeep.trans hchildren, ?_⟩
  intro hquiet
  obtain ⟨hnotRunning, hnotApproval⟩ := interrupted_eq_false.1 hquiet
  have ht' := hsame hnotRunning
  have hstatus : t.status ≠ .waitingApproval := by
    rw [ht', status_recoverChildStates]
    exact hnotApproval
  rw [hstays hstatus, ht']

lemma passNode_of_calm {id : String} (h : s.calm) : passNode R d id s = some s := by
  obtain ⟨hquiet, hbelow⟩ := calm_iff.1 h
  obtain ⟨hrunning, happroval⟩ := interrupted_eq_false.1 hquiet
  have hfirst : recoverRunning R d id s = some s := by
    unfold recoverRunning
    simp only [recoverChildStates_of_calm hbelow]
    rw [if_pos hrunning]
  unfold passNode
  rw [hfirst, map_some, (recoverApproval_spec hbelow hrunning).2.2 happroval]

lemma failUntimed_spec (R : RecoveryEnv) (s : NodeExecutionState) :
    (failUntimed R s).childStates = s.childStates ∧ (s.calm → (failUntimed R s).calm)
      ∧ (s.status ≠ .retryWaiting → failUntimed R s = s)
      ∧ ((failUntimed R s).status = .retryWaiting → hasValidTime R (failUntimed R s) = true) := by
  unfold failUntimed
  by_cases h : s.status = .retryWaiting ∧ hasValidTime R s = false
  · rw [if_pos h]
    refine ⟨rfl, ?_, ?_, ?_⟩
    · intro hcalm
      exact calm_iff.2 ⟨rfl, (calm_iff.1 hcalm).2⟩
    · intro hne
      exact absurd h.1 hne
    intro hwaiting
    cases hwaiting
  rw [if_neg h]
  refine ⟨rfl, id, fun _ => rfl, ?_⟩
  intro hwaiting
  by_contra hinvalid
  exact h ⟨hwaiting, by simpa using hinvalid⟩

def closeNode (R : RecoveryEnv) (d : WorkflowDef) (id : String) (state : NodeExecutionState) :
    Option NodeExecutionState :=
  (passNode R d id state).map (failUntimed R)

lemma recoveredStates_eq (R : RecoveryEnv) (d : WorkflowDef)
    (states : Dict String NodeExecutionState) :
    recoveredStates R d states = states.mapValues? (closeNode R d) := by
  unfold recoveredStates
  rw [recoverNodes_eq]
  exact mapValues?_map states (passNode R d) (fun _ => failUntimed R)

/-! ## Completed and skipped nodes -/

def finished (s : NodeExecutionState) : Prop := s.status = .completed ∨ s.status = .skipped

lemma finished.not_interrupted (h : finished s) : s.interrupted = false := by
  rw [interrupted_eq_false]
  rcases h with h | h
  all_goals simp [h]

def stateAt : Dict String NodeExecutionState → List String → Option NodeExecutionState
  | _, [] => none
  | states, [id] => states.get? id
  | states, id :: next :: rest => (states.get? id).bind (fun s => stateAt s.childStates (next :: rest))

/-- At every depth completed and skipped nodes keep their own records, and
change not at all when nothing below them was interrupted. -/
def KeepsFinished (before after : Dict String NodeExecutionState) : Prop :=
  ∀ path s, stateAt before path = some s → finished s →
    ∃ s', stateAt after path = some s' ∧ s'.ownRecord = s.ownRecord ∧ (s.calm → s' = s)

lemma keepsFinished_of_entries {before after : Dict String NodeExecutionState}
    (h : ∀ id s, before.get? id = some s → ∃ s', after.get? id = some s'
      ∧ (finished s → s'.ownRecord = s.ownRecord ∧ (s.calm → s' = s))
      ∧ KeepsFinished s.childStates s'.childStates) : KeepsFinished before after := by
  intro path s hs hfinished
  match path, hs with
  | [id], hs =>
    obtain ⟨s', hs', hrecord, _⟩ := h id s hs
    exact ⟨s', hs', (hrecord hfinished).1, (hrecord hfinished).2⟩
  | id :: next :: rest, hs =>
    obtain ⟨parent, hparent, hbelow⟩ := bind_eq_some_iff.1 hs
    obtain ⟨parent', hparent', _, hchildren⟩ := h id parent hparent
    obtain ⟨s', hs', hkept⟩ := hchildren (next :: rest) s hbelow hfinished
    exact ⟨s', bind_eq_some_iff.2 ⟨parent', hparent', hs'⟩, hkept⟩

lemma recoverChildStates_keepsFinished (now : Timestamp) (s : NodeExecutionState) :
    KeepsFinished s.childStates (recoverChildStates now s).childStates := by
  induction s using childInduction with
  | h s ih =>
    rw [recoverChildStates_eq]
    apply keepsFinished_of_entries
    intro id child hchild
    have hmap := get?_mapValues s.childStates
      (fun _ c => closeChild now (recoverChildStates now c)) id
    rw [hchild] at hmap
    refine ⟨closeChild now (recoverChildStates now child), hmap, ?_, ?_⟩
    · intro hfinished
      have hquiet : (recoverChildStates now child).interrupted = false := by
        apply finished.not_interrupted
        unfold finished
        rw [status_recoverChildStates]
        exact hfinished
      rw [closeChild_of_not_interrupted hquiet]
      refine ⟨ownRecord_recoverChildStates now child, ?_⟩
      intro hcalm
      exact recoverChildStates_of_calm (calm_iff.1 hcalm).2
    rw [childStates_closeChild]
    exact ih (id, child) (mem_of_get? hchild)

/-! ## The task -/

/-- **What recovery leaves** of a task with node states `before`. -/
structure WellRecovered (R : RecoveryEnv) (d : WorkflowDef)
    (before : Dict String NodeExecutionState) (action : RecoveryAction) (task : StoredTask) :
    Prop where
  /-- No node is running or waits for an approval, at any depth. -/
  calm : ∀ entry ∈ task.nodeStates, entry.2.calm
  /-- Scheduled with a timed retry, failed with a failed node, or to be resumed. -/
  decided : match action with
    | .scheduled => task.status = .retryWaiting ∧ ∃ entry ∈ task.nodeStates,
        entry.2.status = .retryWaiting ∧ hasValidTime R entry.2 = true
    | .failed => task.status = .failed ∧ ∃ entry ∈ task.nodeStates, entry.2.status = .failed
    | .resume => task.status = .resumePending
  /-- Completed and skipped nodes are kept. -/
  kept : KeepsFinished before task.nodeStates
  /-- The passes find nothing to do a second time, neither on what they have
  left nor on what has been saved. -/
  again : ∀ R' : RecoveryEnv,
    (∀ states, recoverNodes R d before = some states → recoverNodes R' d states = some states)
      ∧ recoverNodes R' d task.nodeStates = some task.nodeStates

lemma nodeStates_decideTask (R : RecoveryEnv) (task : StoredTask) :
    (decideTask R task).2.nodeStates = task.nodeStates := by
  unfold decideTask
  split
  · rfl
  split
  all_goals rfl

lemma decideTask_spec (R : RecoveryEnv) (task : StoredTask) : match (decideTask R task).1 with
    | .scheduled => (decideTask R task).2.status = .retryWaiting ∧ ∃ entry ∈ task.nodeStates,
        entry.2.status = .retryWaiting
    | .failed => (decideTask R task).2.status = .failed ∧ ∃ entry ∈ task.nodeStates,
        entry.2.status = .failed
    | .resume => (decideTask R task).2.status = .resumePending := by
  have hsome : ∀ status, someNode status task.nodeStates = true →
      ∃ entry ∈ task.nodeStates, entry.2.status = status := by
    intro status h
    unfold someNode at h
    obtain ⟨entry, hmem, hstatus⟩ := any_eq_true.1 h
    exact ⟨entry, hmem, by simpa using hstatus⟩
  unfold decideTask
  by_cases hwaiting : resumeRequested task.status task.nodeStates = false
      ∧ someNode .retryWaiting task.nodeStates
  · rw [if_pos hwaiting]
    exact ⟨rfl, hsome _ hwaiting.2⟩
  rw [if_neg hwaiting]
  by_cases hfailed : resumeRequested task.status task.nodeStates = false
      ∧ someNode .failed task.nodeStates
  · rw [if_pos hfailed]
    exact ⟨rfl, hsome _ hfailed.2⟩
  rw [if_neg hfailed]
  rfl

lemma recoverNodes_of_calm {states : Dict String NodeExecutionState}
    (h : ∀ entry ∈ states, entry.2.calm) : recoverNodes R d states = some states := by
  rw [recoverNodes_eq]
  exact mapValues?_self (fun entry hmem => passNode_of_calm (h entry hmem))

lemma recoveredStates_keepsFinished {before after : Dict String NodeExecutionState}
    (h : recoveredStates R d before = some after) : KeepsFinished before after := by
  rw [recoveredStates_eq] at h
  apply keepsFinished_of_entries
  intro id s hs
  have hentry := get?_mapValues? h id
  rw [hs] at hentry
  -- the entry has an image, since the whole dictionary has one
  obtain ⟨value, hvalue⟩ : ∃ value, closeNode R d id s = some value := by
    by_contra hnone
    have hall := exists_of_mapValues? h (mem_of_get? hs)
    exact hnone hall
  obtain ⟨t, ht, rfl⟩ := map_eq_some_iff.1 hvalue
  obtain ⟨_, hchildren, hsame⟩ := passNode_spec ht
  obtain ⟨huntimed, _, hstays, _⟩ := failUntimed_spec R t
  refine ⟨failUntimed R t, hentry.trans hvalue, ?_, ?_⟩
  · intro hfinished
    have ht' := hsame hfinished.not_interrupted
    have hstatus : t.status ≠ .retryWaiting := by
      rw [ht', status_recoverChildStates]
      rcases hfinished with hdone | hskip
      · simp [hdone]
      simp [hskip]
    rw [hstays hstatus, ht']
    refine ⟨ownRecord_recoverChildStates R.now s, ?_⟩
    intro hcalm
    exact recoverChildStates_of_calm (calm_iff.1 hcalm).2
  rw [huntimed, hchildren]
  exact recoverChildStates_keepsFinished R.now s

lemma exists_closeNode
    (hvalid : ∀ node ∈ d.nodes, node.autoRetryIntervalSeconds.isIntegerInRange 0 86400 = true)
    (hdeadline : ∀ n : Int, 0 ≤ n → n ≤ 86400 → ∃ due, R.retryDeadline R.now (.int n) = some due)
    (id : String) (s : NodeExecutionState) : ∃ s', closeNode R d id s = some s' := by
  have hclose : ∀ s, ∃ s', closeRunning R (nodeById d id) s = some s' := by
    intro s
    unfold closeRunning
    simp only
    split
    · exact ⟨_, rfl⟩
    split
    · exact ⟨_, rfl⟩
    rename_i node hnode
    split
    · have hmem : node ∈ d.nodes := mem_reverse.1 (mem_of_find?_eq_some hnode)
      have hrange := hvalid node hmem
      unfold PyValue.isIntegerInRange at hrange
      split at hrange
      · rename_i n hn
        simp only [Bool.and_eq_true, decide_eq_true_eq] at hrange
        obtain ⟨due, hdue⟩ := hdeadline n hrange.1 hrange.2
        rw [hn, hdue]
        refine ⟨(interruptedState s R.now interruptedError).preparedRetry .autoRetry
          (some due), ?_⟩
        unfold prepareRetry
        rw [bind_some, if_neg (by decide), if_neg (by simp),
          if_neg (by simp [NodeStatus.normalize])]
      cases hrange
    split
    all_goals exact ⟨_, rfl⟩
  have hrunning : ∃ t, recoverRunning R d id s = some t := by
    unfold recoverRunning
    simp only
    split
    · exact ⟨_, rfl⟩
    exact hclose _
  obtain ⟨t, ht⟩ := hrunning
  refine ⟨failUntimed R (recoverApproval R d id t), ?_⟩
  unfold closeNode passNode
  rw [ht]
  rfl

def oneNode : WorkflowDef where
  nodes := [{ id := "a" }]

def stoppedClock : RecoveryEnv where
  now := "2026-01-01T00:00:00+00:00"
  retryDeadline := fun now _ => some now
  validTime := fun _ => true
  workflow := fun _ => none

def interruptedTask : StoredTask where
  status := .running
  nodeStates := [("a", { nodeId := "a", status := .running, attemptCount := 1 })]
  snapshotDefinition := some oneNode

end DeterminFlow.Recovery
