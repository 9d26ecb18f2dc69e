/-
  Recovery.NodeRecovery
  **CLOSING INTERRUPTED NODES.**

  A process that dies leaves nodes `running` or `waiting_approval` in the
  task file, at any depth of nested sub-workflows.  `_interrupted_state`,
  `_prepare_recovery_reissue` and the recursive pass over child states of
  `workflow/task_recovery.py` turn each of them into a state a later run
  can start from, children first.
-/
import DeterminFlow.Runtime.World

namespace DeterminFlow.Runtime

open Library Workflow

/-! ## Trees of states -/

namespace NodeExecutionState

variable {s : NodeExecutionState}

lemma sizeOf_child_lt {entry : String × NodeExecutionState} (h : entry ∈ s.childStates) :
    sizeOf entry.2 < sizeOf s := by
  have hmem := List.sizeOf_lt_of_mem h
  have hpair : sizeOf entry.2 < sizeOf entry := by
    cases entry
    simp only [Prod.mk.sizeOf_spec]
    omega
  have hstate : sizeOf s.childStates < sizeOf s := by
    cases s
    simp only [NodeExecutionState.mk.sizeOf_spec]
    omega
  omega

lemma childInduction {P : NodeExecutionState → Prop}
    (h : ∀ s, (∀ entry ∈ s.childStates, P entry.2) → P s) (s : NodeExecutionState) : P s :=
  h s (fun entry _ => childInduction h entry.2)
termination_by sizeOf s
decreasing_by exact sizeOf_child_lt (by assumption)

/-- `p` holds of the state or of one below it. -/
def anyDeep (p : NodeExecutionState → Bool) (s : NodeExecutionState) : Bool :=
  p s || s.childStates.attach.any (fun entry => entry.1.2.anyDeep p)
termination_by sizeOf s
decreasing_by exact sizeOf_child_lt entry.2

lemma anyDeep_eq (p : NodeExecutionState → Bool) (s : NodeExecutionState) :
    s.anyDeep p = (p s || s.childStates.any (fun entry => entry.2.anyDeep p)) := by
  have hany : s.childStates.attach.any (fun entry => entry.1.2.anyDeep p)
      = s.childStates.any (fun entry => entry.2.anyDeep p) := by
    rw [Bool.eq_iff_iff]
    simp [List.any_eq_true]
  rw [anyDeep, hany]

lemma anyDeep_eq_false {p : NodeExecutionState → Bool} : s.anyDeep p = false
      ↔ p s = false ∧ ∀ entry ∈ s.childStates, entry.2.anyDeep p = false := by
  rw [anyDeep_eq]
  simp

def ownRecord (s : NodeExecutionState) : NodeExecutionState := { s with childStates := [] }

def interrupted (s : NodeExecutionState) : Bool :=
  s.status == .running || s.status == .waitingApproval

lemma interrupted_eq_false :
    s.interrupted = false ↔ s.status ≠ .running ∧ s.status ≠ .waitingApproval := by
  simp [interrupted]

def calm (s : NodeExecutionState) : Prop := s.anyDeep interrupted = false

lemma calm_iff : s.calm ↔ s.interrupted = false ∧ ∀ entry ∈ s.childStates, entry.2.calm :=anyDeep_eq_false

end NodeExecutionState
end DeterminFlow.Runtime

namespace DeterminFlow.Recovery

open Library Workflow DeterminFlow.Runtime

/-! ## One interrupted state -/

def interruptedError : String := "workflow_process_interrupted: 服务重启时节点仍处于 running"

def interruptedApprovalError : String :=
  "workflow_process_interrupted: 服务重启时节点仍在等待人工审批"

def interruptedText (error message : String) : String :=
  let reported := String.ofList (PyText.stripChars error)
  if reported = "" then message else reported ++ "\n" ++ message

/-- `_interrupted_state`: a failed attempt, entered into the history. -/
def interruptedState (state : NodeExecutionState) (completedAt : Timestamp) (message : String) :
    NodeExecutionState :=
  ({ state with
      status := .failed
      completedAt := some completedAt
      error := interruptedText state.error message
      attemptCount := max 1 state.attemptCount }).recordAttempt

/-- `replace(state, status="failed")`. -/
def asFailed (state : NodeExecutionState) : NodeExecutionState := { state with status := .failed }

/-- `_prepare_recovery_reissue`: a fresh start that costs no retry. -/
def prepareRecoveryReissue (state : NodeExecutionState) (preserveResult : Bool) :
    NodeExecutionState :=
  { state with
    status := .pending
    sessionId := if preserveResult then state.sessionId else ""
    startedAt := none
    completedAt := none
    summary := if preserveResult then state.summary else ""
    error := ""
    rejectionReason := ""
    outputs := []
    stdout := ""
    stderr := ""
    isSkipped := false
    nextRetryAt := none
    nextAttemptTrigger := .recoveryReissue }

def containsRecoveryReissue (state : NodeExecutionState) : Bool :=
  state.anyDeep (fun s => s.status == .pending && s.nextAttemptTrigger == .recoveryReissue)

/-- A child state of `state` contains a reissue. -/
def childReissued (state : NodeExecutionState) : Bool :=
  state.childStates.any (fun entry => containsRecoveryReissue entry.2)

def hasResult (state : NodeExecutionState) : Bool :=
  state.sessionId != "" && state.summary != ""

@[simp] lemma status_interruptedState (s : NodeExecutionState) (t : Timestamp) (m : String) :
    (interruptedState s t m).status = .failed := rfl

@[simp] lemma childStates_interruptedState (s : NodeExecutionState) (t : Timestamp)
    (m : String) : (interruptedState s t m).childStates = s.childStates := rfl

@[simp] lemma status_prepareRecoveryReissue (s : NodeExecutionState) (b : Bool) :
    (prepareRecoveryReissue s b).status = .pending := rfl

@[simp] lemma childStates_prepareRecoveryReissue (s : NodeExecutionState) (b : Bool) :
    (prepareRecoveryReissue s b).childStates = s.childStates := rfl

/-! ## The children of a state -/

def closeChild (now : Timestamp) (recovered : NodeExecutionState) : NodeExecutionState :=
  if recovered.status = .waitingApproval then
    let closed := interruptedState recovered now interruptedApprovalError
    prepareRecoveryReissue closed (hasResult closed)
  else if recovered.status = .running then
    let closed := interruptedState recovered now interruptedError
    if childReissued recovered then prepareRecoveryReissue closed false else closed
  else recovered

/-- **`_recover_interrupted_child_states`.** -/
def recoverChildStates (now : Timestamp) (state : NodeExecutionState) : NodeExecutionState :=
  { state with
    childStates := state.childStates.attach.map (fun entry =>
      (entry.1.1, closeChild now (recoverChildStates now entry.1.2))) }
termination_by sizeOf state
decreasing_by exact NodeExecutionState.sizeOf_child_lt entry.2

lemma recoverChildStates_eq (now : Timestamp) (s : NodeExecutionState) :
    recoverChildStates now s = { s with
      childStates := s.childStates.map (fun entry =>
        (entry.1, closeChild now (recoverChildStates now entry.2))) } := by
  have hmap : s.childStates.attach.map (fun entry =>
        (entry.1.1, closeChild now (recoverChildStates now entry.1.2)))
      = s.childStates.map (fun entry =>
        (entry.1, closeChild now (recoverChildStates now entry.2))) :=
    List.attach_map_val (f := fun entry : String × NodeExecutionState =>
      (entry.1, closeChild now (recoverChildStates now entry.2)))
  rw [recoverChildStates, hmap]

lemma ownRecord_recoverChildStates (now : Timestamp) (s : NodeExecutionState) :
    (recoverChildStates now s).ownRecord = s.ownRecord := by
  rw [recoverChildStates_eq]
  rfl

lemma status_recoverChildStates (now : Timestamp) (s : NodeExecutionState) :
    (recoverChildStates now s).status = s.status := by
  rw [recoverChildStates_eq]

lemma closeChild_not_interrupted (now : Timestamp) (s : NodeExecutionState) :
    (closeChild now s).interrupted = false := by
  rw [NodeExecutionState.interrupted_eq_false]
  unfold closeChild
  by_cases happroval : s.status = .waitingApproval
  · rw [if_pos happroval]
    simp
  rw [if_neg happroval]
  by_cases hrunning : s.status = .running
  · rw [if_pos hrunning]
    cases hreissue : childReissued s with
    | _ => simp
  rw [if_neg hrunning]
  exact ⟨hrunning, happroval⟩

lemma childStates_closeChild (now : Timestamp) (s : NodeExecutionState) :
    (closeChild now s).childStates = s.childStates := by
  unfold closeChild
  by_cases happroval : s.status = .waitingApproval
  · rw [if_pos happroval]
    rfl
  rw [if_neg happroval]
  by_cases hrunning : s.status = .running
  · rw [if_pos hrunning]
    cases hreissue : childReissued s with
    | _ => rfl
  rw [if_neg hrunning]

variable {now : Timestamp} {s : NodeExecutionState}

lemma closeChild_of_not_interrupted (h : s.interrupted = false) : closeChild now s = s := by
  obtain ⟨hrunning, happroval⟩ := NodeExecutionState.interrupted_eq_false.1 h
  unfold closeChild
  rw [if_neg happroval, if_neg hrunning]

lemma recoverChildStates_calm (now : Timestamp) (s : NodeExecutionState) :
    ∀ entry ∈ (recoverChildStates now s).childStates, entry.2.calm := by
  induction s using NodeExecutionState.childInduction with
  | h s ih =>
    rw [recoverChildStates_eq]
    intro entry hmem
    obtain ⟨child, hchild, rfl⟩ := List.mem_map.1 hmem
    refine NodeExecutionState.calm_iff.2 ⟨closeChild_not_interrupted now _, ?_⟩
    show ∀ grandchild ∈ (closeChild now (recoverChildStates now child.2)).childStates, _
    rw [childStates_closeChild]
    exact ih child hchild

lemma recoverChildStates_of_calm (h : ∀ entry ∈ s.childStates, entry.2.calm) :
    recoverChildStates now s = s := by
  induction s using NodeExecutionState.childInduction with
  | h s ih =>
    have hsame : s.childStates.map (fun entry =>
        (entry.1, closeChild now (recoverChildStates now entry.2))) = s.childStates := by
      have hpoint : ∀ entry ∈ s.childStates,
          (entry.1, closeChild now (recoverChildStates now entry.2)) = entry := by
        intro entry hmem
        obtain ⟨hquiet, hbelow⟩ := NodeExecutionState.calm_iff.1 (h entry hmem)
        rw [ih entry hmem hbelow, closeChild_of_not_interrupted hquiet]
      rw [List.map_congr_left hpoint, List.map_id']
    rw [recoverChildStates_eq, hsame]
    cases s
    rfl

end DeterminFlow.Recovery
