/-
  Engine.RejectedUpstream
  **THE ATTEMPT AFTER A REJECTION.**

  A validator rejects its upstream node, the upstream node runs again, and
  the validator waits for its own next attempt.  Whether that attempt
  computes a new input is decided by `next_attempt_trigger`, which the
  rollback does not touch: it still says why the rejecting attempt was made.
-/
import DeterminFlow.Engine.TaskRun
import DeterminFlow.Workflow.Validation

namespace DeterminFlow.Engine

open Library Coop Workflow DeterminFlow.Runtime NodeExecutionState

section
variable (E : Env) (t : Thread)

/-! ## What an attempt runs on -/

/-- The input computed from the world: parameters, outputs of the completed
nodes, system variables. -/
def computedInput (w : World) (nodeId : String) : Pool :=
  (enrichParameterValues E w nodeId).update (systemVariables E w)

/-- The attempt that begins in world `w` on object `r` of the node. -/
def nextAttempt (node : WorkflowNode) (r : Nat) (call : Call) (w : World) : NodeExecutionState :=
  (beginNodeAttempt E t node r call w).objects node.id (w.allocated node.id)

/-- **The attempt sees the upstream nodes as they are**: its input and its
upstream summary are those computed in the world it begins in. -/
def SeesReexecution (node : WorkflowNode) (r : Nat) (call : Call) (w : World) : Prop :=
  (nextAttempt E t node r call w).inputSnapshot = computedInput E w node.id
    ∧ (nextAttempt E t node r call w).upstreamSummarySnapshot = upstreamSummary E w node.id

def NothingChanged (state : NodeExecutionState) (w : World) (nodeId : String) : Prop :=
  state.inputSnapshot = computedInput E w nodeId
    ∧ state.upstreamSummarySnapshot = upstreamSummary E w nodeId

/-- Two states agree in what decides the input of the next attempt. -/
structure SameInputFields (s s' : NodeExecutionState) : Prop where
  count : s'.attemptCount = s.attemptCount
  trigger : s'.nextAttemptTrigger = s.nextAttemptTrigger
  input : s'.inputSnapshot = s.inputSnapshot
  summary : s'.upstreamSummarySnapshot = s.upstreamSummarySnapshot

variable {E t}

/-! ## The rollback -/

lemma awaitUpstream_keeps (nodeId : String) (r : Nat) (w : World) :
    SameInputFields (w.objects nodeId r) ((awaitUpstream nodeId r w).objects nodeId r) := by
  unfold awaitUpstream World.install World.modifyObject
  simp only [Function.update_self]
  exact ⟨rfl, rfl, rfl, rfl⟩

/-! ## When the next attempt computes its input -/

lemma objects_beginNodeAttempt (node : WorkflowNode) (r : Nat) (call : Call) (w : World) :
    nextAttempt E t node r call w = begunState E node r w := by
  unfold nextAttempt beginNodeAttempt World.record World.installNew World.install World.allocate
  simp only [Function.update_self]

lemma nextAttempt_input (node : WorkflowNode) (r : Nat) (call : Call) (w : World) :
    ((nextAttempt E t node r call w).inputSnapshot,
      (nextAttempt E t node r call w).upstreamSummarySnapshot)
      = if (w.objects node.id r).freezesInput then
          (computedInput E w node.id, upstreamSummary E w node.id)
        else ((w.objects node.id r).inputSnapshot, (w.objects node.id r).upstreamSummarySnapshot) := by
  rw [objects_beginNodeAttempt]
  unfold begunState beginAttempt
  simp only
  cases hfreezes : (w.objects node.id r).freezesInput with
  | false =>
    rw [if_neg (by simp), if_neg (by simp), if_neg (by simp)]
  | true =>
    have hfresh : ¬ (0 < (w.objects node.id r).attemptCount
        ∧ (w.objects node.id r).nextAttemptTrigger ≠ .initial) := by
      intro hretry
      unfold freezesInput at hfreezes
      simp only [Bool.or_eq_true, beq_iff_eq] at hfreezes
      cases hfreezes with
      | inl => omega
      | inr hinitial => exact hretry.2 hinitial
    unfold attemptInput
    rw [if_neg hfresh, if_pos rfl, if_pos rfl, if_pos rfl]
    rfl

def notRetry (state : NodeExecutionState) : Prop :=
  state.attemptCount = 0 ∨ state.nextAttemptTrigger = .initial

lemma freezesInput_iff {state : NodeExecutionState} :
    state.freezesInput = true ↔ notRetry state := by
  unfold freezesInput notRetry
  rw [Bool.or_eq_true, beq_iff_eq, beq_iff_eq]

lemma notRetry_of_same {s s' : NodeExecutionState} (h : SameInputFields s s') :
    notRetry s' ↔ notRetry s := by
  unfold notRetry
  rw [h.count, h.trigger]

lemma seesReexecution_of_begin (node : WorkflowNode) (r : Nat) (call : Call) (w : World) :
    SeesReexecution E t node r call w ↔ notRetry (w.objects node.id r)
      ∨ NothingChanged E (w.objects node.id r) w node.id := by
  have hinput := nextAttempt_input (E := E) (t := t) node r call w
  unfold SeesReexecution NothingChanged
  rw [← freezesInput_iff]
  cases hfreezes : (w.objects node.id r).freezesInput with
  | true =>
    rw [hfreezes, if_pos rfl] at hinput
    constructor
    · intro _
      exact .inl rfl
    intro _
    exact ⟨congrArg Prod.fst hinput, congrArg Prod.snd hinput⟩
  | false =>
    rw [hfreezes, if_neg (by simp)] at hinput
    have hsnapshot := congrArg Prod.fst hinput
    have hsummary := congrArg Prod.snd hinput
    simp only at hsnapshot hsummary
    rw [hsnapshot, hsummary]
    constructor
    · intro h
      exact .inr h
    intro h
    cases h with
    | inl hfalse => cases hfalse
    | inr h => exact h

end

/-! ## A retried validator -/

/-- `check` validates what `make` has made. -/
def validated : WorkflowDef where
  nodes := [{ id := "make" }, { id := "check" }]
  edges := [{ source := "__start__", target := "make" }, { source := "make", target := "check" },
    { source := "check", target := "__end__" }]

/-- The result of `make`. -/
def made (version : String) : NodeResult := { outputs := [("version", .str version)] }

/-- `make` completes, `check` fails. -/
def checkFails : List (Move engineSig) :=
  [proceed .main] ++ save .main ++ [finish .main (made "1")] ++ save .main ++ save .main
    ++ [finish .main { status := .failed }] ++ save .main ++ [proceed .main]

/-- The retried `check` rejects `make`, which makes a second version. -/
def checkRejects : List (Move engineSig) :=
  [proceed .main] ++ save .main ++ [.event .main (.reject "too short" ""), finish .main {}]
    ++ save .main ++ save .main ++ [finish .main (made "2")] ++ save .main

def versionIn (pool : Pool) : Option String :=
  (pool.get? "version").bind (fun | .str version => some version | _ => none)

def versionsSeen (nodeId : String) (w : World) : List (Option String) :=
  w.log.filterMap (fun
    | .began _ node _ input => if node = nodeId then some (versionIn input) else none
    | _ => none)

end DeterminFlow.Engine
