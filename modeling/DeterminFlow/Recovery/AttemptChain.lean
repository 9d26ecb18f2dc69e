/-
  Recovery.AttemptChain
  **THE LIFE OF A NODE UNDER THE FAILURE POLICY.**

  One node, and everything that may happen to its state: the operations of
  `workflow/failure_policy.py`, the two of interruption recovery, the reset
  of a loop, and between them whatever the engine and the plugins write to
  the other fields.
-/
import DeterminFlow.Recovery.NodeRecovery
import DeterminFlow.Engine.Environment

namespace DeterminFlow.Recovery

open Library Workflow DeterminFlow.Runtime Engine List Option NodeExecutionState
open Relation (ReflTransGen)

/-! ## Attempts and what they ran on -/

/-- An attempt as it ran: its number, why it was made, and what it was given. -/
structure AttemptRun where
  number : Nat
  trigger : Trigger
  input : Pool
  summary : String

/-- A node with the history of its attempts, newest first. -/
structure Life where
  state : NodeExecutionState
  runs : List AttemptRun := []
  /-- An attempt has begun since the node was created or last reset. -/
  begun : Bool := false

def plainInput (input : Pool) : Pool := input.filter (fun entry => entry.1 ≠ subprocessSnapshotKey)

def AttemptRun.startsChain (r : AttemptRun) : Bool := r.number == 1 || r.trigger == .initial

/-- Every retry ran on the input and the summary of the attempt it descends
from: the latest one before it that starts a chain. -/
def FrozenInputs : List AttemptRun → Prop
  | [] => True
  | r :: earlier =>
    FrozenInputs earlier ∧ (r.startsChain = true ∨
      ∃ first, earlier.find? AttemptRun.startsChain = some first
        ∧ plainInput r.input = plainInput first.input ∧ r.summary = first.summary)

/-! ## What may happen -/

/-- The engine and the plugins leave these fields alone; a sub-workflow node
adds its checkpoint to the input. -/
structure SameBookkeeping (s s' : NodeExecutionState) : Prop where
  count : s'.attemptCount = s.attemptCount
  automatic : s'.automaticRetryCount = s.automaticRetryCount
  history : s'.attemptHistory = s.attemptHistory
  trigger : s'.nextAttemptTrigger = s.nextAttemptTrigger
  input : plainInput s'.inputSnapshot = plainInput s.inputSnapshot
  summary : s'.upstreamSummarySnapshot = s.upstreamSummarySnapshot

def attemptRun (begun : NodeExecutionState) : AttemptRun where
  number := begun.attemptCount
  trigger := begun.nextAttemptTrigger
  input := begun.inputSnapshot
  summary := begun.upstreamSummarySnapshot

/-- An attempt begins; `input` and `summary` are the ones computed for it. -/
def Life.begin (l : Life) (now : Timestamp) (input : Pool) (summary : String) : Life where
  state := l.state.beginAttempt now input summary
  runs := attemptRun (l.state.beginAttempt now input summary) :: l.runs
  begun := true

/-- The operations, with what their callers check. -/
inductive PolicyStep (node : WorkflowNode) (l : Life) : Life → Prop where
  /-- `_execute_node`, and the sub-workflow node for its children. -/
  | begin (now : Timestamp) (input : Pool) (summary : String) :
      PolicyStep node l (l.begin now input summary)
  | record : PolicyStep node l { l with state := l.state.recordAttempt }
  /-- `_apply_failed_node_policy` and recovery. -/
  | autoRetry (due : Timestamp) (s : NodeExecutionState) :
      canAutoRetry node l.state = true → l.state.prepareRetry .autoRetry (some due) = some s →
      PolicyStep node l { l with state := s }
  /-- The sub-workflow node for a failed child: the trigger of its own attempt. -/
  | childRetry (trigger : Trigger) (s : NodeExecutionState) :
      trigger = .autoRetry ∨ trigger = .manualRetry →
      l.state.prepareRetry trigger none = some s → PolicyStep node l { l with state := s }
  /-- `retry_node`. -/
  | manualRetry (s : NodeExecutionState) :
      l.state.status = .failed ∨ l.state.status = .retryWaiting →
      (asFailed l.state).prepareRetry .manualRetry none = some s →
      PolicyStep node l { l with state := s }
  /-- The retry of a rejected upstream node, whatever its status. -/
  | validatorRetry (s : NodeExecutionState) :
      (asFailed l.state).prepareRetry .validatorRetry none = some s →
      PolicyStep node l { l with state := s }
  /-- A retry timer. -/
  | activate (s : NodeExecutionState) :
      l.state.activateScheduledRetry = some s → PolicyStep node l { l with state := s }
  /-- `apply_failure_skip`, by the policy or by `skip_node`. -/
  | skip (now : Timestamp) :
      l.state.status.normalize = .failed ∨ l.state.status = .retryWaiting →
      PolicyStep node l { l with state := l.state.failureSkipped now }
  /-- `_interrupted_state`. -/
  | interrupt (now : Timestamp) (message : String) :
      l.state.interrupted = true →
      PolicyStep node l { l with state := interruptedState l.state now message }
  /-- `_prepare_recovery_reissue` of an interrupted state. -/
  | reissue (keep : Bool) :
      l.state.status = .failed →
      PolicyStep node l { l with state := prepareRecoveryReissue l.state keep }
  /-- `_reset_node_for_loop_iteration`. -/
  | reset : PolicyStep node l { l with state := l.state.resetForIteration, begun := false }

/-- What the engine and the plugins write besides. -/
inductive EngineWrite (l : Life) : Life → Prop where
  | write (s : NodeExecutionState) : SameBookkeeping l.state s → EngineWrite l { l with state := s }

def LifeStep (node : WorkflowNode) (l l' : Life) : Prop := PolicyStep node l l' ∨ EngineWrite l l'

/-- A new state: no attempt, no retry. -/
structure Fresh (l : Life) : Prop where
  count : l.state.attemptCount = 0
  automatic : l.state.automaticRetryCount = 0
  history : l.state.attemptHistory = []
  trigger : l.state.nextAttemptTrigger = .initial
  runs : l.runs = []
  begun : l.begun = false

/-! ## What should hold -/

def retryBudget (node : WorkflowNode) : Nat :=
  match node.autoRetryCount with
  | .int configured => (min configured 20).toNat
  | _ => 0

def attemptNumbers (s : NodeExecutionState) : List Nat := s.attemptHistory.map (·.attemptNumber)

/-- **What holds of a node** at every time. -/
structure PolicyKept (node : WorkflowNode) (l : Life) : Prop where
  increasing : (attemptNumbers l.state).Pairwise (· < ·)
  bounded : ∀ n ∈ attemptNumbers l.state, n ≤ l.state.attemptCount
  budget : l.state.automaticRetryCount ≤ retryBudget node
  inputs : FrozenInputs l.runs

/-- **What a step keeps**: recorded attempts stay recorded, and an operation
of the policy leaves the ledger alone. -/
structure StepKept (node : WorkflowNode) (l l' : Life) : Prop where
  recorded : attemptNumbers l.state <+: attemptNumbers l'.state
  ledger : PolicyStep node l l' →
    l'.state.tokenUsage = l.state.tokenUsage ∧ l'.state.tokenUsageCalls = l.state.tokenUsageCalls

/-- The condition: whenever the next attempt is a retry, an attempt has begun
since the last reset (or none ever); and the automatic count rises only
within the budget of the node. -/
structure Regular (node : WorkflowNode) (l l' : Life) : Prop where
  begun : l'.state.nextAttemptTrigger ≠ .initial → l'.begun = true ∨ l'.state.attemptCount = 0
  budget : l.state.automaticRetryCount < l'.state.automaticRetryCount →
    canAutoRetry node l.state = true

/-! ## What a step does -/

def recordNumber (numbers : List Nat) (n : Nat) : List Nat :=
  if numbers.getLast? = some n then numbers else numbers ++ [n]

lemma attemptNumbers_recordAttempt (s : NodeExecutionState) :
    attemptNumbers s.recordAttempt = recordNumber (attemptNumbers s) s.attemptCount := by
  unfold attemptNumbers recordNumber recordAttempt
  simp only [getLast?_map]
  by_cases hlast : s.attemptHistory.getLast?.map (·.attemptNumber) = some s.attemptCount
  · rw [if_pos hlast, if_pos hlast]
    obtain ⟨last, hmem, hnumber⟩ := map_eq_some_iff.1 hlast
    conv_rhs => rw [← dropLast_append_getLast? last hmem]
    rw [map_append, map_append]
    show _ ++ [s.attemptCount] = _ ++ [last.attemptNumber]
    rw [hnumber]
  rw [if_neg hlast, if_neg hlast, map_append]
  rfl

/-- **All that a step can do** to attempts, budget and inputs. -/
structure Effect (l l' : Life) : Prop where
  count : l.state.attemptCount ≤ l'.state.attemptCount
  numbers : attemptNumbers l'.state = attemptNumbers l.state ∨
    attemptNumbers l'.state = recordNumber (attemptNumbers l.state) l'.state.attemptCount
  automatic : l'.state.automaticRetryCount ≤ l.state.automaticRetryCount + 1
  chain : (∃ now input summary, l' = l.begin now input summary) ∨
    (l'.runs = l.runs ∧ (l'.begun = true → l.begun = true
      ∧ plainInput l'.state.inputSnapshot = plainInput l.state.inputSnapshot
      ∧ l'.state.upstreamSummarySnapshot = l.state.upstreamSummarySnapshot))

def SameLedger (s s' : NodeExecutionState) : Prop :=
  s'.tokenUsage = s.tokenUsage ∧ s'.tokenUsageCalls = s.tokenUsageCalls

variable {due : Option Timestamp} {s' s : NodeExecutionState} {trigger : Trigger} {l l' : Life}

lemma prepareRetry_eq (h : s.prepareRetry trigger due = some s') :
    s' = s ∨ s' = s.preparedRetry trigger due := by
  unfold prepareRetry at h
  split at h
  · cases h
  split at h
  · cases h
    exact .inl rfl
  split at h
  · cases h
  cases h
  exact .inr rfl

lemma effect_retry (hs : s = l.state ∨ s = asFailed l.state)
    (h : s.prepareRetry trigger due = some s') : Effect l { l with state :=s' } ∧ SameLedger l.state s' := by
  have hrise : (s.preparedRetry trigger due).automaticRetryCount ≤ s.automaticRetryCount + 1 := by
    unfold preparedRetry
    simp only
    split
    all_goals omega
  rcases prepareRetry_eq h with rfl | rfl
  · rcases hs with rfl | rfl
    all_goals
      exact ⟨⟨le_rfl, .inl rfl, Nat.le_succ _,
        .inr ⟨rfl, fun hbegun => ⟨hbegun, rfl, rfl⟩⟩⟩, rfl, rfl⟩
  rcases hs with rfl | rfl
  all_goals
    exact ⟨⟨le_rfl, .inl rfl, hrise,
      .inr ⟨rfl, fun hbegun => ⟨hbegun, rfl, rfl⟩⟩⟩, rfl, rfl⟩

lemma effect_of_policyStep {node : WorkflowNode} (h : PolicyStep node l l') :
    Effect l l' ∧ SameLedger l.state l'.state := by
  have hquiet : ∀ s' : NodeExecutionState, s'.attemptCount = l.state.attemptCount →
      s'.attemptHistory = l.state.attemptHistory →
      s'.automaticRetryCount = l.state.automaticRetryCount →
      s'.inputSnapshot = l.state.inputSnapshot →
      s'.upstreamSummarySnapshot = l.state.upstreamSummarySnapshot →
      Effect l { l with state := s' } := by
    intro s' hcount hhistory _ hinput hsummary
    refine ⟨Nat.le_of_eq hcount.symm, .inl ?_, ?_, .inr ⟨rfl, ?_⟩⟩
    · unfold attemptNumbers
      rw [hhistory]
    · show s'.automaticRetryCount ≤ _
      omega
    intro hbegun
    exact ⟨hbegun, by rw [hinput], hsummary⟩
  cases h with
  | begin now input summary =>
    exact ⟨⟨Nat.le_succ _, .inl rfl, Nat.le_succ _, .inl ⟨now, input, summary, rfl⟩⟩, rfl, rfl⟩
  | record =>
    refine ⟨⟨le_rfl, .inr (attemptNumbers_recordAttempt _), Nat.le_succ _, ?_⟩, rfl, rfl⟩
    exact .inr ⟨rfl, fun hbegun => ⟨hbegun, rfl, rfl⟩⟩
  | autoRetry due s _ hprepared => exact effect_retry (.inl rfl) hprepared
  | childRetry trigger s _ hprepared => exact effect_retry (.inl rfl) hprepared
  | manualRetry s _ hprepared => exact effect_retry (.inr rfl) hprepared
  | validatorRetry s hprepared => exact effect_retry (.inr rfl) hprepared
  | activate s hactive =>
    unfold activateScheduledRetry at hactive
    split at hactive
    · cases hactive
      exact ⟨hquiet _ rfl rfl rfl rfl rfl, rfl, rfl⟩
    cases hactive
  | interrupt now message _ =>
    -- the interrupted attempt is recorded, and counts as one if none was counted
    refine ⟨⟨Nat.le_max_right _ _, .inr (attemptNumbers_recordAttempt _), Nat.le_succ _, ?_⟩,
      rfl, rfl⟩
    exact .inr ⟨rfl, fun hbegun => ⟨hbegun, rfl, rfl⟩⟩
  | reset =>
    refine ⟨⟨le_rfl, .inl rfl, Nat.zero_le _, .inr ⟨rfl, ?_⟩⟩, rfl, rfl⟩
    intro hbegun
    cases hbegun
  | _ => exact ⟨hquiet _ rfl rfl rfl rfl rfl, rfl, rfl⟩

lemma effect_of_step {node : WorkflowNode} (h : LifeStep node l l') : Effect l l' := by
  rcases h with hpolicy | hwrite
  · exact (effect_of_policyStep hpolicy).1
  cases hwrite with
  | write s hs =>
    refine ⟨Nat.le_of_eq hs.count.symm, .inl ?_, ?_, .inr ⟨rfl, ?_⟩⟩
    · unfold attemptNumbers
      rw [hs.history]
    · have hsame := hs.automatic
      show s.automaticRetryCount ≤ _
      omega
    intro hbegun
    exact ⟨hbegun, hs.input, hs.summary⟩

/-! ## Numbers and budget -/

def Numbered (numbers : List Nat) (count : Nat) : Prop :=
  numbers.Pairwise (· < ·) ∧ ∀ n ∈ numbers, n ≤ count

lemma Numbered.record {numbers : List Nat} {n : Nat} (h : Numbered numbers n) :
    Numbered (recordNumber numbers n) n ∧ numbers <+: recordNumber numbers n := by
  unfold recordNumber
  by_cases hlast : numbers.getLast? = some n
  · rw [if_pos hlast]
    exact ⟨h, prefix_refl _⟩
  rw [if_neg hlast]
  obtain ⟨hincreasing, hbounded⟩ := h
  have hbelow : ∀ m ∈ numbers, m < n := by
    intro m hm
    have hne : numbers ≠ [] := ne_nil_of_mem hm
    have hsplit := dropLast_append_getLast hne
    have hlastLe : numbers.getLast hne ≤ n := hbounded _ (getLast_mem hne)
    have hlastNe : numbers.getLast hne ≠ n := by
      intro heq
      apply hlast
      rw [getLast?_eq_some_getLast hne, heq]
    rw [← hsplit] at hm hincreasing
    rcases mem_append.1 hm with hin | hin
    · have hlt := (pairwise_append.1 hincreasing).2.2 m hin _ mem_cons_self
      omega
    have heq := mem_singleton.1 hin
    omega
  refine ⟨⟨?_, ?_⟩, prefix_append _ _⟩
  · rw [pairwise_append]
    refine ⟨hincreasing, pairwise_singleton _ _, ?_⟩
    intro m hm _ hk
    rw [mem_singleton.1 hk]
    exact hbelow m hm
  intro m hm
  rcases mem_append.1 hm with hin | hin
  · exact hbounded m hin
  exact Nat.le_of_eq (mem_singleton.1 hin)

lemma numbers_step (heffect : Effect l l')
    (h : Numbered (attemptNumbers l.state) l.state.attemptCount) :
    Numbered (attemptNumbers l'.state) l'.state.attemptCount
      ∧ attemptNumbers l.state <+: attemptNumbers l'.state := by
  have hmore : Numbered (attemptNumbers l.state) l'.state.attemptCount :=
    ⟨h.1, fun n hn => le_trans (h.2 n hn) heffect.count⟩
  rcases heffect.numbers with hsame | hrecord
  · rw [hsame]
    exact ⟨hmore, prefix_refl _⟩
  rw [hrecord]
  exact hmore.record

lemma lt_retryBudget {node : WorkflowNode} (h : canAutoRetry node s = true) :
    s.automaticRetryCount < retryBudget node := by
  unfold canAutoRetry at h
  simp only [Bool.and_eq_true, decide_eq_true_eq] at h
  have hleft := h.2
  unfold automaticRetriesRemaining at hleft
  unfold retryBudget
  cases hcount : node.autoRetryCount with
  | int configured =>
    rw [hcount] at hleft
    have hroom : 0 < (min configured 20 - (s.automaticRetryCount : Int)).toNat := hleft
    show s.automaticRetryCount < (min configured 20).toNat
    omega
  | _ =>
    rw [hcount] at hleft
    exact absurd hleft (lt_irrefl 0)

lemma budget_step {node : WorkflowNode} (heffect : Effect l l') (hregular : Regular node l l')
    (h : l.state.automaticRetryCount ≤ retryBudget node) :
    l'.state.automaticRetryCount ≤ retryBudget node := by
  by_cases hrise : l.state.automaticRetryCount < l'.state.automaticRetryCount
  · have hleft := lt_retryBudget (hregular.budget hrise)
    have hone := heffect.automatic
    omega
  omega

/-! ## Frozen inputs -/

/-- **The invariant of a chain**: past attempts ran on frozen inputs, the
state still holds the input of the current chain, and a retry is only ahead
when there is a chain to go on with. -/
structure ChainInv (l : Life) : Prop where
  frozen : FrozenInputs l.runs
  current : l.begun = true → ∃ first, l.runs.find? AttemptRun.startsChain = some first
    ∧ plainInput l.state.inputSnapshot = plainInput first.input
    ∧ l.state.upstreamSummarySnapshot = first.summary
  ahead : l.state.nextAttemptTrigger ≠ .initial → l.begun = true ∨ l.state.attemptCount = 0

lemma ChainInv.begin (h : ChainInv l) (now : Timestamp) (input : Pool) (summary : String) :
    ChainInv (l.begin now input summary) := by
  by_cases hfreeze : l.state.freezesInput = true
  · have hstarts : (attemptRun (l.state.beginAttempt now input summary)).startsChain = true := by
      unfold freezesInput at hfreeze
      simp only [Bool.or_eq_true, beq_iff_eq] at hfreeze
      unfold AttemptRun.startsChain
      simp only [Bool.or_eq_true, beq_iff_eq]
      rcases hfreeze with hzero | hinitial
      · left
        show l.state.attemptCount + 1 = 1
        omega
      right
      exact hinitial
    refine ⟨⟨h.frozen, .inl hstarts⟩, ?_, fun _ => .inl rfl⟩
    intro _
    refine ⟨_, find?_cons_of_pos hstarts, rfl, rfl⟩
  have hretry : l.state.attemptCount ≠ 0 ∧ l.state.nextAttemptTrigger ≠ .initial := by
    unfold freezesInput at hfreeze
    simpa using hfreeze
  have hbegun : l.begun = true := by
    rcases h.ahead hretry.2 with hbegun | hzero
    · exact hbegun
    exact absurd hzero hretry.1
  obtain ⟨first, hfirst, hinput, hsummary⟩ := h.current hbegun
  have hkept : (l.begin now input summary).state.inputSnapshot = l.state.inputSnapshot
      ∧ (l.begin now input summary).state.upstreamSummarySnapshot
        = l.state.upstreamSummarySnapshot := by
    unfold Life.begin beginAttempt
    simp only [hfreeze]
    exact ⟨rfl, rfl⟩
  have hcontinues :
      (attemptRun (l.state.beginAttempt now input summary)).startsChain = false := by
    unfold AttemptRun.startsChain
    simp only [Bool.or_eq_false_iff, beq_eq_false_iff_ne]
    refine ⟨?_, hretry.2⟩
    show l.state.attemptCount + 1 ≠ 1
    have hcount := hretry.1
    omega
  refine ⟨⟨h.frozen, .inr ⟨first, hfirst, ?_, ?_⟩⟩, ?_, fun _ => .inl rfl⟩
  · show plainInput (l.begin now input summary).state.inputSnapshot = _
    rw [hkept.1]
    exact hinput
  · show (l.begin now input summary).state.upstreamSummarySnapshot = _
    rw [hkept.2]
    exact hsummary
  intro _
  refine ⟨first, ?_, ?_, ?_⟩
  · show List.find? _ (_ :: l.runs) = _
    have hneg : ¬ (attemptRun (l.state.beginAttempt now input summary)).startsChain = true := by
      rw [hcontinues]
      simp
    rw [find?_cons_of_neg hneg]
    exact hfirst
  · rw [hkept.1]
    exact hinput
  rw [hkept.2]
  exact hsummary

lemma ChainInv.step {node : WorkflowNode} (h : ChainInv l) (heffect : Effect l l')
    (hregular : Regular node l l') : ChainInv l' := by
  rcases heffect.chain with ⟨now, input, summary, rfl⟩ | ⟨hruns, hkept⟩
  · exact h.begin now input summary
  refine ⟨by rw [hruns]; exact h.frozen, ?_, hregular.begun⟩
  intro hbegun
  obtain ⟨hbefore, hinput, hsummary⟩ := hkept hbegun
  obtain ⟨first, hfirst, hfirstInput, hfirstSummary⟩ := h.current hbefore
  rw [hruns, hinput, hsummary]
  exact ⟨first, hfirst, hfirstInput, hfirstSummary⟩

/-! ## Whole lives -/

def RegularStep (node : WorkflowNode) (l l' : Life) : Prop :=
  LifeStep node l l' ∧ Regular node l l'

/-- **The policy is kept** through every life whose steps are regular: in each
state reached, and by each further step. -/
theorem policy_kept (node : WorkflowNode) {start l : Life} (hfresh : Fresh start)
    (hrun : ReflTransGen (RegularStep node) start l) :
    PolicyKept node l ∧ ∀ l', RegularStep node l l' → StepKept node l l' := by
  have hinv : Numbered (attemptNumbers l.state) l.state.attemptCount
      ∧ l.state.automaticRetryCount ≤ retryBudget node ∧ ChainInv l := by
    induction hrun with
    | refl =>
      refine ⟨?_, ?_, ?_⟩
      · unfold attemptNumbers Numbered
        rw [hfresh.history]
        simp
      · rw [hfresh.automatic]
        exact Nat.zero_le _
      refine ⟨?_, ?_, ?_⟩
      · rw [hfresh.runs]
        trivial
      · intro hbegun
        rw [hfresh.begun] at hbegun
        cases hbegun
      intro htrigger
      exact absurd hfresh.trigger htrigger
    | tail _ hstep ih =>
      obtain ⟨hnumbered, hbudget, hchain⟩ := ih
      have heffect := effect_of_step hstep.1
      exact ⟨(numbers_step heffect hnumbered).1, budget_step heffect hstep.2 hbudget,
        hchain.step heffect hstep.2⟩
  obtain ⟨hnumbered, hbudget, hchain⟩ := hinv
  refine ⟨⟨hnumbered.1, hnumbered.2, hbudget, hchain.frozen⟩, ?_⟩
  intro l' hstep
  refine ⟨(numbers_step (effect_of_step hstep.1) hnumbered).2, ?_⟩
  intro hpolicy
  exact (effect_of_policyStep hpolicy).2

def newLife : Life where
  state := { nodeId := "u" }

lemma newLife_fresh : Fresh newLife := ⟨rfl, rfl, rfl, rfl, rfl, rfl⟩

def firstAttempt : Life := newLife.begin "t" [("topic", .str "a")] ""

/-- A life of one attempt. -/
theorem firstAttempt_kept : PolicyKept { id :="u" } firstAttempt
      ∧ ∀ l', RegularStep { id := "u" } firstAttempt l' → StepKept { id := "u" } firstAttempt l' := by
  have hregular : Regular { id := "u" } newLife firstAttempt := by
    refine ⟨fun _ => .inl rfl, ?_⟩
    intro hrise
    cases hrise
  exact policy_kept { id := "u" } newLife_fresh
    (.single ⟨.inl (.begin "t" [("topic", .str "a")] ""), hregular⟩)

/-- What the engine writes when an attempt ends with `status`. -/
def endedWith (status : NodeStatus) (l : Life) : Life :=
  { l with state := { l.state with status := status } }

lemma lifeStep_endedWith (node : WorkflowNode) (status : NodeStatus) (l : Life) :
    LifeStep node l (endedWith status l) :=
  .inr (.write _ ⟨rfl, rfl, rfl, rfl, rfl, rfl⟩)

/-- **The policy breaks** for a node without a retry budget that a sub-workflow
node retries with its own trigger, and for a node that a loop has reset and a
validator sends back before it has run again. -/
theorem policy_breaks : (∃ l, ReflTransGen (LifeStep { id :="u" }) newLife l
      ∧ ¬ l.state.automaticRetryCount ≤ retryBudget { id := "u" })
    ∧ ∃ l, ReflTransGen (LifeStep { id := "u" }) newLife l ∧ ¬ FrozenInputs l.runs := by
  have hbegin : LifeStep { id := "u" } newLife firstAttempt :=
    .inl (.begin "t" [("topic", .str "a")] "")
  refine ⟨?_, ?_⟩
  · have hretry : LifeStep { id := "u" } (endedWith .failed firstAttempt)
        { endedWith .failed firstAttempt with
          state := (endedWith .failed firstAttempt).state.preparedRetry .autoRetry none } :=
      .inl (.childRetry .autoRetry _ (.inl rfl) rfl)
    refine ⟨_, ((ReflTransGen.single hbegin).tail (lifeStep_endedWith _ .failed _)).tail hretry, ?_⟩
    decide
  let again : Life := { endedWith .completed firstAttempt with
    state := (endedWith .completed firstAttempt).state.resetForIteration, begun := false }
  let prepared : Life := { again with
    state := (asFailed again.state).preparedRetry .validatorRetry none }
  have hreset : LifeStep { id := "u" } (endedWith .completed firstAttempt) again := .inl .reset
  have hretry : LifeStep { id := "u" } again prepared := .inl (.validatorRetry _ rfl)
  have hsecond : LifeStep { id := "u" } prepared (prepared.begin "t" [("topic", .str "b")] "") :=
    .inl (.begin "t" [("topic", .str "b")] "")
  refine ⟨_, ((((ReflTransGen.single hbegin).tail (lifeStep_endedWith _ .completed _)).tail
    hreset).tail hretry).tail hsecond, ?_⟩
  intro hfrozen
  rcases hfrozen.2 with hstarts | ⟨first, hfirst, hinput, _⟩
  · cases hstarts
  have hfound : first = attemptRun firstAttempt.state := by
    have hfind : [attemptRun firstAttempt.state].find? AttemptRun.startsChain = some first :=
      hfirst
    rw [find?_cons_of_pos (by decide)] at hfind
    exact (some.inj hfind).symm
  rw [hfound] at hinput
  have hlength := congrArg List.length hinput
  cases hlength

end DeterminFlow.Recovery
