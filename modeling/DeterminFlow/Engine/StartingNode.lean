/-
  Engine.StartingNode
  **STARTING A TASK AT A NODE.**

  `run_task` with `from_node_id`: the states of that node and of everything
  after it in the serial order are made anew, and `_skip_to_node` looks up
  the step of the plan to begin with.  A run that begins with a `node` step
  executes the node before anything else (`started_node_executes`).  A
  `branch` step is understood only from the gateway in front of it: a run
  that begins with one passes over it and goes on after the converge gateway
  (`startInBranch_skips`).
-/
import DeterminFlow.Engine.StoppedForGood
import DeterminFlow.Workflow.SerialOrder

namespace DeterminFlow.Engine

open Library Coop Workflow DeterminFlow.Runtime List World WorkflowDef

/-! ## `run_task` with `from_node_id` -/

def madeAnew (nodeId : String) (state : Option NodeExecutionState) : NodeExecutionState where
  nodeId := nodeId
  tokenUsage := state.bind (·.tokenUsage)
  tokenUsageCalls := (state.map (·.tokenUsageCalls)).getD []
  rejectionHistory := (state.map (·.rejectionHistory)).getD []
  iterationHistory := (state.map (·.iterationHistory)).getD []

def remake (states : Dict String NodeExecutionState) (nodeId : String) :
    Dict String NodeExecutionState :=
  states.set nodeId (madeAnew nodeId (states.get? nodeId))

/-- The node states of a partial run; a node outside the order changes none
(`ValueError`), and neither does anything when there are none yet. -/
def remakeFrom (order : List String) (fromNodeId : String)
    (states : Dict String NodeExecutionState) : Dict String NodeExecutionState :=
  if states.isEmpty then states else (order.dropWhile (· ≠ fromNodeId)).foldl remake states

/-- What a partial run forgets: the frozen choices, the loop cursors, and the
states from its node on. -/
def forgetFrom (E : Env) (fromNodeId : Option String) (data : TaskData) : TaskData :=
  match fromNodeId.filter (· ≠ "") with
  | none => data
  | some nodeId =>
    { data with
      conditions := [], loops := []
      nodeStates := remakeFrom (E.definition.serialExecutionOrder E.candidate) nodeId
        data.nodeStates }

/-- The task `run_task` saves and hands to the runner. -/
def handedOver (E : Env) (fromNodeId : Option String) (now : Timestamp) (data : TaskData) :
    TaskData :=
  { forgetFrom E fromNodeId data with
    status := .running, startedAt := some now, completedAt := none, currentNodeId := none
    updatedAt := now }

/-- **`run_task`**, once it has admitted the task: the runner is about to
start, with whatever sessions there are. -/
def runTask (E : Env) (fromNodeId : Option String) (now : Timestamp) (sessions : Sessions)
    (data : TaskData) : Config engineSig Unit :=
  Machine.initial { World.load (handedOver E fromNodeId now data) with
    clock := now, sessions := sessions } (runTaskCoroutine E fromNodeId)

def Unstarted (n : String) (w : World) : Prop :=
  ∀ status, w.statusOf n = some status → status = .pending

/-- `n` has been executed: an attempt of it has ended. -/
def HasRun (n : String) (w : World) : Prop := ∃ t status, LogEntry.ended t n status ∈ w.log

lemma remake_pending (n : String) (order : List String) :
    ∀ states : Dict String NodeExecutionState,
      (n ∈ order ∨ (states.get? n).map (·.status) = some .pending) →
        ((order.foldl remake states).get? n).map (·.status) = some .pending := by
  induction order with
  | nil =>
    rintro states (hmem | hpending)
    · simp at hmem
    exact hpending
  | cons m rest ih =>
    intro states h
    refine ih (remake states m) ?_
    by_cases hm : m = n
    · right
      subst hm
      simp [remake, madeAnew]
    rcases h with hmem | hpending
    · exact .inl ((mem_cons.1 hmem).resolve_left (Ne.symm hm))
    right
    rwa [remake, Dict.get?_set_ne _ _ hm]

variable {n : String} {E : Env} {w' w : World}

lemma mem_dropWhile_ne {order : List String} (hmem : n ∈ order) :
    n ∈ order.dropWhile (· ≠ n) := by
  induction order with
  | nil => simp at hmem
  | cons m rest ih =>
    by_cases hm : m = n
    · simp [hm]
    simp only [dropWhile_cons, ne_eq, hm, not_false_eq_true, decide_true, if_true]
    exact ih ((mem_cons.1 hmem).resolve_left (Ne.symm hm))

lemma unstarted_handedOver (hne : n ≠ "")
    (hmem : n ∈ E.definition.serialExecutionOrder E.candidate) (now : Timestamp) (data : TaskData) :
    Unstarted n (World.load (handedOver E (some n) now data)) := by
  have hfilter : (some n).filter (fun id => decide (id ≠ "")) = some n := by simp [hne]
  intro status hstatus
  have hstate : ((remakeFrom (E.definition.serialExecutionOrder E.candidate) n
      data.nodeStates).get? n).map (·.status) = some status := by
    rw [← hstatus]
    unfold World.statusOf stateOf World.current? World.load handedOver forgetFrom
    rw [hfilter]
    simp only [Task.mapStates, Dict.get?_mapValues, Option.map_map]
    cases (remakeFrom (E.definition.serialExecutionOrder E.candidate) n data.nodeStates).get? n
      <;> rfl
  unfold remakeFrom at hstate
  split at hstate
  · rename_i hempty
    simp [isEmpty_iff.1 hempty] at hstate
  rw [remake_pending n _ data.nodeStates (.inl (mem_dropWhile_ne hmem))] at hstate
  exact (Option.some.inj hstate).symm

/-! ## What a run keeps -/

/-- Nothing is taken out of the history, and only the runner changes the
status of the task. -/
def historyLogic (E : Env) : Logic (engineMachine E) where
  inv _ := True
  guar t w w' := w.log ⊆ w'.log ∧ (t ≠ .main → w'.task.status = w.task.status)
  kidPre _ _ _ := True
  kidPost _ _ _ _ := True
  answerOk _ _ _ _ := True
  eventOk _ _ _ _ := True
  cancelOk _ := True

lemma taskStatus_of_core (h : core w = core w') : w.task.status = w'.task.status :=
  show (core w).task.status = (core w').task.status by rw [h]

lemma historyLogic_saveLaws (E : Env) : SaveLaws (historyLogic E) where
  guar_core _ w w' h := ⟨by rw [log_of_core h]; exact List.Subset.refl _,
    fun _ => (taskStatus_of_core h).symm⟩
  guar_note _ := ⟨List.Subset.refl _, fun h => absurd rfl h⟩
  inv_idle _ _ _ _ := trivial
  inv_snapshot _ _ _ _ := trivial
  inv_note _ _ := trivial

lemma taskStatus_upsert (w : World) (n : String) (f : NodeExecutionState → NodeExecutionState) :
    (w.upsert n f).task.status = w.task.status := by
  unfold World.upsert World.materialize
  split <;> rfl

lemma history_sequenceStep {t : Thread} (h : SequenceStep E t w w') :
    w.log ⊆ w'.log ∧ w'.task.status = w.task.status := by
  cases h with
  | skipDisabled n =>
    exact ⟨by rw [skipDisabled, log_upsert]; exact List.Subset.refl _,
      taskStatus_upsert w n _⟩
  | normalize =>
    unfold normalizeStatus
    split
    all_goals exact ⟨List.Subset.refl _, rfl⟩
  | enter n =>
    refine ⟨?_, ?_⟩
    · rw [enterNode, log_record, log_upsert]
      exact subset_cons_self _ _
    exact taskStatus_upsert { w with task := _ } n (fun s => { s with status := .running })
  | failUnknown => exact ⟨subset_cons_self _ _, rfl⟩
  | begin => exact ⟨subset_cons_self _ _, rfl⟩
  | finish =>
    unfold finishAttempt publishOutputs
    dsimp only
    split
    all_goals exact ⟨subset_cons_self _ _, rfl⟩
  | policy n r next =>
    cases next with
    | _ => exact ⟨List.Subset.refl _, rfl⟩
  | _ => exact ⟨List.Subset.refl _, rfl⟩

lemma history_pluginStep {a : Nat} {x : Attempt} {e : Ev} (h : PluginStep E a x e w w') :
    w.log ⊆ w'.log ∧ w'.task.status = w.task.status := by
  cases h with
  | land =>
    unfold World.land
    split
    all_goals exact ⟨List.Subset.refl _, rfl⟩
  | accepted =>
    exact ⟨subset_cons_self _ _, rfl⟩
  | _ => exact ⟨List.Subset.refl _, rfl⟩

lemma log_flowStep (h : FlowStep w w') : w.log ⊆ w'.log := by
  cases h with
  | evaluated => exact subset_cons_self _ _
  | chose => exact subset_cons_self _ _
  | skip =>
    rw [skipBranchNode, log_record, log_upsert]
    exact subset_cons_self _ _
  | ensure =>
    rw [log_ensureState]
    exact List.Subset.refl _
  | reset => exact subset_cons_self _ _
  | merged =>
    rw [writeMerged, log_upsert]
    exact List.Subset.refl _
  | disabled =>
    rw [markDisabled, log_upsert]
    exact List.Subset.refl _
  | finish outcome =>
    cases outcome with
    | none => exact List.Subset.refl _
    | some outcome => cases outcome <;> exact List.Subset.refl _
  | _ => exact List.Subset.refl _

lemma log_flowSteps (h : FlowSteps w w') : w.log ⊆ w'.log := by
  induction h with
  | refl => exact List.Subset.refl _
  | tail _ hstep ih => exact List.Subset.trans ih (log_flowStep hstep)

lemma HasRun.mono (hlog : w.log ⊆ w'.log) (h : HasRun n w) : HasRun n w' := by
  obtain ⟨t, status, hmem⟩ := h
  exact ⟨t, status, hlog hmem⟩

section
variable (E : Env)

lemma stands_always (t : Thread) (Γ : Ctx engineSig) :
    Stands (historyLogic E) t Γ (fun _ => True) :=
  ⟨fun _ _ _ _ => trivial, fun _ _ _ _ _ _ _ _ => trivial⟩

lemma stands_hasRun (n : String) (t : Thread) (Γ : Ctx engineSig) :
    Stands (historyLogic E) t Γ (HasRun n) where
  steady w w' hcore := HasRun.mono (by rw [log_of_core hcore]; exact List.Subset.refl _)
  stable _ _ _ _ _ _ hguar := HasRun.mono hguar.1

def anySequence (t : Thread) (Γ : Ctx engineSig) (disabled ids : List String) :
    SequenceSpec (historyLogic E) t Γ disabled ids :=
  uniformSpec (X := fun _ _ => True) (stands_always E t Γ) (fun _ => stands_always E t Γ)
    (fun _ _ _ _ => trivial) (fun _ _ _ => trivial) (fun _ _ _ _ => trivial)
    (fun _ _ hstep _ => by
      obtain ⟨hlog, hstatus⟩ := history_sequenceStep hstep
      exact ⟨⟨hlog, fun _ => hstatus⟩, trivial, trivial⟩)
    (fun _ _ _ _ _ hstep _ _ => by
      obtain ⟨hlog, hstatus⟩ := history_pluginStep hstep
      exact ⟨⟨hlog, fun _ => hstatus⟩, trivial, trivial⟩)

/-- A node sequence after `n` has run. -/
def laterSequence (n : String) (t : Thread) (Γ : Ctx engineSig) (disabled ids : List String) :
    SequenceSpec (historyLogic E) t Γ disabled ids :=
  (anySequence E t Γ disabled ids).frame (historyLogic_saveLaws E) (stands_hasRun E n t Γ)
    (fun _ _ hguar => HasRun.mono hguar.1)

/-- The control flow after `n` has run. -/
def laterFlow (n : String) : FlowSpec (historyLogic E) where
  calm _ := HasRun n
  joining _ _ := HasRun n
  cancelled _ := HasRun n
  calm_stands Γ := stands_hasRun E n .main Γ
  cancelled_stands Γ := stands_hasRun E n .main Γ
  joining_stable Γ _ := (stands_hasRun E n .main Γ).stable
  guar_trans _ _ _ h h' := ⟨List.Subset.trans h.1 h'.1, fun hne => absurd rfl hne⟩
  flow _ _ _ hstep _ hw :=
    ⟨⟨log_flowStep hstep, fun hne => absurd rfl hne⟩, trivial, hw.mono (log_flowStep hstep)⟩
  cancel _ _ _ hw _ := hw.elim id id
  failLate _ _ _ hw _ := hw
  swallow _ _ _ hw _ _ := hw
  spawn _ _ _ _ _ hw := ⟨hw, fun _ _ => trivial⟩
  deliver _ _ _ _ _ _ _ hw _ _ := hw
  deliverCancelled _ _ _ _ _ _ hw _ _ := hw
  cancelJoin _ _ _ _ hw _ := ⟨hw, hw⟩
  joined _ _ hw := hw
  sequence Γ disabled ids := laterSequence E n .main Γ disabled ids
  sequence_head _ _ _ _ _ hw := ⟨trivial, hw⟩
  sequence_done _ _ _ _ _ _ hw := hw.2
  sequence_cancelled _ _ _ _ _ hw := hw.2
  sequence_raised _ _ _ _ _ _ hw := hw.2

lemma historyLogic_laws : (historyLogic E).Laws where
  guar_refl _ _ := ⟨List.Subset.refl _, fun _ => rfl⟩
  guar_trans _ _ _ _ h h' := ⟨List.Subset.trans h.1 h'.1, fun hne => (h'.2 hne).trans (h.2 hne)⟩
  kidPre_stable _ _ _ _ _ _ _ _ _ _ := trivial
  kidPost_stable _ _ _ _ _ _ _ _ _ _ _ := trivial
  kid_wp i a w hinv _ := by
    refine (historyLogic E).wp_mono _ ?_ _ _
      ((anySequence E (.kid i) (Ctx.empty engineSig) a.disabled a.nodes).wp_executeNodeSequence
        (historyLogic_saveLaws E) rfl hinv trivial)
    intro _ _ _ h
    exact ⟨h.2.1, trivial⟩

/-! ## The first node -/

lemma hasRun_finishAttempt (t : Thread) (n : String) (live : Nat)
    (previous : NodeExecutionState) (result : NodeResult) (w : World) :
    HasRun n (finishAttempt t n live previous result w) :=
  ⟨t, result.status.normalize, mem_cons_self ..⟩

lemma hasRun_failUnknown (t : Thread) (node : WorkflowNode) (r : Nat) (w : World) :
    HasRun node.id (failUnknownType t node r w) :=
  ⟨t, .failed, mem_cons_self ..⟩

def endedSequence (t : Thread) (Γ : Ctx engineSig) (disabled ids : List String) :
    SequenceSpec (historyLogic E) t Γ disabled ids :=
  { anySequence E t Γ disabled ids with
    executed := fun place _ w => HasRun place.target.id w
    failUnknown := fun place w hw hreg =>
      ⟨((anySequence E t Γ disabled ids).failUnknown place w hw hreg).1,
        hasRun_failUnknown t place.target place.object w⟩
    finishAttempt := fun place a live previous w r result hinv hw hacc hok hres =>
      ⟨((anySequence E t Γ disabled ids).finishAttempt place a live previous w r result hinv hw
          hacc hok hres).1,
        hasRun_finishAttempt t place.target.id live previous result w⟩
    installOwn := fun i node r e calls w _ =>
      (anySequence E t Γ disabled ids).installOwn i node r e calls w ⟨trivial, trivial⟩
    installUpstream := fun i node r upstream retryObject e calls w _ =>
      (anySequence E t Γ disabled ids).installUpstream i node r upstream retryObject e calls w
        ⟨trivial, trivial⟩ }

variable {E}

/-- What a program owes that returns only after `n` has run. -/
def ranPost {α : Type} (n : String) (Γ : Ctx engineSig) : Logic.Post engineSig α :=
  Logic.carried (fun Γ' w => Γ' = Γ ∧ HasRun n w) (fun _ Γ' _ => Γ' = Γ)

variable {Γ : Ctx engineSig} {w : World} {disabled : List String} {n : String}
  {fromNodeId : Option String}

lemma wp_visitNode_ran {t : Thread} {ids : List String} (disabled : List String)
    (hΓ : Γ.fresh = []) {i : Nat} {node : WorkflowNode} {r : Nat} :
    (historyLogic E).wp t (visitNode E t ids i node r) (ranPost node.id Γ) Γ w := by
  have hL := historyLogic_saveLaws E
  unfold visitNode
  refine (historyLogic E).wp_get (hL.guar_refl t w) ?_
  have hready : (endedSequence E t Γ disabled ids).ready (.own i node r) w := ⟨trivial, trivial⟩
  refine (historyLogic E).wp_seq ((historyLogic E).wp_mono _ ?_ _ _
    ((endedSequence E t Γ disabled ids).wp_executeNode hL hΓ (sequenceCall ids i node r w) hready
      rfl rfl (fun _ _ _ h => by cases h; rfl)))
  rintro Γ' r₁ w₁ ⟨rfl, hpost⟩
  cases r₁ with
  | error => exact rfl
  | ok e =>
    -- from here on the history keeps the end of the attempt
    have hran : HasRun node.id w₁ := hpost
    obtain ⟨hguar, hheld⟩ := (laterSequence E node.id t Γ' disabled ids).installOwn i node r e
      (callIds (w.objects node.id r).tokenUsageCalls) w₁ ⟨⟨trivial, trivial⟩, hran⟩
    refine (historyLogic E).wp_modify hguar ((historyLogic E).wp_mono _ ?_ _ _
      ((laterSequence E node.id t Γ' disabled ids).wp_afterAttempt hL hΓ hheld))
    rintro Γ'' r₂ w₂ ⟨rfl, _, hpost₂⟩
    match r₂, hpost₂ with
    | .ok (.inl _), hpost₂ => exact ⟨rfl, hpost₂.2⟩
    | .ok (.inr _), hpost₂ => exact ⟨rfl, hpost₂.2⟩
    | .error _, _ => exact rfl

lemma wp_sequenceTurn_unstarted (hΓ : Γ.fresh = []) {node : WorkflowNode}
    (hnode : E.node? node.id = some node) (hdis : node.id ∉ disabled) (hw : Unstarted node.id w) :
    (historyLogic E).wp .main (sequenceTurn E .main disabled [node.id] 0)
      (ranPost node.id Γ) Γ w := by
  have henter : (historyLogic E).wp .main (do
      Prog.modify (enterNode .main node.id)
      visitNode E .main [node.id] 0 node (w.currentOrNext node.id)) (ranPost node.id Γ) Γ w := by
    obtain ⟨hlog, hstatus⟩ := history_sequenceStep (E := E) (.enter (t := .main) w node.id)
    exact (historyLogic E).wp_modify ⟨hlog, fun _ => hstatus⟩ (wp_visitNode_ran disabled hΓ)
  unfold sequenceTurn
  simp only [getElem?_cons_zero, hnode]
  rw [if_neg hdis]
  refine (historyLogic E).wp_get ((historyLogic_saveLaws E).guar_refl .main w) ?_
  cases hstatus : w.statusOf node.id with
  | none => exact henter
  | some status =>
    obtain rfl := hw status hstatus
    exact henter

lemma wp_sequence_unstarted (hΓ : Γ.fresh = []) {node : WorkflowNode}
    (hnode : E.node? node.id = some node) (hdis : node.id ∉ disabled) (hw : Unstarted node.id w) :
    (historyLogic E).wp .main (executeNodeSequence E .main disabled [node.id])
      (ranPost node.id Γ) Γ w := by
  refine (historyLogic E).wp_repeatUntil
    (fun i Γ' w => Γ' = Γ ∧ ((i = 0 ∧ Unstarted node.id w) ∨ HasRun node.id w))
    ⟨rfl, .inl ⟨rfl, hw⟩⟩ ?_
  rintro i Γ' w ⟨rfl, hcase⟩
  have hturn : (historyLogic E).wp .main (sequenceTurn E .main disabled [node.id] i)
      (ranPost node.id Γ') Γ' w := by
    rcases hcase with ⟨rfl, hfresh⟩ | hran
    · exact wp_sequenceTurn_unstarted hΓ hnode hdis hfresh
    -- every later turn keeps the history
    refine (historyLogic E).wp_mono _ ?_ _ _ ((laterSequence E node.id .main Γ' disabled
      [node.id]).wp_sequenceTurn (historyLogic_saveLaws E) hΓ trivial ⟨trivial, hran⟩)
    rintro Γ'' r w₁ ⟨rfl, _, hr⟩
    match r, hr with
    | .ok (.inl _), hr => exact ⟨rfl, hr.2⟩
    | .ok (.inr _), hr => exact ⟨rfl, hr.2⟩
    | .error _, _ => exact rfl
  refine (historyLogic E).wp_mono _ ?_ _ _ hturn
  intro Γ'' r w₁ hr
  match r, hr with
  | .ok (.inl _), hr => exact ⟨hr.1, .inr hr.2⟩
  | .ok (.inr _), hr => exact hr
  | .error _, hr => exact hr

/-! ## A run that begins with a `node` step -/

lemma wp_segment_unstarted (hΓ : Γ.fresh = []) {plan : List PlanStep} {start : Nat}
    {node : WorkflowNode} (hstep : plan[start]? = some (.node node.id))
    (hnode : E.node? node.id = some node) (hdis : node.id ∉ disabled) (depth : Nat)
    (stop : Option String) (hw : Unstarted node.id w) :
    (historyLogic E).wp .main (executePlanSegment E disabled depth plan stop start)
      (fun Γ' r w => Γ'.fresh = [] ∧ ∀ outcome, r = .ok outcome → HasRun node.id w) Γ w := by
  have hL := historyLogic_saveLaws E
  cases depth with
  | zero => exact ⟨hΓ, nofun⟩
  | succ depth =>
    refine (historyLogic E).wp_repeatUntil (fun index Γ' w => Γ'.fresh = [] ∧
      ((index = start ∧ Unstarted node.id w) ∨ HasRun node.id w))
      ⟨hΓ, .inl ⟨rfl, hw⟩⟩ ?_
    rintro index Γ' w ⟨hΓ', hcase⟩
    have hturn : (historyLogic E).wp .main (planTurn E disabled
        (fun p s => executePlanSegment E disabled depth p s 0) plan stop index)
        (Logic.carried (fun Γ w => Γ.fresh = [] ∧ HasRun node.id w) (fun _ Γ _ => Γ.fresh = []))
        Γ' w := by
      rcases hcase with ⟨rfl, hfresh⟩ | hran
      · -- the first step of the run is the node itself
        unfold planTurn
        simp only [hstep]
        rw [if_neg (by simp [hnode, hdis])]
        refine (historyLogic E).wp_seq ((historyLogic E).wp_mono _ ?_ _ _
          (wp_sequence_unstarted hΓ' hnode hdis hfresh))
        intro Γ'' r w₁ hr
        cases r with
        | error =>
          obtain rfl : Γ'' = Γ' := hr
          exact hΓ'
        | ok =>
          obtain ⟨rfl, hran⟩ := hr
          dsimp only
          split
          all_goals exact ⟨hΓ', hran⟩
      -- every later step of the plan keeps the history
      refine (historyLogic E).wp_mono _ ?_ _ _ ((laterFlow E node.id).flows_planTurn hL
        (fun plan stop => (laterFlow E node.id).flows_executePlanSegment hL disabled depth
          plan stop 0) disabled plan stop index Γ' w ⟨hΓ', trivial, hran⟩)
      intro Γ'' r w₁ hr
      cases r with
      | ok => exact ⟨hr.1, hr.2.2⟩
      | error => exact hr.1
    refine (historyLogic E).wp_mono _ ?_ _ _ hturn
    intro Γ'' r w₁ hr
    match r, hr with
    | .ok (.inl _), hr => exact ⟨hr.1, .inr hr.2⟩
    | .ok (.inr _), hr => exact ⟨hr.1, fun _ _ => hr.2⟩
    | .error _, hr => exact ⟨hr, nofun⟩

/-- A task that is not `completed` without having executed `n`. -/
def Honest (n : String) (w : World) : Prop :=
  HasRun n w ∨ w.task.status = .failed ∨ w.task.status = .retryWaiting

def honestPost (n : String) : Logic.Post engineSig Unit := fun Γ r w =>
  Γ.fresh = [] ∧ ∀ u, r = .ok u → Honest n w

lemma honest_of_core : Steady (Honest n) := by
  rintro w w' hcore (hran | hstatus)
  · exact .inl (hran.mono (by rw [log_of_core hcore]; exact List.Subset.refl _))
  rw [taskStatus_of_core hcore] at hstatus
  exact .inr hstatus

lemma Honest.mono {w' : World} (hlog : w.log ⊆ w'.log) (hstatus : w'.task.status = w.task.status)
    (h : Honest n w) : Honest n w' := by
  rcases h with hran | hend
  · exact .inl (hran.mono hlog)
  right
  rwa [hstatus]

lemma stands_honest (n : String) (Γ : Ctx engineSig) :
    Stands (historyLogic E) .main Γ (Honest n) where
  steady := honest_of_core
  stable _ _ _ hrival _ _ hguar := Honest.mono hguar.1 (hguar.2 hrival.ne)

lemma stands_alone (hΓ : Γ.waiting = []) {P : World → Prop} (hP : Steady P) :
    Stands (historyLogic E) .main Γ P where
  steady := hP
  stable := by
    rintro t' w w' ⟨i, a, rfl, hmem⟩
    rw [hΓ] at hmem
    simp at hmem

lemma unstarted_of_core : Steady (Unstarted n) := by
  intro _ _ hcore hw status hstatus
  exact hw status (by rw [statusOf_of_core hcore, hstatus])

lemma enabled_of_core : Steady (fun w => n ∉ w.task.disabledNodeIds) := by
  intro w w' hcore _
  rwa [← show (core w).task.disabledNodeIds = w'.task.disabledNodeIds by rw [hcore]; rfl]

lemma unstarted_markAllDisabled (hsets : E.EnumeratesSets) (hdis : n ∉ disabled)
    (hw : Unstarted n w) : Unstarted n (markAllDisabled E disabled w) := by
  have hmarks : ∀ (ids : List String) (w : World), n ∉ ids → Unstarted n w →
      Unstarted n (ids.foldl markDisabled w) := by
    intro ids
    induction ids with
    | nil => exact fun w _ hw => hw
    | cons m rest ih =>
      intro w hmem hw
      obtain ⟨hne, hrest⟩ := not_or.1 (fun h => hmem (mem_cons.2 h))
      refine ih _ hrest (fun status hstatus => hw status ?_)
      rwa [markDisabled, statusOf_upsert, if_neg (Ne.symm hne)] at hstatus
  exact hmarks _ w (fun hmem => hdis ((hsets disabled).mem_iff.1 hmem)) hw

lemma wp_executePlan_unstarted (hΓ : Γ.fresh = []) {node : WorkflowNode}
    (hstep : (taskPlan E)[planStart E fromNodeId]? = some (.node node.id))
    (hnode : E.node? node.id = some node) (hdis : node.id ∉ disabled) (hw : Unstarted node.id w) :
    (historyLogic E).wp .main (executePlan E disabled fromNodeId) (honestPost node.id) Γ w := by
  have hguar : ∀ outcome w, (historyLogic E).guar .main w (finishPlan outcome w) :=
    fun outcome w => ⟨log_flowStep (.finish w outcome), fun h => absurd rfl h⟩
  refine (historyLogic E).wp_tryCatch _ _ _ _ _ ((historyLogic E).wp_seq
    ((historyLogic E).wp_mono _ ?_ _ _
      (wp_segment_unstarted hΓ hstep hnode hdis E.recursionLimit none hw)))
  rintro Γ' r w₁ ⟨hΓ', hr⟩
  match r, hr with
  | .ok outcome, hr =>
    refine (historyLogic E).wp_modify_last (hguar (some outcome) w₁) ⟨hΓ', fun _ _ => .inl ?_⟩
    exact (hr outcome rfl).mono (log_flowStep (.finish w₁ (some outcome)))
  | .error .cancelled, _ => exact ⟨hΓ', nofun⟩
  | .error (.error m), _ =>
    exact (historyLogic E).wp_modify_last (hguar none w₁) ⟨hΓ', fun _ _ => .inr (.inl rfl)⟩

lemma wp_finalizeRun (hΓ : Γ.fresh = []) (hw : Honest n w) :
    (historyLogic E).wp .main finalizeRun (honestPost n) Γ w := by
  refine wp_plain (historyLogic_saveLaws E) .saveMain rfl hΓ (stands_honest n Γ) trivial hw ?_
  intro r _ hw' _ _ _
  match r with
  | .ok _ => exact ⟨hΓ, fun _ _ => hw'⟩
  | .error (.error _) => exact ⟨hΓ, fun _ _ => hw'⟩
  | .error .cancelled => exact ⟨hΓ, nofun⟩

/-- **`execute_task` that begins with an unstarted node** returns an honest task. -/
theorem wp_executeTask_unstarted (hsets : E.EnumeratesSets) (hΓ : Γ.fresh = [])
    (hwait : Γ.waiting = []) {node : WorkflowNode}
    (hstep : (taskPlan E)[planStart E fromNodeId]? = some (.node node.id))
    (hnode : E.node? node.id = some node) (hdis : node.id ∉ w.task.disabledNodeIds)
    (hw : Unstarted node.id w) :
    (historyLogic E).wp .main (executeTask E fromNodeId) (honestPost node.id) Γ w := by
  have hL := historyLogic_saveLaws E
  have hguar : ∀ {w w' : World}, w.log ⊆ w'.log → (historyLogic E).guar .main w w' :=
    fun hlog => ⟨hlog, fun h => absurd rfl h⟩
  -- the end of the task, from an honest world
  have hend : ∀ Γ' w, Γ'.fresh = [] → Honest node.id w →
      (historyLogic E).wp .main (Prog.modify stampCompletion >>= fun _ => finalizeRun)
        (honestPost node.id) Γ' w := by
    intro Γ' w hΓ' hhonest
    exact (historyLogic E).wp_modify (hguar (log_flowStep (.stamp w)))
      (wp_finalizeRun hΓ' (hhonest.mono (List.Subset.refl _) rfl))
  -- the plan, from an unstarted node
  have hplan : ∀ disabled w, node.id ∉ disabled → Unstarted node.id w →
      (historyLogic E).wp .main (executePlan E disabled fromNodeId >>= fun _ => do
        Prog.modify stampCompletion
        finalizeRun) (honestPost node.id) Γ w := by
    intro disabled w hdis hw
    refine (historyLogic E).wp_seq ((historyLogic E).wp_mono _ ?_ _ _
      (wp_executePlan_unstarted hΓ hstep hnode hdis hw))
    rintro Γ' r w₁ ⟨hΓ', hr⟩
    cases r with
    | ok u => exact hend Γ' w₁ hΓ' (hr u rfl)
    | error => exact ⟨hΓ', nofun⟩
  refine (historyLogic E).wp_modify (hguar (log_flowStep (.start w))) ?_
  refine (historyLogic E).wp_seq (wp_plain hL .openMain rfl hΓ
    (stands_alone hwait (P := fun w => Unstarted node.id w ∧ node.id ∉ w.task.disabledNodeIds)
      (fun w w' hcore h => ⟨unstarted_of_core w w' hcore h.1, enabled_of_core w w' hcore h.2⟩))
    trivial ⟨hw, hdis⟩ ?_)
  intro r w₁ ⟨hw₁, hdis₁⟩ _ _ _
  cases r with
  | error => exact ⟨hΓ, nofun⟩
  | ok =>
    have hdis₂ : node.id ∉ w₁.task.disabledNodeIds.dedup := fun h => hdis₁ (mem_dedup.1 h)
    have hmarked := unstarted_markAllDisabled hsets hdis₂ hw₁
    refine (historyLogic E).wp_get (hL.guar_refl .main w₁) ?_
    refine (historyLogic E).wp_modify
      (hguar (log_flowSteps (flowSteps_markAllDisabled E _ w₁))) ((historyLogic E).wp_seq ?_)
    unfold whenever
    split
    · exact wp_saveTaskState hL hΓ (C := fun _ => True) (F := fun _ _ => True)
        (stands_alone hwait unstarted_of_core) (stands_always E .main Γ)
        (fun _ _ _ _ _ => trivial) (fun _ _ _ _ => trivial) (fun _ _ _ _ => trivial) trivial
        hmarked (fun w _ hw => hplan _ w hdis₂ hw) (fun _ _ _ => ⟨hΓ, nofun⟩)
        (fun _ _ _ _ => ⟨hΓ, nofun⟩)
    exact hplan _ _ hdis₂ hmarked

/-- What the runner owes when it has ended: a run that was cancelled may also
leave the task `stopped`. -/
def startPost (n : String) (r : Except Exn Unit) (w : World) : Prop :=
  match r with
  | .ok _ => Honest n w
  | .error _ => Honest n w ∨ w.task.status = .stopped

lemma stands_status (status : TaskStatus) (Γ : Ctx engineSig) :
    Stands (historyLogic E) .main Γ (fun w => w.task.status = status) where
  steady _ _ hcore hw := (taskStatus_of_core hcore).symm.trans hw
  stable _ _ _ hrival _ _ hguar hw := (hguar.2 hrival.ne).trans hw

lemma wp_saveClosed (status : TaskStatus) {Q : Logic.Post engineSig Unit}
    {next : Unit → EngineProg Unit}
    (hnext : ∀ w, w.task.status = status → (historyLogic E).wp .main (next ()) Q Γ w)
    (hraise : ∀ e w, w.task.status = status → Q Γ (.error e) w) (hw : w.task.status = status) :
    (historyLogic E).wp .main (saveTask >>= next) Q Γ w := by
  refine (historyLogic E).wp_seq
    ((historyLogic E).wp_get ((historyLogic_saveLaws E).guar_refl .main w) ?_)
  split
  · exact (historyLogic E).wp_modify_last ⟨List.Subset.refl _, fun _ => rfl⟩ (hnext _ hw)
  exact hraise _ w hw

lemma wp_releaseClosed (hΓ : Γ.fresh = []) {status : TaskStatus} (hw : w.task.status = status) :
    (historyLogic E).wp .main releaseSessions
      (fun Γ' _ w => Γ'.fresh = [] ∧ w.task.status = status) Γ w := by
  refine wp_plain (historyLogic_saveLaws E) .releaseSessions rfl hΓ (stands_status status Γ)
    trivial hw ?_
  intro r _ hw' _ _ _
  match r with
  | .ok _ => exact ⟨hΓ, hw'⟩
  | .error (.error _) => exact ⟨hΓ, hw'⟩
  | .error .cancelled => exact ⟨hΓ, hw'⟩

lemma wp_runTaskCoroutine_unstarted (hsets : E.EnumeratesSets) {node : WorkflowNode}
    (hstep : (taskPlan E)[planStart E fromNodeId]? = some (.node node.id))
    (hnode : E.node? node.id = some node) (hdis : node.id ∉ w.task.disabledNodeIds)
    (hw : Unstarted node.id w) : (historyLogic E).wp .main (runTaskCoroutine E fromNodeId)
      (fun Γ r w => Γ.fresh = [] ∧ startPost node.id r w) (Ctx.empty engineSig) w := by
  have hL := historyLogic_saveLaws E
  have hguar : ∀ w status, (historyLogic E).guar .main w (closeTask status w) :=
    fun _ _ => ⟨List.Subset.refl _, fun h => absurd rfl h⟩
  have htry : (historyLogic E).wp .main (do
      let w ← Prog.get
      if w.task.mainTakeover ∧ w.task.mainSessionId.all (· ∉ w.sessions.registered) then
        Prog.raise (.error "Main 接管审批不可用：任务所属 Main Session 不在运行期")
      else executeTask E fromNodeId) (honestPost node.id) (Ctx.empty engineSig) w := by
    refine (historyLogic E).wp_get (hL.guar_refl .main w) ?_
    split
    · exact ⟨rfl, nofun⟩
    exact wp_executeTask_unstarted hsets rfl rfl hstep hnode hdis hw
  refine (historyLogic E).wp_seq ((historyLogic E).wp_attempt _ _ _ _
    ((historyLogic E).wp_mono _ ?_ _ _ htry))
  rintro Γ r w₁ ⟨hΓ, hr⟩
  match r, hr with
  | .ok u, hr =>
    -- `execute_task` has returned; a save that fails changes nothing
    have hhonest : Honest node.id w₁ := hr u rfl
    refine (historyLogic E).wp_tryCatch _ _ _ _ _
      ((historyLogic E).wp_get (hL.guar_refl .main w₁) ?_)
    split
    · exact (historyLogic E).wp_modify_last ⟨List.Subset.refl _, fun _ => rfl⟩
        ⟨hΓ, hhonest.mono (List.Subset.refl _) rfl⟩
    exact ⟨hΓ, hhonest⟩
  | .error .cancelled, _ =>
    -- it was cancelled: the task is `stopped`, whatever the rest does
    refine (historyLogic E).wp_modify (hguar w₁ .stopped)
      (wp_saveClosed .stopped (fun w₂ hw₂ => ?_) (fun _ _ h => ⟨hΓ, .inr h⟩) rfl)
    refine (historyLogic E).wp_seq ((historyLogic E).wp_mono _ ?_ _ _ (wp_releaseClosed hΓ hw₂))
    rintro Γ' r w₃ ⟨hΓ', hw₃⟩
    cases r with
    | _ => exact ⟨hΓ', .inr hw₃⟩
  | .error (.error m), _ =>
    -- it has raised: the task is `failed`
    have hfailed : ∀ {w : World}, w.task.status = .failed → Honest node.id w :=
      fun h => .inr (.inl h)
    refine (historyLogic E).wp_modify (hguar w₁ .failed) (wp_saveClosed .failed
      (fun w₂ hw₂ => ?_) (fun _ _ h => ⟨hΓ, .inl (hfailed h)⟩) rfl)
    refine (historyLogic E).wp_mono _ ?_ _ _ (wp_releaseClosed hΓ hw₂)
    rintro Γ' r w₃ ⟨hΓ', hw₃⟩
    cases r with
    | ok => exact ⟨hΓ', hfailed hw₃⟩
    | error => exact ⟨hΓ', .inl (hfailed hw₃)⟩

end

lemma getElem?_skipToNode {plan : List PlanStep} {step : PlanStep}
    (hfirst : plan.find? (fun s => decide (n ∈ s.scheduled)) = some step) :
    plan[skipToNode plan n]? = some step := by
  induction plan with
  | nil => simp at hfirst
  | cons s rest ih =>
    unfold skipToNode
    rw [findIdx?_cons]
    rw [find?_cons] at hfirst
    by_cases hs : n ∈ s.scheduled
    · simp only [hs, decide_true] at hfirst ⊢
      simpa using hfirst
    simp only [hs, decide_false] at hfirst ⊢
    have hrest := ih hfirst
    unfold skipToNode at hrest
    obtain ⟨i, hi⟩ : ∃ i, rest.findIdx? (fun s => decide (n ∈ s.scheduled)) = some i := by
      rw [← Option.isSome_iff_exists, findIdx?_isSome, any_eq_true]
      exact ⟨step, mem_of_find?_eq_some hfirst, by
        simpa using find?_some hfirst⟩
    rw [hi] at hrest ⊢
    simpa using hrest

/-- **A run that begins with a `node` step executes the node.**  Of an accepted
definition, let `n` be an enabled executable node whose first step on the plan
is a `node` step.  Whatever the task has been through, when a run started at
`n` has ended, the task is `completed` only if `n` has been executed; and a
runner that returns leaves it executed, `failed` or `retry_waiting`. -/
theorem started_node_executes {d : WorkflowDef} (haccepted : d.Accepted) {E : Env}
    (hdef : E.definition = d.autoPairGateways) (hsets : E.EnumeratesSets) {n : String}
    (hn : n ∈ E.definition.executableIds) {data : TaskData} (henabled : n ∉ data.disabledNodeIds)
    (hfirst : (taskPlan E).find? (fun s => decide (n ∈ s.scheduled)) = some (.node n))
    (now : Timestamp) (sessions : Sessions)
    {permits : Config engineSig Unit → Move engineSig → Prop} {c : Config engineSig Unit}
    (hrun : (engineMachine E).Reachable permits (runTask E (some n) now sessions data) c)
    (hrest : c.running = none) {r : Except Exn Unit} (hended : c.main.result? = some r) :
    (c.state.task.status = .completed → HasRun n c.state)
      ∧ ∀ u, r = .ok u → HasRun n c.state ∨ c.state.task.status = .failed
          ∨ c.state.task.status = .retryWaiting := by
  -- the plan step, the node and its fresh state
  have hchecked : WorkflowDef.Checked E.definition := by
    rw [hdef] at hn ⊢
    exact haccepted.checked (executableNodes_ne_nil (d := d) hn)
  have he := hchecked.hasEdges
  have hs : E.definition.targetsOf "__start__" ≠ [] := hchecked.start_targets_ne_nil
  have hplanned : PlanStep.node n ∈ taskPlan E := mem_of_find?_eq_some hfirst
  have hne : n ≠ "" := by
    unfold taskPlan at hplanned
    rw [getExecutionPlan_eq_planLoop he hs] at hplanned
    exact ne_empty_of_mem_planLoop none _ _ _ _ hplanned
  obtain ⟨node, hnode⟩ := Option.isSome_iff_exists.1
    (getNode_isSome_iff _ |>.2 (E.definition.mem_executableIds.1 hn).1)
  obtain rfl : node.id = n := getNode_id _ hnode
  have hstep : (taskPlan E)[planStart E (some node.id)]? = some (.node node.id) := by
    unfold planStart
    simp only [Option.filter_some, ne_eq, hne, not_false_eq_true, decide_true, if_true]
    exact getElem?_skipToNode hfirst
  have hfresh : Unstarted node.id (World.load (handedOver E (some node.id) now data)) :=
    unstarted_handedOver hne (mem_serialExecutionOrder he hs hplanned) now data
  have hdis : node.id ∉ (World.load (handedOver E (some node.id) now data)).task.disabledNodeIds := by
    unfold handedOver forgetFrom
    split <;> exact henabled
  -- the run
  have hwp : (historyLogic E).wp .main (runTaskCoroutine E (some node.id))
      ((historyLogic E).mainQ (fun _ r w => startPost node.id r w)) (Ctx.empty engineSig)
      { World.load (handedOver E (some node.id) now data) with
        clock := now, sessions := sessions } := by
    refine (historyLogic E).wp_mono _ ?_ _ _
      (wp_runTaskCoroutine_unstarted hsets hstep hnode hdis hfresh)
    exact fun _ r w h => ⟨(historyLogic E).settled_of_fresh h.1 trivial, h.2⟩
  have hstable : (historyLogic E).PostStable (fun _ r w => startPost node.id r w) := by
    rintro _ r i a _ w w' _ _ ⟨hlog, hstatus⟩ hpost
    have hstatus' := hstatus (by simp)
    cases r with
    | ok => exact hpost.mono hlog hstatus'
    | error => exact hpost.imp (Honest.mono hlog hstatus') (fun h => hstatus'.trans h)
  have hpermits : ∀ c m, permits c m → (historyLogic E).permits c m := by
    intro c m _
    cases m with
    | answer => exact fun _ _ => trivial
    | event => exact fun _ _ => trivial
    | _ => trivial
  have hgood := (historyLogic E).sound (historyLogic_laws E) hstable trivial hwp
    (hrun.mono _ hpermits)
  obtain ⟨_, _, hpost, _⟩ := hgood.finished _ hrest hended
  refine ⟨fun hcompleted => ?_, fun u hok => ?_⟩
  · have hcases : Honest node.id c.state ∨ c.state.task.status = .stopped := by
      cases r with
      | ok => exact .inl hpost
      | error => exact hpost
    simpa [Honest, hcompleted] using hcases
  subst hok
  exact hpost

def straight : WorkflowDef where
  nodes := [{ id := "a" }, { id := "b" }]
  edges := [{ source := "__start__", target := "a" }, { source := "a", target := "b" },
    { source := "b", target := "__end__" }]

def oneNode : List (Move engineSig) :=
  [proceed .main] ++ save .main ++ [finish .main {}] ++ save .main ++ [proceed .main]

/-- Started at `b`, the task executes it and completes. -/
theorem straight_started_at_b : ∃ c, (engineMachine (plainEnv straight)).Reachable (fun _ _ => True)
        (runTask (plainEnv straight) (some "b") "" {} {}) c
      ∧ c.state.task.status = .completed ∧ HasRun "b" c.state := by
  have hreplay : ((engineMachine (plainEnv straight)).replay 100
      (runTask (plainEnv straight) (some "b") "" {} {}) oneNode).map
      (fun c => (returned c, c.state.task.status)) = some (true, .completed) := by decide +kernel
  obtain ⟨c, hc, hfacts⟩ := Option.map_eq_some_iff.1 hreplay
  simp only [Prod.mk.injEq] at hfacts
  obtain ⟨hreturned, hstatus⟩ := hfacts
  obtain ⟨hrest, hended⟩ := returned_iff.1 hreturned
  have hrun : (engineMachine (plainEnv straight)).Reachable (fun _ _ => True)
      (runTask (plainEnv straight) (some "b") "" {} {}) c :=
    Machine.reachable_of_replay _ (fun _ => trivial) (fun _ _ _ => trivial) hc
  have hsets : (plainEnv straight).EnumeratesSets := fun l => List.Perm.refl l
  obtain ⟨hexecuted, _⟩ := started_node_executes (d := straight) (by decide) (by decide) hsets
    (by decide) (by decide) (by decide) "" {} hrun hrest hended
  exact ⟨c, hrun, hstatus, hexecuted hstatus⟩

/-! ## A run that begins with a `branch` step -/

/-- **A run that begins with a `branch` step passes over it**: `a` is on the plan
of an accepted definition, in a parallel branch; the task is pending; started
at `a` it is `completed`, and nothing at all has been executed. -/
theorem startInBranch_skips :
    forked.Accepted ∧ (plainEnv forked).definition = forked.autoPairGateways
      ∧ "a" ∈ forked.executableIds ∧ "a" ∈ scheduledIds (taskPlan (plainEnv forked))
      ∧ ({} : TaskData).status = .pending ∧ "a" ∉ ({} : TaskData).disabledNodeIds
      ∧ ∃ c, (engineMachine (plainEnv forked)).Reachable (fun _ _ => True)
            (runTask (plainEnv forked) (some "a") "" {} {}) c
          ∧ returned c = true ∧ c.state.task.status = .completed ∧ ¬ HasRun "a" c.state := by
  have hreplay : ((engineMachine (plainEnv forked)).replay 100
      (runTask (plainEnv forked) (some "a") "" {} {}) [proceed .main, proceed .main]).map
      (fun c => (returned c, c.state.task.status, c.state.log.length))
      = some (true, .completed, 0) := by decide +kernel
  obtain ⟨c, hc, hfacts⟩ := Option.map_eq_some_iff.1 hreplay
  simp only [Prod.mk.injEq] at hfacts
  obtain ⟨hreturned, hstatus, hlog⟩ := hfacts
  refine ⟨by decide, by decide, by decide, by decide, rfl, by decide, c, ?_, hreturned, hstatus, ?_⟩
  · exact Machine.reachable_of_replay _ (fun _ => trivial) (fun _ _ _ => trivial) hc
  rintro ⟨_, status, hmem⟩
  rw [eq_nil_of_length_eq_zero hlog] at hmem
  simp at hmem

end DeterminFlow.Engine
