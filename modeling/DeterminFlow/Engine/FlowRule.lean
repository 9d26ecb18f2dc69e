/-
  Engine.FlowRule
  **THE PROOF RULE FOR THE CONTROL FLOW.**

  Plan segments, gateways and loops run in the main task.  Between two
  suspensions they only make a few kinds of updates (`FlowStep`); the rest
  is node sequences, saves, and the branches of parallel gateways.  A
  `FlowSpec` names an assertion that holds whenever the control flow is
  between two of these (`calm`) and one for the time branches are waited
  for (`joining`); `wp_executeTask` carries the first from the start of
  `execute_task` to its end.
-/
import DeterminFlow.Engine.SequenceRule

namespace DeterminFlow.Engine

open Library Coop Workflow DeterminFlow.Runtime Logic

/-! ## Updates of the control flow -/

/-- One update of the control flow. -/
inductive FlowStep : World → World → Prop
  | cursor (w : World) (gatewayId : String) (f : LoopCursor → LoopCursor) :
      FlowStep w (modifyCursor gatewayId f w)
  | condition (w : World) (gatewayId : String) (f : ConditionState → ConditionState) :
      FlowStep w (modifyCondition gatewayId f w)
  | evaluated (w : World) (gatewayId target : String) (truth : Bool) :
      FlowStep w (w.record (.evaluated gatewayId target truth))
  | chose (w : World) (gatewayId target : String) :
      FlowStep w (w.record (.chose gatewayId target))
  | skip (w : World) (nodeId : String) : FlowStep w (skipBranchNode w nodeId)
  | ensure (w : World) (nodeId : String) : FlowStep w (w.ensureState nodeId)
  | reset (w : World) (nodeId : String) (r : Nat) : FlowStep w (resetObject nodeId r w)
  | detach (w : World) (sessionId : String) :
      FlowStep w { w with sessions := w.sessions.detach sessionId }
  | snapshot (w : World) (nodeId : String) (r iteration : Nat) :
      FlowStep w (w.modifyObject nodeId r (·.snapshotForIteration iteration))
  | merged (w : World) (convergeId : String) (parts : List String) :
      FlowStep w (writeMerged convergeId parts w)
  | bind (w : World) (values : Pool) : FlowStep w (bindIteration values w)
  | start (w : World) : FlowStep w (startTask w)
  | disabled (w : World) (nodeId : String) : FlowStep w (markDisabled w nodeId)
  | finish (w : World) (outcome : Option Outcome) : FlowStep w (finishPlan outcome w)
  | stamp (w : World) : FlowStep w (stampCompletion w)

abbrev FlowSteps : World → World → Prop := Relation.ReflTransGen FlowStep

lemma FlowSteps.foldl {β : Type} {f : World → β → World} (hf : ∀ w b, FlowSteps w (f w b))
    (l : List β) (w : World) : FlowSteps w (l.foldl f w) := by
  induction l generalizing w with
  | nil => exact .refl
  | cons b rest ih => exact (hf w b).trans (ih (f w b))

lemma flowSteps_snapshotBody (body : List String) (iteration : Nat) (w : World) :
    FlowSteps w (snapshotBody body iteration w) := by
  refine FlowSteps.foldl (fun w nodeId => ?_) body w
  split
  · exact .single (.snapshot w nodeId _ iteration)
  exact .refl

lemma flowSteps_closeIteration (gatewayId : String) (body : List String) (index : Nat)
    (w : World) : FlowSteps w (closeIteration gatewayId body index w) :=
  (flowSteps_snapshotBody body index w).tail (.cursor _ gatewayId _)

lemma flowSteps_freezeChoice (E : Env) (gatewayId : String) (branches : List BranchInfo)
    (selected convergence : String) (w : World) :
    FlowSteps w (freezeChoice E gatewayId branches selected convergence w) := by
  have hchoose : FlowSteps w ((modifyCondition gatewayId (fun _ =>
      { selectedTarget := selected, convergenceNodeId := convergence, status := .running })
      w).record (.chose gatewayId selected)) :=
    .tail (.single (.condition w gatewayId _)) (.chose _ gatewayId selected)
  exact hchoose.trans (FlowSteps.foldl (fun w nodeId => .single (.skip w nodeId)) _ _)

lemma flowSteps_continues (E : Env) (gatewayId : String) (branch : BranchInfo) (w : World) :
    FlowSteps w (continues E gatewayId branch w).1 := by
  unfold continues
  split
  · exact .refl
  split
  · exact .refl
  exact .single (.evaluated w gatewayId branch.target _)

lemma flowSteps_markAllDisabled (E : Env) (disabled : List String) (w : World) :
    FlowSteps w (markAllDisabled E disabled w) :=
  FlowSteps.foldl (fun w nodeId => .single (.disabled w nodeId)) _ w

/-! ## Specifications -/

section
variable {E : Env} (L : Logic (engineMachine E))

/-- **A specification of the control flow.** -/
structure FlowSpec where
  /-- Between two steps of the control flow. -/
  calm : Ctx engineSig → World → Prop
  /-- While the results of so many branches are to come. -/
  joining : Ctx engineSig → Nat → World → Prop
  /-- When a cancellation is raised. -/
  cancelled : Ctx engineSig → World → Prop
  calm_stands : ∀ Γ, Stands L .main Γ (calm Γ)
  cancelled_stands : ∀ Γ, Stands L .main Γ (cancelled Γ)
  joining_stable : ∀ Γ left, L.Stable .main Γ (joining Γ left)
  guar_trans : ∀ w w' w'', L.guar .main w w' → L.guar .main w' w'' → L.guar .main w w''
  flow : ∀ Γ w w', FlowStep w w' → L.inv w → calm Γ w →
    L.guar .main w w' ∧ L.inv w' ∧ calm Γ w'
  cancel : ∀ Γ op w, calm Γ w ∨ cancelled Γ w → L.answerOk .main op (.error .cancelled) w →
    cancelled Γ (noteCancelled w)
  failLate : ∀ Γ m w, cancelled Γ w → L.answerOk .main .write (.error (.error m)) w → calm Γ w
  /-- The task of an old session was cancelled, and so was the runner. -/
  swallow : ∀ Γ sessionId w, calm Γ w →
    L.answerOk .main (.subTask sessionId) (.error .cancelled) w →
    sessionId ∈ w.sessions.cancelled → calm Γ (noteCancelled w)
  -- parallel branches
  spawn : ∀ Γ w (args : List Branch), Γ.fresh = [] → L.inv w → calm Γ w →
    joining (Γ.spawn args) args.length w ∧
      ∀ x ∈ numbered (S := engineSig) Γ.next args, L.kidPre x.1 x.2 w
  deliver : ∀ Γ left i (a : Branch) out w, L.inv w → joining Γ (left + 1) w →
    (i, a) ∈ Γ.waiting → L.kidPost i a out w → joining (Γ.deliver i) left w
  deliverCancelled : ∀ Γ left i (a : Branch) w, L.inv w → joining Γ (left + 1) w →
    (i, a) ∈ Γ.waiting → L.kidPost i a (.error .cancelled) w → cancelled (Γ.deliver i) w
  cancelJoin : ∀ Γ left w, L.inv w → joining Γ (left + 1) w → L.cancelOk w →
    joining Γ.settle left (noteCancelled w) ∧ cancelled Γ.settle (noteCancelled w)
  joined : ∀ Γ w, joining Γ 0 w → calm Γ w
  -- node sequences
  sequence : ∀ Γ disabled ids, SequenceSpec L .main Γ disabled ids
  sequence_head : ∀ Γ disabled ids w, L.inv w → calm Γ w →
    (sequence Γ disabled ids).spot (.head 0) w
  sequence_done : ∀ Γ disabled ids outcome w, L.inv w →
    (sequence Γ disabled ids).spot (.done outcome) w → calm Γ w
  sequence_cancelled : ∀ Γ disabled ids w, L.inv w →
    (sequence Γ disabled ids).raised .cancelled w → cancelled Γ w
  sequence_raised : ∀ Γ disabled ids m w, L.inv w →
    (sequence Γ disabled ids).raised (.error m) w → calm Γ w

variable {L}

namespace FlowSpec

variable (spec : FlowSpec L)

def Calm (Γ : Ctx engineSig) (w : World) : Prop := Γ.fresh = [] ∧ L.inv w ∧ spec.calm Γ w

def Raised (e : Exn) (Γ : Ctx engineSig) (w : World) : Prop :=
  Γ.fresh = [] ∧ L.inv w ∧
    match e with
    | .cancelled => spec.cancelled Γ w
    | .error _ => spec.calm Γ w

abbrev Flows {α : Type} (p : EngineProg α) : Prop :=
  L.Carries .main spec.Calm spec.Raised p

variable (hL : SaveLaws L)
include hL

/-! ## Steps, saves and sequences -/

lemma flow_steps {Γ : Ctx engineSig} {w w' : World} (hsteps : FlowSteps w w')
    (hw : spec.Calm Γ w) : L.guar .main w w' ∧ spec.Calm Γ w' := by
  induction hsteps with
  | refl => exact ⟨hL.guar_refl _ _, hw⟩
  | tail _ hstep ih =>
    obtain ⟨hguar, hfresh, hinv, hcalm⟩ := ih
    obtain ⟨hguar', hinv', hcalm'⟩ := spec.flow Γ _ _ hstep hinv hcalm
    exact ⟨spec.guar_trans _ _ _ hguar hguar', hfresh, hinv', hcalm'⟩

lemma flows_modify {u : World → World} (hu : ∀ w, FlowSteps w (u w)) :
    spec.Flows (Prog.modify u) :=
  Carries.modify (fun _ w hw => spec.flow_steps hL (hu w) hw)

lemma flows_step {u : World → World} (hu : ∀ w, FlowStep w (u w)) : spec.Flows (Prog.modify u) :=
  spec.flows_modify hL (fun w => .single (hu w))

lemma flows_get : spec.Flows (Prog.get (S := engineSig)) :=
  Carries.get (hL.guar_refl .main)

omit hL in
lemma flows_throw {α : Type} (m : String) : spec.Flows (Prog.raise (.error m) : EngineProg α) :=
  Carries.raise (fun _ _ hw => hw)

omit hL in
lemma flows_whenever {c : Bool} {p : EngineProg Unit} (hp : spec.Flows p) :
    spec.Flows (whenever c p) := by
  unfold whenever
  split
  · exact hp
  exact Carries.pure

lemma flows_call {α : Type} {op : Op} {next : Except Exn Resp → EngineProg α}
    (hop : op.plain = true) (hok : ∀ r, spec.Flows (next (.ok r)))
    (hfail : ∀ m, spec.Flows (next (.error (.error m))))
    (hcancel : ∀ Γ w, Γ.fresh = [] → L.inv w → spec.calm Γ w →
      L.answerOk .main op (.error .cancelled) w →
      L.wp .main (next (.error .cancelled)) (Logic.carried spec.Calm spec.Raised) Γ
        (noteCancelled w)) : spec.Flows (.call op next) := by
  intro Γ w ⟨hfresh, hinv, hcalm⟩
  refine wp_plain hL _ hop hfresh (spec.calm_stands Γ) hinv hcalm ?_
  intro r w' hw' hinv' _ hanswer
  cases r with
  | ok r => exact hok r Γ w' ⟨hfresh, hinv', hw'⟩
  | error e =>
    cases e with
    | error m => exact hfail m Γ w' ⟨hfresh, hinv', hw'⟩
    | cancelled => exact hcancel Γ w' hfresh hinv' hw' hanswer

lemma flows_wait {op : Op} (hop : op.plain = true) : spec.Flows (Prog.wait op : EngineProg _) := by
  refine spec.flows_call hL hop (fun _ => Carries.pure) (fun m => spec.flows_throw m) ?_
  intro Γ w hfresh hinv hcalm hanswer
  exact ⟨hfresh, hL.inv_cancelNote .main w hinv, spec.cancel Γ op w (.inl hcalm) hanswer⟩

lemma flows_saveTaskState : spec.Flows saveTaskState := by
  intro Γ w ⟨hfresh, hinv, hcalm⟩
  exact wp_saveTaskState hL hfresh (spec.calm_stands Γ) (spec.cancelled_stands Γ)
    (F := fun _ => spec.calm Γ) (fun _ => (spec.calm_stands Γ).steady)
    (fun op w => spec.cancel Γ op w)
    (fun m w hw hanswer => hw.elim id (fun hc => spec.failLate Γ m w hc hanswer))
    hinv hcalm (fun w hi hc => ⟨hfresh, hi, hc⟩) (fun w hi hc => ⟨hfresh, hi, hc⟩)
    (fun m w hi hc => ⟨hfresh, hi, hc⟩)

variable (disabled : List String) (branches : List (List String))
  (convergeId sessionId gatewayId : String) (loop : LoopInfo) (body : List String)
  (place : BodyPlace) (fromNodeId : Option String)

lemma flows_executeNodeSequence (ids : List String) :
    spec.Flows (executeNodeSequence E .main disabled ids) := by
  intro Γ w ⟨hfresh, hinv, hcalm⟩
  refine L.wp_mono _ ?_ _ _ ((spec.sequence Γ disabled ids).wp_executeNodeSequence hL hfresh hinv
    (spec.sequence_head Γ disabled ids w hinv hcalm))
  rintro Γ' r w ⟨rfl, hi, hr⟩
  match r, hr with
  | .ok _, hr => exact ⟨hfresh, hi, spec.sequence_done _ _ _ _ w hi hr⟩
  | .error .cancelled, hr => exact ⟨hfresh, hi, spec.sequence_cancelled _ _ _ w hi hr⟩
  | .error (.error _), hr => exact ⟨hfresh, hi, spec.sequence_raised _ _ _ _ w hi hr⟩

/-! ## Parallel branches -/

lemma wp_collectOutcomes (first count : Nat) (left : Nat) :
    ∀ (outcomes : List Outcome) (Γ : Ctx engineSig) (w : World), L.Settled Γ w →
      spec.joining Γ left w → (left = 0 → Γ.fresh = []) →
      L.wp .main (collectOutcomes first count left outcomes)
        (Logic.carried spec.Calm spec.Raised) Γ w := by
  induction left with
  | zero =>
    intro outcomes Γ w hset hjoin hfresh
    exact ⟨hfresh rfl, hset.1, spec.joined Γ w hjoin⟩
  | succ left ih =>
    intro outcomes Γ w hset hjoin _
    refine ⟨rfl, hset, spec.joining Γ (left + 1), spec.joining_stable Γ _, hjoin, ?_, ?_⟩
    · intro i a out w' hmem _ _ hjoin' hinv' hkid
      exact ih _ (Γ.deliver i) w' ⟨hinv', by simp [Ctx.deliver]⟩
        (spec.deliver Γ left i a out w' hinv' hjoin' hmem hkid) (fun _ => rfl)
    intro w' hjoin' hinv' hcancel
    refine ⟨hL.guar_note w', ih _ Γ.settle _ ⟨hL.inv_note w' hinv', by simp [Ctx.settle]⟩ ?_
      (fun _ => rfl)⟩
    exact (spec.cancelJoin Γ left w' hinv' hjoin' hcancel).1

lemma wp_collectBodyOutcomes (first count : Nat) (left : Nat) :
    ∀ (outcomes : List Outcome) (Γ : Ctx engineSig) (w : World), L.Settled Γ w →
      spec.joining Γ left w → (left = 0 → Γ.fresh = []) →
      L.wp .main (collectBodyOutcomes first count left outcomes)
        (Logic.carried spec.Calm spec.Raised) Γ w := by
  induction left with
  | zero =>
    intro outcomes Γ w hset hjoin hfresh
    exact ⟨hfresh rfl, hset.1, spec.joined Γ w hjoin⟩
  | succ left ih =>
    intro outcomes Γ w hset hjoin _
    refine ⟨rfl, hset, spec.joining Γ (left + 1), spec.joining_stable Γ _, hjoin, ?_, ?_⟩
    · intro i a out w' hmem _ _ hjoin' hinv' hkid
      have hgo : ∀ outcomes, L.wp .main (collectBodyOutcomes first count left outcomes)
          (Logic.carried spec.Calm spec.Raised) (Γ.deliver i) w' := fun outcomes =>
        ih outcomes (Γ.deliver i) w' ⟨hinv', by simp [Ctx.deliver]⟩
          (spec.deliver Γ left i a out w' hinv' hjoin' hmem hkid) (fun _ => rfl)
      cases out with
      | ok => exact hgo _
      | error e =>
        cases e with
        | error => exact hgo _
        | cancelled =>
          exact ⟨rfl, hinv', spec.deliverCancelled Γ left i a w' hinv' hjoin' hmem hkid⟩
    intro w' hjoin' hinv' hcancel
    exact ⟨hL.guar_note w', rfl, hL.inv_note w' hinv',
      (spec.cancelJoin Γ left w' hinv' hjoin' hcancel).2⟩

omit hL in
lemma flows_spawn {α β : Type} {args : List Branch} {count : Nat}
    {collect : Nat → EngineProg β} {next : β → EngineProg α} (hcount : args.length = count)
    (hcollect : ∀ first Γ w, L.Settled Γ w → spec.joining Γ count w → (count = 0 → Γ.fresh = []) →
      L.wp .main (collect first) (Logic.carried spec.Calm spec.Raised) Γ w)
    (hnext : ∀ b, spec.Flows (next b)) :
    spec.Flows (Prog.spawn args fun first => collect first >>= next) := by
  intro Γ w ⟨hfresh, hinv, hcalm⟩
  obtain ⟨hjoin, hkids⟩ := spec.spawn Γ w args hfresh hinv hcalm
  rw [hcount] at hjoin
  refine ⟨rfl, L.wp_seq (L.wp_mono _ ?_ _ _ (hcollect Γ.next (Γ.spawn args) w ⟨hinv, ?_⟩ hjoin ?_))⟩
  · intro Γ' r w' hr
    cases r with
    | ok b => exact hnext b Γ' w' hr
    | error => exact hr
  · intro x hx
    simp only [Ctx.spawn, hfresh, List.nil_append] at hx
    exact hkids x hx
  intro hzero
  obtain rfl : args = [] := List.eq_nil_of_length_eq_zero (hcount.trans hzero)
  exact (congrArg Ctx.fresh (Ctx.spawn_nil Γ)).trans hfresh

lemma flows_mergeBranchSummaries : spec.Flows (mergeBranchSummaries branches convergeId) := by
  refine Carries.bind (spec.flows_get hL) (fun w => ?_)
  dsimp only
  split
  · exact Carries.pure
  exact Carries.bind (spec.flows_step hL (fun w => .merged w convergeId _))
    (fun _ => spec.flows_saveTaskState hL)

lemma flows_executeParallelBranches : spec.Flows (executeParallelBranches disabled branches convergeId) := by
  refine spec.flows_spawn (List.length_map _)
    (fun first => spec.wp_collectOutcomes hL first _ _ []) (fun _ => ?_)
  · split
    · exact Carries.bind (spec.flows_mergeBranchSummaries hL branches convergeId)
        (fun _ => Carries.pure)
    exact Carries.pure

/-! ## Loops -/

lemma flows_awaitSubTask : spec.Flows (awaitSubTask sessionId) := by
  refine spec.flows_call hL rfl (fun _ => Carries.pure) (fun _ => Carries.pure) ?_
  intro Γ w hfresh hinv hcalm hanswer
  refine L.wp_get (hL.guar_refl _ _) ?_
  split
  · rename_i hmem
    exact ⟨hfresh, hL.inv_note w hinv, spec.swallow Γ sessionId w hcalm hanswer hmem⟩
  exact ⟨hfresh, hL.inv_note w hinv, spec.cancel Γ _ w (.inl hcalm) hanswer⟩

lemma flows_cleanupLoopSession : spec.Flows (cleanupLoopSession sessionId) := by
  refine Carries.bind (spec.flows_get hL) (fun w => ?_)
  refine Carries.bind (spec.flows_whenever (spec.flows_awaitSubTask hL sessionId)) ?_
  intro _
  refine Carries.bind (spec.flows_get hL) (fun w => ?_)
  refine Carries.bind (spec.flows_whenever ?_) (fun _ => ?_)
  · exact Carries.bind (spec.flows_wait hL rfl) (fun _ => Carries.pure)
  exact spec.flows_step hL (fun w => .detach w sessionId)

lemma flows_resetNode (nodeId : String) : spec.Flows (resetNode E nodeId) := by
  refine Carries.atomic
    (fun _ w hw => spec.flow_steps hL (.single (.ensure w nodeId)) hw) (fun w => ?_)
  exact Carries.bind (spec.flows_whenever (spec.flows_cleanupLoopSession hL _))
    (fun _ => spec.flows_step hL (fun w => .reset w nodeId _))

lemma flows_executeExit (exitTarget : Option String) :
    spec.Flows (executeExit E disabled exitTarget) := by
  unfold executeExit
  split
  · exact Carries.pure
  split
  · exact Carries.pure
  exact spec.flows_executeNodeSequence hL disabled _

lemma flows_cursorSave {α : Type} (gatewayId : String) (f : LoopCursor → LoopCursor)
    {next : EngineProg α} (hnext : spec.Flows next) :
    spec.Flows (Prog.modify (modifyCursor gatewayId f) >>= fun _ =>
      saveTaskState >>= fun _ => next) :=
  Carries.bind (spec.flows_step hL (fun w => .cursor w gatewayId f)) (fun _ =>
    Carries.bind (spec.flows_saveTaskState hL) (fun _ => hnext))

lemma flows_conditionIteration (iteration : Nat) : spec.Flows (conditionIteration E disabled gatewayId loop iteration) := by
  refine Carries.bind (spec.flows_get hL) (fun w => ?_)
  split
  · exact Carries.pure
  refine Carries.bind (spec.flows_whenever
    (Carries.forEach (spec.flows_resetNode hL) _)) (fun _ => ?_)
  refine spec.flows_cursorSave hL gatewayId _ ?_
  refine Carries.bind (spec.flows_executeNodeSequence hL disabled _) (fun _ => ?_)
  split
  · exact spec.flows_cursorSave hL gatewayId _ Carries.pure
  refine Carries.bind (spec.flows_modify hL
    (flowSteps_snapshotBody loop.bodyNodes iteration)) (fun _ => ?_)
  refine Carries.bind (Carries.atomic (fun _ w hw => spec.flow_steps hL
    (flowSteps_continues E gatewayId loop.continueBranch w) hw)
    (fun _ => Carries.pure)) (fun _ => ?_)
  split
  · exact spec.flows_cursorSave hL gatewayId _ Carries.pure
  exact Carries.bind (spec.flows_step hL (fun w => .cursor w gatewayId _))
    (fun _ => Carries.pure)

lemma flows_executeLoop : spec.Flows (executeLoop E disabled gatewayId loop) := by
  refine Carries.bind (spec.flows_step hL (fun w => .cursor w gatewayId id)) (fun _ => ?_)
  split
  · exact Carries.pure
  refine Carries.bind (spec.flows_get hL) (fun w => ?_)
  refine Carries.bind (Carries.repeatUntil
    (spec.flows_conditionIteration hL disabled gatewayId loop)) (fun _ => ?_)
  split
  · exact Carries.pure
  exact spec.flows_cursorSave hL gatewayId _ (spec.flows_executeExit hL disabled _)

/-! ## Loop bodies and loop gateways -/

lemma flows_bodyParallel (gateway : WorkflowGateway) : spec.Flows (bodyParallel E disabled body place gateway) := by
  refine spec.flows_spawn (List.length_map _)
    (fun first => spec.wp_collectBodyOutcomes hL first _ _ []) (fun _ => ?_)
  split
  · dsimp only
    split
    all_goals exact Carries.pure
  exact Carries.pure

lemma flows_bodyNode (executed : List String) (nodeId : String) :
    spec.Flows (bodyNode E disabled body executed nodeId) := by
  refine Carries.bind (spec.flows_executeNodeSequence hL disabled [nodeId]) (fun _ => ?_)
  split
  all_goals exact Carries.pure

lemma flows_bodyCondition (gatewayId : String) : spec.Flows (bodyCondition E disabled body place gatewayId) := by
  refine Carries.bind (spec.flows_get hL) (fun w => ?_)
  split
  · exact Carries.pure
  rename_i target _
  refine Carries.bind (spec.flows_step hL (fun w => .chose w gatewayId target))
    (fun _ => ?_)
  dsimp only
  split
  · exact spec.flows_bodyNode hL disabled body _ target
  exact Carries.pure

lemma flows_bodyStep : spec.Flows (bodyStep E disabled body place) := by
  have hplain : ∀ current executed, spec.Flows
      (if (E.node? current).isSome then bodyNode E disabled body executed current
       else pure (.inl (.goOn executed (bodyNext E body current)))) := by
    intro current executed
    split
    · exact spec.flows_bodyNode hL disabled body _ current
    exact Carries.pure
  unfold bodyStep
  split
  · exact Carries.pure
  rename_i current _
  split
  · exact Carries.pure
  dsimp only
  split
  · exact Carries.pure
  split
  · exact hplain current _
  split
  · exact spec.flows_bodyParallel hL disabled body place _
  · exact spec.flows_bodyCondition hL disabled body place current
  exact hplain current _

lemma flows_executeLoopBody : spec.Flows (executeLoopBody E disabled body) := by
  unfold executeLoopBody
  split
  · exact Carries.pure
  exact Carries.repeatUntil (spec.flows_bodyStep hL disabled body)

lemma flows_loopIteration (expression : LoopExpression) (items : List LoopItem) (index : Nat) :
    spec.Flows (loopIteration E disabled gatewayId body expression items index) := by
  unfold loopIteration
  split
  · exact Carries.pure
  split
  · exact spec.flows_throw _
  refine Carries.bind (spec.flows_step hL (fun w => .bind w _)) (fun _ => ?_)
  refine Carries.bind (spec.flows_get hL) (fun w => ?_)
  refine Carries.bind (spec.flows_whenever
    (Carries.forEach (spec.flows_resetNode hL) _)) (fun _ => ?_)
  refine Carries.bind (spec.flows_step hL (fun w => .cursor w gatewayId _)) (fun _ => ?_)
  refine Carries.bind (spec.flows_saveTaskState hL) (fun _ => ?_)
  refine Carries.bind (spec.flows_executeLoopBody hL disabled body) (fun _ => ?_)
  split
  · exact spec.flows_cursorSave hL gatewayId _ Carries.pure
  refine Carries.bind (spec.flows_modify hL
    (flowSteps_closeIteration gatewayId body index)) (fun _ => ?_)
  exact Carries.bind (spec.flows_saveTaskState hL) (fun _ => Carries.pure)

lemma flows_iterateLoop (exitTarget : Option String) (expression : LoopExpression)
    (items : List LoopItem) :
    spec.Flows (iterateLoop E disabled gatewayId body exitTarget expression items) := by
  refine Carries.bind (spec.flows_get hL) (fun _ => ?_)
  dsimp only
  split
  · exact spec.flows_executeExit hL disabled exitTarget
  refine Carries.bind (Carries.repeatUntil
    (spec.flows_loopIteration hL disabled gatewayId body expression items)) (fun _ => ?_)
  split
  · exact Carries.pure
  exact spec.flows_cursorSave hL gatewayId _ (spec.flows_executeExit hL disabled exitTarget)

lemma flows_executeLoopGateway (continueTarget exitTarget : Option String) :
    spec.Flows (executeLoopGateway E disabled gatewayId body continueTarget exitTarget) := by
  unfold executeLoopGateway
  split
  · exact Carries.pure
  split
  · exact Carries.pure
  refine Carries.bind (spec.flows_get hL) (fun _ => ?_)
  split
  · exact spec.flows_throw _
  · exact Carries.pure
  split
  · exact Carries.pure
  split
  · exact spec.flows_iterateLoop hL disabled gatewayId body exitTarget _ _
  exact spec.flows_cursorSave hL gatewayId _
    (spec.flows_iterateLoop hL disabled gatewayId body exitTarget _ _)

/-! ## Plan segments -/

section
variable {executeSegment : List PlanStep → Option String → EngineProg Outcome}
  (hsegment : ∀ plan stop, spec.Flows (executeSegment plan stop))
include hsegment

variable (gatewayId : String)

lemma flows_executeSelected (selected convergence : String) :
    spec.Flows (executeSelected E executeSegment gatewayId selected convergence) := by
  refine Carries.bind (spec.flows_step hL (fun w => .condition w gatewayId _)) (fun _ => ?_)
  refine Carries.bind ?_ (fun _ => ?_)
  · unfold executeBranch
    split
    · exact Carries.pure
    exact hsegment _ _
  refine Carries.bind (spec.flows_step hL (fun w => .condition w gatewayId _)) (fun _ => ?_)
  exact Carries.bind (spec.flows_saveTaskState hL) (fun _ => Carries.pure)

lemma flows_evaluateConditionGateway (branches : List BranchInfo) (convergence : String) :
    spec.Flows (evaluateConditionGateway E executeSegment gatewayId branches convergence) := by
  unfold evaluateConditionGateway
  split
  · exact Carries.pure
  refine Carries.bind (spec.flows_get hL) (fun _ => ?_)
  split
  · exact spec.flows_executeSelected hL hsegment gatewayId _ convergence
  split
  · exact Carries.pure
  refine Carries.bind (spec.flows_modify hL
    (flowSteps_freezeChoice E gatewayId branches _ convergence)) (fun _ => ?_)
  exact Carries.bind (spec.flows_saveTaskState hL)
    (fun _ => spec.flows_executeSelected hL hsegment gatewayId _ convergence)

lemma flows_planTurn (disabled : List String) (plan : List PlanStep)
    (stopBefore : Option String) (index : Nat) :
    spec.Flows (planTurn E disabled executeSegment plan stopBefore index) := by
  have hgo : ∀ (outcome : Outcome) (next : Nat), spec.Flows
      (if outcome.halts then pure (.inr outcome) else pure (.inl next) : EngineProg Turn) := by
    intro outcome next
    split
    all_goals exact Carries.pure
  unfold planTurn
  dsimp only
  split
  · exact Carries.pure
  · exact Carries.bind (spec.flows_executeParallelBranches hL disabled _ _)
      (fun outcome => hgo outcome _)
  · exact Carries.bind (spec.flows_executeLoop hL disabled _ _)
      (fun outcome => hgo outcome _)
  · refine Carries.bind (spec.flows_evaluateConditionGateway hL hsegment _ _ _)
      (fun outcome => ?_)
    split
    · exact Carries.pure
    split
    · exact Carries.pure
    split
    · exact Carries.pure
    split
    all_goals exact Carries.pure
  · exact Carries.bind (spec.flows_executeLoopGateway hL disabled _ _ _ _)
      (fun outcome => hgo outcome _)
  · split
    · exact Carries.pure
    exact Carries.bind (spec.flows_executeNodeSequence hL disabled _)
      (fun outcome => hgo outcome _)
  all_goals exact Carries.pure

end

lemma flows_executePlanSegment (depth : Nat) :
    ∀ (plan : List PlanStep) (stopBefore : Option String) (startIndex : Nat),
      spec.Flows (executePlanSegment E disabled depth plan stopBefore startIndex) := by
  induction depth with
  | zero => exact fun _ _ _ => spec.flows_throw _
  | succ depth ih =>
    intro plan stopBefore startIndex
    exact Carries.repeatUntil
      (spec.flows_planTurn hL (fun plan stop => ih plan stop 0) disabled plan stopBefore)

/-! ## Running a task -/

lemma flows_executePlan : spec.Flows (executePlan E disabled fromNodeId) := by
  have hfinish := fun outcome => spec.flows_step hL (fun w => .finish w outcome)
  refine Carries.tryCatch (Carries.bind
    (spec.flows_executePlanSegment hL disabled _ _ _ _) (fun outcome => hfinish (some outcome))) ?_
  intro e Γ w hw
  cases e with
  | cancelled => exact hw
  | error => exact hfinish none Γ w hw

lemma flows_executeTask : spec.Flows (executeTask E fromNodeId) := by
  refine Carries.bind (spec.flows_step hL (fun w => .start w)) (fun _ => ?_)
  refine Carries.bind (spec.flows_wait hL rfl) (fun _ => ?_)
  refine Carries.bind (spec.flows_get hL) (fun w => ?_)
  refine Carries.bind (spec.flows_modify hL (flowSteps_markAllDisabled E _)) (fun _ => ?_)
  refine Carries.bind (spec.flows_whenever (spec.flows_saveTaskState hL)) (fun _ => ?_)
  refine Carries.bind (spec.flows_executePlan hL _ fromNodeId) (fun _ => ?_)
  refine Carries.bind (spec.flows_step hL (fun w => .stamp w)) (fun _ => ?_)
  refine spec.flows_call hL rfl (fun _ => Carries.pure) (fun _ => Carries.pure) ?_
  intro Γ w hfresh hinv hcalm hanswer
  exact ⟨hfresh, hL.inv_note w hinv, spec.cancel Γ _ w (.inl hcalm) hanswer⟩

end FlowSpec
end
end DeterminFlow.Engine
