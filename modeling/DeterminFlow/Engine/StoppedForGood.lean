/-
  Engine.StoppedForGood
  **A STOPPED TASK STAYS STOPPED.**

  `stop_task` cancels the runner and waits for it.  Where the cancellation
  lands decides what follows.  Anywhere but at the wait for parallel
  branches it is raised to `_run_task_coroutine`, which writes `stopped`;
  no branch exists then, so the run is over (`stopped_for_good`).  At that
  wait the executor of the main plan takes it for a failed branch and goes
  on (`cancelledJoin_goes_on`).
-/
import DeterminFlow.Engine.FlowRule
import DeterminFlow.Workflow.Validation

namespace DeterminFlow.Engine

open Library Coop Workflow DeterminFlow.Runtime Option Machine

/-! ## The condition -/

/-- No branch is cancelled; a cancellation of the runner meets neither a
cancelled session task nor, once delivered, a failing write. -/
def StoppableAnswer (t : Thread) (op : Op) (r : Except Exn Resp) (w : World) : Prop :=
  match r with
  | .error .cancelled =>
    t = .main ∧ ∀ sessionId, op = .subTask sessionId → sessionId ∉ w.sessions.cancelled
  | .error (.error _) => t = .main → op = .write → w.stopping = none
  | .ok _ => True

def stopLogic (E : Env) : Logic (engineMachine E) where
  inv _ := True
  guar t w w' := t ≠ .main → w'.stopping = w.stopping
  kidPre _ _ _ := True
  kidPost _ _ r _ := r ≠ .error .cancelled
  answerOk := StoppableAnswer
  eventOk _ _ _ _ := True
  cancelOk _ := False

lemma stopLogic_saveLaws (E : Env) : SaveLaws (stopLogic E) where
  guar_core _ _ _ h _ := (stopping_of_core h).symm
  guar_note _ h := absurd rfl h
  inv_idle _ _ _ _ := trivial
  inv_snapshot _ _ _ _ := trivial
  inv_note _ _ := trivial

/-! ## Nothing but a cancellation is noted -/

lemma stopping_upsert (w : World) (n : String) (f : NodeExecutionState → NodeExecutionState) :
    (w.upsert n f).stopping = w.stopping := by
  unfold World.upsert World.materialize
  split <;> rfl

variable {w' w : World} {E : Env}

lemma stopping_sequenceStep {t : Thread} (h : SequenceStep E t w w') :
    w'.stopping = w.stopping := by
  cases h with
  | skipDisabled n => exact stopping_upsert w n _
  | normalize =>
    unfold normalizeStatus
    split <;> rfl
  | enter n => exact stopping_upsert { w with task := _ } n (fun s => { s with status := .running })
  | finish =>
    unfold finishAttempt publishOutputs
    dsimp only
    split <;> rfl
  | policy n r next => cases next <;> rfl
  | _ => rfl

lemma stopping_pluginStep {a : Nat} {x : Attempt} {e : Ev} (h : PluginStep E a x e w w') :
    w'.stopping = w.stopping := by
  cases h with
  | land =>
    unfold World.land
    split <;> rfl
  | _ => rfl

lemma stopping_flowStep (h : FlowStep w w') : w'.stopping = w.stopping := by
  cases h with
  | skip n =>
    exact stopping_upsert w n (fun s =>
      { s with status := .skipped, completedAt := some w.clock, outputs := [] })
  | ensure =>
    unfold World.ensureState
    split <;> rfl
  | merged cid => exact stopping_upsert w cid _
  | disabled n => exact stopping_upsert w n _
  | finish outcome =>
    match outcome with
    | none => rfl
    | some .completed => rfl
    | some .failed => rfl
    | some .retryWaiting => rfl
  | _ => rfl

/-! ## The tasks -/

section
variable (E : Env)

def stopRaised : Exn → World → Prop
  | .cancelled, _ => True
  | .error _, w => w.stopping = none

lemma stands_uncancelled (Γ : Ctx engineSig) :
    Stands (stopLogic E) .main Γ (fun w => w.stopping = none) where
  steady _ _ hcore hw := (stopping_of_core hcore).symm.trans hw
  stable _ _ _ hriv _ _ hguar hw := (hguar hriv.ne).trans hw

lemma stands_true (t : Thread) (Γ : Ctx engineSig) : Stands (stopLogic E) t Γ (fun _ => True) :=
  ⟨fun _ _ _ _ => trivial, fun _ _ _ _ _ _ _ _ => trivial⟩

def stopSequence (Γ : Ctx engineSig) (disabled ids : List String) :
    SequenceSpec (stopLogic E) .main Γ disabled ids :=
  uniformSpec (X := stopRaised) (stands_uncancelled E Γ)
    (fun e => by
      cases e with
      | cancelled => exact stands_true E .main Γ
      | error => exact stands_uncancelled E Γ)
    (fun _ _ _ _ => trivial) (fun _ _ hw => hw) (fun _ _ _ hok => hok rfl rfl)
    (fun _ _ hstep hw =>
      ⟨fun h => absurd rfl h, trivial, (stopping_sequenceStep hstep).trans hw.2⟩)
    (fun _ _ _ _ _ hstep _ hw =>
      ⟨fun h => absurd rfl h, trivial, (stopping_pluginStep hstep).trans hw.2⟩)

def branchRaised : Exn → World → Prop
  | .cancelled, _ => False
  | .error _, _ => True

def branchSequence (i : Nat) (Γ : Ctx engineSig) (disabled ids : List String) :
    SequenceSpec (stopLogic E) (.kid i) Γ disabled ids :=
  uniformSpec (X := branchRaised) (stands_true E (.kid i) Γ)
    (fun e => by
      cases e with
      | cancelled => exact ⟨fun _ _ _ h => h, fun _ _ _ _ _ _ _ h => h⟩
      | error => exact stands_true E (.kid i) Γ)
    (fun _ _ _ hok => nomatch hok.1) (fun _ _ _ => trivial) (fun _ _ _ _ => trivial)
    (fun _ _ hstep _ => ⟨fun _ => stopping_sequenceStep hstep, trivial, trivial⟩)
    (fun _ _ _ _ _ hstep _ _ => ⟨fun _ => stopping_pluginStep hstep, trivial, trivial⟩)

/-- **The control flow**: outside the wait for branches there are none. -/
def stopFlow : FlowSpec (stopLogic E) where
  calm Γ w := Γ.waiting = [] ∧ w.stopping = none
  joining Γ left w := Γ.Awaits left ∧ w.stopping = none
  cancelled Γ _ := Γ.waiting = []
  calm_stands Γ :=
    ⟨fun w w' h hw => ⟨hw.1, (stands_uncancelled E Γ).steady w w' h hw.2⟩,
      fun t' w w' hr hi hi' hg hw =>
        ⟨hw.1, (stands_uncancelled E Γ).stable t' w w' hr hi hi' hg hw.2⟩⟩
  cancelled_stands _ := ⟨fun _ _ _ h => h, fun _ _ _ _ _ _ _ h => h⟩
  joining_stable Γ _ t' w w' hr hi hi' hg hw :=
    ⟨hw.1, (stands_uncancelled E Γ).stable t' w w' hr hi hi' hg hw.2⟩
  guar_trans _ _ _ _ _ h := absurd rfl h
  flow _ _ _ hstep _ hw :=
    ⟨fun h => absurd rfl h, trivial, hw.1, (stopping_flowStep hstep).trans hw.2⟩
  cancel _ _ _ hw _ := hw.elim And.left id
  failLate _ _ _ hw hok := ⟨hw, hok rfl rfl⟩
  swallow _ sessionId _ _ hok hmem := absurd hmem (hok.2 sessionId rfl)
  spawn _ _ args _ _ hw := ⟨⟨Ctx.awaits_spawn hw.1 args, hw.2⟩, fun _ _ => trivial⟩
  deliver _ _ _ _ _ _ _ hw hmem _ := ⟨hw.1.deliver hmem, hw.2⟩
  deliverCancelled _ _ _ _ _ _ _ _ hkid := absurd rfl hkid
  cancelJoin _ _ _ _ _ hok := hok.elim
  joined _ _ hw := ⟨hw.1.waiting_eq_nil, hw.2⟩
  sequence Γ disabled ids :=
    (stopSequence E Γ disabled ids).frame (stopLogic_saveLaws E) (R := fun _ => Γ.waiting = [])
      ⟨fun _ _ _ h => h, fun _ _ _ _ _ _ _ h => h⟩ (fun _ _ _ h => h)
  sequence_head _ _ _ _ _ hw := ⟨hw.2, hw.1⟩
  sequence_done _ _ _ _ _ _ hw := ⟨hw.2, hw.1⟩
  sequence_cancelled _ _ _ _ _ hw := hw.2
  sequence_raised _ _ _ _ _ _ hw := ⟨hw.2, hw.1⟩

lemma stopLogic_laws : (stopLogic E).Laws where
  guar_refl _ _ _ := rfl
  guar_trans _ _ _ _ h h' ht := (h' ht).trans (h ht)
  kidPre_stable _ _ _ _ _ _ _ _ _ _ := trivial
  kidPost_stable _ _ _ _ _ _ _ _ _ _ h := h
  kid_wp i a w hinv _ := by
    refine (stopLogic E).wp_mono _ ?_ _ _
      ((branchSequence E i (Ctx.empty engineSig) a.disabled a.nodes).wp_executeNodeSequence
        (stopLogic_saveLaws E) rfl hinv trivial)
    rintro Γ r w ⟨rfl, hi, hr⟩
    match r, hr with
    | .ok _, _ => exact ⟨hi, nofun⟩
    | .error (.error _), _ => exact ⟨hi, fun h => by cases h⟩
    | .error .cancelled, hr => exact hr.elim

/-! ## The runner -/

def statusOnDisk (w : World) : Option TaskStatus := w.disk.map (·.status)

def stopPost (r : Except Exn Unit) (w : World) : Prop :=
  match r with
  | .ok _ => w.stopping = none
  | .error .cancelled =>
    (∃ status, w.stopping = some status ∧ endedOnDisk status = true)
      ∨ statusOnDisk w = some .stopped
  | .error (.error _) => True

def runnerPost : Logic.Post engineSig Unit := fun Γ r w =>
  Γ.fresh = [] ∧ Γ.waiting = [] ∧ stopPost r w

variable {E} {Γ : Ctx engineSig} {w : World}

lemma wp_releaseSessions {P : World → Prop} {Q : Logic.Post engineSig Unit}
    (hΓ : Γ.fresh = [] ∧ Γ.waiting = [])
    (hP : ∀ w e w', P w → E.fire .releaseSessions e w = some w' → P w') (hw : P w)
    (hdone : ∀ w, P w → Q Γ (.ok ()) w)
    (hcancel : ∀ w, P w → Q Γ (.error .cancelled) (noteCancelled w)) :
    (stopLogic E).wp .main releaseSessions Q Γ w := by
  refine (stopLogic E).wp_call hΓ.1 trivial (P := P) ?_ hw ?_ ?_
  · rintro t' w w' ⟨i, a, rfl, hmem⟩
    rw [hΓ.2] at hmem
    simp at hmem
  · exact fun e w w' hw _ _ hfire => ⟨fun h => absurd rfl h, trivial, hP w e w' hw hfire⟩
  intro r w' hw' _ _ _
  refine ⟨fun h => absurd rfl h, ?_⟩
  match r with
  | .ok _ => exact hdone _ hw'
  | .error (.error _) => exact hdone _ hw'
  | .error .cancelled => exact hcancel w' hw'

lemma fire_releaseSessions {e : Ev} {w' : World} (h : E.fire .releaseSessions e w = some w') :
    w'.disk = w.disk ∧ w'.stopping = w.stopping ∧ w'.task = w.task := by
  cases e with
  | clock => obtain rfl := some.inj h; exact ⟨rfl, rfl, rfl⟩
  | sessions => obtain rfl := some.inj h; exact ⟨rfl, rfl, rfl⟩
  | disk => obtain rfl := some.inj h; exact ⟨rfl, rfl, rfl⟩
  | _ => simp [Env.fire] at h

lemma wp_saveTask {next : Unit → EngineProg Unit} (hΓ : Γ.fresh = [] ∧ Γ.waiting = [])
    (hnext : (stopLogic E).wp .main (next ()) runnerPost Γ (saveNow w)) :
    (stopLogic E).wp .main (saveTask >>= next) runnerPost Γ w := by
  refine (stopLogic E).wp_seq ((stopLogic E).wp_get (fun h => absurd rfl h) ?_)
  split
  · exact (stopLogic E).wp_modify_last (fun h => absurd rfl h) hnext
  exact ⟨hΓ.1, hΓ.2, trivial⟩

lemma wp_runTaskCoroutine (fromNodeId : Option String) (hw : (stopFlow E).Calm Γ w) :
    (stopLogic E).wp .main (runTaskCoroutine E fromNodeId) runnerPost Γ w := by
  have hrefl : ∀ w, (stopLogic E).guar .main w w := fun _ _ => rfl
  have hflows : (stopFlow E).Flows (do
      let w ← Prog.get
      if w.task.mainTakeover ∧ w.task.mainSessionId.all (· ∉ w.sessions.registered) then
        Prog.raise (.error "Main 接管审批不可用：任务所属 Main Session 不在运行期")
      else executeTask E fromNodeId) := by
    refine Logic.Carries.bind ((stopFlow E).flows_get (stopLogic_saveLaws E)) (fun w => ?_)
    split
    · exact (stopFlow E).flows_throw _
    exact (stopFlow E).flows_executeTask (stopLogic_saveLaws E) fromNodeId
  refine (stopLogic E).wp_seq ((stopLogic E).wp_attempt _ _ _ _
    ((stopLogic E).wp_mono _ ?_ _ _ (hflows Γ w hw)))
  intro Γ r w hr
  match r, hr with
  | .ok _, ⟨hfresh, _, hwaiting, hstop⟩ =>
    refine (stopLogic E).wp_tryCatch _ _ _ _ _ ((stopLogic E).wp_get (hrefl w) ?_)
    split
    · exact (stopLogic E).wp_modify_last (fun h => absurd rfl h) ⟨hfresh, hwaiting, hstop⟩
    exact ⟨hfresh, hwaiting, hstop⟩
  | .error .cancelled, ⟨hfresh, _, hwaiting⟩ =>
    refine (stopLogic E).wp_modify (fun h => absurd rfl h) ?_
    refine wp_saveTask ⟨hfresh, hwaiting⟩ ?_
    refine (stopLogic E).wp_seq (wp_releaseSessions ⟨hfresh, hwaiting⟩
      (P := fun w => statusOnDisk w = some .stopped) ?_ rfl ?_ ?_)
    · intro w e w' hw hfire
      unfold statusOnDisk
      rw [(fire_releaseSessions hfire).1]
      exact hw
    all_goals exact fun w hw => ⟨hfresh, hwaiting, .inr hw⟩
  | .error (.error m), ⟨hfresh, _, hwaiting, hstop⟩ =>
    refine (stopLogic E).wp_modify (fun h => absurd rfl h) ?_
    refine wp_saveTask ⟨hfresh, hwaiting⟩ ?_
    refine wp_releaseSessions ⟨hfresh, hwaiting⟩
      (P := fun w => w.stopping = none ∧ w.task.status = .failed) ?_ ⟨hstop, rfl⟩ ?_ ?_
    · rintro w e w' ⟨h, h'⟩ hfire
      obtain ⟨_, hs, ht⟩ := fire_releaseSessions hfire
      exact ⟨hs.trans h, by rw [ht, h']⟩
    · exact fun w hw => ⟨hfresh, hwaiting, hw.1⟩
    -- a cancellation finds the task failed
    rintro w ⟨h, h'⟩
    exact ⟨hfresh, hwaiting, .inl ⟨.failed, by simp [noteCancelled, h, h'], rfl⟩⟩

end

/-! ## The end of a stopped task -/

/-- A run in which no cancellation meets the wait for branches, a cancelled
session task or a failing write, and no branch is cancelled. -/
def Stoppable {α : Type} (c : Config engineSig α) : Move engineSig → Prop
  | .answer t r => ∀ op, Machine.pendingOp? c t = some op → StoppableAnswer t op r c.state
  | .cancelJoin => False
  | _ => True

lemma Stoppable.permits {α : Type} (c : Config engineSig α) (m : Move engineSig)
    (h : Stoppable c m) : (stopLogic E).permits c m := by
  cases m with
  | answer => exact h
  | cancelJoin => exact h
  | event => exact fun _ _ => trivial
  | _ => trivial

/-- **A stopped task stays stopped.**  Once the runner has ended, nothing
happens any more.  If `stop_task` returns (the runner was cancelled, or had
returned) and the cancellation was delivered before the task had ended, the
task file says `stopped`. -/
theorem stopped_for_good (E : Env) (fromNodeId : Option String) {w₀ : World}
    (hstart : w₀.stopping = none) {c : Config engineSig Unit}
    (hrun : (engineMachine E).Reachable Stoppable
      (Machine.initial w₀ (runTaskCoroutine E fromNodeId)) c)
    (hrest : c.running = none) {r : Except Exn Unit} (hended : c.main.result? = some r) :
    (∀ permits d, (engineMachine E).Reachable permits c d → d = c)
      ∧ ∀ status, c.state.stopping = some status → endedOnDisk status = false →
          (∀ m, r ≠ .error (.error m)) →
          statusOnDisk (stopTaskEpilogue c.state) = some .stopped := by
  have hcalm : (stopFlow E).Calm (Ctx.empty engineSig) w₀ := ⟨rfl, trivial, rfl, hstart⟩
  have hpost : ∀ Γ r w, runnerPost Γ r w →
      (stopLogic E).mainQ (fun waiting r w => waiting = [] ∧ stopPost r w) Γ r w :=
    fun Γ r w h => ⟨(stopLogic E).settled_of_fresh h.1 trivial, h.2⟩
  have hwp := (stopLogic E).wp_mono _ hpost _ _ (wp_runTaskCoroutine fromNodeId hcalm)
  have hgood := (stopLogic E).sound (stopLogic_laws E) (by
    rintro w _ i a hmem _ _ _ _ _ ⟨rfl, _⟩
    simp at hmem) trivial hwp (hrun.mono _ Stoppable.permits)
  have hkids := hgood.children_finished _ hrest hended (fun w _ h => h.1)
  refine ⟨fun permits d hd => ?_, fun status hstop hopen hreturns => ?_⟩
  · refine Reachable.eq_of_stuck _ (fun m => ?_) hd
    exact (engineMachine E).step_eq_none hrest (by rw [hended]; rfl) hkids m
  obtain ⟨_, _, ⟨_, hr⟩, _⟩ := hgood.finished _ hrest hended
  match r, hr, hreturns with
  | .ok _, hr, _ => exact absurd (hstop.symm.trans hr) (by simp)
  | .error (.error m), _, hreturns => exact absurd rfl (hreturns m)
  | .error .cancelled, .inl ⟨status', hstop', hend⟩, _ =>
    obtain rfl := some.inj (hstop.symm.trans hstop')
    exact absurd hend (by simp [hopen])
  | .error .cancelled, .inr hdisk, _ =>
    obtain ⟨_, hdata, hstatus⟩ := map_eq_some_iff.1 hdisk
    unfold stopTaskEpilogue
    rw [hdata]
    simp only [hstatus, endedOnDisk]
    exact hdisk

/-! ## A cancelled wait for branches -/

def forked : WorkflowDef where
  nodes := [{ id := "a" }, { id := "b" }, { id := "c" }]
  gateways := [{ id := "fork", gatewayType := .parallel, convergeGatewayId := some "join" },
    { id := "join", gatewayType := .converge }]
  edges := [{ source := "__start__", target := "fork" }, { source := "fork", target := "a" },
    { source := "fork", target := "b" }, { source := "a", target := "join" },
    { source := "b", target := "c" }, { source := "c", target := "join" },
    { source := "join", target := "__end__" }]

def forkedRun : Config engineSig Unit :=
  Machine.initial { task := {} } (runTaskCoroutine (plainEnv forked) none)

def cancelledJoin : List (Move engineSig) :=
  [proceed .main, .start 0, .start 1] ++ save (.kid 0) ++ save (.kid 1)
    ++ [.cancelJoin, finish (.kid 0) {}] ++ save (.kid 0) ++ [.deliver 0, proceed .main]

def branchGoesOn : List (Move engineSig) := [finish (.kid 1) {}] ++ save (.kid 1)

/-- **A cancelled wait for branches is taken for a failed branch**: the task is
written as failed, and after the runner has ended a further attempt begins. -/
theorem cancelledJoin_goes_on : forked.Accepted ∧ ∃ c d,
      (engineMachine (plainEnv forked)).Reachable (fun _ _ => True) forkedRun c
      ∧ returned c = true ∧ c.state.stopping = some .running
      ∧ statusOnDisk (stopTaskEpilogue c.state) = some .failed
      ∧ (engineMachine (plainEnv forked)).Reachable (fun _ _ => True) c d
      ∧ c.state.attempts.length < d.state.attempts.length := by
  have hfirst : ((engineMachine (plainEnv forked)).replay 100 forkedRun cancelledJoin).map
      (fun c => (returned c, c.state.stopping, statusOnDisk (stopTaskEpilogue c.state),
        c.state.attempts.length,
        ((engineMachine (plainEnv forked)).replay 100 c branchGoesOn).map
          (fun d => d.state.attempts.length)))
      = some (true, some .running, some .failed, 2, some 3) := by decide +kernel
  obtain ⟨c, hc, hfacts⟩ := map_eq_some_iff.1 hfirst
  simp only [Prod.mk.injEq] at hfacts
  obtain ⟨hreturned, hstop, hdisk, _, hrest⟩ := hfacts
  obtain ⟨d, hd, _⟩ := map_eq_some_iff.1 hrest
  have hany : ∀ (c : Config engineSig Unit), (fun _ _ => True) c (Move.tick (S := engineSig)) :=
    fun _ => trivial
  refine ⟨by decide, c, d, ?_, hreturned, hstop, hdisk, ?_, by omega⟩
  · exact reachable_of_replay _ hany (fun _ _ _ => trivial) hc
  exact reachable_of_replay _ hany (fun _ _ _ => trivial) hd

def earlyStop : List (Move engineSig) := [.answer .main (.error .cancelled), proceed .main]

/-- A task stopped early stays stopped. -/
theorem earlyStop_stopped_for_good :
    ∃ c, (engineMachine (plainEnv forked)).Reachable Stoppable forkedRun c
      ∧ c.state.stopping = some .running
      ∧ (∀ permits d, (engineMachine (plainEnv forked)).Reachable permits c d → d = c)
      ∧ statusOnDisk (stopTaskEpilogue c.state) = some .stopped := by
  let first : Move engineSig := .answer .main (.error .cancelled)
  have hstart : ((engineMachine (plainEnv forked)).drive 100 forkedRun).map
      (fun c => c.state.sessions.cancelled) = some [] := by decide +kernel
  have hend : ((engineMachine (plainEnv forked)).replay 100 forkedRun earlyStop).map
      (fun c => (wasCancelled c, c.state.stopping)) = some (true, some .running) := by
    decide +kernel
  obtain ⟨_, hc₁, hsessions⟩ := map_eq_some_iff.1 hstart
  obtain ⟨c, hc, hfacts⟩ := map_eq_some_iff.1 hend
  simp only [Prod.mk.injEq] at hfacts
  obtain ⟨hresult, hstop⟩ := hfacts
  obtain ⟨hrest, hr⟩ := wasCancelled_iff.1 hresult
  have hticks : ∀ (c : Config engineSig Unit), Stoppable c .tick := fun _ => trivial
  have hrun : (engineMachine (plainEnv forked)).Reachable Stoppable forkedRun c := by
    obtain ⟨e, hdrive, hc⟩ := bind_eq_some_iff.1 hc
    obtain ⟨_, hstep, hc⟩ := bind_eq_some_iff.1 hc
    obtain rfl := some.inj (hdrive.symm.trans hc₁)
    have hfirst : Stoppable e first := by
      intro _ _
      exact ⟨rfl, fun _ _ => by simp [hsessions]⟩
    refine Reachable.trans _ (reachable_of_drive _ hticks hdrive)
      (Reachable.trans _ (.step .refl hfirst hstep) ?_)
    refine reachable_of_replay _ hticks (fun m hm c => ?_) hc
    obtain rfl : m = proceed .main := by simpa using hm
    exact fun _ _ => trivial
  obtain ⟨hover, hdisk⟩ := stopped_for_good (plainEnv forked) none rfl hrun hrest hr
  exact ⟨c, hrun, hstop, hover, hdisk .running hstop rfl (fun _ h => by cases h)⟩

end DeterminFlow.Engine
