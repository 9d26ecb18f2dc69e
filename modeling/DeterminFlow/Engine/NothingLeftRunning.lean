/-
  Engine.NothingLeftRunning
  **NO NODE IS LEFT RUNNING.**

  A task that is between entering a node and the end of an attempt is busy
  with that node (`busy?`, read off the history).  The invariant of a run
  is that every running node has a task busy with it (`NoStray`); when
  `execute_task` returns, no task is busy.

  Two things break the invariant, and the theorem is about the runs without
  them: a rejected approval that is rolled back (`SendsBack`), and a write
  of the task file that fails while an attempt is open.
-/
import DeterminFlow.Engine.FlowRule
import DeterminFlow.Workflow.Validation

namespace DeterminFlow.Engine

open Library Coop Workflow DeterminFlow.Runtime List Option World NodeExecutionState

/-! ## Busy tasks -/

def busyIn (t : Thread) : List LogEntry → Option String
  | [] => none
  | .entered t' n :: rest => if t' = t then some n else busyIn t rest
  | .began t' n _ _ :: rest => if t' = t then some n else busyIn t rest
  | .ended t' _ _ :: rest => if t' = t then none else busyIn t rest
  | _ :: rest => busyIn t rest

/-- The node task `t` is busy with. -/
def busy? (w : World) (t : Thread) : Option String := busyIn t w.log

variable {w' w w'' : World} {f : NodeExecutionState → NodeExecutionState} {E : Env}

lemma busy?_of_log (h : w'.log = w.log) (t : Thread) : busy? w' t = busy? w t := by
  unfold busy?
  rw [h]

def Owned (w : World) (n : String) : Prop := ∃ t, busy? w t = some n

/-- **Every running node has a task busy with it.** -/
def NoStray (w : World) : Prop := ∀ n, w.statusOf n = some .running → Owned w n

def fixedPart (x : Attempt) : Thread × String × Nat × Option Nat × List String × Nat :=
  (x.owner, x.node, x.live, x.outer, x.order, x.index)

def AttemptsKept (w w' : World) : Prop :=
  ∀ (a : Nat) (x : Attempt), w.attempts[a]? = some x →
    ∃ x', w'.attempts[a]? = some x' ∧ fixedPart x' = fixedPart x

lemma AttemptsKept.of_eq (h : w'.attempts = w.attempts) : AttemptsKept w w' :=
  fun _ x hx => ⟨x, by rw [h, hx], rfl⟩

lemma AttemptsKept.trans (h : AttemptsKept w w') (h' : AttemptsKept w' w'') :
    AttemptsKept w w'' := by
  intro a x hx
  obtain ⟨x', hx', hf⟩ := h a x hx
  obtain ⟨x'', hx'', hf'⟩ := h' a x' hx'
  exact ⟨x'', hx'', hf'.trans hf⟩

lemma AttemptsKept.modifyAttempt (w : World) (a : Nat) {g : Attempt → Attempt}
    (hg : ∀ x, fixedPart (g x) = fixedPart x) : AttemptsKept w (w.modifyAttempt a g) := by
  intro b x hx
  simp only [World.modifyAttempt, getElem?_modify]
  by_cases hab : a = b
  · exact ⟨g x, by simp [hab, hx], hg x⟩
  exact ⟨x, by simp [hab, hx], rfl⟩

/-- An update that starts and ends nothing. -/
structure Quiet (w w' : World) : Prop where
  log : ∀ t, busy? w' t = busy? w t
  attempts : AttemptsKept w w'
  running : ∀ n, w'.statusOf n = some .running → w.statusOf n = some .running

lemma Quiet.refl (w : World) : Quiet w w := ⟨fun _ => rfl, .of_eq rfl, fun _ h => h⟩

lemma Quiet.trans (h : Quiet w w') (h' : Quiet w' w'') : Quiet w w'' :=
  ⟨fun t => (h'.log t).trans (h.log t), h.attempts.trans h'.attempts,
    fun n hn => h.running n (h'.running n hn)⟩

lemma Quiet.noStray (h : Quiet w w') (hw : NoStray w) : NoStray w' := by
  intro n hn
  obtain ⟨t, ht⟩ := hw n (h.running n hn)
  exact ⟨t, by rw [h.log t, ht]⟩

lemma Quiet.of_same (hlog : w'.log = w.log) (hattempts : w'.attempts = w.attempts)
    (hstatus : ∀ n, w'.statusOf n = w.statusOf n) : Quiet w w' :=
  ⟨busy?_of_log hlog, .of_eq hattempts, fun n hn => by rw [← hstatus n]; exact hn⟩

lemma quiet_of_core (h : core w = core w') : Quiet w w' :=
  .of_same (log_of_core h).symm (attempts_of_core h).symm (fun n => (statusOf_of_core h n).symm)

lemma quiet_record (w : World) {entry : LogEntry}
    (hentry : ∀ t rest, busyIn t (entry :: rest) = busyIn t rest) : Quiet w (w.record entry) :=
  ⟨fun t => hentry t w.log, .of_eq rfl, fun _ hn => hn⟩

lemma quiet_modifyObject (w : World) (n : String) (r : Nat)
    (hf : (f (w.objects n r)).status = .running → (w.objects n r).status = .running) :
    Quiet w (w.modifyObject n r f) := by
  refine ⟨fun _ => rfl, .of_eq rfl, fun m hm => ?_⟩
  rw [statusOf_modifyObject] at hm
  split at hm
  · rename_i hcase
    obtain ⟨rfl, hcur⟩ := hcase
    exact statusOf_eq_some.2 ⟨r, hcur, hf (some.inj hm)⟩
  exact hm

lemma quiet_install (w : World) (n : String) (r : Nat)
    (hr : (w.objects n r).status = .running → w.statusOf n = some .running) :
    Quiet w (w.install n r) := by
  refine ⟨fun _ => rfl, .of_eq rfl, fun m hm => ?_⟩
  rw [statusOf_install] at hm
  split at hm
  · rename_i h
    subst h
    exact hr (some.inj hm)
  exact hm

lemma quiet_installNew (w : World) (n : String) {s : NodeExecutionState}
    (hs : s.status ≠ .running) : Quiet w (w.installNew n s) := by
  refine ⟨fun _ => rfl, .of_eq rfl, fun _ hm => ?_⟩
  rw [statusOf_installNew] at hm
  split at hm
  · exact absurd (some.inj hm) hs
  exact hm

lemma quiet_put (w : World) (n : String) (r : Nat) (hf : (f (w.objects n r)).status ≠ .running) :
    Quiet w ((w.modifyObject n r f).install n r) := by
  refine (quiet_modifyObject w n r (fun h => absurd h hf)).trans
    (quiet_install _ n r (fun h => ?_))
  rw [objects_modifyObject_self] at h
  exact absurd h hf

lemma quiet_upsert (w : World) (n : String) (hf : ∀ s, (f s).status ≠ .running) :
    Quiet w (w.upsert n f) := by
  refine .mk (busy?_of_log (log_upsert w n f)) (.of_eq ?_) (fun _ hm => ?_)
  · unfold World.upsert World.materialize
    split <;> rfl
  rw [statusOf_upsert] at hm
  split at hm
  · exact absurd (some.inj hm) (hf _)
  exact hm

lemma quiet_flowStep (h : FlowStep w w') : Quiet w w' := by
  cases h with
  | evaluated => exact quiet_record w (fun _ _ => rfl)
  | chose => exact quiet_record w (fun _ _ => rfl)
  | skip n =>
    exact (quiet_upsert w n (fun _ => by simp)).trans (quiet_record _ (fun _ _ => rfl))
  | ensure n =>
    refine .mk (busy?_of_log (log_ensureState w n)) (.of_eq ?_) (fun _ hm => ?_)
    · unfold ensureState
      split <;> rfl
    rw [statusOf_ensureState] at hm
    split at hm
    · simp at hm
    exact hm
  | reset n r =>
    exact (quiet_modifyObject w n r (by simp [resetForIteration])).trans
      (quiet_record _ (fun _ _ => rfl))
  | snapshot n r => exact quiet_modifyObject w n r (fun h => h)
  | merged cid => exact quiet_upsert w cid (fun _ => by simp)
  | disabled n => exact quiet_upsert w n (fun _ => by simp)
  | finish outcome =>
    match outcome with
    | none => exact .of_same rfl rfl (fun _ => rfl)
    | some .completed => exact .of_same rfl rfl (fun _ => rfl)
    | some .failed => exact .of_same rfl rfl (fun _ => rfl)
    | some .retryWaiting => exact .of_same rfl rfl (fun _ => rfl)
  | _ => exact .of_same rfl rfl (fun _ => rfl)

/-! ## The condition -/

/-- The `rejected` result of attempt `a` sends the product of the node before
an approval back to its live session. -/
def SendsBack (E : Env) (w : World) (a : Nat) (result : NodeResult) : Prop :=
  ∃ x node, w.attempts[a]? = some x ∧ E.node? x.node = some node ∧ x.outer.isSome ∧
    result.status = .rejected ∧
    retryTarget E x.node { object := x.live, rejected := x.rejected } = none ∧
    node.nodeType = "approval" ∧ 0 < x.index ∧
    (w.objects x.node x.live).rejectionCount + 1 < 3 ∧
    (x.order[x.index - 1]? = some x.node ∨ (liveUpstreamSession x.order x.index w).isSome)

/-- An answer that breaks nothing: no cancellation, no failing wait while an
attempt is open, no product sent back. -/
def OrderlyAnswer (E : Env) (t : Thread) (op : Op) (r : Except Exn Resp) (w : World) : Prop :=
  match r with
  | .error .cancelled => False
  | .error (.error _) => (∀ a, op ≠ .plugin a) → busy? w t = none
  | .ok (.result result) => ∀ a, op = .plugin a → ¬ SendsBack E w a result
  | .ok .done => True

def restLogic (E : Env) : Logic (engineMachine E) where
  inv := NoStray
  guar t w w' := (∀ t', t' ≠ t → busy? w' t' = busy? w t') ∧ AttemptsKept w w'
  kidPre i _ w := busy? w (.kid i) = none
  kidPost i _ r w := busy? w (.kid i) = none ∧ r ≠ .error .cancelled
  answerOk := OrderlyAnswer E
  eventOk _ _ _ _ := True
  cancelOk _ := False

lemma Quiet.guar (h : Quiet w w') (t : Thread) : (restLogic E).guar t w w' :=⟨fun t' _ => h.log t', h.attempts⟩

lemma IdleStep.quiet (h : IdleStep w w') : Quiet w w' := quiet_of_core h.core_eq

lemma restLogic_saveLaws (E : Env) : SaveLaws (restLogic E) where
  guar_core t _ _ h := (quiet_of_core h).guar t
  guar_note w := (Quiet.of_same (w := w) rfl rfl (fun _ => rfl)).guar (E := E) _
  inv_idle _ _ h hw := h.quiet.noStray hw
  inv_snapshot _ w hw _ := (quiet_of_core (core_takeSnapshot w)).noStray hw
  inv_note w hw := (Quiet.of_same (w := w) rfl rfl (fun _ => rfl)).noStray hw

/-! ## One node sequence -/

section
variable (E : Env) (t : Thread) (ids : List String)

def AttemptAt (p : Place) (a live : Nat) (w : World) : Prop :=
  ∃ x, w.attempts[a]? = some x ∧ x.owner = t ∧ x.node = p.target.id ∧ x.live = live ∧
    x.outer = p.outer ∧ x.order = ids ∧
    ∀ i node r, p = .own i node r → x.index = i ∧ E.node? node.id = some node

variable {w w' : World} {p : Place} {live a i : Nat} {n m : String} {outcome : PolicyOutcome}
  {b : Option String} {r : Except Exn Resp} {e : Executed} {calls : List String}

lemma AttemptAt.kept (hkept : AttemptsKept w w') (h : AttemptAt E t ids p a live w) :
    AttemptAt E t ids p a live w' := by
  obtain ⟨x, hx, howner, hnode, hlive, houter, horder, hown⟩ := h
  obtain ⟨x', hx', hfixed⟩ := hkept a x hx
  simp only [fixedPart, Prod.mk.injEq] at hfixed
  obtain ⟨h₁, h₂, h₃, h₄, h₅, h₆⟩ := hfixed
  exact ⟨x', hx', h₁.trans howner, h₂.trans hnode, h₃.trans hlive, h₄.trans houter,
    h₅.trans horder, fun i node r hp => ⟨h₆.trans (hown i node r hp).1, (hown i node r hp).2⟩⟩

def restSpot : Spot → World → Prop
  | .begun p a live _, w => busy? w t = some p.target.id ∧ AttemptAt E t ids p a live w
  | .sending .., _ => False
  | _, w => busy? w t = none

def restRaised : Exn → World → Prop
  | .cancelled, _ => False
  | .error _, w => busy? w t = none

def restReady (p : Place) (w : World) : Prop :=
  NoStray w ∧ (∀ n, busy? w t = some n → n = p.target.id) ∧
    ∀ i node r, p = .own i node r → E.node? node.id = some node

def NoStrayBut (n : String) (w : World) : Prop :=
  ∀ m, m ≠ n → w.statusOf m = some .running → Owned w m

def NotSent (i : Nat) (node : WorkflowNode) (e : Executed) (counted : Nat) (w : World) : Prop :=
  (w.objects node.id e.object).status = .rejected → retryTarget E node.id e = none →
    node.nodeType = "approval" → 0 < i → counted < 3 →
    ids[i - 1]? ≠ some node.id ∧ liveUpstreamSession ids i w = none

def restExecuted (p : Place) (e : Executed) (w : World) : Prop :=
  busy? w t = none ∧ NoStrayBut p.target.id w ∧
    (w.objects p.target.id e.object).status ≠ .running ∧
    ∀ i node r, p = .own i node r →
      NotSent E ids i node e ((w.objects node.id e.object).rejectionCount + 1) w

def restHeld (i : Nat) (node : WorkflowNode) (e : Executed) (w : World) : Prop :=
  busy? w t = none ∧ NoStray w ∧
    NotSent E ids i node e ((w.objects node.id e.object).rejectionCount + 1) w

def restCounted (i : Nat) (node : WorkflowNode) (e : Executed) (w : World) : Prop :=
  busy? w t = none ∧ NoStray w ∧
    NotSent E ids i node e (w.objects node.id e.object).rejectionCount w

variable {E t} {Γ : Ctx engineSig}

lemma stands_of_kept {P : World → Prop}
    (hP : ∀ w w', busy? w' t = busy? w t → AttemptsKept w w' → P w → P w') :
    Stands (restLogic E) t Γ P where
  steady w w' hcore hw :=
    hP w w' ((quiet_of_core hcore).log t) (quiet_of_core hcore).attempts hw
  stable _ w w' hriv _ _ hguar hw := hP w w' (hguar.1 t hriv.ne.symm) hguar.2 hw

lemma stands_restSpot (p : Spot) : Stands (restLogic E) t Γ (restSpot E t ids p) := by
  refine stands_of_kept (fun _ _ hbusy hkept hw => ?_)
  cases p with
  | begun => exact ⟨hbusy.trans hw.1, hw.2.kept E t ids hkept⟩
  | sending => exact hw
  | _ => exact hbusy.trans hw

lemma stands_restRaised (e : Exn) : Stands (restLogic E) t Γ (restRaised t e) := by
  refine stands_of_kept (fun _ _ hbusy _ hw => ?_)
  cases e with
  | cancelled => exact hw
  | error => exact hbusy.trans hw

/-! Between two suspensions. -/

lemma noStrayBut_of_noStray (h : NoStray w) : NoStrayBut n w :=
  fun m _ hm => h m hm

lemma noStray_install {r : Nat} (h : NoStrayBut n w) (hr : (w.objects n r).status ≠ .running) :
    NoStray (w.install n r) := by
  intro m hm
  rw [statusOf_install] at hm
  split at hm
  · exact absurd (some.inj hm) hr
  rename_i hne
  obtain ⟨t', ht'⟩ := h m (Ne.symm hne) hm
  exact ⟨t', ht'⟩

@[simp] lemma status_updateRejectionRetryAudit (now : Timestamp) (calls : List String)
    (willRetry : Bool) (s : NodeExecutionState) :
    (updateRejectionRetryAudit now calls willRetry s).status = s.status := by
  unfold updateRejectionRetryAudit
  split
  · rfl
  dsimp only
  split <;> rfl

@[simp] lemma rejectionCount_updateRejectionRetryAudit (now : Timestamp) (calls : List String)
    (willRetry : Bool) (s : NodeExecutionState) :
    (updateRejectionRetryAudit now calls willRetry s).rejectionCount = s.rejectionCount := by
  unfold updateRejectionRetryAudit
  split
  · rfl
  dsimp only
  split <;> rfl

lemma ResultStatus.normalize_ne_running (s : ResultStatus) : s.normalize.normalize ≠ .running := by
  cases s <;> simp [ResultStatus.normalize, NodeStatus.normalize]

lemma liveUpstreamSession_congr (hne : ids[i - 1]? ≠ some n)
    (hcur : ∀ m, m ≠ n → w'.current? m = w.current? m)
    (hobj : ∀ m r, m ≠ n → w'.objects m r = w.objects m r) (hsessions : w'.sessions = w.sessions) :
    liveUpstreamSession ids i w' = liveUpstreamSession ids i w := by
  unfold liveUpstreamSession
  cases hid : ids[i - 1]? with
  | none => rfl
  | some m =>
    have hm : m ≠ n := by
      rintro rfl
      exact hne hid
    simp only [bind_some, hcur m hm, hsessions, hobj m _ hm]

lemma failedNodePolicy_status {node : WorkflowNode} {now : Timestamp}
    {state next : NodeExecutionState}
    (h : failedNodePolicy E node now state = some (outcome, some next))
    (hstate : state.status = .failed) : next.status ≠ .running := by
  unfold failedNodePolicy at h
  split at h
  · obtain ⟨_, _, h⟩ := bind_eq_some_iff.1 h
    obtain ⟨_, hprep, h⟩ := map_eq_some_iff.1 h
    simp only [Prod.mk.injEq, some.injEq] at h
    obtain ⟨_, rfl⟩ := h
    unfold prepareRetry at hprep
    simp only [hstate, NodeStatus.normalize] at hprep
    split at hprep
    · simp at hprep
    split at hprep
    · simp_all
    split at hprep
    · simp_all
    obtain rfl := some.inj hprep
    simp [preparedRetry]
  split at h
  · simp only [some.injEq, Prod.mk.injEq] at h
    obtain ⟨_, rfl⟩ := h
    simp [failureSkipped]
  simp at h

/-! What the updates of an attempt do to the tasks. -/

lemma busy?_enterNode (n : String) (w : World) (t' : Thread) :
    busy? (enterNode t n w) t' = if t = t' then some n else busy? w t' := by
  unfold enterNode busy?
  rw [log_record, log_upsert]
  rfl

lemma busy?_beginNodeAttempt (node : WorkflowNode) (r : Nat) (call : Call) (w : World)
    (t' : Thread) :
    busy? (beginNodeAttempt E t node r call w) t' = if t = t' then some node.id else busy? w t' :=
  rfl

lemma busy?_finishAttempt (n : String) (live : Nat) (previous : NodeExecutionState)
    (result : NodeResult) (w : World) (t' : Thread) :
    busy? (finishAttempt t n live previous result w) t' = if t = t' then none else busy? w t' := by
  unfold finishAttempt publishOutputs busy?
  dsimp only
  split <;> rfl

lemma busy?_failUnknownType (node : WorkflowNode) (r : Nat) (w : World) (t' : Thread) :
    busy? (failUnknownType t node r w) t' = if t = t' then none else busy? w t' := rfl

lemma guar_of_busy (hbusy : ∀ t', busy? w' t' = if t = t' then b else busy? w t')
    (hkept : AttemptsKept w w') : (restLogic E).guar t w w' :=
  ⟨fun t' hne => by rw [hbusy t', if_neg (Ne.symm hne)], hkept⟩

lemma noStrayBut_of_busy (hbusy : ∀ t', busy? w' t' = if t = t' then b else busy? w t')
    (hmine : ∀ m, busy? w t = some m → m = n) (hw : NoStrayBut n w)
    (hstatus : ∀ m, m ≠ n → w'.statusOf m = some .running → w.statusOf m = some .running) :
    NoStrayBut n w' := by
  intro m hm hrun
  obtain ⟨t', ht'⟩ := hw m hm (hstatus m hm hrun)
  refine ⟨t', ?_⟩
  rw [hbusy t', if_neg ?_, ht']
  rintro rfl
  exact hm (hmine m ht')

lemma NoStrayBut.noStray (h : NoStrayBut n w) (hn : busy? w t = some n) : NoStray w := by
  intro m hrun
  by_cases hm : m = n
  · exact ⟨t, by rw [hn, hm]⟩
  exact h m hm hrun

lemma rest_enter {node : WorkflowNode} (hinv : NoStray w) (hbusy : busy? w t = none)
    (hnode : E.node? node.id = some node) : (restLogic E).guar t w (enterNode t node.id w) ∧
      restReady E t (.own i node (w.currentOrNext node.id)) (enterNode t node.id w) := by
  have hkept : AttemptsKept w (enterNode t node.id w) := by
    refine .of_eq ?_
    unfold enterNode World.upsert World.materialize
    split <;> rfl
  have hstatus : ∀ m, m ≠ node.id → (enterNode t node.id w).statusOf m = some .running →
      w.statusOf m = some .running := by
    intro m hm hrun
    unfold enterNode at hrun
    rw [statusOf_record, statusOf_upsert, if_neg (Ne.symm hm)] at hrun
    exact hrun
  have hmine : busy? (enterNode t node.id w) t = some node.id := by
    rw [busy?_enterNode, if_pos rfl]
  refine ⟨guar_of_busy (busy?_enterNode node.id w) hkept, ?_, ?_, ?_⟩
  · refine NoStrayBut.noStray (t := t) ?_ hmine
    exact noStrayBut_of_busy (busy?_enterNode node.id w) (by simp [hbusy])
      (noStrayBut_of_noStray hinv) hstatus
  · intro _ hn
    rw [hmine] at hn
    exact (some.inj hn).symm
  rintro _ _ _ ⟨⟩
  exact hnode

lemma attemptsKept_begin (node : WorkflowNode) (r : Nat) (call : Call) (w : World) :
    AttemptsKept w (beginNodeAttempt E t node r call w) := by
  intro a x hx
  refine ⟨x, ?_, rfl⟩
  have hlt : a < w.attempts.length := (List.getElem?_eq_some_iff.1 hx).1
  exact (getElem?_append_left hlt).trans hx

lemma rest_begin {call : Call} (hw : restReady E t p w) (horder : call.order = ids)
    (houter : call.outer = p.outer) (hindex : ∀ i node r, p = .own i node r → call.index = i) :
    (restLogic E).guar t w (beginNodeAttempt E t p.target p.object call w) ∧
      NoStray (beginNodeAttempt E t p.target p.object call w) ∧
      restSpot E t ids (.begun p w.attempts.length (w.allocated p.target.id)
        (begunState E p.target p.object w)) (beginNodeAttempt E t p.target p.object call w) := by
  obtain ⟨hinv, hmine, hnode⟩ := hw
  have hstatus : ∀ m, m ≠ p.target.id →
      (beginNodeAttempt E t p.target p.object call w).statusOf m = some .running →
      w.statusOf m = some .running := by
    intro m hm hrun
    have hsame : (beginNodeAttempt E t p.target p.object call w).statusOf m
        = (w.installNew p.target.id (begunState E p.target p.object w)).statusOf m := rfl
    rw [hsame, statusOf_installNew, if_neg (Ne.symm hm)] at hrun
    exact hrun
  have hbegun : busy? (beginNodeAttempt E t p.target p.object call w) t = some p.target.id := by
    rw [busy?_beginNodeAttempt, if_pos rfl]
  refine ⟨guar_of_busy (busy?_beginNodeAttempt _ _ _ w) (attemptsKept_begin _ _ _ w),
    NoStrayBut.noStray (t := t) (noStrayBut_of_busy (busy?_beginNodeAttempt _ _ _ w) hmine
      (noStrayBut_of_noStray hinv) hstatus) hbegun, hbegun, ?_⟩
  refine ⟨newAttempt E t p.target p.object call w, ?_, rfl, rfl, rfl, houter, horder,
    fun i node r hp => ⟨hindex i node r hp, hnode i node r hp⟩⟩
  exact getElem?_concat_length

lemma rest_failUnknown (hw : restReady E t p w) :
    (restLogic E).guar t w (failUnknownType t p.target p.object w) ∧
      restExecuted E t ids p { object := p.object, rejected := none }
        (failUnknownType t p.target p.object w) := by
  obtain ⟨hinv, hmine, -⟩ := hw
  have hobject : ((failUnknownType t p.target p.object w).objects p.target.id p.object).status
      = .failed := by
    unfold failUnknownType
    rw [objects_record, objects_modifyObject_self]
  refine ⟨guar_of_busy (busy?_failUnknownType p.target p.object w) (.of_eq rfl), ?_, ?_, ?_, ?_⟩
  · rw [busy?_failUnknownType, if_pos rfl]
  · refine noStrayBut_of_busy (busy?_failUnknownType p.target p.object w) hmine
      (noStrayBut_of_noStray hinv) (fun _ hm hrun => ?_)
    unfold failUnknownType at hrun
    rw [statusOf_record, statusOf_modifyObject, if_neg (fun h => hm h.1)] at hrun
    exact hrun
  · rw [hobject]
    simp
  rintro i node r rfl hrejected
  exact absurd (hobject.symm.trans hrejected) (by simp)

lemma current?_finishAttempt (n : String) (live : Nat) (previous : NodeExecutionState)
    (result : NodeResult) (w : World) (m : String) :
    (finishAttempt t n live previous result w).current? m = w.current? m := by
  unfold finishAttempt publishOutputs
  dsimp only
  split <;> rfl

lemma sessions_finishAttempt (n : String) (live : Nat) (previous : NodeExecutionState)
    (result : NodeResult) (w : World) :
    (finishAttempt t n live previous result w).sessions = w.sessions := by
  unfold finishAttempt publishOutputs
  dsimp only
  split <;> rfl

lemma attempts_finishAttempt (n : String) (live : Nat) (previous : NodeExecutionState)
    (result : NodeResult) (w : World) :
    (finishAttempt t n live previous result w).attempts = w.attempts := by
  unfold finishAttempt publishOutputs
  dsimp only
  split <;> rfl

lemma objects_finishAttempt (n : String) (live : Nat) (previous : NodeExecutionState)
    (result : NodeResult) (w : World) (m : String) (k : Nat) :
    (finishAttempt t n live previous result w).objects m k
      = ((w.modifyObject n live (applyResult w.clock previous result)).allocate n
          (applyResult w.clock previous result (w.objects n live)).recordAttempt).objects m k := by
  unfold finishAttempt publishOutputs
  dsimp only
  rw [objects_modifyObject_self]
  split <;> rfl

lemma object_finishAttempt (n : String) (live : Nat) (previous : NodeExecutionState)
    (result : NodeResult) (w : World) :
    (finishAttempt t n live previous result w).objects n (w.allocated n)
      = (applyResult w.clock previous result (w.objects n live)).recordAttempt := by
  rw [objects_finishAttempt]
  exact objects_allocate_self _ n _

lemma objects_finishAttempt_ne (hm : m ≠ n) (live : Nat) (previous : NodeExecutionState)
    (result : NodeResult) (w : World) (k : Nat) :
    (finishAttempt t n live previous result w).objects m k = w.objects m k := by
  rw [objects_finishAttempt, objects_allocate, if_neg (fun h => hm h.1),
    objects_modifyObject, if_neg (fun h => hm h.1)]

lemma statusOf_finishAttempt_ne (hm : m ≠ n) (live : Nat) (previous : NodeExecutionState)
    (result : NodeResult) (w : World) :
    (finishAttempt t n live previous result w).statusOf m = w.statusOf m := by
  unfold World.statusOf stateOf
  rw [current?_finishAttempt]
  cases w.current? m with
  | none => rfl
  | some => simp only [map_some, objects_finishAttempt_ne hm]

lemma notSent_finishAttempt {node : WorkflowNode} {r' : Nat} {previous : NodeExecutionState}
    {result : NodeResult} (hw : AttemptAt E t ids (.own i node r') a live w)
    (hok : ∀ result, r = .ok (.result result) → ¬ SendsBack E w a result)
    (hresult : resultOf r = some result)
    (hw' : w' = finishAttempt t node.id live previous result w) : NotSent E ids i node
      { object := w.allocated node.id, rejected := (w.attempts[a]?).bind (·.rejected) }
      ((w'.objects node.id (w.allocated node.id)).rejectionCount + 1) w' := by
  subst hw'
  obtain ⟨x, hx, _, hxnode, hlive, houter, horder, hown⟩ := hw
  obtain ⟨hindex, hnode⟩ := hown i node r' rfl
  have hobject := object_finishAttempt (t := t) node.id live previous result w
  intro hrejected htarget htype hpos hcount
  dsimp only [Place.target] at hxnode hrejected htarget
  rw [hobject] at hrejected hcount
  have hstatus : result.status.normalize.normalize = .rejected := hrejected
  -- only a result of the plugin can be `rejected`
  have hr : r = .ok (.result result) := by
    match r, hresult with
    | .ok (.result _), hresult => rw [some.inj hresult]
    | .error (.error _), hresult =>
      obtain rfl := some.inj hresult
      simp [failedResult, ResultStatus.normalize, NodeStatus.normalize] at hstatus
  have hrej : result.status = .rejected := by
    cases hcase : result.status <;>
      simp [hcase, ResultStatus.normalize, NodeStatus.normalize] at hstatus ⊢
  rw [hx] at htarget
  have hno := hok result hr
  by_contra hlive'
  refine hno ⟨x, node, hx, by rw [hxnode, hnode], by rw [houter]; rfl, hrej, ?_, htype,
    by rw [hindex]; exact hpos, ?_, ?_⟩
  · rw [hxnode]
    exact htarget
  · rw [hxnode, hlive]
    exact hcount
  rw [horder, hindex, hxnode]
  by_cases hid : ids[i - 1]? = some node.id
  · exact .inl hid
  refine .inr ?_
  rw [isSome_iff_ne_none]
  intro hnone
  refine hlive' ⟨hid, ?_⟩
  rw [liveUpstreamSession_congr ids hid (fun m _ => current?_finishAttempt _ _ _ _ w m)
    (fun m k hm => objects_finishAttempt_ne hm _ _ _ w k) (sessions_finishAttempt _ _ _ _ w)]
  exact hnone

lemma rest_finishAttempt {previous : NodeExecutionState} {result : NodeResult} (hinv : NoStray w)
    (hw : restSpot E t ids (.begun p a live previous) w) (hok : OrderlyAnswer E t (.plugin a) r w)
    (hresult : resultOf r = some result) :
    (restLogic E).guar t w (finishAttempt t p.target.id live previous result w) ∧
      restExecuted E t ids p
        { object := w.allocated p.target.id, rejected := (w.attempts[a]?).bind (·.rejected) }
        (finishAttempt t p.target.id live previous result w) := by
  obtain ⟨hbusy, hattempt⟩ := hw
  have hguar := guar_of_busy (E := E)
    (busy?_finishAttempt (t := t) p.target.id live previous result w)
    (.of_eq (attempts_finishAttempt p.target.id live previous result w))
  refine ⟨hguar, ?_, ?_, ?_, ?_⟩
  · rw [busy?_finishAttempt, if_pos rfl]
  · refine noStrayBut_of_busy (busy?_finishAttempt p.target.id live previous result w)
      (fun m hm => (some.inj (hbusy.symm.trans hm)).symm) (noStrayBut_of_noStray hinv)
      (fun m hm hrun => ?_)
    rwa [statusOf_finishAttempt_ne hm] at hrun
  · rw [object_finishAttempt]
    exact result.status.normalize_ne_running
  rintro i node r' rfl
  refine notSent_finishAttempt ids hattempt (fun _ hr => ?_) hresult rfl
  subst hr
  exact hok a rfl

/-! What a running plugin does. -/

lemma rest_event {previous : NodeExecutionState} (hinv : NoStray w)
    (hw : restSpot E t ids (.begun p a live previous) w) (hbusy : ∀ t', busy? w' t' = busy? w t')
    (hkept : AttemptsKept w w')
    (hstatus : ∀ m, m ≠ p.target.id → w'.statusOf m = some .running → w.statusOf m = some .running) :
    (restLogic E).guar t w w' ∧ NoStray w' ∧ restSpot E t ids (.begun p a live previous) w' := by
  refine ⟨⟨fun t' _ => hbusy t', hkept⟩, ?_, (hbusy t).trans hw.1, hw.2.kept E t ids hkept⟩
  refine NoStrayBut.noStray (t := t) (n := p.target.id) (fun m hm hrun => ?_) ((hbusy t).trans hw.1)
  obtain ⟨t', ht'⟩ := hinv m (hstatus m hm hrun)
  exact ⟨t', (hbusy t').trans ht'⟩

lemma Quiet.event {previous : NodeExecutionState} (h : Quiet w w') (hinv : NoStray w)
    (hw : restSpot E t ids (.begun p a live previous) w) :
    (restLogic E).guar t w w' ∧ NoStray w' ∧ restSpot E t ids (.begun p a live previous) w' :=
  rest_event ids hinv hw h.log h.attempts (fun m _ hm => h.running m hm)

lemma quiet_modifyAttempt (w : World) (a : Nat) {g : Attempt → Attempt}
    (hg : ∀ x, fixedPart (g x) = fixedPart x) : Quiet w (w.modifyAttempt a g) :=
  ⟨fun _ => rfl, .modifyAttempt w a hg, fun _ hn => hn⟩

lemma running_acceptReject {x : Attempt} {outer upstream : Nat} {upstreamId reason : String}
    {maxReject : Nat} (hm : m ≠ x.node)
    (h : (acceptReject w a x outer upstream upstreamId reason maxReject).statusOf m = some .running) : w.statusOf m = some .running := by
  unfold acceptReject at h
  rw [statusOf_record] at h
  have hput : Quiet w ((w.modifyObject upstreamId upstream
      (rejectedState w x.node upstreamId reason maxReject)).install upstreamId upstream) :=
    quiet_put w upstreamId upstream (by simp [rejectedState])
  refine hput.running m ?_
  rw [statusOf_modifyAttempt, statusOf_install, if_neg (Ne.symm hm)] at h
  exact h

lemma rest_events (p : Place) (a live : Nat) (previous : NodeExecutionState) :
    (restLogic E).EventsKeep t (.plugin a) (restSpot E t ids (.begun p a live previous)) := by
  refine eventsKeep_plugin (fun w hw hinv => ?_)
  obtain ⟨x, hx, _, hxnode, _⟩ := hw.2
  refine ⟨x, hx, fun _ _ hstep _ => ?_⟩
  cases hstep with
  | clock => exact (IdleStep.clock w _).quiet.event ids hinv hw
  | sessions => exact (IdleStep.sessions w _).quiet.event ids hinv hw
  | disk => exact (IdleStep.disk w _).quiet.event ids hinv hw
  | patch =>
    refine rest_event ids hinv hw (fun _ => rfl) (.of_eq rfl) (fun m hm hrun => ?_)
    rw [statusOf_modifyObject, if_neg (fun h => hm (h.1.trans hxnode))] at hrun
    exact hrun
  | checkpoint =>
    refine rest_event ids hinv hw (fun _ => rfl) (.modifyAttempt _ a (fun _ => rfl))
      (fun m hm hrun => ?_)
    rw [statusOf_modifyAttempt, statusOf_install,
      if_neg (fun h => hm (h.symm.trans hxnode))] at hrun
    exact hrun
  | saveStart =>
    refine Quiet.event ids ?_ hinv hw
    exact (quiet_of_core (core_takeSnapshot w)).trans (quiet_modifyAttempt _ a (fun _ => rfl))
  | land => exact (IdleStep.land w).quiet.event ids hinv hw
  | saved =>
    refine Quiet.event ids ?_ hinv hw
    exact (IdleStep.release w).quiet.trans (quiet_modifyAttempt _ a (fun _ => rfl))
  | refused => exact (Quiet.refl w).event ids hinv hw
  | accepted =>
    exact rest_event ids hinv hw (fun _ => rfl)
      (.modifyAttempt (((w.modifyObject _ _ _).install _ _).install _ _) a (fun _ => rfl))
      (fun m hm hrun => running_acceptReject (by rw [hxnode]; exact hm) hrun)

/-! The object of an attempt is put into the task. -/

lemma NotSent.congr {node : WorkflowNode} {c c' : Nat} (h : NotSent E ids i node e c w)
    (hstatus : (w'.objects node.id e.object).status = (w.objects node.id e.object).status)
    (hcount : c' < 3 → c < 3) (hcur : ∀ m, m ≠ node.id → w'.current? m = w.current? m)
    (hobj : ∀ m r, m ≠ node.id → w'.objects m r = w.objects m r)
    (hsessions : w'.sessions = w.sessions) : NotSent E ids i node e c' w' := by
  intro hrejected htarget htype hpos hc
  obtain ⟨hid, hlive⟩ := h (hstatus.symm.trans hrejected) htarget htype hpos (hcount hc)
  exact ⟨hid, (liveUpstreamSession_congr ids hid hcur hobj hsessions).trans hlive⟩

lemma quiet_installExecuted {node : WorkflowNode} {r : Nat} (calls : List String)
    (h : NoStrayBut node.id w) (hr : (w.objects node.id r).status ≠ .running) :
    NoStray (installExecuted node r calls w) := by
  refine (quiet_modifyObject (w.install node.id r) node.id r (fun hrun => ?_)).noStray
    (noStray_install h hr)
  rwa [status_updateRejectionRetryAudit] at hrun

lemma NotSent.installed {node : WorkflowNode}
    (h : NotSent E ids i node e ((w.objects node.id e.object).rejectionCount + 1) w) :
    NotSent E ids i node e
      (((installExecuted node e.object calls w).objects node.id e.object).rejectionCount + 1)
      (installExecuted node e.object calls w) := by
  have hobject : (installExecuted node e.object calls w).objects node.id e.object
      = updateRejectionRetryAudit w.clock calls
          (canAutoRetry node (w.objects node.id e.object)) (w.objects node.id e.object) :=
    objects_modifyObject_self _ _ _ _
  refine h.congr ids ?_ ?_ ?_ ?_ rfl
  · rw [hobject, status_updateRejectionRetryAudit]
  · rw [hobject, rejectionCount_updateRejectionRetryAudit]
    exact id
  · intro m hm
    exact (current?_install w node.id m e.object).trans (if_neg (Ne.symm hm))
  intro m _ hm
  exact objects_modifyObject_ne _ _ _ _ _ _ (.inl hm)

lemma NotSent.counted {node : WorkflowNode}
    (h : NotSent E ids i node e ((w.objects node.id e.object).rejectionCount + 1) w) :
    NotSent E ids i node e
      ((countRejection node.id e.object w).objects node.id e.object).rejectionCount
      (countRejection node.id e.object w) := by
  have hobject : (countRejection node.id e.object w).objects node.id e.object
      = { w.objects node.id e.object with
          rejectionCount := (w.objects node.id e.object).rejectionCount + 1 } :=
    objects_modifyObject_self _ _ _ _
  refine h.congr ids ?_ ?_ (fun _ _ => rfl) ?_ rfl
  · rw [hobject]
  · rw [hobject]
    exact id
  intro _ _ hm
  exact objects_modifyObject_ne _ _ _ _ _ _ (.inl hm)

lemma rest_installOwn {node : WorkflowNode} {r : Nat}
    (hw : restExecuted E t ids (.own i node r) e w) :
    (restLogic E).guar t w (installExecuted node e.object calls w) ∧
      restHeld E t ids i node e (installExecuted node e.object calls w) := by
  obtain ⟨hbusy, hstray, hrun, hsent⟩ := hw
  exact ⟨⟨fun _ _ => rfl, .of_eq rfl⟩, hbusy, quiet_installExecuted calls hstray hrun,
    (hsent i node r rfl).installed ids⟩

lemma rest_count {node : WorkflowNode} (hw : restHeld E t ids i node e w) :
    (restLogic E).guar t w (countRejection node.id e.object w) ∧
      restCounted E t ids i node e (countRejection node.id e.object w) := by
  obtain ⟨hbusy, hinv, hsent⟩ := hw
  have hquiet : Quiet w (countRejection node.id e.object w) :=
    quiet_modifyObject w node.id e.object (fun h => h)
  exact ⟨hquiet.guar t, (hquiet.log t).trans hbusy, hquiet.noStray hinv, hsent.counted ids⟩

lemma quiet_installPolicy {node : WorkflowNode} {r : Nat} {next : Option NodeExecutionState}
    (hstatus : (w.objects node.id r).status = .failed)
    (h : failedNodePolicy E node w.clock (w.objects node.id r) = some (outcome, next)) :
    Quiet w (installPolicy node.id r next w) := by
  cases next with
  | none => exact quiet_install w node.id r (by rw [hstatus]; simp)
  | some => exact quiet_installNew w node.id (failedNodePolicy_status h hstatus)

lemma Quiet.rest (h : Quiet w w') (hbusy : busy? w t = none) (hinv : NoStray w) :
    (restLogic E).guar t w w' ∧ NoStray w' ∧ busy? w' t = none :=
  ⟨h.guar t, h.noStray hinv, (h.log t).trans hbusy⟩

lemma quiet_normalizeStatus (n : String) (w : World) : Quiet w (normalizeStatus n w) := by
  unfold normalizeStatus
  split
  · exact quiet_modifyObject w n _ (fun h => NodeStatus.normalize_eq_running.1 h)
  exact .refl w

lemma restSpot_afterPolicy (skipped : Spot) (hskipped : restSpot E t ids skipped w)
    (hbusy : busy? w t = none) (outcome : PolicyOutcome) :
    restSpot E t ids (.afterPolicy skipped outcome) w := by
  cases outcome with
  | skipped => exact hskipped
  | _ => exact hbusy

/-- **What a node sequence keeps.** -/
def restSequence (E : Env) (t : Thread) (Γ : Ctx engineSig) (disabled ids : List String) :
    SequenceSpec (restLogic E) t Γ disabled ids where
  spot := restSpot E t ids
  raised := restRaised t
  ready := restReady E t
  executed := restExecuted E t ids
  held := restHeld E t ids
  counted := restCounted E t ids
  retried _ _ _ _ _ w := busy? w t = none ∧ NoStray w
  stands := stands_restSpot ids
  raised_stands := stands_restRaised
  cancel _ _ _ _ hok := hok.elim
  fail _ _ _ _ _ hop hok := hok hop
  failLate _ _ hw _ := hw.elim
  finish _ _ _ hw := hw
  noNode _ _ _ _ _ hw := hw
  skipDisabled _ n w _ _ _ hinv hw := (quiet_upsert w n (fun _ => by simp)).rest hw hinv
  terminal _ n w _ _ _ _ _ _ hinv hw := (quiet_normalizeStatus n w).rest hw hinv
  blocked _ _ _ _ _ _ _ _ hw := hw
  waiting _ _ _ _ _ _ hw := hw
  enter _ _ _ _ hnode _ _ hinv hw := rest_enter hinv hw hnode
  retry _ _ _ _ _ w hinv hw := by
    have hbusy : busy? w t = none := hw
    refine ⟨hinv, fun n hn => ?_, fun _ _ _ h => nomatch h⟩
    rw [hbusy] at hn
    simp at hn
  failUnknown _ _ hw _ := rest_failUnknown ids hw
  begin _ _ _ hw horder houter hindex _ := rest_begin ids hw horder houter hindex
  events := rest_events ids
  finishAttempt _ _ _ _ _ _ _ hinv hw _ hok hresult := rest_finishAttempt ids hinv hw hok hresult
  installOwn _ _ _ _ _ _ hw := rest_installOwn ids hw
  pass _ _ _ _ hw _ _ _ := ⟨hw.2.1, hw.1⟩
  policy i _ _ _ outcome _ hw _ hfail hcase := by
    obtain ⟨hg, hi, hb⟩ := (quiet_installPolicy hfail hcase).rest hw.1 hw.2.1
    exact ⟨hg, hi, restSpot_afterPolicy ids (.head (i + 1)) hb hb outcome⟩
  policyRaises _ _ _ _ hw _ := ⟨hw.2.1, hw.1⟩
  count _ _ _ _ hw _ := rest_count ids hw
  endRejected _ node e w hw _ _ :=
    (quiet_put w node.id e.object (by simp)).rest (hw.elim And.left And.left)
      (hw.elim (fun h => h.2.1) (fun h => h.2.1))
  send _ _ _ _ _ _ hw htarget hrej htype hpos hcount hlive :=
    nomatch hlive.symm.trans (hw.2.2 hrej htarget htype hpos hcount).2
  rollBack _ _ _ _ _ _ _ hw := hw.elim
  lost _ _ _ _ _ hw _ _ := ⟨hw.2.1, hw.1⟩
  prepare _ _ _ w upstream r hw _ _ _ :=
    (quiet_installNew w upstream.id (by simp [NodeExecutionState.preparedRetry])).rest hw.1 hw.2.1
  installUpstream _ node r upstream _ e calls w hw := by
    have hinv := quiet_installExecuted calls hw.2.1 hw.2.2.1
    have hquiet : Quiet (installExecuted upstream e.object calls w)
        (awaitUpstream node.id r (installExecuted upstream e.object calls w)) :=
      quiet_put _ node.id r (by simp)
    exact ⟨⟨fun _ _ => rfl, .of_eq rfl⟩, hquiet.guar t, (hquiet.log t).trans hw.1,
      hquiet.noStray hinv⟩
  passUpstream _ _ _ _ _ _ hw _ := ⟨hw.2, hw.1⟩
  policyUpstream i node r _ _ _ outcome _ hw hfail hcase := by
    obtain ⟨hg, hi, hb⟩ := (quiet_installPolicy hfail hcase).rest hw.1 hw.2
    exact ⟨hg, hi, restSpot_afterPolicy ids (.skipping i node r) hb hb outcome⟩
  policyUpstreamRaises _ _ _ _ _ _ hw _ := ⟨hw.2, hw.1⟩
  skipOwn _ node r w hinv hw := (quiet_put w node.id r (by simp)).rest hw hinv

end

/-! ## The whole task -/

section
variable (E : Env)

def KidsIdle (Γ : Ctx engineSig) (w : World) : Prop :=
  ∀ i, (∀ a, (i, a) ∉ Γ.waiting) → busy? w (.kid i) = none

def restCalm (Γ : Ctx engineSig) (w : World) : Prop :=
  Γ.waiting = [] ∧ busy? w .main = none ∧ KidsIdle Γ w

def restJoining (Γ : Ctx engineSig) (left : Nat) (w : World) : Prop :=
  Γ.Awaits left ∧ busy? w .main = none ∧ KidsIdle Γ w

variable {E} {Γ : Ctx engineSig} {w w' : World}

lemma kidsIdle_of_busy (h : ∀ i, (∀ a, (i, a) ∉ Γ.waiting) → busy? w' (.kid i) = busy? w (.kid i))
    (hw : KidsIdle Γ w) : KidsIdle Γ w' := fun i hi => (h i hi).trans (hw i hi)

lemma kidsIdle_stable (Γ : Ctx engineSig) : (restLogic E).Stable .main Γ (KidsIdle Γ) := by
  rintro t' w w' ⟨i, a, rfl, hmem⟩ _ _ hguar hw
  refine kidsIdle_of_busy (fun j hj => hguar.1 (.kid j) ?_) hw
  rintro ⟨⟩
  exact hj a hmem

lemma kidsIdle_stands (Γ : Ctx engineSig) : Stands (restLogic E) .main Γ (KidsIdle Γ) where
  steady _ _ hcore hw := kidsIdle_of_busy (fun i _ => (quiet_of_core hcore).log (.kid i)) hw
  stable := kidsIdle_stable Γ

lemma kidsIdle_keep (Γ : Ctx engineSig) (w w' : World) (hguar : (restLogic E).guar .main w w')
    (hw : KidsIdle Γ w) : KidsIdle Γ w' :=
  kidsIdle_of_busy (fun i _ => hguar.1 (.kid i) (by simp)) hw

lemma mainIdle_stands (Γ : Ctx engineSig) :
    Stands (restLogic E) .main Γ (fun w => busy? w .main = none) :=
  stands_of_kept (fun _ _ hbusy _ hw => hbusy.trans hw)

lemma restCalm_stands (Γ : Ctx engineSig) : Stands (restLogic E) .main Γ (restCalm Γ) where
  steady w w' hcore hw :=
    ⟨hw.1, (mainIdle_stands (E := E) Γ).steady w w' hcore hw.2.1,
      (kidsIdle_stands (E := E) Γ).steady w w' hcore hw.2.2⟩
  stable t' w w' hriv hi hi' hguar hw :=
    ⟨hw.1, (mainIdle_stands Γ).stable t' w w' hriv hi hi' hguar hw.2.1,
      kidsIdle_stable Γ t' w w' hriv hi hi' hguar hw.2.2⟩

lemma restCalm_quiet (h : Quiet w w') (hw : restCalm Γ w) : restCalm Γ w' :=
  ⟨hw.1, (h.log .main).trans hw.2.1, kidsIdle_of_busy (fun i _ => h.log (.kid i)) hw.2.2⟩

lemma restCalm_spawn (args : List Branch) (hw : restCalm Γ w) :
    restJoining (Γ.spawn args) args.length w ∧
      ∀ x ∈ numbered (S := engineSig) Γ.next args, (restLogic E).kidPre x.1 x.2 w := by
  obtain ⟨hwaiting, hmain, hkids⟩ := hw
  have hidle : ∀ i, busy? w (.kid i) = none := fun i => hkids i (by simp [hwaiting])
  exact ⟨⟨Ctx.awaits_spawn hwaiting args, hmain, fun i _ => hidle i⟩, fun x _ => hidle x.1⟩

lemma restJoining_deliver {left i : Nat} {a : Branch} (hw : restJoining Γ (left + 1) w)
    (hmem : (i, a) ∈ Γ.waiting) (hkid : busy? w (.kid i) = none) :
    restJoining (Γ.deliver i) left w := by
  obtain ⟨hawaits, hmain, hkids⟩ := hw
  refine ⟨hawaits.deliver hmem, hmain, fun j hj => ?_⟩
  by_cases hji : j = i
  · rw [hji]
    exact hkid
  refine hkids j (fun b hb => hj b ?_)
  exact mem_filter.2 ⟨hb, by simpa using hji⟩

/-- **What the control flow keeps.** -/
def restFlow (E : Env) : FlowSpec (restLogic E) where
  calm := restCalm
  joining := restJoining
  cancelled _ _ := False
  calm_stands := restCalm_stands
  cancelled_stands _ := ⟨fun _ _ _ h => h, fun _ _ _ _ _ _ _ h => h⟩
  joining_stable Γ _ t' w w' hriv hi hi' hguar hw :=
    ⟨hw.1, (mainIdle_stands Γ).stable t' w w' hriv hi hi' hguar hw.2.1,
      kidsIdle_stable Γ t' w w' hriv hi hi' hguar hw.2.2⟩
  guar_trans _ _ _ h h' :=
    ⟨fun t' ht' => (h'.1 t' ht').trans (h.1 t' ht'), h.2.trans h'.2⟩
  flow _ _ _ hstep hinv hw :=
    have hquiet := quiet_flowStep hstep
    ⟨hquiet.guar .main, hquiet.noStray hinv, restCalm_quiet hquiet hw⟩
  cancel _ _ _ _ hok := hok.elim
  failLate _ _ _ hw _ := hw.elim
  swallow _ _ _ _ hok _ := hok.elim
  spawn _ _ args _ _ hw := restCalm_spawn args hw
  deliver _ _ _ _ _ _ _ hw hmem hkid := restJoining_deliver hw hmem hkid.1
  deliverCancelled _ _ _ _ _ _ _ _ hkid := hkid.2 rfl
  cancelJoin _ _ _ _ _ hok := hok.elim
  joined _ _ hw := ⟨hw.1.waiting_eq_nil, hw.2⟩
  sequence Γ disabled ids :=
    (restSequence E .main Γ disabled ids).frame (restLogic_saveLaws E)
      (R := fun w => Γ.waiting = [] ∧ KidsIdle Γ w)
      ⟨fun w w' hcore hw => ⟨hw.1, (kidsIdle_stands (E := E) Γ).steady w w' hcore hw.2⟩,
        fun t' w w' hriv hi hi' hguar hw =>
          ⟨hw.1, kidsIdle_stable Γ t' w w' hriv hi hi' hguar hw.2⟩⟩
      (fun w w' hguar hw => ⟨hw.1, kidsIdle_keep Γ w w' hguar hw.2⟩)
  sequence_head _ _ _ _ _ hw := ⟨hw.2.1, hw.1, hw.2.2⟩
  sequence_done _ _ _ _ _ _ hw := ⟨hw.2.1, hw.1, hw.2.2⟩
  sequence_cancelled _ _ _ _ _ hw := hw.1.elim
  sequence_raised _ _ _ _ _ _ hw := ⟨hw.2.1, hw.1, hw.2.2⟩

lemma restLogic_laws (E : Env) : (restLogic E).Laws where
  guar_refl t w := (Quiet.refl w).guar t
  guar_trans _ _ _ _ h h' :=
    ⟨fun t' ht' => (h'.1 t' ht').trans (h.1 t' ht'), h.2.trans h'.2⟩
  kidPre_stable i _ _ _ _ hriv _ _ hguar hw := (hguar.1 (.kid i) hriv.ne.symm).trans hw
  kidPost_stable i _ _ _ _ _ hriv _ _ hguar hw :=
    ⟨(hguar.1 (.kid i) hriv.ne.symm).trans hw.1, hw.2⟩
  kid_wp i a w hinv hw := by
    refine (restLogic E).wp_mono _ ?_ _ _
      ((restSequence E (.kid i) (Ctx.empty engineSig) a.disabled a.nodes).wp_executeNodeSequence
        (restLogic_saveLaws E) rfl hinv hw)
    rintro Γ r w ⟨rfl, hi, hr⟩
    match r, hr with
    | .ok _, hr => exact ⟨hi, hr, nofun⟩
    | .error (.error _), hr => exact ⟨hi, hr, fun h => by cases h⟩
    | .error .cancelled, hr => exact hr.elim

/-- A run without cancellation, without a wait that fails while an attempt is
open, and without a rejected product that is sent back. -/
def Orderly (E : Env) {α : Type} (c : Config engineSig α) : Move engineSig → Prop
  | .answer t r => ∀ op, Machine.pendingOp? c t = some op → OrderlyAnswer E t op r c.state
  | .cancelJoin => False
  | _ => True

lemma Orderly.permits {α : Type} (c : Config engineSig α) (m : Move engineSig)
    (h : Orderly E c m) : (restLogic E).permits c m := by
  cases m with
  | answer => exact h
  | cancelJoin => exact h
  | event => exact fun _ _ => trivial
  | _ => trivial

end

/-! ## A rejected approval -/

def quietMove : Move engineSig → Bool
  | .answer _ (.ok .done) => true
  | .answer _ (.ok (.result result)) => result.status != .rejected
  | .answer _ (.error _) => false
  | .cancelJoin => false
  | _ => true

lemma orderly_of_quietMove {α : Type} (c : Config engineSig α) {m : Move engineSig}
    (h : quietMove m = true) : Orderly E c m := by
  match m, h with
  | .answer _ (.ok .done), _ => exact fun _ _ => trivial
  | .answer _ (.ok (.result result)), h =>
    rintro op _ a rfl ⟨_, _, _, _, _, hrej, _⟩
    simp [quietMove, hrej] at h
  | .tick, _ => trivial
  | .event _ _, _ => trivial
  | .start _, _ => trivial
  | .deliver _, _ => trivial

def uncancelled : Move engineSig → Bool
  | .answer _ (.error .cancelled) => false
  | .cancelJoin => false
  | _ => true

def reviewed : WorkflowDef where
  nodes := [{ id := "work" }, { id := "review", nodeType := "approval" }, { id := "other" }]
  gateways := [{ id := "fork", gatewayType := .parallel, convergeGatewayId := some "join" },
    { id := "join", gatewayType := .converge }]
  edges := [{ source := "__start__", target := "fork" }, { source := "fork", target := "work" },
    { source := "fork", target := "other" }, { source := "work", target := "review" },
    { source := "review", target := "join" }, { source := "other", target := "join" },
    { source := "join", target := "__end__" }]

def reviewedWorld : World where
  task := {}
  sessions := { registered := ["agent session"] }

/-- The agent finishes; the approval ends with `status`. -/
def reviewBranch (status : ResultStatus) : List (Move engineSig) :=
  [proceed .main, .start 0] ++ save (.kid 0)
    ++ [finish (.kid 0) { sessionId := "agent session" }] ++ save (.kid 0) ++ save (.kid 0)
    ++ [finish (.kid 0) { status := status }]

def otherBranch : List (Move engineSig) :=
  [.start 1] ++ save (.kid 1) ++ [finish (.kid 1) {}] ++ save (.kid 1)
    ++ [.deliver 0, .deliver 1, proceed .main]

end DeterminFlow.Engine
