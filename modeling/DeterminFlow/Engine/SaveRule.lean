/-
  Engine.SaveRule
  **WHAT STANDS WHILE A TASK IS SAVED.**

  Every suspension of the engine lets time pass, sessions change and other
  saves proceed.  An assertion that does not look at any of this (`Steady`)
  and that the rivals keep stands through a save, so a save is one step for
  the proofs about the engine: `wp_saveTaskState`.
-/
import DeterminFlow.Engine.TaskRun
import DeterminFlow.Runtime.WorldFacts
import DeterminFlow.Library.Coop.Rules

namespace DeterminFlow.Engine

open Library Coop Workflow DeterminFlow.Runtime Option

/-! ## What a save leaves alone -/

def core (w : World) : World :=
  { w with
    task := { w.task with updatedAt := "" }
    writing := none, landed := false, disk := none, writable := true
    sessions := {}, clock := "", snapshots := [] }

/-- The ways the world changes on its own while a task waits. -/
inductive IdleStep : World → World → Prop
  | clock (w : World) (now : Timestamp) : IdleStep w { w with clock := now }
  | sessions (w : World) (known : Sessions) : IdleStep w { w with sessions := known }
  | disk (w : World) (writable : Bool) : IdleStep w { w with writable := writable }
  | land (w : World) : IdleStep w w.land
  | release (w : World) : IdleStep w w.releaseSaveLock

variable {w' w : World}

lemma IdleStep.core_eq (h : IdleStep w w') : core w = core w' := by
  cases h with
  | land =>
    unfold World.land
    split <;> rfl
  | _ => rfl

lemma core_takeSnapshot (w : World) : core w = core w.takeSnapshot := rfl

def Steady (P : World → Prop) : Prop := ∀ w w', core w = core w' → P w → P w'

lemma current?_of_core (h : core w = core w') (n : String) : w.current? n = w'.current? n :=
  congrArg (fun x => x.task.nodeStates.get? n) h

lemma objects_of_core (h : core w = core w') : w.objects = w'.objects :=
  show (core w).objects = (core w').objects by rw [h]

lemma allocated_of_core (h : core w = core w') : w.allocated = w'.allocated :=
  show (core w).allocated = (core w').allocated by rw [h]

lemma attempts_of_core (h : core w = core w') : w.attempts = w'.attempts :=
  show (core w).attempts = (core w').attempts by rw [h]

lemma log_of_core (h : core w = core w') : w.log = w'.log :=
  show (core w).log = (core w').log by rw [h]

lemma stopping_of_core (h : core w = core w') : w.stopping = w'.stopping :=
  show (core w).stopping = (core w').stopping by rw [h]

lemma statusOf_of_core (h : core w = core w') (n : String) : w.statusOf n = w'.statusOf n := by
  unfold World.statusOf World.stateOf
  rw [current?_of_core h n, objects_of_core h]

/-! ## The rule for a save -/

section
variable {E : Env} (L : Logic (engineMachine E))

/-- What a logic has to say about idle steps, saves and cancellation. -/
structure SaveLaws : Prop where
  guar_core : ∀ t w w', core w = core w' → L.guar t w w'
  guar_note : ∀ w, L.guar .main w (noteCancelled w)
  inv_idle : ∀ w w', IdleStep w w' → L.inv w → L.inv w'
  inv_snapshot : ∀ t w, L.inv w → L.answerOk t .saveLock (.ok .done) w → L.inv w.takeSnapshot
  inv_note : ∀ w, L.inv w → L.inv (noteCancelled w)

/-- An assertion a task can hold while it is suspended. -/
structure Stands (t : Thread) (Γ : Ctx engineSig) (P : World → Prop) : Prop where
  steady : Steady P
  stable : L.Stable t Γ P

variable {L}

lemma SaveLaws.guar_refl (hL : SaveLaws L) (t : Thread) (w : World) : L.guar t w w :=
  hL.guar_core t w w rfl

lemma SaveLaws.guar_cancelNote (hL : SaveLaws L) (t : Thread) (w : World) :
    L.guar t w (cancelNote t w) := by
  cases t with
  | main => exact hL.guar_note w
  | kid => exact hL.guar_refl _ w

lemma SaveLaws.guar_settle (hL : SaveLaws L) (t : Thread) (op : Op) (r : Except Exn Resp)
    (w : World) : L.guar t w (settle t op r w) := by
  unfold settle
  split
  · exact hL.guar_cancelNote t w
  exact hL.guar_refl t w

lemma SaveLaws.inv_cancelNote (hL : SaveLaws L) (t : Thread) (w : World) (h : L.inv w) :
    L.inv (cancelNote t w) := by
  cases t with
  | main => exact hL.inv_note w h
  | kid => exact h

variable {P : World → Prop} {t : Thread} {w w' : World} {e : Ev} {op : Op} {x : Attempt} {a : Nat}
  {Γ : Ctx engineSig}

lemma SaveLaws.idle (hL : SaveLaws L) (hP : Steady P) (hstep : IdleStep w w') (hw : P w)
    (hinv : L.inv w) : L.guar t w w' ∧ L.inv w' ∧ P w' :=
  ⟨hL.guar_core t w w' hstep.core_eq, hL.inv_idle w w' hstep hinv, hP w w' hstep.core_eq hw⟩

def Op.plain : Op → Bool
  | .plugin _ => false
  | _ => true

lemma fire_plain (hop : op.plain = true) (hfire : E.fire op e w = some w') : IdleStep w w' := by
  cases op with
  | plugin => simp [Op.plain] at hop
  | write =>
    cases e with
    | clock now => obtain rfl := some.inj hfire; exact .clock w now
    | sessions known => obtain rfl := some.inj hfire; exact .sessions w known
    | disk b => obtain rfl := some.inj hfire; exact .disk w b
    | land => obtain rfl := some.inj hfire; exact .land w
    | _ => simp [Env.fire] at hfire
  | _ =>
    cases e with
    | clock now => obtain rfl := some.inj hfire; exact .clock w now
    | sessions known => obtain rfl := some.inj hfire; exact .sessions w known
    | disk b => obtain rfl := some.inj hfire; exact .disk w b
    | _ => simp [Env.fire] at hfire

lemma eventsKeep_plain (hL : SaveLaws L) (hop : op.plain = true) (hP : Steady P) :
    L.EventsKeep t op P := by
  intro _ _ _ hw hinv _ hfire
  exact hL.idle hP (fire_plain hop hfire) hw hinv

/-- What can happen while attempt `a`, which is `x`, runs. -/
inductive PluginStep (E : Env) (a : Nat) (x : Attempt) : Ev → World → World → Prop
  | clock (w : World) (now : Timestamp) :
      PluginStep E a x (.clock now) w { w with clock := now }
  | sessions (w : World) (known : Sessions) :
      PluginStep E a x (.sessions known) w { w with sessions := known }
  | disk (w : World) (writable : Bool) :
      PluginStep E a x (.disk writable) w { w with writable := writable }
  | patch (w : World) (p : LivePatch) :
      PluginStep E a x (.patch p) w (w.modifyObject x.node x.live p.apply)
  | checkpoint (w : World) :
      PluginStep E a x .checkpoint w ((w.install x.node x.live).modifyAttempt a
        (fun x => { x with queued := x.queued + 1 }))
  | saveStart (w : World) (hfree : w.writing.isNone) :
      PluginStep E a x .saveStart w (w.takeSnapshot.modifyAttempt a
        (fun x => { x with queued := x.queued - 1, saving := true }))
  | land (w : World) : PluginStep E a x .land w w.land
  | saved (w : World) (e : Ev) (he : e = .saveDone ∨ e = .saveFailed) :
      PluginStep E a x e w (w.releaseSaveLock.modifyAttempt a
        (fun x => { x with saving := false }))
  | refused (w : World) (reason targetNodeId : String) :
      PluginStep E a x (.reject reason targetNodeId) w w
  | accepted (w : World) (reason targetNodeId : String) (outer upstream : Nat)
      (upstreamId : String) (maxReject : Nat) (houter : x.outer = some outer)
      (hopen : x.rejected = none) (htarget : E.rejectTarget x.node targetNodeId = some upstreamId)
      (hcurrent : w.current? upstreamId = some upstream) (hnode : (E.node? upstreamId).isSome) :
      PluginStep E a x (.reject reason targetNodeId) w
        (acceptReject w a x outer upstream upstreamId reason maxReject)

lemma pluginStep_of_reject {outer : Nat} (houter : x.outer = some outer)
    (reason targetNodeId : String) (w : World) : PluginStep E a x (.reject reason targetNodeId) w
      (E.onRejectUpstream a x outer reason targetNodeId w).2 := by
  unfold Env.onRejectUpstream
  split
  · exact .refused w reason targetNodeId
  rename_i hopen
  split
  · exact .refused w reason targetNodeId
  rename_i upstreamId htarget
  split
  · exact .refused w reason targetNodeId
  rename_i upstream hcurrent
  split
  · exact .refused w reason targetNodeId
  rename_i hnode
  dsimp only
  split
  · exact .refused w reason targetNodeId
  exact .accepted w reason targetNodeId outer upstream upstreamId _ houter hopen htarget
    hcurrent (by simpa [isSome_iff_ne_none] using hnode)

lemma pluginStep_of_fire (hx : w.attempts[a]? = some x)
    (hfire : E.fire (.plugin a) e w = some w') : PluginStep E a x e w w' := by
  have hplugin : ∀ e, E.firePlugin a x w e = some w' → PluginStep E a x e w w' := by
    intro e hfire
    cases e with
    | patch p => obtain rfl := some.inj hfire; exact .patch w p
    | checkpoint => obtain rfl := some.inj hfire; exact .checkpoint w
    | saveStart =>
      simp only [Env.firePlugin] at hfire
      split at hfire
      · rename_i hcond
        obtain rfl := some.inj hfire
        exact .saveStart w hcond.1
      simp at hfire
    | land =>
      simp only [Env.firePlugin] at hfire
      split at hfire
      · obtain rfl := some.inj hfire; exact .land w
      simp at hfire
    | saveDone =>
      simp only [Env.firePlugin] at hfire
      split at hfire
      · obtain rfl := some.inj hfire; exact .saved w _ (.inl rfl)
      simp at hfire
    | saveFailed =>
      simp only [Env.firePlugin] at hfire
      split at hfire
      · obtain rfl := some.inj hfire; exact .saved w _ (.inr rfl)
      simp at hfire
    | reject reason targetNodeId =>
      obtain ⟨_, houter, rfl⟩ := map_eq_some_iff.1 hfire
      exact pluginStep_of_reject houter reason targetNodeId w
    | _ => simp [Env.firePlugin] at hfire
  cases e with
  | clock now => obtain rfl := some.inj hfire; exact .clock w now
  | sessions known => obtain rfl := some.inj hfire; exact .sessions w known
  | disk b => obtain rfl := some.inj hfire; exact .disk w b
  | _ => exact hplugin _ (by simpa [Env.fire, hx] using hfire)

lemma exists_pluginStep (hfire : E.fire (.plugin a) e w = some w') :
    ∃ x, PluginStep E a x e w w' := by
  cases hx : w.attempts[a]? with
  | some x => exact ⟨x, pluginStep_of_fire hx hfire⟩
  | none =>
    let x : Attempt := { owner := .main, node := "", live := 0, outer := none, input := [] }
    cases e with
    | clock now => obtain rfl := some.inj hfire; exact ⟨x, .clock w now⟩
    | sessions known => obtain rfl := some.inj hfire; exact ⟨x, .sessions w known⟩
    | disk b => obtain rfl := some.inj hfire; exact ⟨x, .disk w b⟩
    | _ => simp [Env.fire, hx] at hfire

lemma eventsKeep_plugin {L : Logic (engineMachine E)}
    (hP : ∀ w, P w → L.inv w → ∃ x, w.attempts[a]? = some x ∧
      ∀ e w', PluginStep E a x e w w' → L.eventOk t (.plugin a) e w →
        L.guar t w w' ∧ L.inv w' ∧ P w') : L.EventsKeep t (.plugin a) P := by
  intro e w w' hw hinv hok hfire
  obtain ⟨x, hx, hstep⟩ := hP w hw hinv
  exact hstep e w' (pluginStep_of_fire hx hfire) hok

lemma wp_plain (hL : SaveLaws L) (op : Op) (hop : op.plain = true) {α : Type}
    {next : Except Exn Resp → EngineProg α} {Q : Logic.Post engineSig α} (hΓ : Γ.fresh = [])
    (hP : Stands L t Γ P) (hinv : L.inv w) (hw : P w)
    (hanswer : ∀ r w', P w' → L.inv w' → accepts op r w' = true → L.answerOk t op r w' →
      L.wp t (next r) Q Γ (settle t op r w')) : L.wp t (.call op next) Q Γ w := by
  refine L.wp_call hΓ hinv hP.stable hw (eventsKeep_plain hL hop hP.steady) ?_
  intro r w' hw' hinv' hacc hok
  exact ⟨hL.guar_settle t op r w', hanswer r w' hw' hinv' hacc hok⟩

/-- **The rule for a save.**  `P` stands through it; a cancellation leaves
`C`, a write that fails with message `m` leaves `F m`. -/
theorem wp_saveTaskState (hL : SaveLaws L) {Q : Logic.Post engineSig Unit} (hΓ : Γ.fresh = [])
    {C : World → Prop} {F : String → World → Prop} (hP : Stands L t Γ P) (hC : Stands L t Γ C)
    (hF : ∀ m, Steady (F m))
    (hcancel : ∀ op w, P w ∨ C w → L.answerOk t op (.error .cancelled) w → C (cancelNote t w))
    (hfail : ∀ m w, P w ∨ C w → L.answerOk t .write (.error (.error m)) w → F m w) (hinv : L.inv w)
    (hw : P w) (hok : ∀ w, L.inv w → P w → Q Γ (.ok ()) w)
    (hcancelled : ∀ w, L.inv w → C w → Q Γ (.error .cancelled) w)
    (hfailed : ∀ m w, L.inv w → F m w → Q Γ (.error (.error m)) w) :
    L.wp t saveTaskState Q Γ w := by
  -- releasing the lock keeps every assertion around the save
  have hrelease : ∀ {A : World → Prop} (_ : Steady A) (w : World), L.inv w → A w →
      L.guar t w w.releaseSaveLock ∧ L.inv w.releaseSaveLock ∧ A w.releaseSaveLock :=
    fun hA w hi ha => hL.idle hA (.release w) ha hi
  refine wp_plain hL .saveLock rfl hΓ hP hinv hw ?_
  intro r w₁ hw₁ hinv₁ hacc₁ hok₁
  match r, hacc₁, hok₁ with
  | .ok .done, _, hok₁ =>
    show L.wp t (Prog.modify World.takeSnapshot >>= fun _ => Prog.call .write _) Q Γ w₁
    refine L.wp_modify (hL.guar_core t _ _ (core_takeSnapshot w₁)) ?_
    have hinv₂ := hL.inv_snapshot t w₁ hinv₁ hok₁
    have hw₂ : P w₁.takeSnapshot := hP.steady _ _ (core_takeSnapshot w₁) hw₁
    refine wp_plain hL .write rfl hΓ hP hinv₂ hw₂ ?_
    intro r w₃ hw₃ hinv₃ hacc₃ hok₃
    match r, hacc₃, hok₃ with
    | .ok _, _, _ =>
      obtain ⟨hg, hi, hp⟩ := hrelease hP.steady w₃ hinv₃ hw₃
      exact L.wp_modify_last hg (hok _ hi hp)
    | .error (.error m), _, hok₃ =>
      obtain ⟨hg, hi, hf⟩ := hrelease (hF m) w₃ hinv₃ (hfail m w₃ (.inl hw₃) hok₃)
      exact L.wp_modify hg (L.wp_raise (hfailed m _ hi hf))
    | .error .cancelled, _, hok₃ =>
      have hinv₄ := hL.inv_cancelNote t w₃ hinv₃
      have hw₄ := hcancel .write w₃ (.inl hw₃) hok₃
      refine wp_plain hL .write rfl hΓ hC hinv₄ hw₄ ?_
      intro r w₅ hw₅ hinv₅ hacc₅ hok₅
      match r, hacc₅, hok₅ with
      | .ok _, _, _ =>
        obtain ⟨hg, hi, hc⟩ := hrelease hC.steady w₅ hinv₅ hw₅
        exact L.wp_modify hg (L.wp_raise (hcancelled _ hi hc))
      | .error (.error m), _, hok₅ =>
        obtain ⟨hg, hi, hf⟩ := hrelease (hF m) w₅ hinv₅ (hfail m w₅ (.inr hw₅) hok₅)
        exact L.wp_modify hg (L.wp_raise (hfailed m _ hi hf))
      | .error .cancelled, _, hok₅ =>
        have hinv₆ := hL.inv_cancelNote t w₅ hinv₅
        have hw₆ := hcancel .write w₅ (.inr hw₅) hok₅
        obtain ⟨hg, hi, hc⟩ := hrelease hC.steady _ hinv₆ hw₆
        exact L.wp_modify hg (L.wp_raise (hcancelled _ hi hc))
  | .error .cancelled, _, hok₁ =>
    exact L.wp_raise (hcancelled _ (hL.inv_cancelNote t w₁ hinv₁)
      (hcancel .saveLock w₁ (.inl hw₁) hok₁))
  | .error (.error m), hacc₁, _ => simp [accepts] at hacc₁
  | .ok (.result _), hacc₁, _ => simp [accepts] at hacc₁

end
end DeterminFlow.Engine
