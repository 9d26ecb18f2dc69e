/-
  Engine.Updates
  **EVERYTHING THE ENGINE DOES TO A TASK.**

  Whatever the definition, the plugins and the interleaving of the branches,
  a run of `execute_task` changes the world by a few kinds of updates: those
  of the control flow, of node sequences, of running plugins, of saves, and
  what the world does on its own.
-/
import DeterminFlow.Engine.FlowRule
import DeterminFlow.Engine.RejectedUpstream

namespace DeterminFlow.Engine

open Library Coop Workflow DeterminFlow.Runtime

/-- One update of the engine. -/
inductive EngineStep (E : Env) : World → World → Prop
  | flow {w w' : World} (h : FlowStep w w') : EngineStep E w w'
  | sequence {w w' : World} (t : Thread) (h : SequenceStep E t w w') : EngineStep E w w'
  | plugin {w w' : World} (a : Nat) (x : Attempt) (e : Ev) (h : PluginStep E a x e w w') :
      EngineStep E w w'
  | idle {w w' : World} (h : IdleStep w w') : EngineStep E w w'
  | snapshot (w : World) : EngineStep E w w.takeSnapshot
  | cancel (w : World) : EngineStep E w (noteCancelled w)

abbrev EngineSteps (E : Env) : World → World → Prop := Relation.ReflTransGen (EngineStep E)

section
variable (E : Env) (start : World)

def trackLogic : Logic (engineMachine E) where
  inv := EngineSteps E start
  guar _ _ _ := True
  kidPre _ _ _ := True
  kidPost _ _ _ _ := True
  answerOk _ _ _ _ := True
  eventOk _ _ _ _ := True
  cancelOk _ := True

lemma trackLogic_saveLaws : SaveLaws (trackLogic E start) where
  guar_core _ _ _ _ := trivial
  guar_note _ := trivial
  inv_idle _ _ hstep hw := hw.tail (.idle hstep)
  inv_snapshot _ w hw _ := hw.tail (.snapshot w)
  inv_note w hw := hw.tail (.cancel w)

lemma stands_track (t : Thread) (Γ : Ctx engineSig) :
    Stands (trackLogic E start) t Γ (fun _ => True) :=
  ⟨fun _ _ _ _ => trivial, fun _ _ _ _ _ _ _ _ => trivial⟩

def trackSequence (t : Thread) (Γ : Ctx engineSig) (disabled ids : List String) :
    SequenceSpec (trackLogic E start) t Γ disabled ids :=
  uniformSpec (X := fun _ _ => True) (stands_track E start t Γ) (fun _ => stands_track E start t Γ)
    (fun _ _ _ _ => trivial) (fun _ _ _ => trivial) (fun _ _ _ _ => trivial)
    (fun _ _ hstep hw => ⟨trivial, hw.1.tail (.sequence t hstep), trivial⟩)
    (fun a x e _ _ hstep _ hw => ⟨trivial, hw.1.tail (.plugin a x e hstep), trivial⟩)

def trackFlow : FlowSpec (trackLogic E start) where
  calm _ _ := True
  joining _ _ _ := True
  cancelled _ _ := True
  calm_stands Γ := stands_track E start .main Γ
  cancelled_stands Γ := stands_track E start .main Γ
  joining_stable _ _ _ _ _ _ _ _ _ _ := trivial
  guar_trans _ _ _ _ _ := trivial
  flow _ _ _ hstep hw _ := ⟨trivial, hw.tail (.flow hstep), trivial⟩
  cancel _ _ _ _ _ := trivial
  failLate _ _ _ _ _ := trivial
  swallow _ _ _ _ _ _ := trivial
  spawn _ _ _ _ _ _ := ⟨trivial, fun _ _ => trivial⟩
  deliver _ _ _ _ _ _ _ _ _ _ := trivial
  deliverCancelled _ _ _ _ _ _ _ _ _ := trivial
  cancelJoin _ _ _ _ _ _ := ⟨trivial, trivial⟩
  joined _ _ _ := trivial
  sequence Γ disabled ids := trackSequence E start .main Γ disabled ids
  sequence_head _ _ _ _ _ _ := trivial
  sequence_done _ _ _ _ _ _ _ := trivial
  sequence_cancelled _ _ _ _ _ _ := trivial
  sequence_raised _ _ _ _ _ _ _ := trivial

lemma trackLogic_laws : (trackLogic E start).Laws where
  guar_refl _ _ := trivial
  guar_trans _ _ _ _ _ _ := trivial
  kidPre_stable _ _ _ _ _ _ _ _ _ _ := trivial
  kidPost_stable _ _ _ _ _ _ _ _ _ _ _ := trivial
  kid_wp i a w hinv _ := by
    refine (trackLogic E start).wp_mono _ ?_ _ _
      ((trackSequence E start (.kid i) (Ctx.empty engineSig) a.disabled a.nodes
        ).wp_executeNodeSequence (trackLogic_saveLaws E start) rfl hinv trivial)
    intro _ _ _ h
    exact ⟨h.2.1, trivial⟩

variable {E start}

/-- **A run makes these updates and no others.** -/
theorem engineSteps_of_run (fromNodeId : Option String)
    {permits : Config engineSig Unit → Move engineSig → Prop} {c : Config engineSig Unit}
    (hrun : (engineMachine E).Reachable permits
      (Machine.initial start (executeTask E fromNodeId)) c)
    (hrest : c.running = none) : EngineSteps E start c.state := by
  have hcalm : (trackFlow E start).Calm (Ctx.empty engineSig) start := ⟨rfl, .refl, trivial⟩
  have hflows := (trackFlow E start).flows_executeTask (trackLogic_saveLaws E start) fromNodeId
    _ _ hcalm
  have hwp : (trackLogic E start).wp .main (executeTask E fromNodeId)
      ((trackLogic E start).mainQ (fun _ _ _ => True)) (Ctx.empty engineSig) start := by
    refine (trackLogic E start).wp_mono _ ?_ _ _ hflows
    intro _ r _ hr
    cases r with
    | _ => exact ⟨(trackLogic E start).settled_of_fresh hr.1 hr.2.1, trivial⟩
  have hpermits : ∀ c m, permits c m → (trackLogic E start).permits c m := by
    intro c m _
    cases m with
    | answer => exact fun _ _ => trivial
    | event => exact fun _ _ => trivial
    | _ => trivial
  have hgood := (trackLogic E start).sound (trackLogic_laws E start)
    (fun _ _ _ _ _ _ _ _ _ _ _ => trivial) .refl hwp (hrun.mono _ hpermits)
  exact hgood.inv _ hrest

theorem engineSteps_of_run_checkFails : ∃ c, (engineMachine (plainEnv validated)).replay 200
      (launch (plainEnv validated) { task := {} }) checkFails = some c
      ∧ EngineSteps (plainEnv validated) { task := {} } c.state := by
  have hruns : ((engineMachine (plainEnv validated)).replay 200
      (launch (plainEnv validated) { task := {} }) checkFails).map (·.running) = some none := by
    decide +kernel
  obtain ⟨c, hc, hrest⟩ := Option.map_eq_some_iff.1 hruns
  have hrun : (engineMachine (plainEnv validated)).Reachable (fun _ _ => True) _ c :=
    Machine.reachable_of_replay _ (fun _ => trivial) (fun _ _ _ => trivial) hc
  exact ⟨c, hc, engineSteps_of_run none hrun hrest⟩

end
end DeterminFlow.Engine
