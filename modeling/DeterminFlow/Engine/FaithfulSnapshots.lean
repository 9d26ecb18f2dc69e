/-
  Engine.FaithfulSnapshots
  **WHAT A CRASH FINDS OF THE RUNNING NODES.**

  Every snapshot a run saves shows a running node with the number and the
  input of the attempt that runs, and no attempt count lower than in an
  earlier snapshot, provided that nothing is saved while the reject callback
  has put an older object of a node back, that no two tasks work on one
  node, and that no rejected product goes back to a live session.
-/
import DeterminFlow.Engine.FaithfulSequence

namespace DeterminFlow.Engine

open Library Coop Workflow DeterminFlow.Runtime List Option

/-! ## The control flow -/

section
variable (E : Env)

/-- **The control flow keeps the invariant.** -/
def keptFlow : FlowSpec (keptLogic E) where
  calm _ _ := True
  joining _ _ _ := True
  cancelled _ _ := True
  calm_stands _ := stands_of_promise (fun _ _ _ _ _ _ => trivial)
  cancelled_stands _ := stands_of_promise (fun _ _ _ _ _ _ => trivial)
  joining_stable _ _ _ _ _ _ _ _ _ _ := trivial
  guar_trans _ _ _ h h' := h.trans h'
  flow _ w w' hstep hinv _ := by
    have hpromise : Promise E .main w w' :=
      promise_flowStep hstep (fun hunmixed => (hinv hunmixed).toBase)
    exact ⟨hpromise, fun hunmixed => (hinv (hunmixed.of_suffix hpromise.log)).flowStep hstep,
      trivial⟩
  cancel _ _ _ _ _ := trivial
  failLate _ _ _ _ _ := trivial
  swallow _ _ _ _ _ _ := trivial
  spawn _ _ _ _ _ _ := ⟨trivial, fun _ _ => trivial⟩
  deliver _ _ _ _ _ _ _ _ _ _ := trivial
  deliverCancelled _ _ _ _ _ _ _ _ _ := trivial
  cancelJoin _ _ _ _ _ _ := ⟨trivial, trivial⟩
  joined _ _ _ := trivial
  sequence Γ disabled ids := keptSequence E .main Γ disabled ids
  sequence_head _ _ _ _ _ _ := trivial
  sequence_done _ _ _ _ _ _ _ := trivial
  sequence_cancelled _ _ _ _ _ _ := trivial
  sequence_raised _ _ _ _ _ _ _ := trivial

lemma keptLogic_laws : (keptLogic E).Laws where
  guar_refl t w := .refl t w
  guar_trans _ _ _ _ h h' := h.trans h'
  kidPre_stable _ _ _ _ _ _ _ _ _ _ := trivial
  kidPost_stable _ _ _ _ _ _ _ _ _ _ _ := trivial
  kid_wp i a w hinv _ := by
    refine (keptLogic E).wp_mono _ ?_ _ _
      ((keptSequence E (.kid i) (Ctx.empty engineSig) a.disabled a.nodes).wp_executeNodeSequence
        keptLogic_saveLaws rfl hinv trivial)
    rintro Γ r w ⟨rfl, hi, -⟩
    exact ⟨hi, trivial⟩

end

/-! ## Snapshots -/

/-- The memory of a task that has just been read: one object for each node. -/
structure Loaded (w : World) : Prop where
  log : w.log = []
  attempts : w.attempts = []
  snapshots : w.snapshots = []
  objects : ∀ n, w.current? n = none ∧ w.allocated n = 0 ∨
    w.current? n = some 0 ∧ w.allocated n = 1

/-- **What the next snapshot shows**: running nodes with the number and the
input of the attempt that runs, and no lower attempt count than before. -/
structure Faithful (w : World) : Prop where
  running : ∀ n s, w.snapshot.nodeStates.get? n = some s → s.status = .running →
    1 ≤ s.attemptCount ∧ ∃ input, runningAttempt n w.log = some (s.attemptCount, input) ∧
      SameInput s.inputSnapshot input
  counts : ∀ data ∈ w.snapshots, ∀ n old, data.nodeStates.get? n = some old →
    ∃ s, w.snapshot.nodeStates.get? n = some s ∧ old.attemptCount ≤ s.attemptCount

lemma get?_snapshot (w : World) (n : String) :
    w.snapshot.nodeStates.get? n = (w.current? n).map (w.objects n) :=
  Dict.get?_mapValues _ _ n

/-- A save may be made: no two tasks have worked on one node, and no object
has been put back. -/
def CleanSave (E : Env) (w : World) : Prop := Unmixed E w.log ∧ ∀ n, ¬ PutBack w n

variable {E : Env} {w : World}

lemma Sound.faithful (h : Sound E w) (hback : ∀ n, ¬ PutBack w n) : Faithful w := by
  have hnewest : ∀ n r, w.current? n = some r → r + 1 = w.allocated n := by
    intro n r hr
    rcases h.entries n r hr with hnew | ⟨x, hx, hnode, hrejected, houter, -⟩
    · exact hnew
    exact absurd ⟨x, hx, hnode, hrejected, by rw [houter]; rfl, by rw [hr, houter]⟩ (hback n)
  constructor
  case running =>
    intro n _ hs hrun
    rw [get?_snapshot] at hs
    obtain ⟨r, hr, rfl⟩ := map_eq_some_iff.1 hs
    exact h.running n r (hnewest n r hr) hrun
  case counts =>
    intro data hdata n old hold
    obtain ⟨r, hr, hle⟩ := h.saved data hdata n old hold
    rw [get?_snapshot]
    cases hcur : w.current? n with
    | none =>
      rw [h.absent n hcur] at hr
      exact absurd hr (Nat.not_lt_zero r)
    | some k =>
      have hk := hnewest n k hcur
      exact ⟨w.objects n k, rfl, hle.trans (h.grow n r k (by omega) (by omega))⟩

lemma Loaded.sound (h : Loaded w) (hstart : ∀ n, w.statusOf n ≠ some .running) : Sound E w := by
  have hentry : ∀ n r, w.current? n = some r → r + 1 = w.allocated n := by
    intro n r hr
    rcases h.objects n with ⟨hnone, -⟩ | ⟨hzero, hone⟩
    · rw [hnone] at hr
      cases hr
    rw [hzero] at hr
    rw [hone, ← some.inj hr]
  have hobject : ∀ n r, r < w.allocated n → w.current? n = some 0 ∧ r = 0 := by
    intro n r hr
    rcases h.objects n with ⟨-, hzero⟩ | ⟨hcur, hone⟩
    · omega
    exact ⟨hcur, by omega⟩
  constructor
  case toBase =>
    constructor
    case entry =>
      intro n r hr
      rw [← hentry n r hr]
      exact Nat.lt_succ_self r
    case absent =>
      intro n hn
      rcases h.objects n with ⟨-, hzero⟩ | ⟨hcur, -⟩
      · exact hzero
      rw [hcur] at hn
      cases hn
    case grow =>
      intro n r r' hle hlt
      have hr := (hobject n r (hle.trans_lt hlt)).2
      have hr' := (hobject n r' hlt).2
      rw [hr, hr']
    case outer =>
      rw [h.attempts]
      exact nofun
    case known =>
      rw [h.attempts]
      exact nofun
    case worked =>
      rw [h.log]
      exact nofun
    case saved =>
      rw [h.snapshots]
      exact nofun
  case running =>
    intro n r hr hrun
    obtain ⟨hcur, rfl⟩ := hobject n r (by omega)
    exact absurd (World.statusOf_eq_some.2 ⟨0, hcur, hrun⟩) (hstart n)
  case entries => exact fun n r hr => .inl (hentry n r hr)

/-! ## Runs -/

section
variable (E : Env)

def SavesAt {α : Type} (c : Config engineSig α) : Move engineSig → Prop
  | .answer t (.ok .done) => Machine.pendingOp? c t = some .saveLock
  | .event _ .saveStart => True
  | _ => False

/-- **The condition on a move**: snapshots are only taken by clean saves; a
rejected product is not sent back, nor a rejected node executed again that is
the rejecting node itself or whose object has been put back. -/
def Kept {α : Type} (c : Config engineSig α) : Move engineSig → Prop
  | .answer t r => ∀ op, Machine.pendingOp? c t = some op → KeptAnswer E op r c.state ∧
      (op = .saveLock → r = .ok .done → CleanSave E c.state)
  | .event _ .saveStart => CleanSave E c.state
  | _ => True

variable {E} {α : Type} {c : Config engineSig α} {m : Move engineSig}

lemma Kept.permits (c : Config engineSig α) (m : Move engineSig) (h : Kept E c m) :
    (keptLogic E).permits c m := by
  cases m with
  | answer => exact fun op hop => (h op hop).1
  | event => exact fun _ _ => trivial
  | cancelJoin => trivial
  | _ => trivial

lemma Kept.cleanSave (h : Kept E c m) (hsaves : SavesAt c m) : CleanSave E c.state := by
  match m, hsaves with
  | .answer t (.ok .done), hsaves => exact (h .saveLock hsaves).2 rfl rfl
  | .event t .saveStart, _ => exact h

lemma SavesAt.rests (hsaves : SavesAt c m) (hstep : ((engineMachine E).step c m).isSome) :
    c.running = none := by
  by_contra hrun
  match m, hsaves with
  | .answer t (.ok .done), _ => simp [Machine.step, hrun] at hstep
  | .event t .saveStart, _ => simp [Machine.step, hrun] at hstep

/-- **Every snapshot of a kept run is faithful**, whatever branches, attempts,
rejections, failures and cancellations it has. -/
theorem snapshots_faithful (E : Env) (fromNodeId : Option String) {w₀ : World}
    (hloaded : Loaded w₀) (hstart : ∀ n, w₀.statusOf n ≠ some .running)
    {c : Config engineSig Unit} {m : Move engineSig}
    (hrun : (engineMachine E).Reachable (Kept E) (Machine.initial w₀ (executeTask E fromNodeId)) c)
    (hm : Kept E c m) (hsaves : SavesAt c m)
    (hstep : ((engineMachine E).step c m).isSome) : Faithful c.state := by
  have hinv : (keptLogic E).inv w₀ := fun _ => hloaded.sound hstart
  have hcalm : (keptFlow E).Calm (Ctx.empty engineSig) w₀ := ⟨rfl, hinv, trivial⟩
  have hwp : (keptLogic E).wp .main (executeTask E fromNodeId)
      ((keptLogic E).mainQ (fun _ _ _ => True)) (Ctx.empty engineSig) w₀ := by
    refine (keptLogic E).wp_mono _ ?_ _ _
      ((keptFlow E).flows_executeTask keptLogic_saveLaws fromNodeId _ _ hcalm)
    intro _ r _ hr
    cases r with
    | _ => exact ⟨(keptLogic E).settled_of_fresh hr.1 hr.2.1, trivial⟩
  have hgood := (keptLogic E).sound (keptLogic_laws E)
    (fun _ _ _ _ _ _ _ _ _ _ _ => trivial) hinv hwp (hrun.mono _ Kept.permits)
  have hclean := hm.cleanSave hsaves
  have hsound : Sound E c.state := hgood.inv _ (hsaves.rests hstep) hclean.1
  exact hsound.faithful hclean.2

end

/-! ## A run in which a node is put back -/

def waitsFor (c : Config engineSig Unit) (t : Thread) : Option Op := Machine.pendingOp? c t

def LogEntry.thread? : LogEntry → Option Thread
  | .entered t _ => some t
  | .began t _ _ _ => some t
  | .rejected t _ _ => some t
  | .ended t _ _ => some t
  | _ => none

lemma unmixed_of_single {t : Thread} {log : List LogEntry}
    (h : log.all (fun entry => LogEntry.thread? entry == some t) = true) : Unmixed E log := by
  have hidle : ∀ (log : List LogEntry) (t' : Thread), t' ≠ t →
      log.all (fun entry => LogEntry.thread? entry == some t) = true →
      workOf E t' log = .idle := by
    intro log t' hne
    induction log with
    | nil => exact fun _ => rfl
    | cons entry log ih =>
      intro hall
      rw [all_cons, Bool.and_eq_true] at hall
      have hrest := ih hall.2
      cases entry <;> simp_all [LogEntry.thread?, workOf, Ne.symm hne]
  have hapart : ∀ log : List LogEntry,
      log.all (fun entry => LogEntry.thread? entry == some t) = true → Apart E log := by
    intro log hall t₁ t₂ hne _ hn hn'
    by_cases h₁ : t₁ = t
    · rw [hidle log t₂ (fun h₂ => hne (h₁.trans h₂.symm)) hall] at hn'
      cases hn'
    rw [hidle log t₁ h₁ hall] at hn
    cases hn
  induction log with
  | nil => trivial
  | cons entry log ih =>
    have hall := h
    rw [all_cons, Bool.and_eq_true] at hall
    cases entry with
    | reset => exact absurd hall.1 (by simp [LogEntry.thread?])
    | _ => exact ⟨ih hall.2, hapart _ h⟩

def draftChecked : WorkflowDef where
  nodes := [{ id := "draft" }, { id := "check" }, { id := "other" }]
  gateways := [{ id := "fork", gatewayType := .parallel, convergeGatewayId := some "join" },
    { id := "join", gatewayType := .converge }]
  edges := [{ source := "__start__", target := "fork" }, { source := "fork", target := "draft" },
    { source := "fork", target := "other" }, { source := "draft", target := "check" },
    { source := "check", target := "join" }, { source := "other", target := "join" },
    { source := "join", target := "__end__" }]

/-- The draft is finished, the check begins and rejects it; then the other
branch begins its node and is about to save. -/
def rejectThenSave : List (Move engineSig) :=
  [proceed .main, .start 0] ++ save (.kid 0) ++ [finish (.kid 0) {}] ++ save (.kid 0)
    ++ save (.kid 0) ++ [.event (.kid 0) (.reject "" ""), .start 1]

/-- **A sibling saves a node that has been put back**: the snapshot shows the
check running with no attempt, while its first attempt runs. -/
theorem putBack_saved : draftChecked.Accepted ∧ ∃ c,
      (engineMachine (plainEnv draftChecked)).Reachable (fun _ m => uncancelled m = true)
        (launch (plainEnv draftChecked) { task := {} }) c
      ∧ SavesAt c (proceed (.kid 1))
      ∧ ((engineMachine (plainEnv draftChecked)).step c (proceed (.kid 1))).isSome
      ∧ (c.state.stateOf "check").map (fun s => (s.status, s.attemptCount)) = some (.running, 0)
      ∧ (runningAttempt "check" c.state.log).map (·.1) = some 1
      ∧ ¬ Faithful c.state := by
  have hend : ((engineMachine (plainEnv draftChecked)).replay 100
      (launch (plainEnv draftChecked) { task := {} }) rejectThenSave).map
        (fun c => (waitsFor c (.kid 1),
          ((engineMachine (plainEnv draftChecked)).step c (proceed (.kid 1))).isSome,
          (c.state.stateOf "check").map (fun s => (s.status, s.attemptCount)),
          (runningAttempt "check" c.state.log).map (·.1)))
      = some (some .saveLock, true, some (.running, 0), some 1) := by
    decide +kernel
  obtain ⟨c, hc, hfacts⟩ := map_eq_some_iff.1 hend
  simp only [Prod.mk.injEq] at hfacts
  obtain ⟨hop, hstep, hstate, hattempt⟩ := hfacts
  have hmoves : rejectThenSave.all uncancelled = true := by decide
  have hrun : (engineMachine (plainEnv draftChecked)).Reachable (fun _ m => uncancelled m = true)
      (launch (plainEnv draftChecked) { task := {} }) c :=
    Machine.reachable_of_replay _ (by intro _; rfl)
      (fun m hm _ => all_eq_true.1 hmoves m hm) hc
  refine ⟨by decide, c, hrun, hop, hstep, hstate, hattempt, fun hfaithful => ?_⟩
  obtain ⟨s, hs, hfields⟩ := map_eq_some_iff.1 hstate
  obtain ⟨hstatus, hcount⟩ := Prod.mk.inj hfields
  have hshown : c.state.snapshot.nodeStates.get? "check" = some s := by
    exact (get?_snapshot c.state "check").trans hs
  have hpos := (hfaithful.running "check" s hshown hstatus).1
  rw [hcount] at hpos
  cases hpos

/-- The first save of the run is clean, and shows the draft running. -/
theorem draft_saved :
    ∃ c, (engineMachine (plainEnv draftChecked)).Reachable (Kept (plainEnv draftChecked))
        (launch (plainEnv draftChecked) { task := {} }) c
      ∧ c.state.statusOf "draft" = some .running ∧ Faithful c.state := by
  have hend : ((engineMachine (plainEnv draftChecked)).drive 100
      (launch (plainEnv draftChecked) { task := {} })).bind (fun b =>
        ((engineMachine (plainEnv draftChecked)).step b (proceed .main)).bind (fun b' =>
          ((engineMachine (plainEnv draftChecked)).replay 100 b' [.start 0]).map (fun c =>
            (waitsFor b .main, waitsFor c (.kid 0), c.state.statusOf "draft",
              ((engineMachine (plainEnv draftChecked)).step c (proceed (.kid 0))).isSome
                && c.state.log.all (fun entry => LogEntry.thread? entry == some (.kid 0))
                && c.state.attempts.all (fun x => x.rejected.isNone)))))
      = some (some .openMain, some .saveLock, some .running, true) := by
    decide +kernel
  obtain ⟨b, hb, hend⟩ := bind_eq_some_iff.1 hend
  obtain ⟨b', hb', hend⟩ := bind_eq_some_iff.1 hend
  obtain ⟨c, hc, hfacts⟩ := map_eq_some_iff.1 hend
  simp only [Prod.mk.injEq, Bool.and_eq_true] at hfacts
  obtain ⟨hopen, hop, hstatus, ⟨hstep, hlog⟩, hattempts⟩ := hfacts
  -- the only answer so far is that of the main session
  have hproceed : Kept (plainEnv draftChecked) b (proceed .main) := by
    intro op hpending
    obtain rfl := some.inj (hopen.symm.trans hpending)
    exact ⟨fun _ ha => (nomatch ha), fun ha => (nomatch ha)⟩
  have hfirst : (engineMachine (plainEnv draftChecked)).Reachable (Kept (plainEnv draftChecked))
      (launch (plainEnv draftChecked) { task := {} }) b' :=
    .step (Machine.reachable_of_drive _ (fun _ => trivial) hb) hproceed hb'
  have hrun : (engineMachine (plainEnv draftChecked)).Reachable (Kept (plainEnv draftChecked))
      (launch (plainEnv draftChecked) { task := {} }) c := by
    refine Machine.Reachable.trans _ hfirst (Machine.reachable_of_replay _ (fun _ => trivial) ?_ hc)
    intro _ hm _
    obtain rfl := mem_singleton.1 hm
    trivial
  have hclean : CleanSave (plainEnv draftChecked) c.state := by
    refine ⟨unmixed_of_single hlog, ?_⟩
    rintro n ⟨x, hx, -, hrejected, -⟩
    have hnone := all_eq_true.1 hattempts x hx
    rw [isNone_iff_eq_none.1 hnone] at hrejected
    cases hrejected
  have hsave : Kept (plainEnv draftChecked) c (proceed (.kid 0)) := by
    intro op hpending
    obtain rfl := some.inj (hop.symm.trans hpending)
    exact ⟨fun _ ha => (nomatch ha), fun _ _ => hclean⟩
  refine ⟨c, hrun, hstatus, ?_⟩
  refine snapshots_faithful (plainEnv draftChecked) none ⟨rfl, rfl, rfl, fun n => .inl ⟨rfl, rfl⟩⟩
    (fun n => ?_) hrun hsave hop hstep
  simp [World.statusOf, World.stateOf, World.current?, Dict.get?]

end DeterminFlow.Engine
