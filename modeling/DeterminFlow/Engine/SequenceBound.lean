/-
  Engine.SequenceBound
  **HOW OFTEN A SEQUENCE EXECUTES NODES.**

  Every turn of `_execute_node_sequence` that turns to a node executes it, and each
  execution beyond the length of the sequence is paid for by an accepted rejection or
  by the rollback of an approval.  Both are limited, so the loop ends.
-/
import DeterminFlow.Engine.SequenceCounts
import DeterminFlow.Library.Coop.Total

namespace DeterminFlow.Engine

open Library Coop Workflow DeterminFlow.Runtime List Option

/-! ## The specification -/

section
variable (E : Env) (ids : List String) (start : World)

def boundLogic : Logic (engineMachine E) where
  inv := Bounded E ids start
  guar _ _ _ := True
  kidPre _ _ _ := False
  kidPost _ _ _ _ := True
  answerOk _ _ _ _ := True
  eventOk _ _ _ _ := True
  cancelOk _ := True

lemma boundLogic_saveLaws : SaveLaws (boundLogic E ids start) where
  guar_core _ _ _ _ := trivial
  guar_note _ := trivial
  inv_idle w w' hstep h := bounded_steady w w' hstep.core_eq h
  inv_snapshot _ w h _ := bounded_steady w _ (core_takeSnapshot w) h
  inv_note _ h := h.of_log rfl

lemma boundLogic_laws : (boundLogic E ids start).Laws where
  guar_refl _ _ := trivial
  guar_trans _ _ _ _ _ _ := trivial
  kidPre_stable _ _ _ _ _ _ _ _ _ h := absurd h id
  kidPost_stable _ _ _ _ _ _ _ _ _ _ _ := trivial
  kid_wp _ _ _ _ h := absurd h id

variable {E ids start} {least : Nat} {w w' : World}

lemma stands_solo {P : World → Prop} (hP : Steady P) :
    Stands (boundLogic E ids start) .main (Ctx.empty engineSig) P where
  steady := hP
  stable t' s s' hrival := by
    obtain ⟨_, _, -, hmem⟩ := hrival
    cases hmem

lemma isRunning_event {p : Place} {a live : Nat} {e : Ev}
    (h : IsRunning E ids start least p a live w) (hfire : E.fire (.plugin a) e w = some w') :
    IsRunning E ids start least p a live w' := by
  have hsteady : ∀ v, core w = core v → IsRunning E ids start least p a live v := fun v hcore =>
    countedSpot_steady (.begun p a live {}) w v hcore h
  have hparts := h
  obtain ⟨-, -, -, x, -, -, hx, hnode, hlive, -⟩ := hparts
  by_cases hreject : ∃ reason target, e = .reject reason target
  · obtain ⟨reason, target, rfl⟩ := hreject
    have hcall : E.fire (.plugin a) (.reject reason target) w
        = x.outer.map (fun outer => (E.onRejectUpstream a x outer reason target w).2) := by
      show (w.attempts[a]?).bind _ = _
      rw [hx]
      rfl
    rw [hcall] at hfire
    obtain ⟨outer, houter, rfl⟩ := map_eq_some_iff.1 hfire
    rcases @onRejectUpstream_cases E a x outer reason target w with hsame | ⟨found, upstream, hopen,
      hcurrent, hfound, hlimit, haccepted⟩
    · rw [hsame]
      exact h
    rw [haccepted]
    exact isRunning_accept h hx houter hopen hcurrent hfound hlimit
  cases pluginStep_of_fire hx hfire with
  | land => exact hsteady _ (IdleStep.land w).core_eq
  | patch _ change =>
    rw [hnode, hlive]
    exact isRunning_patch h change
  | checkpoint =>
    rw [hnode, hlive]
    exact (isRunning_checkpoint h).attempt (fun _ => ⟨rfl, rfl, rfl, rfl⟩)
  | saveStart =>
    exact IsRunning.attempt (hsteady _ (core_takeSnapshot w)) (fun _ => ⟨rfl, rfl, rfl, rfl⟩)
  | saved =>
    exact IsRunning.attempt (hsteady _ (IdleStep.release w).core_eq) (fun _ => ⟨rfl, rfl, rfl, rfl⟩)
  | refused => exact absurd ⟨_, _, rfl⟩ hreject
  | accepted => exact absurd ⟨_, _, rfl⟩ hreject
  | _ => exact hsteady _ rfl

lemma afterPolicy_counted (spot : Spot) (h : countedSpot E ids start least spot w)
    (outcome : PolicyOutcome) : countedSpot E ids start least (.afterPolicy spot outcome) w := by
  cases outcome with
  | skipped => exact h
  | _ => exact countedSpot_bounded h

variable (disabled : List String)

/-- **The books, at every place of suspension.** -/
def countedSpec (E : Env) (ids : List String) (start : World) (least : Nat) :
    SequenceSpec (boundLogic E ids start) .main (Ctx.empty engineSig) disabled ids where
  spot := countedSpot E ids start least
  raised _ := Bounded E ids start
  ready := IsReady E ids start least
  executed := IsExecuted E ids start least
  held := IsHeld E ids start least 0
  counted := IsHeld E ids start least 1
  retried := IsRetried E ids start least
  stands p := stands_solo (countedSpot_steady p)
  raised_stands _ := stands_solo bounded_steady
  cancel _ _ _ h _ := Bounded.of_log (h.elim countedSpot_bounded id) rfl
  fail _ _ _ _ h _ _ := countedSpot_bounded h
  failLate _ _ h _ := h
  finish _ _ _ h := countedSpot_bounded h
  noNode i n w hid _ h := by
    obtain ⟨log, back, hbooks, -, hreach, hentered⟩ := h
    exact ⟨log, back, hbooks, lt_of_listed hid, by omega, hentered⟩
  skipDisabled i n w hid _ _ _ h := by
    have hnext := atHead_skipDisabled hid h
    exact ⟨trivial, countedSpot_bounded (p := .head (i + 1)) hnext, hnext⟩
  terminal i n w _ hid _ _ _ _ _ h := by
    have hnext := atHead_normalize hid h
    exact ⟨trivial, countedSpot_bounded (p := .head (i + 1)) hnext, hnext⟩
  blocked _ _ _ _ _ _ _ _ h := countedSpot_bounded h
  waiting _ _ _ _ _ _ h := countedSpot_bounded h
  enter i node w hid hnode _ _ _ h := ⟨trivial, (isReady_enter hid hnode h).relax⟩
  retry _ _ _ _ _ _ _ h := h
  failUnknown p w h hregistered := ⟨trivial, isExecuted_failUnknown hregistered h⟩
  begin p call w h _ houter _ hregistered := by
    have hrunning := isRunning_begin (t := .main) houter hregistered h
    exact ⟨trivial, countedSpot_bounded (p := .begun p _ _ {}) hrunning, hrunning⟩
  events p a live previous := by
    intro e w w' h _ _ hfire
    have hnext := isRunning_event h hfire
    exact ⟨trivial, countedSpot_bounded (p := .begun p a live previous) hnext, hnext⟩
  finishAttempt p a live previous w r result _ h _ _ _ := ⟨trivial, isExecuted_finish h⟩
  installOwn i node r e calls w h := ⟨trivial, isHeld_install h⟩
  pass i node e w h _ _ _ := ⟨h.bounded, h.atHead⟩
  policy i node e w outcome next h _ _ hcase := by
    have hnext := atHead_policy h hcase
    have hbounded := countedSpot_bounded (p := .head (i + 1)) hnext
    exact ⟨trivial, hbounded, afterPolicy_counted (.head (i + 1)) hnext outcome⟩
  policyRaises i node e w h _ := ⟨h.bounded, h.bounded⟩
  count i node e w h _ := ⟨trivial, isHeld_count h⟩
  endRejected i node e w h _ _ := by
    have hbounded : Bounded E ids start (failRejected node.id e.object w) :=
      Bounded.of_log (h.elim IsHeld.bounded IsHeld.bounded) rfl
    exact ⟨trivial, hbounded, hbounded⟩
  send i node e w upstreamId upstream h _ _ htype hpos hcount hlive :=
    ⟨h.bounded, isSending_send h htype hpos hcount hlive⟩
  rollBack i node r upstreamId upstream w _ h := by
    have hnext := atHead_rollBack h
    exact ⟨trivial, countedSpot_bounded (p := .head (i - 1)) hnext, hnext⟩
  lost i node e w upstreamId h _ _ := ⟨h.bounded, h.bounded⟩
  prepare i node e w upstream r h htarget hcurrent hnode := by
    have hready := isReady_prepare h htarget hcurrent hnode
    exact ⟨trivial, countedSpot_bounded (p := .retrying i node e.object upstream _) hready, hready⟩
  installUpstream i node r upstream retry e calls w h := ⟨trivial, trivial, isRetried_install h⟩
  passUpstream i node r upstream r' w h _ := by
    refine ⟨h.bounded, ?_⟩
    obtain ⟨hlt, -, -, -, log, back, hbooks, hreach, hentered⟩ := h
    exact ⟨log, back, hbooks, Nat.le_of_lt hlt, hreach, hentered⟩
  policyUpstream i node r upstream r' w outcome next h _ hcase := by
    have hnext := isSkipping_policy h hcase
    exact ⟨trivial, hnext.bounded, afterPolicy_counted (.skipping i node r) hnext outcome⟩
  policyUpstreamRaises i node r upstream r' w h _ := ⟨h.bounded, h.bounded⟩
  skipOwn i node r w _ h := by
    have hnext := atHead_skipWith h
    exact ⟨trivial, countedSpot_bounded (p := .head (i + 1)) hnext, hnext⟩

end

/-! ## A turn -/

section
variable {E : Env} {ids : List String} {start : World} {least : Nat} {w : World}

/-- **What a turn does to the place in the loop**: it moves on, or a node was turned to
once more. -/
def turnMoves (E : Env) (ids : List String) (start : World) (least i : Nat) :
    Except Exn Turn → World → Prop := fun r w =>
  match r with
  | .ok (.inl j) =>
    (j = i + 1 ∧ AtHead E ids start least j w) ∨ AtHead E ids start (least + 1) j w
  | _ => Bounded E ids start w

lemma wp_turn (disabled : List String) {i : Nat} (h : AtHead E ids start least i w) :
    (boundLogic E ids start).wp .main (sequenceTurn E .main disabled ids i)
      (fun Γ r w => Γ = Ctx.empty engineSig ∧ turnMoves E ids start least i r w)
      (Ctx.empty engineSig) w := by
  have hL := boundLogic_saveLaws E ids start
  let spec := countedSpec disabled E ids start least
  -- a turn without an attempt saves at the next place
  have hmoves : ∀ v, spec.spot (.head (i + 1)) v →
      (boundLogic E ids start).wp .main (saveTaskState >>= fun _ => (pure (.inl (i + 1)) : EngineProg Turn))
        (fun Γ r w => Γ = Ctx.empty engineSig ∧ turnMoves E ids start least i r w)
        (Ctx.empty engineSig) v := by
    intro v hv
    have hspot : countedSpot E ids start least (.head (i + 1)) v := hv
    refine spec.wp_save hL rfl (countedSpot_bounded hspot) hv (fun v _ hv => ⟨rfl, .inl ⟨rfl, hv⟩⟩) ?_
    exact fun e v hinv _ => ⟨rfl, hinv⟩
  unfold sequenceTurn
  cases hid : ids[i]? with
  | none => exact ⟨rfl, countedSpot_bounded (p := .head i) h⟩
  | some nodeId =>
    simp only
    cases hnode : E.node? nodeId with
    | none => exact ⟨rfl, .inl ⟨rfl, spec.noNode i nodeId w hid hnode h⟩⟩
    | some node =>
      obtain rfl : node.id = nodeId := WorkflowDef.getNode_id _ hnode
      simp only
      split
      · exact (boundLogic E ids start).wp_modify trivial (hmoves _ (atHead_skipDisabled hid h))
      refine (boundLogic E ids start).wp_get trivial ?_
      have hskips : (boundLogic E ids start).wp .main (Prog.modify (normalizeStatus node.id) >>= fun _ =>
          (pure (.inl (i + 1)) : EngineProg Turn))
          (fun Γ r w => Γ = Ctx.empty engineSig ∧ turnMoves E ids start least i r w)
          (Ctx.empty engineSig) w :=
        (boundLogic E ids start).wp_modify trivial ⟨rfl, .inl ⟨rfl, atHead_normalize hid h⟩⟩
      have hstops : Bounded E ids start w := countedSpot_bounded (p := .head i) h
      have hvisits : (boundLogic E ids start).wp .main (Prog.modify (enterNode .main node.id) >>= fun _ =>
          visitNode E .main ids i node (w.currentOrNext node.id))
          (fun Γ r w => Γ = Ctx.empty engineSig ∧ turnMoves E ids start least i r w)
          (Ctx.empty engineSig) w := by
        refine (boundLogic E ids start).wp_modify trivial ?_
        refine (boundLogic E ids start).wp_mono _ ?_ _ _
          ((countedSpec disabled E ids start (least + 1)).wp_visitNode hL rfl
            (isReady_enter hid hnode h))
        rintro Γ r v ⟨hΓ, hinv, hpost⟩
        refine ⟨hΓ, ?_⟩
        match r, hpost with
        | .ok (.inl j), hpost => exact .inr hpost
        | .ok (.inr outcome), _ => exact hinv
        | .error e, _ => exact hinv
      split
      · exact hskips
      · exact hskips
      · exact ⟨rfl, hstops⟩
      · exact ⟨rfl, hstops⟩
      · exact ⟨rfl, hstops⟩
      · exact ⟨rfl, hstops⟩
      exact hvisits

/-! A turn contains no loop. -/

theorem straight_saveTaskState : Prog.Straight saveTaskState := by
  refine .seq .wait (fun _ => .seq .modify (fun _ => ?_))
  intro r
  match r with
  | .ok _ => exact .modify
  | .error (.error _) => exact .seq .modify (fun _ => trivial)
  | .error .cancelled =>
    intro r
    match r with
    | .ok _ => exact .seq .modify (fun _ => trivial)
    | .error _ => exact .seq .modify (fun _ => trivial)

lemma straight_executeNode (node : WorkflowNode) (r : Nat) (call : Call) :
    (executeNode E .main node r call).Straight := by
  unfold executeNode
  split
  · exact .seq .modify (fun _ => trivial)
  intro _
  refine .seq straight_saveTaskState (fun _ => ?_)
  intro answer
  match answer with
  | .ok (.result _) => exact fun _ => trivial
  | .error (.error _) => exact fun _ => trivial
  | .error .cancelled => trivial
  | .ok .done => trivial

lemma straight_policy (node : WorkflowNode) (r : Nat) :
    (applyFailedNodePolicy E node r).Straight := by
  refine .seq .get (fun _ => ?_)
  split
  · trivial
  exact .seq .modify (fun _ => .seq straight_saveTaskState (fun _ => trivial))

lemma straight_afterAttempt (i : Nat) (node : WorkflowNode) (e : Executed) :
    (afterAttempt E .main ids i node e).Straight := by
  have hend : (endRejected node e.object).Straight :=
    .seq .modify (fun _ => .seq straight_saveTaskState (fun _ => trivial))
  have hpolicy : ∀ (node : WorkflowNode) (r : Nat) (next : PolicyOutcome → EngineProg Turn),
      (∀ outcome, (next outcome).Straight) →
      (applyFailedNodePolicy E node r >>= next).Straight := fun node r next hnext =>
    .seq (straight_policy node r) hnext
  unfold afterAttempt
  split
  · refine .seq .get (fun v => ?_)
    split
    · unfold handleRejected
      split
      · refine .seq .modify (fun _ => .seq .get (fun v => ?_))
        split
        · split
          · exact .seq .wait (fun _ => .seq .modify (fun _ =>
              .seq straight_saveTaskState (fun _ => trivial)))
          exact hend
        exact hend
      exact hend
    · refine hpolicy _ _ _ (fun outcome => ?_)
      cases outcome with
      | _ => trivial
    exact .seq straight_saveTaskState (fun _ => trivial)
  refine .seq .get (fun v => ?_)
  split
  · intro v
    refine .seq straight_saveTaskState (fun _ => .seq (straight_executeNode _ _ _) (fun _ =>
      .seq .modify (fun _ => .seq .modify (fun _ => .seq .get (fun v => ?_)))))
    split
    · refine hpolicy _ _ _ (fun outcome => ?_)
      cases outcome with
      | skipped => exact .seq .modify (fun _ => .seq straight_saveTaskState (fun _ => trivial))
      | _ => trivial
    exact .seq straight_saveTaskState (fun _ => trivial)
  trivial

lemma straight_turn (disabled : List String) (i : Nat) :
    (sequenceTurn E .main disabled ids i).Straight := by
  unfold sequenceTurn
  split
  · trivial
  split
  · trivial
  split
  · exact .seq .modify (fun _ => .seq straight_saveTaskState (fun _ => trivial))
  refine .seq .get (fun v => ?_)
  split
  · exact .seq .modify (fun _ => trivial)
  · exact .seq .modify (fun _ => trivial)
  · trivial
  · trivial
  · trivial
  · trivial
  exact .seq .modify (fun _ => .seq .get (fun v => .seq (straight_executeNode _ _ _) (fun _ =>
    .seq .modify (fun _ => straight_afterAttempt _ _ _))))

end

/-! ## A call -/

section
variable {E : Env} {ids : List String} {start : World} {w : World}

def turnLimit (E : Env) (ids : List String) (start : World) : Nat :=
  entered start.log + ids.length + 2 * (E.definition.nodes.length * largestLimit E)
    + 4 * (approvals E ids).length

def turnRank (E : Env) (ids : List String) (start : World) (i : Nat) (w : World) : Nat :=
  (turnLimit E ids start - entered w.log) * (ids.length + 1) + (ids.length - i)

lemma AtHead.entered_le {least i : Nat} (h : AtHead E ids start least i w) :
    entered w.log ≤ turnLimit E ids start := by
  obtain ⟨log, _, hbooks, _, hreach, _⟩ := h
  have hsplit : entered w.log = entered log + entered start.log := by
    rw [hbooks.log_eq]
    exact countP_append
  have hrejections := le_trans (length_le_rejectBudget hbooks.limited)
    (rejectBudget_le hbooks.known)
  have hrolls := rolls_le E ids hbooks.twice
  unfold slack at hreach
  unfold turnLimit
  omega

lemma AtHead.least {least i : Nat} (h : AtHead E ids start least i w) :
    least ≤ entered w.log ∧ i ≤ ids.length := by
  obtain ⟨log, _, hbooks, hi, -⟩ := h
  exact ⟨hbooks.least, hi⟩

lemma AtHead.relax {least i : Nat} (h : AtHead E ids start least i w) {other : Nat}
    (hother : other ≤ entered w.log) : AtHead E ids start other i w := by
  obtain ⟨log, back, hbooks, hrest⟩ := h
  exact ⟨log, back, hbooks.relax hother, hrest⟩

lemma turnRank_lt {i j : Nat} {w' : World} (h : AtHead E ids start 0 i w)
    (hmoves : (j = i + 1 ∧ AtHead E ids start (entered w.log) j w')
      ∨ AtHead E ids start (entered w.log + 1) j w') :
    turnRank E ids start j w' < turnRank E ids start i w := by
  have hlimit := h.entered_le
  unfold turnRank
  rcases hmoves with ⟨rfl, hnext⟩ | hnext
  · obtain ⟨hleast, _⟩ := hnext.least
    have hle : turnLimit E ids start - entered w'.log ≤ turnLimit E ids start - entered w.log := by
      omega
    have hmul := Nat.mul_le_mul_right (ids.length + 1) hle
    omega
  obtain ⟨hleast, -⟩ := hnext.least
  have hlimit' := hnext.entered_le
  have hle : turnLimit E ids start - entered w'.log + 1 ≤ turnLimit E ids start - entered w.log := by
    omega
  have hmul := Nat.mul_le_mul_right (ids.length + 1) hle
  rw [Nat.succ_mul] at hmul
  omega

lemma atHead_start (E : Env) (ids : List String) (start : World) :
    AtHead E ids start 0 0 start := by
  refine ⟨[], fun _ => 0, ⟨rfl, Nat.zero_le _, nofun,
    fun _ => Nat.zero_le _, fun _ => Nat.zero_le _, fun _ => Nat.zero_le _, fun _ => Nat.zero_le _⟩,
    Nat.zero_le _, Nat.zero_le _, Nat.zero_le _⟩

/-- **A call of `_execute_node_sequence` ends**, on every list of nodes and every task,
whatever the plugins do, reject and return; and it executes at most as many nodes as
the list is long, two more for each rejection that the rejecting nodes may place on a
target, and two more for each rollback of an approval, of which each has two. -/
theorem sequence_bounded (E : Env) (disabled ids : List String) (start : World) :
    (engineMachine E).Ends .main
        (fun _ w => ∃ log, w.log = log ++ start.log ∧ executions E log ≤ executionBound E ids log)
        (executeNodeSequence E .main disabled ids) start
      ∧ ∀ c, (engineMachine E).Reachable (fun _ _ => True)
          (Machine.initial start (executeNodeSequence E .main disabled ids)) c → c.running = none →
        ∃ log, c.state.log = log ++ start.log ∧ executions E log ≤ executionBound E ids log := by
  have hstart := atHead_start E ids start
  have hbounded : Bounded E ids start start := countedSpot_bounded (p := .head 0) hstart
  constructor
  · refine Machine.Ends.repeatUntil (fun i w => AtHead E ids start 0 i w) (turnRank E ids start) ?_
      hstart
    intro i w h
    have hwp := wp_turn disabled (h.relax le_rfl)
    refine (ends_of_wp (boundLogic E ids start) rfl (fun _ _ _ => trivial) (fun _ _ _ => trivial)
      (straight_turn disabled i) hwp).mono ?_
    rintro r w' ⟨-, hmoves⟩
    match r, hmoves with
    | .ok (.inl j), hmoves =>
      refine ⟨?_, turnRank_lt h hmoves⟩
      rcases hmoves with ⟨-, hnext⟩ | hnext
      all_goals exact hnext.relax (Nat.zero_le _)
    | .ok (.inr outcome), hmoves => exact hmoves
    | .error e, hmoves => exact hmoves
  intro c hreach hrest
  have hwp := (countedSpec disabled E ids start 0).wp_executeNodeSequence
    (boundLogic_saveLaws E ids start) rfl hbounded hstart
  have hmain : (boundLogic E ids start).wp .main (executeNodeSequence E .main disabled ids)
      ((boundLogic E ids start).mainQ (fun _ _ _ => True)) (Ctx.empty engineSig) start := by
    refine (boundLogic E ids start).wp_mono _ ?_ _ _ hwp
    rintro Γ r v ⟨rfl, hinv, -⟩
    exact ⟨(boundLogic E ids start).settled_of_fresh rfl hinv, trivial⟩
  have hpermits : ∀ (c : Config engineSig Outcome) m, True →
      (boundLogic E ids start).permits c m := by
    intro c m _
    cases m with
    | answer => exact fun _ _ => trivial
    | event => exact fun _ _ => trivial
    | _ => trivial
  have hgood := (boundLogic E ids start).sound (boundLogic_laws E ids start)
    (fun _ _ _ _ _ _ _ _ _ _ _ => trivial) hbounded hmain (hreach.mono _ hpermits)
  exact hgood.inv _ hrest

/-! An approval behind a disabled node. -/

/-- `review` approves what `draft` has written. -/
def approvalFlow : WorkflowDef where
  nodes := [{ id := "draft" }, { id := "review", nodeType := "approval" }]
  edges := [{ source := "__start__", target := "draft" }, { source := "draft", target := "review" },
    { source := "review", target := "__end__" }]

/-- `draft` is disabled, and its session of an earlier run is still registered. -/
def oldDraft : World where
  task := { nodeStates := [("draft", 0)] }
  objects := fun _ _ => { nodeId := "draft", sessionId := "s" }
  allocated := fun n => if n = "draft" then 1 else 0
  sessions := { registered := ["s"] }

/-- `draft` is skipped, and `review` rejects. -/
def approvalRejects : List (Move engineSig) :=
  save .main ++ save .main ++ [finish .main { status := .rejected }]

def approvalRejectsThrice : List (Move engineSig) :=
  approvalRejects ++ [proceed .main] ++ save .main ++ approvalRejects ++ [proceed .main] ++ save .main
    ++ approvalRejects ++ save .main

/-- **A rejected approval is executed again**: the sequence has two nodes, of which one
is disabled, no upstream node is rejected, and three nodes are executed. -/
theorem rejected_approval_reexecutes :
    ∃ c, (engineMachine (plainEnv approvalFlow)).Reachable (fun _ _ => True)
        (Machine.initial oldDraft
          (executeNodeSequence (plainEnv approvalFlow) .main ["draft"] ["draft", "review"])) c
      ∧ c.running = none ∧ c.main.result? = some (.ok .failed)
      ∧ executions (plainEnv approvalFlow) c.state.log = 3 ∧ rejections c.state.log = []
      ∧ ["draft", "review"].length + 2 * rejectBudget (plainEnv approvalFlow) (rejections c.state.log)
        < executions (plainEnv approvalFlow) c.state.log := by
  have hrun : ((engineMachine (plainEnv approvalFlow)).replay 200 (Machine.initial oldDraft
      (executeNodeSequence (plainEnv approvalFlow) .main ["draft"] ["draft", "review"]))
      approvalRejectsThrice).map (fun c => (c.running.isNone, c.main.result?.map (fun r => r.toOption),
        executions (plainEnv approvalFlow) c.state.log, rejections c.state.log))
      = some (true, some (some .failed), 3, []) := by
    decide +kernel
  obtain ⟨c, hc, hfacts⟩ := map_eq_some_iff.1 hrun
  simp only [Prod.mk.injEq, isNone_iff_eq_none] at hfacts
  obtain ⟨hrest, hresult, hexecutions, hrejections⟩ := hfacts
  have hreturned : c.main.result? = some (.ok .failed) := by
    obtain ⟨result, hsome, hok⟩ := map_eq_some_iff.1 hresult
    cases result with
    | ok outcome =>
      obtain rfl : outcome = .failed := some.inj hok
      exact hsome
    | error => cases hok
  refine ⟨c, ?_, hrest, hreturned, hexecutions, hrejections, ?_⟩
  · exact Machine.reachable_of_replay _ (fun _ => trivial) (fun _ _ _ => trivial) hc
  rw [hrejections, hexecutions]
  decide

end
end DeterminFlow.Engine
