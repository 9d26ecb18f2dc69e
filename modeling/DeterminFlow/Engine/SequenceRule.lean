/-
  Engine.SequenceRule
  **THE PROOF RULE FOR A NODE SEQUENCE.**

  `_execute_node_sequence` suspends in a few kinds of places (`Spot`): before
  a turn of its loop, while an attempt runs, before a rejected upstream node
  is executed again, and so on.  A `SequenceSpec` names an assertion for each
  of them and says, update by update, how the sequence gets from one to the
  next; `wp_executeNodeSequence` puts the updates together.

  Every invariant of the engine is proved by one such specification.
-/
import DeterminFlow.Engine.SaveRule

namespace DeterminFlow.Engine

open Library Coop Workflow DeterminFlow.Runtime

/-! ## Places -/

/-- What an attempt is made for: the node of turn `i` on object `r`, or the
upstream node it has rejected, on object `retry`. -/
inductive Place where
  | own (i : Nat) (node : WorkflowNode) (r : Nat)
  | upstream (i : Nat) (node : WorkflowNode) (r : Nat) (rejected : WorkflowNode) (retry : Nat)

def Place.target : Place → WorkflowNode
  | .own _ node _ => node
  | .upstream _ _ _ rejected _ => rejected

def Place.object : Place → Nat
  | .own _ _ r => r
  | .upstream _ _ _ _ retry => retry

def Place.outer : Place → Option Nat
  | .own _ _ r => some r
  | .upstream .. => none

/-- Where a node sequence may be suspended. -/
inductive Spot where
  /-- Before turn `i`. -/
  | head (i : Nat)
  /-- Before it returns an outcome. -/
  | done (outcome : Outcome)
  /-- Attempt `a` runs on object `live`; `previous` is the state it began with. -/
  | begun (place : Place) (a live : Nat) (previous : NodeExecutionState)
  /-- A rejected upstream node is about to be executed again. -/
  | retrying (i : Nat) (node : WorkflowNode) (r : Nat) (rejected : WorkflowNode) (retry : Nat)
  /-- The upstream node has been skipped. -/
  | skipping (i : Nat) (node : WorkflowNode) (r : Nat)
  /-- A rejected product is being sent back. -/
  | sending (i : Nat) (node : WorkflowNode) (r : Nat) (upstreamId : String) (upstream : Nat)

def Spot.afterPolicy (skipped : Spot) : PolicyOutcome → Spot
  | .retryWaiting => .done .retryWaiting
  | .skipped => skipped
  | .failed => .done .failed

def resultOf : Except Exn Resp → Option NodeResult
  | .ok (.result result) => some result
  | .error (.error message) => some (failedResult message)
  | _ => none

lemma accepts_plugin_done (a : Nat) (w : World) : accepts (.plugin a) (.ok .done) w = false := by
  unfold accepts
  cases h : w.attempts[a]? <;> simp [h]

/-! ## Specifications -/

section
variable {E : Env} (L : Logic (engineMachine E)) (t : Thread) (Γ : Ctx engineSig)
  (disabled ids : List String)

/-- **A specification of a node sequence.** -/
structure SequenceSpec where
  /-- The assertion at each place of suspension. -/
  spot : Spot → World → Prop
  /-- What holds when an exception is raised. -/
  raised : Exn → World → Prop
  /-- Between entering a node and beginning its attempt. -/
  ready : Place → World → Prop
  /-- Between the end of an attempt and the installation of its object. -/
  executed : Place → Executed → World → Prop
  /-- After the installation of the object of the node itself. -/
  held : Nat → WorkflowNode → Executed → World → Prop
  /-- After one more rejection of the node has been counted. -/
  counted : Nat → WorkflowNode → Executed → World → Prop
  /-- After the installation of the object of a retried upstream node. -/
  retried : Nat → WorkflowNode → Nat → WorkflowNode → Nat → World → Prop
  stands : ∀ p, Stands L t Γ (spot p)
  raised_stands : ∀ e, Stands L t Γ (raised e)
  cancel : ∀ p op w, spot p w ∨ raised .cancelled w → L.answerOk t op (.error .cancelled) w →
    raised .cancelled (cancelNote t w)
  fail : ∀ p op m w, spot p w → (∀ a, op ≠ .plugin a) →
    L.answerOk t op (.error (.error m)) w → raised (.error m) w
  /-- A write fails after a cancellation: the failure is raised. -/
  failLate : ∀ m w, raised .cancelled w → L.answerOk t .write (.error (.error m)) w →
    raised (.error m) w
  -- turns without an attempt
  finish : ∀ i w, ids[i]? = none → spot (.head i) w → spot (.done .completed) w
  noNode : ∀ i n w, ids[i]? = some n → E.node? n = none → spot (.head i) w →
    spot (.head (i + 1)) w
  skipDisabled : ∀ i n w, ids[i]? = some n → (E.node? n).isSome → n ∈ disabled → L.inv w →
    spot (.head i) w → L.guar t w (skipDisabled n w) ∧ L.inv (skipDisabled n w) ∧
      spot (.head (i + 1)) (skipDisabled n w)
  terminal : ∀ i n w status, ids[i]? = some n → (E.node? n).isSome → n ∉ disabled →
    w.statusOf n = some status → status.normalize.terminal = true → L.inv w → spot (.head i) w →
    L.guar t w (normalizeStatus n w) ∧ L.inv (normalizeStatus n w) ∧
      spot (.head (i + 1)) (normalizeStatus n w)
  blocked : ∀ i n w status, ids[i]? = some n → w.statusOf n = some status →
    (status = .failed ∨ status = .rejected ∨ status = .running) → L.inv w → spot (.head i) w →
    spot (.done .failed) w
  waiting : ∀ i n w, ids[i]? = some n → w.statusOf n = some .retryWaiting → L.inv w →
    spot (.head i) w → spot (.done .retryWaiting) w
  -- an attempt
  enter : ∀ i node w, ids[i]? = some node.id → E.node? node.id = some node →
    node.id ∉ disabled →
    (∀ status, w.statusOf node.id = some status → status.normalize.terminal = false ∧
      status ≠ .failed ∧ status ≠ .rejected ∧ status ≠ .running ∧ status ≠ .retryWaiting) →
    L.inv w → spot (.head i) w →
    L.guar t w (enterNode t node.id w) ∧
      ready (.own i node (w.currentOrNext node.id)) (enterNode t node.id w)
  retry : ∀ i node r rejected retryObject w, L.inv w →
    spot (.retrying i node r rejected retryObject) w →
    ready (.upstream i node r rejected retryObject) w
  failUnknown : ∀ p w, ready p w → E.registered (nodeTypeOf p.target) = false →
    L.guar t w (failUnknownType t p.target p.object w) ∧
      executed p { object := p.object, rejected := none } (failUnknownType t p.target p.object w)
  begin : ∀ p call w, ready p w → call.order = ids → call.outer = p.outer →
    (∀ i node r, p = .own i node r → call.index = i) →
    E.registered (nodeTypeOf p.target) = true →
    L.guar t w (beginNodeAttempt E t p.target p.object call w) ∧
      L.inv (beginNodeAttempt E t p.target p.object call w) ∧
      spot (.begun p w.attempts.length (w.allocated p.target.id)
        (begunState E p.target p.object w)) (beginNodeAttempt E t p.target p.object call w)
  events : ∀ p a live previous, L.EventsKeep t (.plugin a) (spot (.begun p a live previous))
  finishAttempt : ∀ p a live previous w r result, L.inv w → spot (.begun p a live previous) w →
    accepts (.plugin a) r w = true → L.answerOk t (.plugin a) r w → resultOf r = some result →
    L.guar t w (finishAttempt t p.target.id live previous result w) ∧
      executed p { object := w.allocated p.target.id, rejected := (w.attempts[a]?).bind (·.rejected) }
        (finishAttempt t p.target.id live previous result w)
  -- the node itself, afterwards
  installOwn : ∀ i node r e calls w, executed (.own i node r) e w →
    L.guar t w (installExecuted node e.object calls w) ∧
      held i node e (installExecuted node e.object calls w)
  pass : ∀ i node e w, held i node e w → retryTarget E node.id e = none →
    (w.objects node.id e.object).status ≠ .failed →
    (w.objects node.id e.object).status ≠ .rejected → L.inv w ∧ spot (.head (i + 1)) w
  policy : ∀ i node e w outcome next, held i node e w → retryTarget E node.id e = none →
    (w.objects node.id e.object).status = .failed →
    failedNodePolicy E node w.clock (w.objects node.id e.object) = some (outcome, next) →
    L.guar t w (installPolicy node.id e.object next w) ∧
      L.inv (installPolicy node.id e.object next w) ∧
      spot (.afterPolicy (.head (i + 1)) outcome) (installPolicy node.id e.object next w)
  policyRaises : ∀ i node e w, held i node e w →
    failedNodePolicy E node w.clock (w.objects node.id e.object) = none →
    L.inv w ∧ raised (.error "_retry_deadline") w
  count : ∀ i node e w, held i node e w → (w.objects node.id e.object).status = .rejected →
    L.guar t w (countRejection node.id e.object w) ∧
      counted i node e (countRejection node.id e.object w)
  endRejected : ∀ i node e w, held i node e w ∨ counted i node e w →
    retryTarget E node.id e = none → (w.objects node.id e.object).status = .rejected →
    L.guar t w (failRejected node.id e.object w) ∧ L.inv (failRejected node.id e.object w) ∧
      spot (.done .failed) (failRejected node.id e.object w)
  send : ∀ i node e w upstreamId upstream, counted i node e w → retryTarget E node.id e = none →
    (w.objects node.id e.object).status = .rejected → node.nodeType = "approval" → 0 < i →
    (w.objects node.id e.object).rejectionCount < 3 →
    liveUpstreamSession ids i w = some (upstreamId, upstream) →
    L.inv w ∧ spot (.sending i node e.object upstreamId upstream) w
  rollBack : ∀ i node r upstreamId upstream w, L.inv w →
    spot (.sending i node r upstreamId upstream) w →
    L.guar t w (rollBackApproval node.id upstreamId r upstream w) ∧
      L.inv (rollBackApproval node.id upstreamId r upstream w) ∧
      spot (.head (i - 1)) (rollBackApproval node.id upstreamId r upstream w)
  -- a rejected upstream node
  lost : ∀ i node e w upstreamId, held i node e w →
    retryTarget E node.id e = some upstreamId →
    w.current? upstreamId = none ∨ E.node? upstreamId = none → L.inv w ∧ spot (.done .failed) w
  prepare : ∀ i node e w upstream r, held i node e w →
    retryTarget E node.id e = some upstream.id → w.current? upstream.id = some r →
    E.node? upstream.id = some upstream →
    L.guar t w (prepareUpstreamRetry upstream.id r w) ∧
      L.inv (prepareUpstreamRetry upstream.id r w) ∧
      spot (.retrying i node e.object upstream (w.allocated upstream.id))
        (prepareUpstreamRetry upstream.id r w)
  installUpstream : ∀ i node r upstream retryObject e calls w,
    executed (.upstream i node r upstream retryObject) e w →
    L.guar t w (installExecuted upstream e.object calls w) ∧
      L.guar t (installExecuted upstream e.object calls w)
        (awaitUpstream node.id r (installExecuted upstream e.object calls w)) ∧
      retried i node r upstream e.object
        (awaitUpstream node.id r (installExecuted upstream e.object calls w))
  passUpstream : ∀ i node r upstream r' w, retried i node r upstream r' w →
    (w.objects upstream.id r').status ≠ .failed → L.inv w ∧ spot (.head i) w
  policyUpstream : ∀ i node r upstream r' w outcome next, retried i node r upstream r' w →
    (w.objects upstream.id r').status = .failed →
    failedNodePolicy E upstream w.clock (w.objects upstream.id r') = some (outcome, next) →
    L.guar t w (installPolicy upstream.id r' next w) ∧
      L.inv (installPolicy upstream.id r' next w) ∧
      spot (.afterPolicy (.skipping i node r) outcome) (installPolicy upstream.id r' next w)
  policyUpstreamRaises : ∀ i node r upstream r' w, retried i node r upstream r' w →
    failedNodePolicy E upstream w.clock (w.objects upstream.id r') = none →
    L.inv w ∧ raised (.error "_retry_deadline") w
  skipOwn : ∀ i node r w, L.inv w → spot (.skipping i node r) w →
    L.guar t w (skipWithUpstream node.id r w) ∧ L.inv (skipWithUpstream node.id r w) ∧
      spot (.head (i + 1)) (skipWithUpstream node.id r w)

variable {L t Γ disabled ids}

/-! ## From updates to programs -/

namespace SequenceSpec

variable (spec : SequenceSpec L t Γ disabled ids)

def turnPost : Logic.Post engineSig Turn := fun Γ' r w =>
  Γ' = Γ ∧ L.inv w ∧
    match r with
    | .ok (.inl i) => spec.spot (.head i) w
    | .ok (.inr outcome) => spec.spot (.done outcome) w
    | .error e => spec.raised e w

variable (hL : SaveLaws L) (hΓ : Γ.fresh = [])
include hL hΓ

variable {w : World} {r i : Nat} {e : Executed}

lemma wp_save {α : Type} {p : Spot} {next : EngineProg α} {Q : Logic.Post engineSig α}
    (hinv : L.inv w) (hw : spec.spot p w) (hnext : ∀ w, L.inv w → spec.spot p w → L.wp t next Q Γ w)
    (hraise : ∀ e w, L.inv w → spec.raised e w → Q Γ (.error e) w) :
    L.wp t (saveTaskState >>= fun _ => next) Q Γ w := by
  refine L.wp_seq ?_
  exact wp_saveTaskState hL hΓ (P := spec.spot p) (C := spec.raised .cancelled)
    (F := fun m => spec.raised (.error m)) (spec.stands p) (spec.raised_stands .cancelled)
    (fun m => (spec.raised_stands (.error m)).steady)
    (fun op w hw hok => spec.cancel p op w hw hok)
    (fun m w hw hok => hw.elim (fun h => spec.fail p .write m w h (fun _ => nofun) hok)
      (fun h => spec.failLate m w h hok))
    hinv hw hnext (fun w hi hr => hraise _ w hi hr) (fun m w hi hr => hraise _ w hi hr)

def attemptPost (place : Place) : Logic.Post engineSig Executed := fun Γ' r w =>
  Γ' = Γ ∧
    match r with
    | .ok e => spec.executed place e w
    | .error e => L.inv w ∧ spec.raised e w

lemma wp_executeNode {place : Place} (call : Call) (hw : spec.ready place w)
    (horder : call.order = ids) (houter : call.outer = place.outer)
    (hindex : ∀ i node r, place = .own i node r → call.index = i) :
    L.wp t (executeNode E t place.target place.object call) (spec.attemptPost place) Γ w := by
  unfold executeNode
  split
  · rename_i hreg
    obtain ⟨hguar, hpost⟩ := spec.failUnknown place w hw hreg
    exact L.wp_modify hguar (L.wp_pure ⟨rfl, hpost⟩)
  rename_i hreg
  obtain ⟨hguar, hinv, hspot⟩ := spec.begin place call w hw horder houter hindex
    (by simpa using hreg)
  refine ⟨hguar, ?_⟩
  refine spec.wp_save hL hΓ hinv hspot ?_ (fun e w hi hr => ⟨rfl, hi, hr⟩)
  intro w₁ hinv₁ hw₁
  refine L.wp_call hΓ hinv₁ (spec.stands _).stable hw₁ (spec.events _ _ _ _) ?_
  intro r w₂ hw₂ hinv₂ hacc hok
  refine ⟨hL.guar_settle t (.plugin w.attempts.length) r w₂, ?_⟩
  replace hacc : accepts (.plugin w.attempts.length) r w₂ = true := hacc
  match r, hacc, hok with
  | .ok (.result result), hacc, hok =>
    obtain ⟨hg, hp⟩ := spec.finishAttempt _ _ _ _ w₂ _ result hinv₂ hw₂ hacc hok rfl
    exact ⟨hg, rfl, hp⟩
  | .error (.error m), hacc, hok =>
    obtain ⟨hg, hp⟩ := spec.finishAttempt _ _ _ _ w₂ _ (failedResult m) hinv₂ hw₂ hacc hok rfl
    exact ⟨hg, rfl, hp⟩
  | .error .cancelled, _, hok =>
    exact ⟨rfl, hL.inv_cancelNote t w₂ hinv₂, spec.cancel _ _ w₂ (.inl hw₂) hok⟩
  | .ok .done, hacc, _ => exact nomatch (accepts_plugin_done _ w₂).symm.trans hacc

lemma wp_policy {node : WorkflowNode} (skipped : Spot) {next : PolicyOutcome → EngineProg Turn}
    {Q : Logic.Post engineSig Turn}
    (hraises : failedNodePolicy E node w.clock (w.objects node.id r) = none →
      L.inv w ∧ spec.raised (.error "_retry_deadline") w) (hpolicy : ∀ outcome state,
      failedNodePolicy E node w.clock (w.objects node.id r) = some (outcome, state) →
      L.guar t w (installPolicy node.id r state w) ∧ L.inv (installPolicy node.id r state w) ∧
        spec.spot (.afterPolicy skipped outcome) (installPolicy node.id r state w))
    (hnext : ∀ outcome w, L.inv w → spec.spot (.afterPolicy skipped outcome) w →
      L.wp t (next outcome) Q Γ w) (hraise : ∀ e w, L.inv w → spec.raised e w → Q Γ (.error e) w) :
    L.wp t (applyFailedNodePolicy E node r >>= next) Q Γ w := by
  refine L.wp_seq ?_
  unfold applyFailedNodePolicy
  refine L.wp_get (hL.guar_refl t w) ?_
  cases hcase : failedNodePolicy E node w.clock (w.objects node.id r) with
  | none =>
    obtain ⟨hi, hr⟩ := hraises hcase
    exact L.wp_raise (hraise _ w hi hr)
  | some result =>
    obtain ⟨outcome, state⟩ := result
    obtain ⟨hg, hi, hspot⟩ := hpolicy outcome state hcase
    refine L.wp_modify hg ?_
    exact spec.wp_save hL hΓ hi hspot (fun w hi hs => L.wp_pure (hnext outcome w hi hs)) hraise

omit hL hΓ in
lemma turnPost_raised {e : Exn} (hi : L.inv w) (hr : spec.raised e w) :
    spec.turnPost Γ (.error e) w := ⟨rfl, hi, hr⟩

lemma wp_saveTurn (turn : Turn) (hinv : L.inv w)
    (hw : spec.spot (match turn with | .inl i => .head i | .inr outcome => .done outcome) w) :
    L.wp t (saveTaskState >>= fun _ => (pure turn : EngineProg Turn)) spec.turnPost Γ w := by
  refine spec.wp_save hL hΓ hinv hw ?_ (fun _ w => spec.turnPost_raised)
  intro w hi hs
  cases turn with
  | _ => exact ⟨rfl, hi, hs⟩

lemma wp_handleRejected {node : WorkflowNode} (hw : spec.held i node e w)
    (htarget : retryTarget E node.id e = none)
    (hstatus : (w.objects node.id e.object).status = .rejected) :
    L.wp t (handleRejected ids i node e.object) spec.turnPost Γ w := by
  have hend : ∀ w, spec.held i node e w ∨ spec.counted i node e w → (w.objects node.id e.object).status = .rejected →
      L.wp t (Engine.endRejected node e.object) spec.turnPost Γ w := by
    intro w hw hstatus
    obtain ⟨hg, hi, hs⟩ := spec.endRejected i node e w hw htarget hstatus
    exact L.wp_modify hg (spec.wp_saveTurn hL hΓ (.inr .failed) hi hs)
  unfold handleRejected
  split
  · rename_i hcond
    obtain ⟨hg, hcounted⟩ := spec.count i node e w hw hstatus
    have hstatus' : ((countRejection node.id e.object w).objects node.id e.object).status
        = .rejected := by
      unfold countRejection
      rw [World.objects_modifyObject_self]
      exact hstatus
    refine L.wp_modify hg (L.wp_get (hL.guar_refl t _) ?_)
    split
    · rename_i hcount
      cases hlive : liveUpstreamSession ids i (countRejection node.id e.object w) with
      | none => exact hend _ (.inr hcounted) hstatus'
      | some up =>
        obtain ⟨upstreamId, upstream⟩ := up
        obtain ⟨hi, hs⟩ := spec.send i node e _ upstreamId upstream hcounted htarget hstatus'
          hcond.1 hcond.2 hcount hlive
        show L.wp t (sendBack i node e.object upstreamId upstream _) spec.turnPost Γ _
        unfold sendBack
        refine L.wp_seq (wp_plain hL _ rfl hΓ (spec.stands _) hi hs ?_)
        intro r w₁ hw₁ hi₁ _ hok
        cases r with
        | ok =>
          obtain ⟨hg₁, hi₂, hs₂⟩ := spec.rollBack i node e.object upstreamId upstream w₁ hi₁ hw₁
          exact L.wp_modify hg₁ (spec.wp_saveTurn hL hΓ (.inl (i - 1)) hi₂ hs₂)
        | error e =>
          cases e with
          | cancelled =>
            exact spec.turnPost_raised (hL.inv_cancelNote t w₁ hi₁)
              (spec.cancel _ _ w₁ (.inl hw₁) hok)
          | error m =>
            exact spec.turnPost_raised hi₁
              (spec.fail _ (.enqueue _ _) m w₁ hw₁ (fun _ => nofun) hok)
    exact hend _ (.inr hcounted) hstatus'
  exact hend w (.inl hw) hstatus

lemma wp_handleStatus {node : WorkflowNode} (hw : spec.held i node e w)
    (htarget : retryTarget E node.id e = none) :
    L.wp t (handleStatus E ids i node e.object) spec.turnPost Γ w := by
  unfold handleStatus
  refine L.wp_get (hL.guar_refl t w) ?_
  by_cases hrej : (w.objects node.id e.object).status = .rejected
  · rw [hrej]
    exact spec.wp_handleRejected hL hΓ hw htarget hrej
  by_cases hfail : (w.objects node.id e.object).status = .failed
  · rw [hfail]
    refine spec.wp_policy hL hΓ (.head (i + 1)) (spec.policyRaises i node e w hw)
      (fun outcome state => spec.policy i node e w outcome state hw htarget hfail) ?_
      (fun e w => spec.turnPost_raised)
    intro outcome w hi hs
    cases outcome with
    | _ => exact ⟨rfl, hi, hs⟩
  obtain ⟨hi, hs⟩ := spec.pass i node e w hw htarget hfail hrej
  have hsave : L.wp t (saveTaskState >>= fun _ => (pure (.inl (i + 1)) : EngineProg Turn))
      spec.turnPost Γ w := spec.wp_saveTurn hL hΓ (.inl (i + 1)) hi hs
  split
  · exact absurd ‹_› hrej
  · exact absurd ‹_› hfail
  exact hsave

lemma wp_afterUpstream {node upstream : WorkflowNode} {r' : Nat}
    (hw : spec.retried i node r upstream r' w) :
    L.wp t (afterUpstream E i node upstream r r') spec.turnPost Γ w := by
  unfold afterUpstream
  refine L.wp_get (hL.guar_refl t w) ?_
  split
  · rename_i hfail
    refine spec.wp_policy hL hΓ (.skipping i node r)
      (spec.policyUpstreamRaises i node r upstream r' w hw)
      (fun outcome state => spec.policyUpstream i node r upstream r' w outcome state hw hfail) ?_
      (fun e w => spec.turnPost_raised)
    intro outcome w hi hs
    cases outcome with
    | skipped =>
      obtain ⟨hg, hi', hs'⟩ := spec.skipOwn i node r w hi hs
      exact L.wp_modify hg (spec.wp_saveTurn hL hΓ (.inl (i + 1)) hi' hs')
    | _ => exact ⟨rfl, hi, hs⟩
  rename_i hfail
  obtain ⟨hi, hs⟩ := spec.passUpstream i node r upstream r' w hw hfail
  exact spec.wp_saveTurn hL hΓ (.inl i) hi hs

lemma wp_afterAttempt {node : WorkflowNode} (hw : spec.held i node e w) :
    L.wp t (afterAttempt E t ids i node e) spec.turnPost Γ w := by
  unfold afterAttempt
  cases htarget : retryTarget E node.id e with
  | none => exact spec.wp_handleStatus hL hΓ hw htarget
  | some upstreamId =>
    refine L.wp_get (hL.guar_refl t w) ?_
    cases hcur : w.current? upstreamId with
    | none =>
      obtain ⟨hi, hs⟩ := spec.lost i node e w upstreamId hw htarget (.inl hcur)
      exact ⟨rfl, hi, hs⟩
    | some r =>
      cases hnode : E.node? upstreamId with
      | none =>
        obtain ⟨hi, hs⟩ := spec.lost i node e w upstreamId hw htarget (.inr hnode)
        exact ⟨rfl, hi, hs⟩
      | some upstream =>
        obtain rfl : upstream.id = upstreamId := WorkflowDef.getNode_id _ hnode
        obtain ⟨hg, hi, hs⟩ := spec.prepare i node e w upstream r hw htarget hcur hnode
        show L.wp t (retryUpstream E t ids i node upstream e.object r) spec.turnPost Γ w
        unfold retryUpstream
        refine ⟨hg, ?_⟩
        refine spec.wp_save hL hΓ hi hs ?_ (fun e w => spec.turnPost_raised)
        intro w₁ hi₁ hs₁
        have hready := spec.retry i node e.object upstream _ w₁ hi₁ hs₁
        refine L.wp_seq (L.wp_mono _ ?_ _ _
          (spec.wp_executeNode hL hΓ (upstreamCall ids upstream r w) hready rfl rfl
            (fun _ _ _ h => nomatch h)))
        rintro Γ' r₂ w₂ ⟨rfl, hpost⟩
        cases r₂ with
        | error => exact ⟨rfl, hpost⟩
        | ok e' =>
          obtain ⟨hg₁, hg₂, hret⟩ := spec.installUpstream i node e.object upstream _ e'
            (callIds (w.objects upstream.id r).tokenUsageCalls) w₂ hpost
          exact L.wp_modify hg₁ (L.wp_modify hg₂ (spec.wp_afterUpstream hL hΓ hret))

lemma wp_visitNode {node : WorkflowNode} (hw : spec.ready (.own i node r) w) :
    L.wp t (visitNode E t ids i node r) spec.turnPost Γ w := by
  unfold visitNode
  refine L.wp_get (hL.guar_refl t w) ?_
  refine L.wp_seq (L.wp_mono _ ?_ _ _
    (spec.wp_executeNode hL hΓ (sequenceCall ids i node r w) hw rfl rfl
      (fun _ _ _ h => by cases h; rfl)))
  rintro Γ' r₁ w₁ ⟨rfl, hpost⟩
  cases r₁ with
  | error => exact ⟨rfl, hpost⟩
  | ok e =>
    obtain ⟨hg, hheld⟩ := spec.installOwn i node r e (callIds (w.objects node.id r).tokenUsageCalls)
      w₁ hpost
    exact L.wp_modify hg (spec.wp_afterAttempt hL hΓ hheld)

lemma wp_sequenceTurn (hinv : L.inv w) (hw : spec.spot (.head i) w) :
    L.wp t (sequenceTurn E t disabled ids i) spec.turnPost Γ w := by
  unfold sequenceTurn
  cases hid : ids[i]? with
  | none => exact L.wp_pure ⟨rfl, hinv, spec.finish i w hid hw⟩
  | some nodeId =>
    simp only
    cases hnode : E.node? nodeId with
    | none => exact L.wp_pure ⟨rfl, hinv, spec.noNode i nodeId w hid hnode hw⟩
    | some node =>
      obtain rfl : node.id = nodeId := WorkflowDef.getNode_id _ hnode
      have hsome : (E.node? node.id).isSome := by rw [hnode]; rfl
      simp only
      split
      · rename_i hdis
        obtain ⟨hg, hi, hs⟩ := spec.skipDisabled i node.id w hid hsome hdis hinv hw
        exact L.wp_modify hg (spec.wp_saveTurn hL hΓ (.inl (i + 1)) hi hs)
      rename_i hdis
      refine L.wp_get (hL.guar_refl t w) ?_
      have hterminal : ∀ status, w.statusOf node.id = some status →
          status.normalize.terminal = true →
          L.wp t (Prog.modify (normalizeStatus node.id) >>= fun _ =>
            (pure (.inl (i + 1)) : EngineProg Turn)) spec.turnPost Γ w := by
        intro status hst hter
        obtain ⟨hg, hi, hs⟩ := spec.terminal i node.id w status hid hsome hdis hst hter hinv hw
        exact L.wp_modify hg (L.wp_pure ⟨rfl, hi, hs⟩)
      have hopen : (∀ status, w.statusOf node.id = some status →
          status.normalize.terminal = false ∧ status ≠ .failed ∧ status ≠ .rejected ∧
            status ≠ .running ∧ status ≠ .retryWaiting) →
          L.wp t (Prog.modify (enterNode t node.id) >>= fun _ =>
            visitNode E t ids i node (w.currentOrNext node.id)) spec.turnPost Γ w := by
        intro hst
        obtain ⟨hg, hready⟩ := spec.enter i node w hid hnode hdis hst hinv hw
        exact L.wp_modify hg (spec.wp_visitNode hL hΓ hready)
      cases hst : w.statusOf node.id with
      | none => exact hopen (by simp [hst])
      | some status =>
        cases status with
        | completed => exact hterminal _ hst rfl
        | skipped => exact hterminal _ hst rfl
        | success => exact hterminal _ hst rfl
        | retryWaiting => exact ⟨rfl, hinv, spec.waiting i _ w hid hst hinv hw⟩
        | pending => exact hopen (by rw [hst]; rintro _ ⟨⟩; decide)
        | waitingRetry => exact hopen (by rw [hst]; rintro _ ⟨⟩; decide)
        | waitingApproval => exact hopen (by rw [hst]; rintro _ ⟨⟩; decide)
        | other =>
          refine hopen ?_
          rw [hst]
          rintro _ ⟨⟩
          exact ⟨rfl, by simp, by simp, by simp, by simp⟩
        | _ =>
          exact ⟨rfl, hinv, spec.blocked i _ w _ hid hst (by simp) hinv hw⟩

def sequencePost : Logic.Post engineSig Outcome := fun Γ' r w =>
  Γ' = Γ ∧ L.inv w ∧
    match r with
    | .ok outcome => spec.spot (.done outcome) w
    | .error e => spec.raised e w

lemma wp_executeNodeSequence (hinv : L.inv w) (hw : spec.spot (.head 0) w) :
    L.wp t (executeNodeSequence E t disabled ids) spec.sequencePost Γ w := by
  refine L.wp_repeatUntil (fun i Γ' w => Γ' = Γ ∧ L.inv w ∧ spec.spot (.head i) w)
    ⟨rfl, hinv, hw⟩ ?_
  rintro i Γ' w ⟨rfl, hi, hs⟩
  refine L.wp_mono _ ?_ _ _ (spec.wp_sequenceTurn hL hΓ hi hs)
  rintro Γ' r w ⟨rfl, hi, hpost⟩
  match r, hpost with
  | .ok (.inl i), hpost => exact ⟨rfl, hi, hpost⟩
  | .ok (.inr outcome), hpost => exact ⟨rfl, hi, hpost⟩
  | .error e, hpost => exact ⟨rfl, hi, hpost⟩

/-! ## Framing -/

omit hL hΓ in
lemma stands_and {P R : World → Prop} (hP : Stands L t Γ P) (hR : Stands L t Γ R) :
    Stands L t Γ (fun w => P w ∧ R w) where
  steady := fun w w' hcore h => ⟨hP.steady w w' hcore h.1, hR.steady w w' hcore h.2⟩
  stable := fun t' w w' ht hi hi' hg h =>
    ⟨hP.stable t' w w' ht hi hi' hg h.1, hR.stable t' w w' ht hi hi' hg h.2⟩

omit hΓ in
/-- **Framing**: an assertion that the rivals and the task itself keep can be
added to a specification. -/
def frame {R : World → Prop} (hR : Stands L t Γ R)
    (hkeep : ∀ w w', L.guar t w w' → R w → R w') : SequenceSpec L t Γ disabled ids where
  spot p w := spec.spot p w ∧ R w
  raised e w := spec.raised e w ∧ R w
  ready p w := spec.ready p w ∧ R w
  executed p e w := spec.executed p e w ∧ R w
  held i node e w := spec.held i node e w ∧ R w
  counted i node e w := spec.counted i node e w ∧ R w
  retried i node r up r' w := spec.retried i node r up r' w ∧ R w
  stands p := stands_and (spec.stands p) hR
  raised_stands e := stands_and (spec.raised_stands e) hR
  cancel p op w h hok :=
    ⟨spec.cancel p op w (h.imp And.left And.left) hok,
      hkeep _ _ (hL.guar_cancelNote t w) (h.elim And.right And.right)⟩
  fail p op m w h hop hok := ⟨spec.fail p op m w h.1 hop hok, h.2⟩
  failLate m w h hok := ⟨spec.failLate m w h.1 hok, h.2⟩
  finish i w hid h := ⟨spec.finish i w hid h.1, h.2⟩
  noNode i n w hid hnode h := ⟨spec.noNode i n w hid hnode h.1, h.2⟩
  skipDisabled i n w hid hnode hdis hinv h := by
    obtain ⟨hg, hi, hs⟩ := spec.skipDisabled i n w hid hnode hdis hinv h.1
    exact ⟨hg, hi, hs, hkeep _ _ hg h.2⟩
  terminal i n w status hid hnode hdis hst hter hinv h := by
    obtain ⟨hg, hi, hs⟩ := spec.terminal i n w status hid hnode hdis hst hter hinv h.1
    exact ⟨hg, hi, hs, hkeep _ _ hg h.2⟩
  blocked i n w status hid hst hcase hinv h := ⟨spec.blocked i n w status hid hst hcase hinv h.1, h.2⟩
  waiting i n w hid hst hinv h := ⟨spec.waiting i n w hid hst hinv h.1, h.2⟩
  enter i node w hid hnode hdis hst hinv h := by
    obtain ⟨hg, hr⟩ := spec.enter i node w hid hnode hdis hst hinv h.1
    exact ⟨hg, hr, hkeep _ _ hg h.2⟩
  retry i node r up r' w hinv h := ⟨spec.retry i node r up r' w hinv h.1, h.2⟩
  failUnknown p w h hreg := by
    obtain ⟨hg, he⟩ := spec.failUnknown p w h.1 hreg
    exact ⟨hg, he, hkeep _ _ hg h.2⟩
  begin p call w h horder houter hindex hreg := by
    obtain ⟨hg, hi, hs⟩ := spec.begin p call w h.1 horder houter hindex hreg
    exact ⟨hg, hi, hs, hkeep _ _ hg h.2⟩
  events p a live previous e w w' h hinv hok hfire := by
    obtain ⟨hg, hi, hs⟩ := spec.events p a live previous e w w' h.1 hinv hok hfire
    exact ⟨hg, hi, hs, hkeep _ _ hg h.2⟩
  finishAttempt p a live previous w r result hinv h hacc hok hres := by
    obtain ⟨hg, he⟩ := spec.finishAttempt p a live previous w r result hinv h.1 hacc hok hres
    exact ⟨hg, he, hkeep _ _ hg h.2⟩
  installOwn i node r e calls w h := by
    obtain ⟨hg, hh⟩ := spec.installOwn i node r e calls w h.1
    exact ⟨hg, hh, hkeep _ _ hg h.2⟩
  pass i node e w h htarget hfail hrej := by
    obtain ⟨hi, hs⟩ := spec.pass i node e w h.1 htarget hfail hrej
    exact ⟨hi, hs, h.2⟩
  policy i node e w outcome next h htarget hfail hcase := by
    obtain ⟨hg, hi, hs⟩ := spec.policy i node e w outcome next h.1 htarget hfail hcase
    exact ⟨hg, hi, hs, hkeep _ _ hg h.2⟩
  policyRaises i node e w h hcase := by
    obtain ⟨hi, hr⟩ := spec.policyRaises i node e w h.1 hcase
    exact ⟨hi, hr, h.2⟩
  count i node e w h hrej := by
    obtain ⟨hg, hc⟩ := spec.count i node e w h.1 hrej
    exact ⟨hg, hc, hkeep _ _ hg h.2⟩
  endRejected i node e w h htarget hrej := by
    obtain ⟨hg, hi, hs⟩ := spec.endRejected i node e w (h.imp And.left And.left) htarget hrej
    exact ⟨hg, hi, hs, hkeep _ _ hg (h.elim And.right And.right)⟩
  send i node e w up r h htarget hrej htype hpos hcount hlive := by
    obtain ⟨hi, hs⟩ := spec.send i node e w up r h.1 htarget hrej htype hpos hcount hlive
    exact ⟨hi, hs, h.2⟩
  rollBack i node r upstreamId upstream w hinv h := by
    obtain ⟨hg, hi, hs⟩ := spec.rollBack i node r upstreamId upstream w hinv h.1
    exact ⟨hg, hi, hs, hkeep _ _ hg h.2⟩
  lost i node e w upstreamId h htarget hlost := by
    obtain ⟨hi, hs⟩ := spec.lost i node e w upstreamId h.1 htarget hlost
    exact ⟨hi, hs, h.2⟩
  prepare i node e w upstream r h htarget hcur hnode := by
    obtain ⟨hg, hi, hs⟩ := spec.prepare i node e w upstream r h.1 htarget hcur hnode
    exact ⟨hg, hi, hs, hkeep _ _ hg h.2⟩
  installUpstream i node r upstream r' e calls w h := by
    obtain ⟨hg, hg', hr⟩ := spec.installUpstream i node r upstream r' e calls w h.1
    exact ⟨hg, hg', hr, hkeep _ _ hg' (hkeep _ _ hg h.2)⟩
  passUpstream i node r upstream r' w h hfail := by
    obtain ⟨hi, hs⟩ := spec.passUpstream i node r upstream r' w h.1 hfail
    exact ⟨hi, hs, h.2⟩
  policyUpstream i node r upstream r' w outcome next h hfail hcase := by
    obtain ⟨hg, hi, hs⟩ := spec.policyUpstream i node r upstream r' w outcome next h.1 hfail hcase
    exact ⟨hg, hi, hs, hkeep _ _ hg h.2⟩
  policyUpstreamRaises i node r upstream r' w h hcase := by
    obtain ⟨hi, hr⟩ := spec.policyUpstreamRaises i node r upstream r' w h.1 hcase
    exact ⟨hi, hr, h.2⟩
  skipOwn i node r w hinv h := by
    obtain ⟨hg, hi, hs⟩ := spec.skipOwn i node r w hinv h.1
    exact ⟨hg, hi, hs, hkeep _ _ hg h.2⟩

end SequenceSpec

/-! ## One assertion throughout -/

omit L Γ disabled ids in
/-- An update of a node sequence. -/
inductive SequenceStep (E : Env) (t : Thread) : World → World → Prop
  | skipDisabled (w : World) (n : String) : SequenceStep E t w (skipDisabled n w)
  | normalize (w : World) (n : String) : SequenceStep E t w (normalizeStatus n w)
  | enter (w : World) (n : String) : SequenceStep E t w (enterNode t n w)
  | failUnknown (w : World) (node : WorkflowNode) (r : Nat) :
      SequenceStep E t w (failUnknownType t node r w)
  | begin (w : World) (node : WorkflowNode) (r : Nat) (call : Call) :
      SequenceStep E t w (beginNodeAttempt E t node r call w)
  | finish (w : World) (n : String) (live : Nat) (previous : NodeExecutionState)
      (result : NodeResult) : SequenceStep E t w (finishAttempt t n live previous result w)
  | installExecuted (w : World) (node : WorkflowNode) (r : Nat) (calls : List String) :
      SequenceStep E t w (installExecuted node r calls w)
  | policy (w : World) (n : String) (r : Nat) (next : Option NodeExecutionState) :
      SequenceStep E t w (installPolicy n r next w)
  | count (w : World) (n : String) (r : Nat) : SequenceStep E t w (countRejection n r w)
  | failRejected (w : World) (n : String) (r : Nat) : SequenceStep E t w (failRejected n r w)
  | rollBack (w : World) (n up : String) (r upstream : Nat) :
      SequenceStep E t w (rollBackApproval n up r upstream w)
  | prepare (w : World) (up : String) (r : Nat) : SequenceStep E t w (prepareUpstreamRetry up r w)
  | await (w : World) (n : String) (r : Nat) : SequenceStep E t w (awaitUpstream n r w)
  | skipWith (w : World) (n : String) (r : Nat) : SequenceStep E t w (skipWithUpstream n r w)

/-- **One assertion throughout**: every update and event keeps `P`. -/
def uniformSpec {P : World → Prop} {X : Exn → World → Prop} (hP : Stands L t Γ P)
    (hX : ∀ e, Stands L t Γ (X e))
    (hcancel : ∀ op w, P w ∨ X .cancelled w → L.answerOk t op (.error .cancelled) w →
      X .cancelled (cancelNote t w))
    (hfail : ∀ m w, P w → X (.error m) w)
    (hlate : ∀ m w, X .cancelled w → L.answerOk t .write (.error (.error m)) w → X (.error m) w)
    (hstep : ∀ w w', SequenceStep E t w w' → L.inv w ∧ P w → L.guar t w w' ∧ L.inv w' ∧ P w')
    (hevent : ∀ a x e w w', PluginStep E a x e w w' → L.eventOk t (.plugin a) e w →
      L.inv w ∧ P w → L.guar t w w' ∧ L.inv w' ∧ P w') :
    SequenceSpec L t Γ disabled ids where
  spot _ := P
  raised := X
  ready _ w := L.inv w ∧ P w
  executed _ _ w := L.inv w ∧ P w
  held _ _ _ w := L.inv w ∧ P w
  counted _ _ _ w := L.inv w ∧ P w
  retried _ _ _ _ _ w := L.inv w ∧ P w
  stands _ := hP
  raised_stands := hX
  cancel _ op w := hcancel op w
  fail _ _ m w hw _ _ := hfail m w hw
  failLate := hlate
  finish _ _ _ hw := hw
  noNode _ _ _ _ _ hw := hw
  skipDisabled _ n w _ _ _ hi hw := hstep w _ (.skipDisabled w n) ⟨hi, hw⟩
  terminal _ n w _ _ _ _ _ _ hi hw := hstep w _ (.normalize w n) ⟨hi, hw⟩
  blocked _ _ _ _ _ _ _ _ hw := hw
  waiting _ _ _ _ _ _ hw := hw
  enter _ node w _ _ _ _ hi hw := hstep w _ (.enter w node.id) ⟨hi, hw⟩
  retry _ _ _ _ _ _ hi hw := ⟨hi, hw⟩
  failUnknown p w hw _ := hstep w _ (.failUnknown w p.target p.object) hw
  begin p call w hw _ _ _ _ := hstep w _ (.begin w p.target p.object call) hw
  events _ a _ _ e w w' hw hi hok hfire := by
    obtain ⟨x, hx⟩ := exists_pluginStep hfire
    exact hevent a x e w w' hx hok ⟨hi, hw⟩
  finishAttempt p _ live previous w _ result hi hw _ _ _ :=
    hstep w _ (.finish w p.target.id live previous result) ⟨hi, hw⟩
  installOwn _ node _ e calls w hw := hstep w _ (.installExecuted w node e.object calls) hw
  pass _ _ _ _ hw _ _ _ := hw
  policy _ node e w _ next hw _ _ _ := hstep w _ (.policy w node.id e.object next) hw
  policyRaises _ _ _ w hw _ := ⟨hw.1, hfail _ w hw.2⟩
  count _ node e w hw _ := hstep w _ (.count w node.id e.object) hw
  endRejected _ node e w hw _ _ := hstep w _ (.failRejected w node.id e.object) (hw.elim id id)
  send _ _ _ _ _ _ hw _ _ _ _ _ _ := hw
  rollBack _ node r up upstream w hi hw := hstep w _ (.rollBack w node.id up r upstream) ⟨hi, hw⟩
  lost _ _ _ _ _ hw _ _ := hw
  prepare _ _ _ w upstream r hw _ _ _ := hstep w _ (.prepare w upstream.id r) hw
  installUpstream _ node r upstream _ e calls w hw := by
    obtain ⟨hg, hw'⟩ := hstep w _ (.installExecuted w upstream e.object calls) hw
    obtain ⟨hg', hw''⟩ := hstep _ _ (.await _ node.id r) hw'
    exact ⟨hg, hg', hw''⟩
  passUpstream _ _ _ _ _ _ hw _ := hw
  policyUpstream _ _ _ upstream r' w _ next hw _ _ := hstep w _ (.policy w upstream.id r' next) hw
  policyUpstreamRaises _ _ _ _ _ w hw _ := ⟨hw.1, hfail _ w hw.2⟩
  skipOwn _ node r w hi hw := hstep w _ (.skipWith w node.id r) ⟨hi, hw⟩

end
end DeterminFlow.Engine
