/-
  Approval.Waiting
  **WHAT AN APPROVAL WAITER ACTS ON.**

  A waiter registers an event under its key, delivers its request, waits with
  a timeout and then takes the stored decision.  Between the first decision
  and the moment the waiter runs again the key is still registered: a second
  decision is acknowledged too and replaces the first one, and so does the
  timeout.
-/
import DeterminFlow.Library.Dict

namespace DeterminFlow.Approval

open Library List Option Dict

/-! ## The engine's approvals -/

/-- `(workflow_id, task_id, node_id)`. -/
abbrev ApprovalKey : Type := String × String × String

/-- An entry of `_approval_results`. -/
structure Decision where
  approved : Bool
  feedback : String
  infrastructureFailure : Bool := false
  deriving DecidableEq

/-- `_pending_approvals`, by key whether the event is set, and
`_approval_results`; an empty result is `none`. -/
structure Approvals where
  pending : Dict ApprovalKey Bool := []
  results : Dict ApprovalKey (Option Decision) := []

def Approvals.register (key : ApprovalKey) (a : Approvals) : Approvals where
  pending := a.pending.set key false
  results := a.results.set key none

/-- `resolve_approval`: the answer's `success`. -/
def Approvals.resolveApproval (key : ApprovalKey) (approved : Bool) (feedback : String)
    (a : Approvals) : Approvals × Bool :=
  if a.pending.has key then
    ({ pending := a.pending.set key true
       results := a.results.set key (some { approved := approved, feedback := feedback }) }, true)
  else (a, false)

/-- `d.pop(key, None)`. -/
def pop {ν : Type} (d : Dict ApprovalKey ν) (key : ApprovalKey) : Dict ApprovalKey ν :=
  d.filter (fun entry => entry.1 ≠ key)

/-- The waiter's `finally`. -/
def Approvals.release (key : ApprovalKey) (a : Approvals) : Approvals where
  pending := pop a.pending key
  results := pop a.results key

/-! ## A waiter -/

inductive Waiter where
  /-- `ApprovalNode.execute`. -/
  | approvalNode
  /-- `AgentNode._handle_approval`. -/
  | mainTakeover
  deriving DecidableEq

def Waiter.timeoutDecision : Waiter → Decision
  | .approvalNode =>
    { approved := false, feedback := "审批超时", infrastructureFailure := true }
  | .mainTakeover => { approved := true, feedback := "审批超时，自动通过" }

def Waiter.emptyDecision : Waiter → Decision
  | .approvalNode => { approved := false, feedback := "" }
  | .mainTakeover => { approved := true, feedback := "" }

inductive Phase where
  /-- The waiter is registered and delivers its request. -/
  | delivering
  /-- It waits; its timer has fired. -/
  | waiting (timer : Bool)
  /-- It has run again and acts on a decision. -/
  | acted (decision : Decision)
  /-- The request was not delivered. -/
  | undelivered
  deriving DecidableEq

/-- A waiter and the engine; ghost: the decisions acknowledged for its key. -/
structure Waiting where
  approvals : Approvals
  phase : Phase := .delivering
  acknowledged : List Decision := []

/-- What happens until the waiter is through. -/
inductive Event where
  | resolve (key : ApprovalKey) (approved : Bool) (feedback : String)
  /-- The request is delivered, or that fails. -/
  | deliver (success : Bool)
  | timer
  /-- The waiter runs again, its event set. -/
  | wake
  /-- It runs again with a `TimeoutError`, whether or not its event has been
  set since the timer fired. -/
  | timeOut
  deriving DecidableEq

section
variable (waiter : Waiter) (key : ApprovalKey)

def storedDecision (a : Approvals) : Decision :=
  ((a.results.get? key).join).getD waiter.emptyDecision

def resolveStep (key' : ApprovalKey) (approved : Bool) (feedback : String) (s : Waiting) :
    Waiting :=
  let answer := s.approvals.resolveApproval key' approved feedback
  { s with
    approvals := answer.1
    acknowledged :=
      if key' = key ∧ answer.2 = true then
        s.acknowledged ++ [{ approved := approved, feedback := feedback }]
      else s.acknowledged }

/-- One event; `none` when it cannot happen. -/
def step (s : Waiting) : Event → Option Waiting
  | .resolve key' approved feedback => some (resolveStep key key' approved feedback s)
  | .deliver success =>
    if s.phase = .delivering then
      if success then some { s with phase := .waiting false }
      else some { s with phase := .undelivered, approvals := s.approvals.release key }
    else none
  | .timer =>
    match s.phase with
    | .waiting _ => some { s with phase := .waiting true }
    | _ => none
  | .wake =>
    match s.phase with
    | .waiting _ =>
      if s.approvals.pending.get? key = some true then
        some { s with phase := .acted (storedDecision waiter key s.approvals)
                      approvals := s.approvals.release key }
      else none
    | _ => none
  | .timeOut =>
    match s.phase with
    | .waiting true =>
      some { s with phase := .acted waiter.timeoutDecision
                    approvals := s.approvals.release key }
    | _ => none

def run : Waiting → List Event → Option Waiting
  | s, [] => some s
  | s, e :: rest => (step waiter key s e).bind (fun s' => run s' rest)

def registered (a : Approvals) : Waiting where
  approvals := a.register key

end

/-! ## The property and the condition -/

/-- **At most one decision was acknowledged, and the waiter acts on it.** -/
def ActedLawfully (s : Waiting) : Prop :=
  s.acknowledged.length ≤ 1 ∧ ∀ d ∈ s.acknowledged, s.phase = .acted d

def Event.ends : Event → Bool
  | .deliver success => !success
  | .wake => true
  | .timeOut => true
  | _ => false

def Event.decision? (key : ApprovalKey) : Event → Option Decision
  | .resolve key' approved feedback =>
    if key' = key then some { approved := approved, feedback := feedback } else none
  | _ => none

def arriving (key : ApprovalKey) (events : List Event) : List Decision :=
  (events.takeWhile (fun e => !e.ends)).filterMap (Event.decision? key)

/-- **The condition**: no decision arrives, or one does and the waiter is
woken by it; a timeout may follow it only if it decides the same. -/
def OneDecision (waiter : Waiter) (key : ApprovalKey) (events : List Event) : Prop :=
  arriving key events = [] ∨
    ∃ d, arriving key events = [d] ∧
      (events.find? Event.ends = some .wake ∨
        events.find? Event.ends = some .timeOut ∧ d = waiter.timeoutDecision)

/-! ## Before the waiter is through -/

section
variable {waiter : Waiter} {key : ApprovalKey}

/-- While the waiter is not through: its key is registered, its event is set
when a decision has arrived, and the last one is stored. -/
structure Open (key : ApprovalKey) (ds : List Decision) (s : Waiting) : Prop where
  phase : s.phase = .delivering ∨ ∃ timer, s.phase = .waiting timer
  pending : s.approvals.pending.get? key = some (!ds.isEmpty)
  result : s.approvals.results.get? key = some ds.getLast?
  acknowledged : s.acknowledged = ds

lemma open_registered (key : ApprovalKey) (a : Approvals) : Open key [] (registered key a) where
  phase := .inl rfl
  pending := by
    unfold registered Approvals.register
    exact (get?_set _ _ _ _).trans (if_pos rfl)
  result := by
    unfold registered Approvals.register
    exact (get?_set _ _ _ _).trans (if_pos rfl)
  acknowledged := rfl

lemma Open.resolve {ds : List Decision} {s : Waiting} (h : Open key ds s) (key' : ApprovalKey)
    (approved : Bool) (feedback : String) :
    Open key (ds ++ ((Event.resolve key' approved feedback).decision? key).toList)
      (resolveStep key key' approved feedback s) := by
  -- only a decision with the key of the waiter reaches it
  by_cases hkey : key' = key
  · subst hkey
    have hhas : s.approvals.pending.has key' = true := by
      rw [has_iff, h.pending]
      rfl
    have hdecision : ((Event.resolve key' approved feedback).decision? key').toList
        = [{ approved := approved, feedback := feedback }] := by
      simp [Event.decision?]
    rw [hdecision]
    unfold resolveStep Approvals.resolveApproval
    rw [if_pos hhas]
    refine ⟨h.phase, ?_, ?_, ?_⟩
    · refine (get?_set _ _ _ _).trans ?_
      simp
    · refine (get?_set _ _ _ _).trans ?_
      simp
    simp [h.acknowledged]
  have hdecision : ((Event.resolve key' approved feedback).decision? key).toList = [] := by
    simp [Event.decision?, hkey]
  rw [hdecision, append_nil]
  unfold resolveStep Approvals.resolveApproval
  by_cases hhas : s.approvals.pending.has key' = true
  · rw [if_pos hhas]
    refine ⟨h.phase, ?_, ?_, ?_⟩
    · exact (get?_set _ _ _ _).trans ((if_neg hkey).trans h.pending)
    · exact (get?_set _ _ _ _).trans ((if_neg hkey).trans h.result)
    simp [hkey, h.acknowledged]
  rw [if_neg hhas]
  refine ⟨h.phase, h.pending, h.result, ?_⟩
  simp [h.acknowledged]

lemma Open.step {ds : List Decision} {s s' : Waiting} {e : Event} (h : Open key ds s)
    (hstep : step waiter key s e = some s') :
    (e.ends = false ∧ Open key (ds ++ (e.decision? key).toList) s') ∨
      (e.ends = true ∧ s'.acknowledged = ds ∧ s'.approvals.pending.get? key = none ∧
        ((e = .deliver false ∧ s'.phase = .undelivered) ∨
          (e = .wake ∧ ∃ d, ds.getLast? = some d ∧ s'.phase = .acted d) ∨
          (e = .timeOut ∧ s'.phase = .acted waiter.timeoutDecision))) := by
  -- whichever way the wait ends, the key is given up
  have hreleased : ∀ a : Approvals, (a.release key).pending.get? key = none := by
    intro a
    exact (get?_filter_keys a.pending (fun k => decide (k ≠ key)) key).trans
      (if_neg (by simp))
  cases e with
  | resolve key' approved feedback =>
    obtain rfl := some.inj hstep
    exact .inl ⟨rfl, h.resolve key' approved feedback⟩
  | deliver success =>
    unfold Approval.step at hstep
    dsimp only at hstep
    split at hstep
    · cases success with
      | true =>
        obtain rfl := some.inj hstep
        refine .inl ⟨rfl, .inr ⟨false, rfl⟩, ?_, ?_, ?_⟩
        · exact h.pending.trans (by simp [Event.decision?])
        · exact h.result.trans (by simp [Event.decision?])
        exact h.acknowledged.trans (by simp [Event.decision?])
      | false =>
        obtain rfl := some.inj hstep
        exact .inr ⟨rfl, h.acknowledged, hreleased _, .inl ⟨rfl, rfl⟩⟩
    cases hstep
  | timer =>
    rcases h.phase with hphase | ⟨timer, hphase⟩
    · simp [Approval.step, hphase] at hstep
    simp only [Approval.step, hphase, some.injEq] at hstep
    subst hstep
    refine .inl ⟨rfl, .inr ⟨true, rfl⟩, ?_, ?_, ?_⟩
    · exact h.pending.trans (by simp [Event.decision?])
    · exact h.result.trans (by simp [Event.decision?])
    exact h.acknowledged.trans (by simp [Event.decision?])
  | wake =>
    rcases h.phase with hphase | ⟨timer, hphase⟩
    · simp [Approval.step, hphase] at hstep
    simp only [Approval.step, hphase] at hstep
    split at hstep
    · rename_i hset
      obtain rfl := some.inj hstep
      refine .inr ⟨rfl, h.acknowledged, hreleased _, .inr (.inl ⟨rfl, ?_⟩)⟩
      rw [h.pending, some.injEq] at hset
      -- the waiter was woken, so something has arrived
      obtain ⟨d, hd⟩ : ∃ d, ds.getLast? = some d := by
        cases ds with
        | nil => cases hset
        | cons => exact ⟨_, getLast?_cons⟩
      refine ⟨d, hd, ?_⟩
      -- the store holds the last one, whatever came before
      change Phase.acted (storedDecision waiter key s.approvals) = .acted d
      unfold storedDecision
      rw [h.result, hd]
      rfl
    cases hstep
  | timeOut =>
    rcases h.phase with hphase | ⟨timer, hphase⟩
    · simp [Approval.step, hphase] at hstep
    cases timer with
    | false => simp [Approval.step, hphase] at hstep
    | true =>
      simp only [Approval.step, hphase, some.injEq] at hstep
      subst hstep
      exact .inr ⟨rfl, h.acknowledged, hreleased _, .inr (.inr ⟨rfl, rfl⟩)⟩

end

/-! ## Runs -/

section
variable {waiter : Waiter} {key : ApprovalKey}

/-- The waiter is through: nothing is acknowledged for its key any more. -/
structure Through (key : ApprovalKey) (s : Waiting) : Prop where
  pending : s.approvals.pending.get? key = none
  phase : s.phase = .undelivered ∨ ∃ d, s.phase = .acted d

lemma Through.step {s s' : Waiting} {e : Event} (h : Through key s)
    (hstep : step waiter key s e = some s') :
    Through key s' ∧ s'.phase = s.phase ∧ s'.acknowledged = s.acknowledged := by
  have hphase : s.phase ≠ .delivering ∧ ∀ timer, s.phase ≠ .waiting timer := by
    rcases h.phase with hp | ⟨d, hp⟩ <;> rw [hp] <;>
      exact ⟨fun h => (nomatch h), fun _ h => (nomatch h)⟩
  cases e with
  | resolve key' =>
    obtain rfl := some.inj hstep
    unfold resolveStep Approvals.resolveApproval
    by_cases hhas : s.approvals.pending.has key' = true
    · have hkey : key' ≠ key := by
        rintro rfl
        rw [has_iff, h.pending] at hhas
        cases hhas
      rw [if_pos hhas]
      refine ⟨⟨(get?_set _ _ _ _).trans ((if_neg hkey).trans h.pending), h.phase⟩, rfl, ?_⟩
      simp [hkey]
    rw [if_neg hhas]
    refine ⟨⟨h.pending, h.phase⟩, rfl, ?_⟩
    simp
  | deliver => simp [Approval.step, hphase.1] at hstep
  | _ =>
    rcases h.phase with hp | ⟨d, hp⟩ <;> simp [Approval.step, hp] at hstep

lemma Through.run {s s' : Waiting} {events : List Event} (h : Through key s)
    (hrun : run waiter key s events = some s') :
    s'.phase = s.phase ∧ s'.acknowledged = s.acknowledged := by
  induction events generalizing s with
  | nil =>
    obtain rfl := some.inj hrun
    exact ⟨rfl, rfl⟩
  | cons e rest ih =>
    obtain ⟨_, hstep, hrest⟩ := bind_eq_some_iff.1 hrun
    obtain ⟨hnext, hphase, hacknowledged⟩ := h.step hstep
    obtain ⟨h₁, h₂⟩ := ih hnext hrest
    exact ⟨h₁.trans hphase, h₂.trans hacknowledged⟩

lemma Open.run {ds : List Decision} {s s' : Waiting} {events : List Event}
    (h : Open key ds s) (hrun : run waiter key s events = some s') :
    s'.acknowledged = ds ++ arriving key events ∧
      ((events.find? Event.ends = none ∧
          (s'.phase = .delivering ∨ ∃ timer, s'.phase = .waiting timer)) ∨
        (events.find? Event.ends = some (.deliver false) ∧ s'.phase = .undelivered) ∨
        (events.find? Event.ends = some .wake ∧
          ∃ d, (ds ++ arriving key events).getLast? = some d ∧ s'.phase = .acted d) ∨
        (events.find? Event.ends = some .timeOut ∧ s'.phase = .acted waiter.timeoutDecision)) := by
  induction events generalizing s ds with
  | nil =>
    obtain rfl := some.inj hrun
    refine ⟨?_, .inl ⟨rfl, h.phase⟩⟩
    rw [h.acknowledged]
    simp [arriving]
  | cons e rest ih =>
    obtain ⟨next, hstep, hrest⟩ := bind_eq_some_iff.1 hrun
    rcases h.step hstep with ⟨hends, hopen⟩ | ⟨hends, hacknowledged, hpending, hcases⟩
    · obtain ⟨hall, hphase⟩ := ih hopen hrest
      -- the waiter still waits: the event only adds to what has arrived
      have harriving : arriving key (e :: rest) = (e.decision? key).toList ++ arriving key rest := by
        unfold arriving
        rw [takeWhile_cons, hends]
        cases hd : e.decision? key <;> simp [hd]
      have hfind : (e :: rest).find? Event.ends = rest.find? Event.ends :=
        find?_cons_of_neg (by rw [hends]; decide)
      rw [harriving, hfind, ← append_assoc]
      exact ⟨hall, hphase⟩
    -- the waiter is through with this event
    have harriving : arriving key (e :: rest) = [] := by
      unfold arriving
      rw [takeWhile_cons, hends]
      rfl
    have hfind : (e :: rest).find? Event.ends = some e := find?_cons_of_pos hends
    have hthrough : Through key next := by
      refine ⟨hpending, ?_⟩
      rcases hcases with ⟨-, hp⟩ | ⟨-, d, -, hp⟩ | ⟨-, hp⟩
      · exact .inl hp
      · exact .inr ⟨d, hp⟩
      exact .inr ⟨_, hp⟩
    obtain ⟨hphase, hsame⟩ := hthrough.run hrest
    rw [harriving, hfind, append_nil, hsame, hphase]
    refine ⟨hacknowledged, .inr ?_⟩
    rcases hcases with ⟨rfl, hp⟩ | ⟨rfl, d, hd, hp⟩ | ⟨rfl, hp⟩
    · exact .inl ⟨rfl, hp⟩
    · exact .inr (.inl ⟨rfl, d, hd, hp⟩)
    exact .inr (.inr ⟨rfl, hp⟩)

def Ended (s : Waiting) : Prop := s.phase = .undelivered ∨ ∃ d, s.phase = .acted d

/-- **A waiter acts on the only decision acknowledged exactly when no other
decision and no timeout arrives before it runs again.** -/
theorem acted_lawfully_iff (waiter : Waiter) (key : ApprovalKey) (a : Approvals)
    (events : List Event) {s : Waiting} (hrun : run waiter key (registered key a) events = some s)
    (hended : Ended s) : ActedLawfully s ↔ OneDecision waiter key events := by
  obtain ⟨hacknowledged, hcases⟩ := (open_registered key a).run hrun
  rw [nil_append] at hacknowledged hcases
  unfold ActedLawfully OneDecision
  rw [hacknowledged]
  cases harriving : arriving key events with
  | nil => simp
  | cons d rest =>
    rw [harriving] at hcases
    constructor
    · rintro ⟨hlength, hacted⟩
      -- acting on the only decision: the run ended by waking, or by a timeout that agrees
      have hrest : rest = [] := eq_nil_of_length_eq_zero (by
        rw [length_cons] at hlength
        omega)
      subst hrest
      have hphase := hacted d mem_cons_self
      refine .inr ⟨d, rfl, ?_⟩
      rcases hcases with ⟨-, hopen⟩ | ⟨-, hundelivered⟩ | ⟨hfind, -⟩ | ⟨hfind, htimeout⟩
      · rcases hopen with hopen | ⟨timer, hopen⟩
        all_goals
          rw [hphase] at hopen
          cases hopen
      · rw [hphase] at hundelivered
        cases hundelivered
      · exact .inl hfind
      rw [hphase] at htimeout
      exact .inr ⟨hfind, Phase.acted.inj htimeout⟩
    -- one decision arrived: each way the wait can end acts on it
    rintro (hnone | ⟨d', hone, hends⟩)
    · cases hnone
    obtain ⟨rfl, rfl⟩ := cons.inj hone
    refine ⟨Nat.le_refl _, fun _ hd'' => ?_⟩
    rw [mem_singleton.1 hd'']
    rcases hcases with ⟨hfind, -⟩ | ⟨hfind, -⟩ | ⟨hfind, d₁, hlast, hphase⟩ | ⟨hfind, hphase⟩
    · rw [hfind] at hends
      rcases hends with h | ⟨h, -⟩ <;> cases h
    · rw [hfind] at hends
      rcases hends with h | ⟨h, -⟩ <;> cases h
    · rw [hphase, ← some.inj hlast]
      rfl
    rw [hfind] at hends
    rcases hends with h | ⟨-, heq⟩
    · cases h
    rw [hphase, heq]

end

/-! ## Two decisions -/

def approvedThenRefused (key : ApprovalKey) : List Event :=
  [.deliver true, .resolve key true "", .resolve key false "too late", .wake]

/-- **Both decisions are acknowledged**, and the waiter acts on the second. -/
theorem approvedThenRefused_unlawful :
    ∃ s, run .approvalNode ("w", "t", "n") (registered ("w", "t", "n") {})
        (approvedThenRefused ("w", "t", "n")) = some s ∧ Ended s ∧
      s.acknowledged.length = 2 ∧ ¬ ActedLawfully s := by
  refine ⟨_, rfl, .inr ⟨_, rfl⟩, rfl, fun h => ?_⟩
  exact absurd h.1 (by decide)

/-- One decision, and the waiter acts on it. -/
theorem oneApproval_lawful : ∃ s, run .approvalNode ("w", "t", "n") (registered ("w", "t", "n") {})
        [.deliver true, .resolve ("w", "t", "n") true "", .wake] = some s ∧ ActedLawfully s := by
  refine ⟨_, rfl, ?_⟩
  refine (acted_lawfully_iff .approvalNode ("w", "t", "n") {}
    [.deliver true, .resolve ("w", "t", "n") true "", .wake] rfl (.inr ⟨_, rfl⟩)).2 ?_
  exact .inr ⟨⟨true, "", false⟩, rfl, .inl rfl⟩

end DeterminFlow.Approval
