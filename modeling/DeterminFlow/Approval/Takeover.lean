/-
  Approval.Takeover
  **APPROVALS OF AN AGENT NODE UNDER MAIN TAKEOVER.**

  A completion that the sub-session reports opens an approval request, which
  a handler of its own waits for.  The flag that guards the opening is never
  taken back: after a rejection with rejections left the agent works on, but
  no later completion opens a request, and nothing sets the event that the
  node waits for.
-/
import DeterminFlow.Approval.Waiting

namespace DeterminFlow.Approval

open List Option

/-! ## The callbacks and the handler -/

def maxRejectionCount : Nat := 3

structure Completion where
  summary : String
  status : String := "success"
  error : String := ""
  deriving DecidableEq

/-- The fields of the node state that the handler writes. -/
structure ApprovalNodeState where
  status : String := "running"
  summary : String := ""
  error : String := ""
  rejectionCount : Nat := 0
  rejectionReason : String := ""
  deriving DecidableEq

/-- The closure variables of `AgentNode.execute`. -/
structure Takeover where
  completeCalled : Bool := false
  approvalRequested : Bool := false
  completionSet : Bool := false
  completionResult : Completion := { summary := "" }
  /-- The completion an approval handler waits for a decision on. -/
  handler : Option Completion := none
  node : ApprovalNodeState := {}
  /-- Ghost: the last request was rejected, and none has been opened since. -/
  rework : Bool := false
  deriving DecidableEq

inductive TakeoverEvent where
  /-- `on_node_complete`. -/
  | nodeComplete (completion : Completion)
  /-- `on_auto_complete`. -/
  | autoComplete (completion : Completion)
  /-- The handler's wait ends with a decision. -/
  | decision (approved : Bool) (feedback : String)
  /-- Its wait ends with a timeout, which approves. -/
  | timeOut
  /-- The request cannot be delivered. -/
  | undelivered (reason : String)
  /-- The handler ends with an exception. -/
  | handlerRaises
  deriving DecidableEq

/-- `request_approval`, up to the handler's wait. -/
def requestApproval (completion : Completion) (s : Takeover) : Takeover :=
  if s.approvalRequested then s
  else
    { s with
      approvalRequested := true
      completionResult := completion
      handler := some completion
      rework := false
      node := { s.node with
        status := "waiting_approval"
        summary := if completion.status = "success" then completion.summary
          else completion.error } }

/-- `on_node_complete` of a node that needs approval. -/
def onNodeComplete (completion : Completion) (s : Takeover) : Takeover :=
  requestApproval completion { s with completeCalled := true }

/-- `on_auto_complete` of a node that needs approval. -/
def onAutoComplete (completion : Completion) (s : Takeover) : Takeover :=
  if s.completeCalled then s else requestApproval completion { s with completeCalled := true }

def approve (s : Takeover) : Takeover :=
  { s with handler := none, completionSet := true, rework := false }

def reject (feedback : String) (s : Takeover) : Takeover :=
  let count := s.node.rejectionCount + 1
  let node := { s.node with rejectionCount := count, rejectionReason := feedback }
  if maxRejectionCount ≤ count then
    { s with handler := none, node := node, completionSet := true, rework := false }
  else
    { s with handler := none, node := { node with status := "running" }, rework := true }

/-- `_fail_approval_delivery` and what `handle_approval` makes of its result. -/
def failDelivery (completion : Completion) (reason : String) (s : Takeover) : Takeover :=
  let error := "审批请求发送失败: " ++ reason
  { s with
    handler := none
    completionSet := true
    rework := false
    completionResult := { summary := completion.summary, status := "failed", error := error }
    node := { s.node with status := "failed", error := error } }

/-- One event; `none` when it cannot happen. -/
def Takeover.step (s : Takeover) : TakeoverEvent → Option Takeover
  | .nodeComplete completion => some (onNodeComplete completion s)
  | .autoComplete completion => some (onAutoComplete completion s)
  | .decision approved feedback =>
    s.handler.map (fun _ => if approved then approve s else reject feedback s)
  | .timeOut => s.handler.map (fun _ => approve s)
  | .undelivered reason => s.handler.map (fun completion => failDelivery completion reason s)
  | .handlerRaises => s.handler.map (fun _ => { s with handler := none })

def Takeover.run : Takeover → List TakeoverEvent → Option Takeover
  | s, [] => some s
  | s, e :: rest => (s.step e).bind (fun s' => s'.run rest)

def Takeover.begins (rejections : Nat) : Takeover where
  node := { rejectionCount := rejections }

/-! ## The property -/

def TakeoverEvent.completes : TakeoverEvent → Bool
  | .nodeComplete _ => true
  | .autoComplete _ => true
  | _ => false

def TakeoverEvent.concludes (s : Takeover) : TakeoverEvent → Bool
  | .decision approved _ => approved || decide (maxRejectionCount ≤ s.node.rejectionCount + 1)
  | .timeOut => true
  | _ => false

def CanComplete (s : Takeover) : Prop :=
  ∃ events s', s.run events = some s' ∧ s'.completionSet = true

/-- **What a step owes**: a completion after a rejection opens a new request,
an approval and the last rejection set the completion event, and a rejected
node can still complete. -/
structure LawfulStep (s : Takeover) (e : TakeoverEvent) (s' : Takeover) : Prop where
  reopens : s.rework = true → e.completes = true → s'.handler.isSome = true
  concludes : e.concludes s = true → s'.completionSet = true
  completes : s'.rework = true → CanComplete s'

def LawfulRun : Takeover → List TakeoverEvent → Prop
  | _, [] => True
  | s, e :: rest => ∀ s', s.step e = some s' → LawfulStep s e s' ∧ LawfulRun s' rest

def TakeoverEvent.rejects : TakeoverEvent → Bool
  | .decision approved _ => !approved
  | _ => false

/-! ## A rejected node -/

/-- The flag is up and nobody waits for a decision. -/
structure Stuck (s : Takeover) : Prop where
  requested : s.approvalRequested = true
  handler : s.handler = none
  unset : s.completionSet = false

variable {s s' : Takeover} {e : TakeoverEvent}

lemma requestApproval_requested (h : s.approvalRequested = true) (completion : Completion) :
    requestApproval completion s = s := if_pos h

lemma Stuck.step (h : Stuck s) (hstep : s.step e = some s') : Stuck s' := by
  cases e with
  | nodeComplete =>
    obtain rfl := some.inj hstep
    unfold onNodeComplete
    rw [requestApproval_requested (show ({ s with completeCalled := true } :
      Takeover).approvalRequested = true from h.requested)]
    exact ⟨h.requested, h.handler, h.unset⟩
  | autoComplete =>
    obtain rfl := some.inj hstep
    unfold onAutoComplete
    split
    · exact h
    rw [requestApproval_requested (show ({ s with completeCalled := true } :
      Takeover).approvalRequested = true from h.requested)]
    exact ⟨h.requested, h.handler, h.unset⟩
  | _ =>
    unfold Takeover.step at hstep
    rw [h.handler] at hstep
    cases hstep

lemma Stuck.not_canComplete (h : Stuck s) : ¬ CanComplete s := by
  rintro ⟨events, _, hrun, hset⟩
  induction events generalizing s with
  | nil =>
    obtain rfl := some.inj hrun
    rw [h.unset] at hset
    cases hset
  | cons e rest ih =>
    obtain ⟨_, hstep, hrest⟩ := bind_eq_some_iff.1 hrun
    exact ih (h.step hstep) hrest

/-! ## Runs -/

/-- No request has been rejected with rejections left; a request is open only
before the completion event is set. -/
structure Settled (s : Takeover) : Prop where
  rework : s.rework = false
  opened : s.handler.isSome = true → s.approvalRequested = true ∧ s.completionSet = false
  unopened : s.approvalRequested = false → s.completionSet = false

lemma settled_begins (rejections : Nat) : Settled (Takeover.begins rejections) where
  rework := rfl
  opened h := nomatch h
  unopened _ := rfl

lemma Settled.requestApproval {s : Takeover} (h : Settled s) (completion : Completion) :
    Settled (requestApproval completion s) := by
  unfold Approval.requestApproval
  split
  · exact h
  rename_i hnot
  rw [Bool.not_eq_true] at hnot
  exact ⟨rfl, fun _ => ⟨rfl, h.unopened hnot⟩, fun _ => h.unopened hnot⟩

lemma Settled.called (h : Settled s) : Settled { s with completeCalled :=true } := ⟨h.rework, h.opened, h.unopened⟩

lemma rejectionCount_requestApproval (completion : Completion) (s : Takeover) :
    (requestApproval completion s).node.rejectionCount = s.node.rejectionCount := by
  unfold requestApproval
  split <;> rfl

lemma Settled.closes (h : Settled s) {completion : Completion}
    (hopen : s.handler = some completion) (hrequested : s'.approvalRequested = s.approvalRequested)
    (hhandler : s'.handler = none) (hrework : s'.rework = false) : Settled s' := by
  have hrequest := (h.opened (by rw [hopen]; rfl)).1
  refine ⟨hrework, fun hsome => ?_, fun hfalse => ?_⟩
  · rw [hhandler] at hsome
    cases hsome
  rw [hrequested, hrequest] at hfalse
  cases hfalse

lemma Settled.step (h : Settled s) (hstep : s.step e = some s')
    (hlast : e.rejects = true → maxRejectionCount ≤ s.node.rejectionCount + 1) :
    LawfulStep s e s' ∧ Settled s' ∧ s.node.rejectionCount ≤ s'.node.rejectionCount ∧
      (e.rejects = false → s'.node.rejectionCount = s.node.rejectionCount) := by
  -- a settled node asks for no rework, so only conclusions are to be checked
  have hlawful : ∀ t : Takeover, Settled t → (e.concludes s = true → t.completionSet = true) →
      LawfulStep s e t := by
    intro t ht hconcludes
    refine ⟨fun hrework => ?_, hconcludes, fun hrework => ?_⟩
    · rw [h.rework] at hrework
      cases hrework
    rw [ht.rework] at hrework
    cases hrework
  cases e with
  | nodeComplete completion =>
    obtain rfl := some.inj hstep
    have hsettled : Settled (onNodeComplete completion s) := h.called.requestApproval completion
    have hcount : (onNodeComplete completion s).node.rejectionCount = s.node.rejectionCount :=
      rejectionCount_requestApproval completion _
    exact ⟨hlawful _ hsettled (nofun), hsettled, Nat.le_of_eq hcount.symm, fun _ => hcount⟩
  | autoComplete completion =>
    obtain rfl := some.inj hstep
    have hsettled : Settled (onAutoComplete completion s) := by
      unfold onAutoComplete
      split
      · exact h
      exact h.called.requestApproval completion
    have hcount : (onAutoComplete completion s).node.rejectionCount = s.node.rejectionCount := by
      unfold onAutoComplete
      split
      · rfl
      exact rejectionCount_requestApproval completion _
    exact ⟨hlawful _ hsettled (nofun), hsettled, Nat.le_of_eq hcount.symm, fun _ => hcount⟩
  | decision approved feedback =>
    obtain ⟨completion, hopen, rfl⟩ := map_eq_some_iff.1 hstep
    cases approved with
    | true =>
      have hsettled : Settled (approve s) := h.closes hopen rfl rfl rfl
      exact ⟨hlawful _ hsettled (fun _ => rfl), hsettled, Nat.le_refl _, fun _ => rfl⟩
    | false =>
      -- the rejection is the last one
      have hmax := hlast rfl
      have hreject : reject feedback s = { s with
          handler := none
          node := { s.node with
            rejectionCount := s.node.rejectionCount + 1, rejectionReason := feedback }
          completionSet := true
          rework := false } := if_pos hmax
      have hsettled : Settled (reject feedback s) := by
        rw [hreject]
        exact h.closes hopen rfl rfl rfl
      refine ⟨hlawful _ hsettled (fun _ => ?_), hsettled, ?_, nofun⟩
      · change (reject feedback s).completionSet = true
        rw [hreject]
      change s.node.rejectionCount ≤ (reject feedback s).node.rejectionCount
      rw [hreject]
      exact Nat.le_succ _
  | timeOut =>
    obtain ⟨completion, hopen, rfl⟩ := map_eq_some_iff.1 hstep
    have hsettled : Settled (approve s) := h.closes hopen rfl rfl rfl
    exact ⟨hlawful _ hsettled (fun _ => rfl), hsettled, Nat.le_refl _, fun _ => rfl⟩
  | undelivered reason =>
    obtain ⟨completion, hopen, rfl⟩ := map_eq_some_iff.1 hstep
    have hsettled : Settled (failDelivery completion reason s) := h.closes hopen rfl rfl rfl
    exact ⟨hlawful _ hsettled (nofun), hsettled, Nat.le_refl _, fun _ => rfl⟩
  | handlerRaises =>
    obtain ⟨completion, hopen, rfl⟩ := map_eq_some_iff.1 hstep
    have hsettled : Settled { s with handler := none } := h.closes hopen rfl rfl h.rework
    exact ⟨hlawful _ hsettled (nofun), hsettled, Nat.le_refl _, fun _ => rfl⟩

lemma Settled.stuck (h : Settled s) (hstep : s.step e = some s') (hrejects : e.rejects = true)
    (hleft : s.node.rejectionCount + 1 < maxRejectionCount) : Stuck s' ∧ s'.rework = true := by
  cases e with
  | decision approved feedback =>
    cases approved with
    | true => cases hrejects
    | false =>
      obtain ⟨_, hopen, rfl⟩ := map_eq_some_iff.1 hstep
      obtain ⟨hrequested, hunset⟩ := h.opened (by rw [hopen]; rfl)
      have hreject : reject feedback s = { s with
          handler := none
          node := { s.node with
            rejectionCount := s.node.rejectionCount + 1
            rejectionReason := feedback
            status := "running" }
          rework := true } := if_neg (Nat.not_le.2 hleft)
      change Stuck (reject feedback s) ∧ (reject feedback s).rework = true
      rw [hreject]
      exact ⟨⟨hrequested, rfl, hunset⟩, rfl⟩
  | _ => cases hrejects

lemma Settled.run_lawful {events : List TakeoverEvent} (h : Settled s)
    (hrun : s.run events = some s')
    (hcondition : maxRejectionCount ≤ s.node.rejectionCount + 1 ∨ ∀ e ∈ events, e.rejects = false) :
    LawfulRun s events := by
  induction events generalizing s with
  | nil => trivial
  | cons e rest ih =>
    intro next hstep
    obtain ⟨next', hstep', hrest⟩ := bind_eq_some_iff.1 hrun
    obtain rfl : next = next' := some.inj (hstep.symm.trans hstep')
    have hlast : e.rejects = true → maxRejectionCount ≤ s.node.rejectionCount + 1 := by
      intro hrejects
      rcases hcondition with hmax | hnone
      · exact hmax
      rw [hnone e mem_cons_self] at hrejects
      cases hrejects
    obtain ⟨hlawful, hsettled, hcount, -⟩ := h.step hstep hlast
    refine ⟨hlawful, ih hsettled hrest ?_⟩
    rcases hcondition with hmax | hnone
    · exact .inl (Nat.le_trans hmax (Nat.succ_le_succ hcount))
    exact .inr (fun e' he' => hnone e' (mem_cons_of_mem _ he'))

lemma Settled.run_unlawful {events : List TakeoverEvent} (h : Settled s)
    (hrun : s.run events = some s') (hleft : s.node.rejectionCount + 1 < maxRejectionCount)
    (hrejected : ∃ e ∈ events, e.rejects = true) : ¬ LawfulRun s events := by
  induction events generalizing s with
  | nil =>
    obtain ⟨e, he, -⟩ := hrejected
    cases he
  | cons e rest ih =>
    intro hlawful
    obtain ⟨next, hstep, hrest⟩ := bind_eq_some_iff.1 hrun
    obtain ⟨hone, hrestLawful⟩ := hlawful next hstep
    by_cases hrejects : e.rejects = true
    · obtain ⟨hstuck, hrework⟩ := h.stuck hstep hrejects hleft
      exact hstuck.not_canComplete (hone.completes hrework)
    rw [Bool.not_eq_true] at hrejects
    obtain ⟨-, hsettled, -, hcount⟩ := h.step hstep (fun hc => by
      rw [hrejects] at hc
      exact nomatch hc)
    refine ih hsettled hrest (by rw [hcount hrejects]; exact hleft) ?_ hrestLawful
    obtain ⟨e', he', hr'⟩ := hrejected
    rcases mem_cons.1 he' with rfl | he'
    · rw [hrejects] at hr'
      cases hr'
    exact ⟨e', he', hr'⟩

/-- **A run of callbacks and decisions is lawful exactly when no request is
rejected while rejections are left.** -/
theorem run_lawful_iff (rejections : Nat) (events : List TakeoverEvent) {s : Takeover}
    (hrun : (Takeover.begins rejections).run events = some s) :
    LawfulRun (Takeover.begins rejections) events ↔
      maxRejectionCount ≤ rejections + 1 ∨ ∀ e ∈ events, e.rejects = false := by
  constructor
  · intro hlawful
    by_contra hcondition
    rw [not_or, not_forall] at hcondition
    obtain ⟨hleft, e, he⟩ := hcondition
    rw [Classical.not_imp, Bool.not_eq_false] at he
    exact (settled_begins rejections).run_unlawful hrun (Nat.not_le.1 hleft) ⟨e, he⟩ hlawful
  exact (settled_begins rejections).run_lawful hrun

def rejectedOnce : List TakeoverEvent :=
  [.nodeComplete { summary := "draft" }, .autoComplete { summary := "draft" },
    .decision false "more detail", .nodeComplete { summary := "second draft" }]

/-- **A rejected agent is not heard again**: its second completion opens no
request, and nothing sets the event the node waits for. -/
theorem rejectedOnce_stuck :
    ∃ s, (Takeover.begins 0).run rejectedOnce = some s ∧ s.handler = none ∧ ¬ CanComplete s ∧
      ¬ LawfulRun (Takeover.begins 0) rejectedOnce := by
  refine ⟨_, rfl, rfl, ?_, ?_⟩
  · exact Stuck.not_canComplete ⟨rfl, rfl, rfl⟩
  intro hlawful
  obtain ⟨-, h₁⟩ := hlawful _ rfl
  obtain ⟨-, h₂⟩ := h₁ _ rfl
  obtain ⟨h₃, -⟩ := h₂ _ rfl
  have hstuck : ∀ t : Takeover, Stuck t → ¬ CanComplete t := fun t => Stuck.not_canComplete
  exact hstuck _ ⟨rfl, rfl, rfl⟩ (h₃.completes rfl)

/-- An approval completes the node. -/
theorem approvedAtOnce_lawful : LawfulRun (Takeover.begins 0) [.nodeComplete { summary :="draft" }, .decision true ""] := by
  refine (run_lawful_iff 0 [.nodeComplete { summary := "draft" }, .decision true ""] rfl).2
    (.inr ?_)
  decide

end DeterminFlow.Approval
