/-
  Engine.SequenceCounts
  **THE BOOKS OF A NODE SEQUENCE.**

  The index of `_execute_node_sequence` stays where it is when an upstream node is
  rejected, and goes back when an approval is.  Each accepted rejection is on the
  `reject_upstream_count` of its target, each rollback on the `rejection_count` of its
  approval; whatever the sequence does to a node's state carries both.
-/
import DeterminFlow.Engine.SequenceRule
import Mathlib.Algebra.BigOperators.Group.List.Lemmas
import Mathlib.Algebra.Order.BigOperators.Group.List

namespace DeterminFlow.Engine

open Library Coop Workflow DeterminFlow.Runtime List Option

/-! ## What is counted -/

section
variable (E : Env)

/-- A call of `_execute_node`: an attempt begins, or the type of the node is unknown. -/
def isExecution : LogEntry → Bool
  | .began _ _ _ _ => true
  | .ended _ node _ => (E.node? node).any (fun n => !E.registered (nodeTypeOf n))
  | _ => false

def executions (log : List LogEntry) : Nat := log.countP (isExecution E)

def isEntered : LogEntry → Bool
  | .entered _ _ => true
  | _ => false

def entered (log : List LogEntry) : Nat := log.countP isEntered

lemma entered_le_cons (entry : LogEntry) (log : List LogEntry) :
    entered log ≤ entered (entry :: log) := by
  unfold entered
  rw [countP_cons]
  omega

def rejection? : LogEntry → Option (String × String)
  | .rejected _ node upstream => some (node, upstream)
  | _ => none

def rejections (log : List LogEntry) : List (String × String) := log.filterMap rejection?

/-- The `max_reject_count` of a node. -/
def maxRejectOf (nodeId : String) : Nat := ((E.node? nodeId).map getMaxRejectCount).getD 3

/-- The largest `max_reject_count` of the nodes that have rejected a target. -/
def rejectLimit (rejected : List (String × String)) (target : String) : Nat :=
  ((rejected.filter (fun r => r.2 = target)).map (fun r => maxRejectOf E r.1)).foldr max 0

def rejectBudget (rejected : List (String × String)) : Nat :=
  ((rejected.map (·.2)).dedup.map (rejectLimit E rejected)).sum

def approvals (ids : List String) : List String :=
  ids.dedup.filter (fun n => (E.node? n).any (fun node => node.nodeType = "approval"))

def executionBound (ids : List String) (log : List LogEntry) : Nat :=
  ids.length + 2 * rejectBudget E (rejections log) + 4 * (approvals E ids).length

end

section
variable {E : Env} {rejected : List (String × String)} {l : List Nat}

lemma le_foldr_max {a : Nat} (h : a ∈ l) : a ≤ l.foldr max 0 := by
  induction l with
  | nil => cases h
  | cons b rest ih =>
    rw [foldr_cons]
    rcases mem_cons.1 h with rfl | h
    · exact Nat.le_max_left _ _
    exact le_trans (ih h) (Nat.le_max_right _ _)

lemma foldr_max_le {b : Nat} (h : ∀ a ∈ l, a ≤ b) : l.foldr max 0 ≤ b := by
  induction l with
  | nil => exact Nat.zero_le _
  | cons a rest ih =>
    rw [foldr_cons]
    exact Nat.max_le.2 ⟨h a mem_cons_self, ih (fun x hx => h x (mem_cons_of_mem _ hx))⟩

lemma le_rejectLimit {node target : String} (h : (node, target) ∈ rejected) :
    maxRejectOf E node ≤ rejectLimit E rejected target := by
  apply le_foldr_max
  exact mem_map.2 ⟨(node, target), mem_filter.2 ⟨h, decide_eq_true rfl⟩, rfl⟩

lemma rejectLimit_cons (r : String × String) (target : String) :
    rejectLimit E rejected target ≤ rejectLimit E (r :: rejected) target := by
  apply foldr_max_le
  intro _ ha
  obtain ⟨r', hr', rfl⟩ := mem_map.1 ha
  apply le_foldr_max
  obtain ⟨hmem, htarget⟩ := mem_filter.1 hr'
  exact mem_map.2 ⟨r', mem_filter.2 ⟨mem_cons_of_mem _ hmem, htarget⟩, rfl⟩

lemma length_le_rejectBudget
    (h : ∀ target, (rejected.map (·.2)).count target ≤ rejectLimit E rejected target) :
    rejected.length ≤ rejectBudget E rejected := by
  have hcount := sum_map_count_dedup_eq_length (rejected.map (·.2))
  rw [length_map] at hcount
  rw [← hcount]
  unfold rejectBudget
  exact sum_le_sum (fun target _ => h target)

lemma node?_mem {nodeId : String} {node : WorkflowNode} (h : E.node? nodeId = some node) :
    node ∈ E.definition.nodes := mem_reverse.1 (mem_of_find?_eq_some h)

/-- The largest `max_reject_count` of a definition. -/
def largestLimit (E : Env) : Nat := (3 :: E.definition.nodes.map getMaxRejectCount).foldr max 0

lemma maxRejectOf_le (nodeId : String) : maxRejectOf E nodeId ≤ largestLimit E := by
  unfold maxRejectOf largestLimit
  apply le_foldr_max
  cases hnode : E.node? nodeId with
  | none => exact mem_cons_self
  | some node =>
    apply mem_cons_of_mem
    exact mem_map.2 ⟨node, node?_mem hnode, rfl⟩

lemma rejectBudget_le (h : ∀ r ∈ rejected, (E.node? r.2).isSome) :
    rejectBudget E rejected ≤ E.definition.nodes.length * largestLimit E := by
  have hsub : (rejected.map (·.2)).dedup ⊆ E.definition.nodes.map (·.id) := by
    intro target htarget
    obtain ⟨r, hr, rfl⟩ := mem_map.1 (mem_dedup.1 htarget)
    obtain ⟨node, hnode⟩ := isSome_iff_exists.1 (h r hr)
    exact mem_map.2 ⟨node, node?_mem hnode, WorkflowDef.getNode_id _ hnode⟩
  have hlength : (rejected.map (·.2)).dedup.length ≤ E.definition.nodes.length := by
    have hle := ((nodup_dedup (rejected.map (·.2))).subperm hsub).length_le
    rwa [length_map] at hle
  have hsum : rejectBudget E rejected ≤ (rejected.map (·.2)).dedup.length * largestLimit E := by
    have hle := sum_le_card_nsmul ((rejected.map (·.2)).dedup.map (rejectLimit E rejected))
      (largestLimit E) ?_
    · rwa [length_map] at hle
    intro _ ha
    obtain ⟨target, -, rfl⟩ := mem_map.1 ha
    apply foldr_max_le
    intro _ hb
    obtain ⟨r, -, rfl⟩ := mem_map.1 hb
    exact maxRejectOf_le r.1
  exact le_trans hsum (Nat.mul_le_mul_right _ hlength)

end

/-! ## The books of a call -/

def counters (state : NodeExecutionState) : Nat × Nat :=
  (state.rejectUpstreamCount, state.rejectionCount)

variable (state : NodeExecutionState) (now : Timestamp)

@[simp] lemma counters_recordAttempt : counters state.recordAttempt = counters state :=rfl

@[simp] lemma counters_applyResult (previous : NodeExecutionState) (result : NodeResult)
    (state : NodeExecutionState) :
    counters (applyResult now previous result state) = counters state := rfl

@[simp] lemma counters_audit (calls : List String) (willRetry : Bool) (state : NodeExecutionState) :
    counters (updateRejectionRetryAudit now calls willRetry state) = counters state := by
  unfold updateRejectionRetryAudit
  split
  · rfl
  split
  all_goals rfl

lemma counters_patch (p : LivePatch) (state : NodeExecutionState) :
    counters state ≤ counters (p.apply state) := by
  cases p with
  | feedback counted =>
    cases counted with
    | true => exact ⟨le_rfl, Nat.le_succ _⟩
    | false => exact le_rfl |> fun h => ⟨h, le_rfl⟩
  | _ => exact ⟨le_rfl, le_rfl⟩

lemma counters_policy {E : Env} {node : WorkflowNode} {now : Timestamp}
    {state next : NodeExecutionState} {outcome : PolicyOutcome}
    (h : failedNodePolicy E node now state = some (outcome, some next)) :
    counters next = counters state := by
  unfold failedNodePolicy at h
  split at h
  · obtain ⟨_, -, hnext⟩ := bind_eq_some_iff.1 h
    obtain ⟨_, hprepared, heq⟩ := map_eq_some_iff.1 hnext
    injection heq with _ hsome
    obtain rfl := some.inj hsome
    unfold NodeExecutionState.prepareRetry at hprepared
    split at hprepared
    · cases hprepared
    split at hprepared
    · obtain rfl := some.inj hprepared
      rfl
    split at hprepared
    · cases hprepared
    obtain rfl := some.inj hprepared
    rfl
  split at h
  · injection h with h
    injection h with _ hsome
    obtain rfl := some.inj hsome
    rfl
  injection h with h
  injection h with _ hsome
  cases hsome

def countersOf (w : World) (track : String → Option Nat) (n : String) : Nat × Nat :=
  ((track n).map (fun r => counters (w.objects n r))).getD (0, 0)

variable {n : String} {w : World}

lemma countersOf_some {track : String → Option Nat} {r : Nat} (h : track n = some r) :
    countersOf w track n = counters (w.objects n r) := by
  unfold countersOf
  rw [h]
  rfl

lemma countersOf_none {track : String → Option Nat} (h : track n = none) :
    countersOf w track n = (0, 0) := by
  unfold countersOf
  rw [h]
  rfl

section
variable (E : Env) (ids : List String) (start : World) (least : Nat)

def rolls (back : String → Nat) : Nat := ((approvals E ids).map back).sum

def slack (log : List LogEntry) (back : String → Nat) : Nat :=
  2 * (rejections log).length + 2 * rolls E ids back

/-- **The books**: the history since the start of the call, and the rollbacks of each
approval; `track` says which object stands for a node. -/
structure Ledger (w : World) (track : String → Option Nat) (log : List LogEntry)
    (back : String → Nat) : Prop where
  log_eq : w.log = log ++ start.log
  least : least ≤ entered w.log
  known : ∀ r ∈ rejections log, (E.node? r.2).isSome
  counted : ∀ n, ((rejections log).map (·.2)).count n ≤ (countersOf w track n).1
  limited : ∀ n, ((rejections log).map (·.2)).count n ≤ rejectLimit E (rejections log) n
  rolled : ∀ n, back n ≤ (countersOf w track n).2
  twice : ∀ n, back n ≤ 2

/-- **The bound**, as far as the call has come. -/
def Bounded (w : World) : Prop :=
  ∃ log, w.log = log ++ start.log ∧ executions E log ≤ executionBound E ids log

variable {E ids start least} {w w' : World} {track track' : String → Option Nat}
  {log : List LogEntry} {back : String → Nat}

lemma rolls_le (E : Env) (ids : List String) (h : ∀ n, back n ≤ 2) : rolls E ids back ≤ 2 * (approvals E ids).length := by
  have hle := sum_le_card_nsmul ((approvals E ids).map back) 2 ?_
  · rw [length_map] at hle
    exact le_trans hle (Nat.le_of_eq (Nat.mul_comm _ _))
  intro _ ha
  obtain ⟨n, -, rfl⟩ := mem_map.1 ha
  exact h n

lemma rolls_update {n : String} (hn : n ∈ approvals E ids) :
    rolls E ids (Function.update back n (back n + 1)) = rolls E ids back + 1 := by
  have hnodup : (approvals E ids).Nodup := (nodup_dedup ids).filter _
  unfold rolls
  generalize approvals E ids = l at hn hnodup
  induction l with
  | nil => cases hn
  | cons m rest ih =>
    obtain ⟨hm, hrest⟩ := nodup_cons.1 hnodup
    rw [map_cons, sum_cons, map_cons, sum_cons]
    by_cases hmn : m = n
    · subst hmn
      have hsame : rest.map (Function.update back m (back m + 1)) = rest.map back := by
        apply map_congr_left
        intro x hx
        exact Function.update_of_ne (fun heq : x = m => hm (heq ▸ hx)) _ _
      rw [hsame, Function.update_self]
      omega
    rw [Function.update_of_ne hmn, ih ((mem_cons.1 hn).resolve_left (Ne.symm hmn)) hrest]
    omega

lemma Ledger.bounded (h : Ledger E start least w track log back)
    (hreach : executions E log ≤ ids.length + slack E ids log back) : Bounded E ids start w := by
  refine ⟨log, h.log_eq, ?_⟩
  have hrejections := length_le_rejectBudget h.limited
  have hrolls := rolls_le E ids h.twice
  unfold slack at hreach
  unfold executionBound
  omega

lemma Ledger.mono (h : Ledger E start least w track log back) (hlog : w'.log = w.log)
    (hcounts : ∀ n, countersOf w track n ≤ countersOf w' track' n) :
    Ledger E start least w' track' log back := by
  refine ⟨hlog.trans h.log_eq, ?_, h.known, fun n => ?_, h.limited, fun n => ?_, h.twice⟩
  · rw [hlog]
    exact h.least
  · exact le_trans (h.counted n) (hcounts n).1
  exact le_trans (h.rolled n) (hcounts n).2

lemma Ledger.record (h : Ledger E start least w track log back) {entry : LogEntry}
    (hentry : rejection? entry = none) (hlog : w'.log = entry :: w.log)
    (hcounts : ∀ n, countersOf w track n ≤ countersOf w' track' n) :
    Ledger E start least w' track' (entry :: log) back := by
  have hsame : rejections (entry :: log) = rejections log := by
    unfold rejections
    rw [filterMap_cons, hentry]
  constructor
  · rw [hlog, h.log_eq]
    rfl
  · rw [hlog]
    exact le_trans h.least (entered_le_cons _ _)
  · rw [hsame]
    exact h.known
  · rw [hsame]
    exact fun n => le_trans (h.counted n) (hcounts n).1
  · rw [hsame]
    exact h.limited
  · exact fun n => le_trans (h.rolled n) (hcounts n).2
  exact h.twice

lemma Ledger.reject (h : Ledger E start least w track log back) {t : Thread}
    {node target : String} (hnode : (E.node? target).isSome)
    (hlimit : (countersOf w track target).1 < maxRejectOf E node)
    (hlog : w'.log = .rejected t node target :: w.log)
    (hcounts : ∀ n, n ≠ target → countersOf w track n ≤ countersOf w' track' n)
    (htarget : (countersOf w track target).1 + 1 ≤ (countersOf w' track' target).1
      ∧ (countersOf w track target).2 ≤ (countersOf w' track' target).2) :
    Ledger E start least w' track' (.rejected t node target :: log) back := by
  have hcons : rejections (.rejected t node target :: log) = (node, target) :: rejections log := rfl
  have hcount : ∀ n, (((node, target) :: rejections log).map (·.2)).count n
      = ((rejections log).map (·.2)).count n + if target = n then 1 else 0 := by
    intro n
    rw [map_cons, count_cons]
    simp only [beq_iff_eq]
  constructor
  · rw [hlog, h.log_eq]
    rfl
  · rw [hlog]
    exact le_trans h.least (entered_le_cons _ _)
  · rw [hcons]
    intro r hr
    rcases mem_cons.1 hr with rfl | hr
    · exact hnode
    exact h.known r hr
  · intro n
    rw [hcons, hcount]
    have hold := h.counted n
    split
    · next heq =>
      subst heq
      omega
    next hne =>
    have hgrows := (hcounts n (Ne.symm hne)).1
    omega
  · intro n
    rw [hcons, hcount]
    split
    · next heq =>
      subst heq
      have hold := h.counted target
      have hmem : (node, target) ∈ (node, target) :: rejections log := mem_cons_self
      have hle := le_rejectLimit (E := E) hmem
      omega
    exact le_trans (h.limited n) (rejectLimit_cons _ n)
  · intro n
    by_cases heq : n = target
    · subst heq
      exact le_trans (h.rolled n) htarget.2
    exact le_trans (h.rolled n) (hcounts n heq).2
  exact h.twice

end

/-! ## What updates do to the counts -/

section
variable {w : World} {track : String → Option Nat}

lemma countersOf_current (w : World) (n : String) :
    countersOf w w.current? n = ((w.stateOf n).map counters).getD (0, 0) := by
  unfold countersOf World.stateOf
  rw [Option.map_map]
  rfl

variable {track' : String → Option Nat} {m : String}

lemma countersOf_congr {w' : World} {n : String} (htrack : track' n = track n)
    (hobjects : ∀ r, track n = some r → w'.objects n r = w.objects n r) :
    countersOf w track n ≤ countersOf w' track' n := by
  cases hn : track n with
  | none =>
    rw [countersOf_none hn]
    exact ⟨Nat.zero_le _, Nat.zero_le _⟩
  | some r =>
    rw [countersOf_some hn, countersOf_some (htrack.trans hn), hobjects r hn]

lemma countersOf_modify {m : String} {r : Nat} {f : NodeExecutionState → NodeExecutionState}
    (hf : counters (w.objects m r) ≤ counters (f (w.objects m r))) (n : String) :
    countersOf w track n ≤ countersOf (w.modifyObject m r f) track n := by
  cases hn : track n with
  | none =>
    rw [countersOf_none hn]
    exact ⟨Nat.zero_le _, Nat.zero_le _⟩
  | some k =>
    rw [countersOf_some hn, countersOf_some hn, World.objects_modifyObject]
    split
    · next heq =>
      obtain ⟨rfl, rfl⟩ := heq
      exact hf
    exact ⟨le_rfl, le_rfl⟩

lemma countersOf_install {r : Nat} (hr : countersOf w track m ≤ counters (w.objects m r))
    (hm : track' m = some r) (hothers : ∀ n, n ≠ m → track' n = track n) (n : String) :
    countersOf w track n ≤ countersOf (w.install m r) track' n := by
  by_cases hn : n = m
  · subst hn
    rw [countersOf_some hm]
    exact hr
  exact countersOf_congr (hothers n hn) (fun _ _ => rfl)

lemma countersOf_upsert {f : NodeExecutionState → NodeExecutionState}
    (hf : ∀ state, counters (f state) = counters state) (n : String) :
    countersOf w w.current? n ≤ countersOf (w.upsert m f) (w.upsert m f).current? n := by
  rw [countersOf_current, countersOf_current, World.stateOf_upsert]
  split
  · next heq =>
    subst heq
    rw [map_some, getD_some, hf]
    cases w.stateOf m with
    | none => exact ⟨Nat.zero_le _, Nat.zero_le _⟩
    | some => exact ⟨le_rfl, le_rfl⟩
  exact ⟨le_rfl, le_rfl⟩

lemma countersOf_installNew {state : NodeExecutionState}
    (hm : countersOf w track m ≤ counters state) (hself : track' m = some (w.allocated m))
    (hothers : ∀ n, n ≠ m → track' n = track n) (n : String) :
    countersOf w track n ≤ countersOf (w.installNew m state) track' n := by
  by_cases hn : n = m
  · subst hn
    rw [countersOf_some hself, World.objects_installNew, if_pos ⟨rfl, rfl⟩]
    exact hm
  refine countersOf_congr (hothers n hn) (fun _ _ => ?_)
  rw [World.objects_installNew, if_neg (fun h => hn h.1)]

end

/-! ## The specification -/

def Place.reach : Place → Nat
  | .own i _ _ => i + 1
  | .upstream i _ _ _ _ => i

def Place.turn : Place → Nat
  | .own i _ _ => i
  | .upstream i _ _ _ _ => i

def Place.owner : Place → WorkflowNode
  | .own _ node _ => node
  | .upstream _ node _ _ _ => node

/-- The objects that stand for the nodes while a node is executed on an object: of the
rejecting node it is the one that will be put back. -/
def Place.track (w : World) (object : Nat) : Place → String → Option Nat
  | .own _ node _ => Function.update w.current? node.id (some object)
  | .upstream _ node r rejected _ =>
    Function.update (Function.update w.current? rejected.id (some object)) node.id (some r)

def Place.kept : Place → Option Nat
  | .own _ _ _ => none
  | .upstream _ _ r _ _ => some r

def Place.Apart (w : World) (object : Nat) (p : Place) : Prop :=
  ∀ r, p.kept = some r →
    r < w.allocated p.owner.id ∧ (p.owner.id = p.target.id → r ≠ object)

section
variable (E : Env) (ids : List String) (start : World) (least : Nat)

/-- The node of the turn and the node that is executed are known. -/
structure Place.Known (p : Place) : Prop where
  listed : ids[p.turn]? = some p.owner.id
  owner : E.node? p.owner.id = some p.owner
  target : E.node? p.target.id = some p.target

def AtHead (i : Nat) (w : World) : Prop :=
  ∃ log back, Ledger E start least w w.current? log back ∧ i ≤ ids.length
    ∧ executions E log ≤ i + slack E ids log back ∧ entered log ≤ executions E log

def IsReady (p : Place) (w : World) : Prop :=
  p.Known E ids ∧ p.Apart w p.object ∧ ∃ log back,
    Ledger E start least w (p.track w p.object) log back
    ∧ executions E log + 1 ≤ p.reach + slack E ids log back
    ∧ entered log ≤ executions E log + 1

/-- While attempt `a` runs on object `live`. -/
def IsRunning (p : Place) (a live : Nat) (w : World) : Prop :=
  p.Known E ids ∧ E.registered (nodeTypeOf p.target) = true ∧ p.Apart w live
    ∧ ∃ x log back, w.attempts[a]? = some x
    ∧ x.node = p.target.id ∧ x.live = live ∧ x.outer = p.outer
    ∧ Ledger E start least w (p.track w live) log back
    ∧ executions E log ≤ p.reach + slack E ids log back ∧ entered log ≤ executions E log
    ∧ (x.rejected = none → w.current? p.target.id = some live)
    ∧ (x.rejected ≠ none → executions E log + 1 ≤ p.turn + slack E ids log back)

def IsExecuted (p : Place) (e : Executed) (w : World) : Prop :=
  p.Known E ids ∧ p.Apart w e.object ∧ ∃ log back,
    Ledger E start least w (p.track w e.object) log back
    ∧ executions E log ≤ p.reach + slack E ids log back ∧ entered log ≤ executions E log
    ∧ (e.rejected ≠ none → executions E log + 1 ≤ p.turn + slack E ids log back
        ∧ e.object < w.allocated p.target.id)

/-- After the object of the node has been installed; `more` rejections were counted. -/
def IsHeld (more i : Nat) (node : WorkflowNode) (e : Executed) (w : World) : Prop :=
  ids[i]? = some node.id ∧ E.node? node.id = some node ∧ w.current? node.id = some e.object
    ∧ ∃ log back, Ledger E start least w w.current? log back
      ∧ executions E log ≤ i + 1 + slack E ids log back ∧ entered log ≤ executions E log
      ∧ (e.rejected ≠ none → executions E log + 1 ≤ i + slack E ids log back
          ∧ e.object < w.allocated node.id)
      ∧ back node.id + more ≤ (counters (w.objects node.id e.object)).2

def IsRetried (i : Nat) (node : WorkflowNode) (r : Nat) (upstream : WorkflowNode) (r' : Nat)
    (w : World) : Prop :=
  i < ids.length ∧ w.current? node.id = some r ∧ r < w.allocated node.id
    ∧ (upstream.id ≠ node.id → w.current? upstream.id = some r')
    ∧ ∃ log back, Ledger E start least w w.current? log back
      ∧ executions E log ≤ i + slack E ids log back ∧ entered log ≤ executions E log

def IsSending (i : Nat) (node : WorkflowNode) (r : Nat) (upstreamId : String) (upstream : Nat)
    (w : World) : Prop :=
  0 < i ∧ i < ids.length ∧ node.id ∈ approvals E ids ∧ w.current? node.id = some r
    ∧ w.current? upstreamId = some upstream
    ∧ ∃ log back, Ledger E start least w w.current? log back
      ∧ executions E log ≤ i + 1 + slack E ids log back ∧ entered log ≤ executions E log
      ∧ back node.id + 1 ≤ (counters (w.objects node.id r)).2 ∧ back node.id + 1 ≤ 2

def IsSkipping (i : Nat) (node : WorkflowNode) (r : Nat) (w : World) : Prop :=
  i < ids.length ∧ ∃ log back,
    Ledger E start least w (Function.update w.current? node.id (some r)) log back
    ∧ executions E log ≤ i + slack E ids log back ∧ entered log ≤ executions E log

def countedSpot : Spot → World → Prop
  | .head i => AtHead E ids start least i
  | .done _ => Bounded E ids start
  | .begun p a live _ => IsRunning E ids start least p a live
  | .retrying i node r rejected retry => IsReady E ids start least (.upstream i node r rejected retry)
  | .skipping i node r => IsSkipping E ids start least i node r
  | .sending i node r upstreamId upstream => IsSending E ids start least i node r upstreamId upstream

variable {E ids start least} {w w' : World} {n upstreamId : String} {i r live a r' : Nat}
  {p : Place} {back : String → Nat} {log : List LogEntry} {t : Thread} {calls : List String}
  {e : Executed} {upstream : WorkflowNode} {outcome : PolicyOutcome}

lemma lt_of_listed (h : ids[i]? = some n) : i < ids.length :=
  (List.getElem?_eq_some_iff.1 h).1

lemma Place.Known.lt (h : p.Known E ids) : p.turn < ids.length := lt_of_listed h.listed

lemma Place.reach_le (p : Place) : p.reach ≤ p.turn + 1 := by
  cases p with
  | own => exact le_rfl
  | upstream => exact Nat.le_succ _

lemma countedSpot_bounded {p : Spot} (h : countedSpot E ids start least p w) :
    Bounded E ids start w := by
  cases p with
  | head =>
    obtain ⟨log, back, hbooks, hi, hreach, -⟩ := h
    exact hbooks.bounded (by omega)
  | done => exact h
  | begun p =>
    obtain ⟨hknown, -, -, _, log, back, -, -, -, -, hbooks, hreach, -⟩ := h
    have hlt := hknown.lt
    have hle := p.reach_le
    exact hbooks.bounded (by omega)
  | retrying i =>
    obtain ⟨hknown, -, log, back, hbooks, hreach, -⟩ := h
    have hlt : i < ids.length := hknown.lt
    have hreach' : executions E log + 1 ≤ i + slack E ids log back := hreach
    exact hbooks.bounded (by omega)
  | skipping =>
    obtain ⟨hi, log, back, hbooks, hreach, -⟩ := h
    exact hbooks.bounded (by omega)
  | sending =>
    obtain ⟨-, hi, -, -, -, log, back, hbooks, hreach, -⟩ := h
    exact hbooks.bounded (by omega)

lemma Ledger.of_core {track : String → Option Nat} (hcore : core w = core w')
    (h : Ledger E start least w track log back) : Ledger E start least w' track log back := by
  refine h.mono (log_of_core hcore).symm (fun _ => ?_)
  exact countersOf_congr rfl (fun _ _ => by rw [objects_of_core hcore])

lemma current?_eq_of_core (hcore : core w = core w') : w.current? = w'.current? :=
  funext (fun n => current?_of_core hcore n)

lemma Place.track_of_core (hcore : core w = core w') (p : Place) (object : Nat) :
    p.track w object = p.track w' object := by
  cases p with
  | _ =>
    unfold Place.track
    rw [current?_eq_of_core hcore]

lemma Place.apart_of_core (hcore : core w = core w') {object : Nat} (h : p.Apart w object) :
    p.Apart w' object := by
  intro r hr
  rw [← allocated_of_core hcore]
  exact h r hr

lemma bounded_steady : Steady (Bounded E ids start) := by
  rintro w w' hcore ⟨log, hlog, hrest⟩
  rw [log_of_core hcore] at hlog
  exact ⟨log, hlog, hrest⟩

lemma countedSpot_steady (p : Spot) : Steady (countedSpot E ids start least p) := by
  intro w w' hcore h
  have hcurrent := current?_eq_of_core hcore
  have hobjects := objects_of_core hcore
  cases p with
  | head =>
    obtain ⟨log, back, hbooks, hrest⟩ := h
    exact ⟨log, back, hcurrent ▸ hbooks.of_core hcore, hrest⟩
  | done => exact bounded_steady w w' hcore h
  | begun p =>
    obtain ⟨hknown, hregistered, hapart, x, log, back, hx, hnode, hlive, houter, hbooks, hreach,
      hentered, hopen, hpaid⟩ := h
    refine ⟨hknown, hregistered, p.apart_of_core hcore hapart, x, log, back, ?_, hnode, hlive, houter, ?_, hreach,
      hentered, ?_, hpaid⟩
    · rw [← attempts_of_core hcore]
      exact hx
    · rw [← p.track_of_core hcore]
      exact hbooks.of_core hcore
    rw [← hcurrent]
    exact hopen
  | retrying =>
    obtain ⟨hknown, hapart, log, back, hbooks, hrest⟩ := h
    refine ⟨hknown, Place.apart_of_core hcore hapart, log, back, ?_, hrest⟩
    rw [← Place.track_of_core hcore]
    exact hbooks.of_core hcore
  | skipping =>
    obtain ⟨hi, log, back, hbooks, hrest⟩ := h
    exact ⟨hi, log, back, hcurrent ▸ hbooks.of_core hcore, hrest⟩
  | sending =>
    obtain ⟨hpos, hi, happroval, hr, hupstream, log, back, hbooks, hreach, hentered, hback, htwice⟩ := h
    refine ⟨hpos, hi, happroval, hcurrent ▸ hr, hcurrent ▸ hupstream, log, back,
      hcurrent ▸ hbooks.of_core hcore, hreach, hentered, ?_, htwice⟩
    rw [← hobjects]
    exact hback

/-! ## Updates of a turn -/

lemma install_current (w : World) (m : String) (r : Nat) :
    (w.install m r).current? = Function.update w.current? m (some r) := by
  funext n
  rw [World.current?_install]
  by_cases hn : n = m
  · rw [if_pos hn.symm, hn, Function.update_self]
  rw [if_neg (Ne.symm hn), Function.update_of_ne hn]

lemma update_current {m : String} (h : w.current? m = some r) :
    Function.update w.current? m (some r) = w.current? := by
  rw [← h]
  exact Function.update_eq_self m w.current?

lemma Bounded.of_log (h : Bounded E ids start w) (hlog : w'.log = w.log) :
    Bounded E ids start w' := by
  obtain ⟨log, heq, hbounded⟩ := h
  exact ⟨log, hlog.trans heq, hbounded⟩

section
variable {o : Nat}

lemma Place.track_own (i : Nat) (node : WorkflowNode) (r : Nat) :
    (Place.own i node r).track w o node.id = some o := Function.update_self _ _ _

variable {n : String}

lemma Place.track_own_ne (i : Nat) (node : WorkflowNode) (r : Nat) (hn : n ≠ node.id) :
    (Place.own i node r).track w o n = w.current? n := Function.update_of_ne hn _ _

variable (i : Nat) (node : WorkflowNode) (r : Nat) (rejected : WorkflowNode) (retry : Nat)

lemma Place.track_owner : (Place.upstream i node r rejected retry).track w o node.id = some r :=Function.update_self _ _ _

lemma Place.track_target (hid : rejected.id ≠ node.id) :
    (Place.upstream i node r rejected retry).track w o rejected.id = some o :=
  (Function.update_of_ne hid _ _).trans (Function.update_self _ _ _)

lemma Place.track_other (hn : n ≠ node.id) (hup : n ≠ rejected.id) :
    (Place.upstream i node r rejected retry).track w o n = w.current? n :=
  (Function.update_of_ne hn _ _).trans (Function.update_of_ne hup _ _)

end

lemma Place.counts_le {o o' : Nat}
    (hcurrent : ∀ n, n ≠ p.target.id → w'.current? n = w.current? n)
    (hobjects : ∀ n, n ≠ p.target.id → ∀ k, w'.objects n k = w.objects n k)
    (hself : counters (w.objects p.target.id o) ≤ counters (w'.objects p.target.id o'))
    (hkept : ∀ r, p.kept = some r → p.owner.id = p.target.id →
      w'.objects p.target.id r = w.objects p.target.id r) (n : String) :
    countersOf w (p.track w o) n ≤ countersOf w' (p.track w' o') n := by
  cases p with
  | own i node r =>
    by_cases hn : n = node.id
    · subst hn
      rw [countersOf_some (Place.track_own i node r), countersOf_some (Place.track_own i node r)]
      exact hself
    apply countersOf_congr
    · rw [Place.track_own_ne i node r hn, Place.track_own_ne i node r hn]
      exact hcurrent n hn
    exact fun k _ => hobjects n hn k
  | upstream i node r rejected retry =>
    by_cases hn : n = node.id
    · subst hn
      rw [countersOf_some (Place.track_owner i node r rejected retry),
        countersOf_some (Place.track_owner i node r rejected retry)]
      have hsame : w'.objects node.id r = w.objects node.id r := by
        by_cases hid : node.id = rejected.id
        · have hkept' : w'.objects rejected.id r = w.objects rejected.id r := hkept r rfl hid
          rw [hid, hkept']
        exact hobjects node.id hid r
      rw [hsame]
    by_cases hup : n = rejected.id
    · subst hup
      rw [countersOf_some (Place.track_target i node r rejected retry hn),
        countersOf_some (Place.track_target i node r rejected retry hn)]
      exact hself
    apply countersOf_congr
    · rw [Place.track_other i node r rejected retry hn hup,
        Place.track_other i node r rejected retry hn hup]
      exact hcurrent n hup
    exact fun k _ => hobjects n hup k

lemma atHead_skipDisabled (hid : ids[i]? = some n) (h : AtHead E ids start least i w) :
    AtHead E ids start least (i + 1) (skipDisabled n w) := by
  obtain ⟨log, back, hbooks, -, _, hentered⟩ := h
  have hlt := lt_of_listed hid
  refine ⟨log, back, ?_, hlt, by omega, hentered⟩
  exact hbooks.mono (World.log_upsert _ _ _) (countersOf_upsert (fun _ => rfl))

lemma atHead_normalize (hid : ids[i]? = some n) (h : AtHead E ids start least i w) :
    AtHead E ids start least (i + 1) (normalizeStatus n w) := by
  obtain ⟨log, back, hbooks, -, _, hentered⟩ := h
  have hlt := lt_of_listed hid
  refine ⟨log, back, ?_, hlt, by omega, hentered⟩
  unfold normalizeStatus
  split
  · exact hbooks.mono rfl (countersOf_modify ⟨le_rfl, le_rfl⟩)
  exact hbooks

lemma Ledger.relax {track : String → Option Nat} (h : Ledger E start least w track log back)
    {other : Nat} (hother : other ≤ entered w.log) : Ledger E start other w track log back :=
  ⟨h.log_eq, hother, h.known, h.counted, h.limited, h.rolled, h.twice⟩

lemma IsReady.relax (h : IsReady E ids start (least + 1) p w) :
    IsReady E ids start least p w := by
  obtain ⟨hknown, hapart, log, back, hbooks, hrest⟩ := h
  have hleast := hbooks.least
  exact ⟨hknown, hapart, log, back, hbooks.relax (by omega), hrest⟩

lemma isReady_enter {node : WorkflowNode} (hid : ids[i]? = some node.id)
    (hnode : E.node? node.id = some node) (h : AtHead E ids start least i w) :
    IsReady E ids start (least + 1) (.own i node (w.currentOrNext node.id))
      (enterNode t node.id w) := by
  obtain ⟨log, back, hbooks, -, _, hentered⟩ := h
  have hlog : (enterNode t node.id w).log = .entered t node.id :: w.log := by
    unfold enterNode
    rw [World.log_record, World.log_upsert]
  have hmore : ∀ l, entered (.entered t node.id :: l) = entered l + 1 :=
    fun l => countP_cons_of_pos rfl
  refine ⟨⟨hid, hnode, hnode⟩, (nofun), .entered t node.id :: log, back, ?_, ?_, ?_⟩
  · refine Ledger.relax (hbooks.record rfl hlog (fun n => ?_)) ?_
    · have hcurrent : (enterNode t node.id w).current? node.id = some (w.currentOrNext node.id) := by
        unfold enterNode
        rw [World.current?_record, World.current?_upsert, if_pos rfl]
        rfl
      have htrack : Place.track (enterNode t node.id w) (w.currentOrNext node.id)
          (.own i node (w.currentOrNext node.id)) = (enterNode t node.id w).current? :=
        update_current hcurrent
      show _ ≤ countersOf (enterNode t node.id w) (Place.track _ (w.currentOrNext node.id) _) n
      rw [htrack]
      exact countersOf_upsert (w := { w with task := { w.task with currentNodeId := some node.id } })
        (f := fun s => { s with status := .running }) (fun _ => rfl) n
    rw [hlog, hmore]
    exact Nat.succ_le_succ hbooks.least
  · show executions E log + 1 ≤ i + 1 + slack E ids log back
    omega
  rw [hmore]
  exact Nat.succ_le_succ hentered

lemma isRunning_begin {call : Call} (houter : call.outer = p.outer)
    (hregistered : E.registered (nodeTypeOf p.target) = true) (h : IsReady E ids start least p w) :
    IsRunning E ids start least p w.attempts.length (w.allocated p.target.id)
      (beginNodeAttempt E t p.target p.object call w) := by
  obtain ⟨hknown, hapart, log, back, hbooks, hreach, hentered⟩ := h
  have hbegan : ∀ l, executions E
      (.began t p.target.id (begunState E p.target p.object w).attemptCount
        (newAttempt E t p.target p.object call w).input :: l) = executions E l + 1 :=
    fun l => countP_cons_of_pos rfl
  refine ⟨hknown, hregistered, fun r hr => ?_, newAttempt E t p.target p.object call w,
    .began t p.target.id (begunState E p.target p.object w).attemptCount
      (newAttempt E t p.target p.object call w).input :: log, back, ?_, rfl, rfl, houter, ?_, ?_, ?_,
    fun _ => ?_, fun hne => absurd rfl hne⟩
  · obtain ⟨hallocated, hne⟩ := hapart r hr
    constructor
    · show r < Function.update w.allocated p.target.id _ p.owner.id
      by_cases hid : p.owner.id = p.target.id
      · rw [hid, Function.update_self]
        rw [hid] at hallocated
        omega
      rw [Function.update_of_ne hid]
      exact hallocated
    intro hid
    rw [hid] at hallocated
    omega
  · show (w.attempts ++ [_])[w.attempts.length]? = _
    rw [getElem?_append_right le_rfl, Nat.sub_self]
    rfl
  · refine hbooks.record rfl rfl (p.counts_le (fun n hn => ?_) (fun n hn k => ?_) ?_ ?_)
    · show (w.installNew p.target.id _).current? n = w.current? n
      rw [World.current?_installNew, if_neg (Ne.symm hn)]
    · show (w.installNew p.target.id _).objects n k = w.objects n k
      rw [World.objects_installNew, if_neg (fun hand => hn hand.1)]
    · show _ ≤ counters ((w.installNew p.target.id _).objects p.target.id _)
      rw [World.objects_installNew, if_pos ⟨rfl, rfl⟩]
      exact ⟨le_rfl, le_rfl⟩
    intro r hr hid
    obtain ⟨hallocated, -⟩ := hapart r hr
    rw [hid] at hallocated
    show (w.installNew p.target.id _).objects p.target.id r = w.objects p.target.id r
    rw [World.objects_installNew, if_neg (fun hand => by omega)]
  · rw [hbegan]
    exact hreach
  · rw [hbegan]
    exact hentered
  show (w.installNew p.target.id _).current? p.target.id = _
  rw [World.current?_installNew, if_pos rfl]

lemma isExecuted_failUnknown {t : Thread}
    (hregistered : E.registered (nodeTypeOf p.target) = false) (h : IsReady E ids start least p w) :
    IsExecuted E ids start least p { object := p.object, rejected := none }
      (failUnknownType t p.target p.object w) := by
  obtain ⟨hknown, hapart, log, back, hbooks, hreach, hentered⟩ := h
  have hended : ∀ l, executions E (.ended t p.target.id .failed :: l) = executions E l + 1 := by
    intro l
    apply countP_cons_of_pos
    show (E.node? p.target.id).any _ = true
    rw [hknown.target, any_some, hregistered]
    rfl
  refine ⟨hknown, hapart, .ended t p.target.id .failed :: log, back, ?_, ?_, ?_,
    fun hne => absurd rfl hne⟩
  · refine hbooks.record rfl rfl (p.counts_le (fun _ _ => rfl) (fun _ hn _ => ?_) ?_ ?_)
    · unfold failUnknownType
      rw [World.objects_record, World.objects_modifyObject_ne _ _ _ _ _ _ (.inl hn)]
    · unfold failUnknownType
      rw [World.objects_record, World.objects_modifyObject_self]
      exact ⟨le_rfl, le_rfl⟩
    intro r hr hid
    unfold failUnknownType
    rw [World.objects_record,
      World.objects_modifyObject_ne _ _ _ _ _ _ (.inr ((hapart r hr).2 hid))]
  · rw [hended]
    exact hreach
  rw [hended]
  exact hentered

lemma isExecuted_finish {t : Thread} {previous : NodeExecutionState} {result : NodeResult}
    (h : IsRunning E ids start least p a live w) : IsExecuted E ids start least p
      { object := w.allocated p.target.id, rejected := (w.attempts[a]?).bind (·.rejected) }
      (finishAttempt t p.target.id live previous result w) := by
  obtain ⟨hknown, hregistered, hapart, _, log, back, hx, -, -, -, hbooks, hreach, hentered, -,
    hpaid⟩ := h
  have hended : ∀ l, executions E (.ended t p.target.id result.status.normalize :: l)
      = executions E l := by
    intro l
    apply countP_cons_of_neg
    show ¬ (E.node? p.target.id).any _ = true
    rw [hknown.target, any_some, hregistered]
    simp
  have hpublish : ∀ v : World, (publishOutputs result v).objects = v.objects
      ∧ (publishOutputs result v).current? = v.current?
      ∧ (publishOutputs result v).allocated = v.allocated
      ∧ (publishOutputs result v).log = v.log := by
    intro v
    unfold publishOutputs
    split
    all_goals exact ⟨rfl, rfl, rfl, rfl⟩
  obtain ⟨hobjects, hcurrent, hallocated, hlog⟩ := hpublish
    ((w.modifyObject p.target.id live (applyResult w.clock previous result)).allocate p.target.id
      ((w.modifyObject p.target.id live (applyResult w.clock previous result)).objects
        p.target.id live).recordAttempt)
  have hfinal : (finishAttempt t p.target.id live previous result w).objects
      = ((w.modifyObject p.target.id live (applyResult w.clock previous result)).allocate p.target.id
        ((w.modifyObject p.target.id live (applyResult w.clock previous result)).objects
          p.target.id live).recordAttempt).objects := hobjects
  have hgrown : (finishAttempt t p.target.id live previous result w).allocated
      = Function.update w.allocated p.target.id (w.allocated p.target.id + 1) := hallocated
  refine ⟨hknown, fun r hr => ?_, .ended t p.target.id result.status.normalize :: log, back, ?_, ?_, ?_,
    fun hne => ⟨?_, ?_⟩⟩
  · obtain ⟨hr', -⟩ := hapart r hr
    rw [hgrown]
    by_cases hid : p.owner.id = p.target.id
    · rw [hid, Function.update_self]
      rw [hid] at hr'
      exact ⟨by omega, fun _ => Nat.ne_of_lt hr'⟩
    rw [Function.update_of_ne hid]
    exact ⟨hr', fun heq => absurd heq hid⟩
  · refine hbooks.record rfl (congrArg (List.cons _) hlog) (p.counts_le (fun n _ => ?_)
      (fun n hn _ => ?_) ?_ ?_)
    · exact congrFun hcurrent n
    · rw [hfinal, World.objects_allocate, if_neg (fun hand => hn hand.1),
        World.objects_modifyObject_ne _ _ _ _ _ _ (.inl hn)]
    · rw [hfinal]
      show _ ≤ counters ((World.allocate _ p.target.id _).objects p.target.id (w.allocated p.target.id))
      have hself := World.objects_allocate_self
        (w.modifyObject p.target.id live (applyResult w.clock previous result)) p.target.id
        ((w.modifyObject p.target.id live (applyResult w.clock previous result)).objects
          p.target.id live).recordAttempt
      rw [World.allocated_modifyObject] at hself
      rw [hself, counters_recordAttempt, World.objects_modifyObject_self, counters_applyResult]
    intro r hr hid
    obtain ⟨hr', hne⟩ := hapart r hr
    rw [hid] at hr'
    rw [hfinal, World.objects_allocate, World.allocated_modifyObject,
      if_neg (fun hand => by omega),
      World.objects_modifyObject_ne _ _ _ _ _ _ (.inr (hne hid))]
  · rw [hended]
    exact hreach
  · rw [hended]
    exact hentered
  · rw [hended]
    rw [hx] at hne
    exact hpaid hne
  rw [hgrown, Function.update_self]
  exact Nat.lt_succ_self _

lemma IsRunning.attempt (h : IsRunning E ids start least p a live w) {f : Attempt → Attempt}
    (hf : ∀ x, (f x).node = x.node ∧ (f x).live = x.live ∧ (f x).outer = x.outer
      ∧ (f x).rejected = x.rejected) :
    IsRunning E ids start least p a live (w.modifyAttempt a f) := by
  obtain ⟨hknown, hregistered, hapart, x, log, back, hx, hnode, hlive, houter, hbooks, hreach, hentered,
    hopen, hpaid⟩ := h
  obtain ⟨hfnode, hflive, hfouter, hfrejected⟩ := hf x
  refine ⟨hknown, hregistered, hapart, f x, log, back, ?_, hfnode.trans hnode, hflive.trans hlive,
    hfouter.trans houter, hbooks.mono rfl (p.counts_le (fun _ _ => rfl) (fun _ _ _ => rfl)
      ⟨le_rfl, le_rfl⟩ (fun _ _ _ => rfl)), hreach, hentered, ?_, ?_⟩
  · show (w.attempts.modify a f)[a]? = _
    rw [getElem?_modify_eq, hx]
    rfl
  · rw [hfrejected]
    exact hopen
  rw [hfrejected]
  exact hpaid

lemma isRunning_patch (h : IsRunning E ids start least p a live w) (patch : LivePatch) :
    IsRunning E ids start least p a live (w.modifyObject p.target.id live patch.apply) := by
  obtain ⟨hknown, hregistered, hapart, x, log, back, hx, hnode, hlive, houter, hbooks, hrest⟩ := h
  refine ⟨hknown, hregistered, hapart, x, log, back, hx, hnode, hlive, houter,
    hbooks.mono rfl (p.counts_le (fun _ _ => rfl) (fun _ hn _ => ?_) ?_ ?_), hrest⟩
  · exact World.objects_modifyObject_ne _ _ _ _ _ _ (.inl hn)
  · rw [World.objects_modifyObject_self]
    exact counters_patch patch _
  exact fun r hr hid => World.objects_modifyObject_ne _ _ _ _ _ _ (.inr ((hapart r hr).2 hid))

lemma isRunning_checkpoint (h : IsRunning E ids start least p a live w) :
    IsRunning E ids start least p a live (w.install p.target.id live) := by
  obtain ⟨hknown, hregistered, hapart, x, log, back, hx, hnode, hlive, houter, hbooks, hreach, hentered,
    -, hpaid⟩ := h
  refine ⟨hknown, hregistered, hapart, x, log, back, hx, hnode, hlive, houter,
    hbooks.mono rfl (p.counts_le (fun _ hn => ?_) (fun _ _ _ => rfl) ⟨le_rfl, le_rfl⟩
      (fun _ _ _ => rfl)), hreach, hentered, fun _ => World.current?_install_self _ _ _, hpaid⟩
  rw [World.current?_install, if_neg (Ne.symm hn)]

lemma onRejectUpstream_cases (a : Nat) (x : Attempt) (outer : Nat) (reason targetNodeId : String)
    (w : World) : (E.onRejectUpstream a x outer reason targetNodeId w).2 = w
      ∨ ∃ target upstream, x.rejected = none ∧ w.current? target = some upstream
        ∧ (E.node? target).isSome
        ∧ (w.objects target upstream).rejectUpstreamCount < maxRejectOf E x.node
        ∧ (E.onRejectUpstream a x outer reason targetNodeId w).2
          = acceptReject w a x outer upstream target reason (maxRejectOf E x.node) := by
  unfold Env.onRejectUpstream
  split
  · exact .inl rfl
  next hopen =>
  split
  · exact .inl rfl
  next target _ =>
  split
  · exact .inl rfl
  next upstream hcurrent =>
  split
  · exact .inl rfl
  next hnode =>
  dsimp only
  split
  · exact .inl rfl
  next hlimit =>
  refine .inr ⟨target, upstream, hopen, hcurrent, ?_, Nat.lt_of_not_le hlimit, rfl⟩
  cases hfound : E.node? target with
  | none =>
    rw [hfound] at hnode
    exact absurd rfl hnode
  | some => rfl

lemma isRunning_accept (h : IsRunning E ids start least p a live w) {x : Attempt}
    (hx : w.attempts[a]? = some x) {outer upstream : Nat} (houter : x.outer = some outer)
    {target reason : String} (hopen : x.rejected = none)
    (hcurrent : w.current? target = some upstream) (hnode : (E.node? target).isSome)
    (hlimit : (w.objects target upstream).rejectUpstreamCount < maxRejectOf E x.node) :
    IsRunning E ids start least p a live
      (acceptReject w a x outer upstream target reason (maxRejectOf E x.node)) := by
  obtain ⟨hknown, hregistered, _, y, log, back, hy, hynode, hlive, hyouter, hbooks, hreach,
    hentered, hstands, -⟩ := h
  obtain rfl : x = y := some.inj (hx.symm.trans hy)
  cases p with
  | upstream =>
    rw [houter] at hyouter
    cases hyouter
  | own i node r =>
    have hid : x.node = node.id := hynode
    have hcosts : slack E ids (.rejected x.owner x.node target :: log) back
        = slack E ids log back + 2 := by
      unfold slack
      show 2 * ((x.node, target) :: rejections log).length + _ = _
      rw [length_cons]
      omega
    have hself : w.current? node.id = some live := hstands hopen
    -- the object that is rejected is the one that stands for the target
    have htarget : (Place.own i node r).track w live target = some upstream := by
      by_cases heq : target = node.id
      · subst heq
        rw [Place.track_own]
        exact hself.symm.trans hcurrent
      rw [Place.track_own_ne i node r heq]
      exact hcurrent
    have hcurrents : ∀ n, n ≠ node.id →
        (acceptReject w a x outer upstream target reason (maxRejectOf E x.node)).current? n
          = w.current? n := by
      intro n hn
      unfold acceptReject
      rw [World.current?_record, World.current?_modifyAttempt, World.current?_install, hid,
        if_neg (Ne.symm hn), World.current?_install, World.current?_modifyObject]
      split
      · next heq =>
        rw [← heq]
        exact hcurrent.symm
      rfl
    have htrack : (Place.own i node r).track
        (acceptReject w a x outer upstream target reason (maxRejectOf E x.node)) live
        = (Place.own i node r).track w live := by
      funext n
      by_cases hn : n = node.id
      · subst hn
        rw [Place.track_own, Place.track_own]
      rw [Place.track_own_ne i node r hn, Place.track_own_ne i node r hn]
      exact hcurrents n hn
    refine ⟨hknown, hregistered, (nofun),
      { x with rejected := some target }, .rejected x.owner x.node target :: log, back, ?_, hynode,
      hlive, hyouter, ?_, ?_, ?_, (nofun), fun _ => ?_⟩
    · show (w.attempts.modify a _)[a]? = _
      rw [getElem?_modify_eq, hx]
      rfl
    · rw [htrack]
      refine hbooks.reject hnode ?_ rfl (fun n hn => ?_) ?_
      · rw [countersOf_some htarget]
        exact hlimit
      · apply countersOf_congr rfl
        intro _ _
        exact World.objects_modifyObject_ne _ _ _ _ _ _ (.inl hn)
      rw [countersOf_some htarget, countersOf_some htarget]
      have hobject : (acceptReject w a x outer upstream target reason
          (maxRejectOf E x.node)).objects target upstream
          = rejectedState w x.node target reason (maxRejectOf E x.node)
            (w.objects target upstream) := World.objects_modifyObject_self _ _ _ _
      rw [hobject]
      exact ⟨le_rfl, le_rfl⟩
    · rw [hcosts]
      exact le_trans hreach (Nat.add_le_add_left (Nat.le_add_right _ _) _)
    · exact hentered
    rw [hcosts]
    have hreach' : executions E log ≤ i + 1 + slack E ids log back := hreach
    show executions E log + 1 ≤ i + (slack E ids log back + 2)
    omega

lemma isHeld_install {node : WorkflowNode}
    (h : IsExecuted E ids start least (.own i node r) e w) :
    IsHeld E ids start least 0 i node e (installExecuted node e.object calls w) := by
  obtain ⟨⟨hlisted, hnode, -⟩, -, log, back, hbooks, hreach, hentered, hpaid⟩ := h
  have hinstalled : (installExecuted node e.object calls w).current? node.id = some e.object :=
    World.current?_install_self _ _ _
  have hmore : Ledger E start least (installExecuted node e.object calls w)
      (installExecuted node e.object calls w).current? log back := by
    refine hbooks.mono rfl (fun n => ?_)
    have htrack : (installExecuted node e.object calls w).current?
        = (Place.own i node r).track w e.object := install_current w node.id e.object
    rw [htrack]
    exact countersOf_modify (w := w.install node.id e.object)
      (f := fun s => updateRejectionRetryAudit (w.install node.id e.object).clock calls
        (canAutoRetry node s) s) (by rw [counters_audit]) n
  refine ⟨hlisted, hnode, hinstalled, log, back, hmore, hreach, hentered, hpaid, ?_⟩
  have hrolled := hmore.rolled node.id
  rw [countersOf_some hinstalled] at hrolled
  exact hrolled

lemma isRetried_install {node : WorkflowNode} {retry : Nat}
    (h : IsExecuted E ids start least (.upstream i node r upstream retry) e w) :
    IsRetried E ids start least i node r upstream e.object
      (awaitUpstream node.id r (installExecuted upstream e.object calls w)) := by
  obtain ⟨hknown, hapart, log, back, hbooks, hreach, hentered, -⟩ := h
  have htrack : (awaitUpstream node.id r (installExecuted upstream e.object calls w)).current?
      = (Place.upstream i node r upstream retry).track w e.object := by
    show ((World.modifyObject _ node.id r _).install node.id r).current? = _
    rw [install_current]
    show Function.update (w.install upstream.id e.object).current? node.id (some r) = _
    rw [install_current]
    rfl
  refine ⟨hknown.lt, World.current?_install_self _ _ _, (hapart r rfl).1, fun hid => ?_, log, back, ?_,
    hreach, hentered⟩
  · rw [htrack]
    exact Place.track_target i node r upstream retry hid
  refine hbooks.mono rfl (fun n => ?_)
  rw [htrack]
  have haudit := @countersOf_modify (w.install upstream.id e.object)
    ((Place.upstream i node r upstream retry).track w e.object) upstream.id e.object
    (fun s => updateRejectionRetryAudit (w.install upstream.id e.object).clock calls
      (canAutoRetry upstream s) s) (by rw [counters_audit]) n
  have hawait := @countersOf_modify (installExecuted upstream e.object calls w)
    ((Place.upstream i node r upstream retry).track w e.object) node.id r
    (fun s => { s with status := .pending, rejectionReason := "", completedAt := none,
                       sessionId := "", error := "" }) ⟨le_rfl, le_rfl⟩ n
  exact le_trans haudit hawait

lemma IsHeld.bounded {more : Nat} {node : WorkflowNode}
    (h : IsHeld E ids start least more i node e w) : Bounded E ids start w := by
  obtain ⟨hlisted, -, -, _, _, hbooks, _, -⟩ := h
  have hlt := lt_of_listed hlisted
  exact hbooks.bounded (by omega)

lemma IsHeld.atHead {node : WorkflowNode} (h : IsHeld E ids start least 0 i node e w) :
    AtHead E ids start least (i + 1) w := by
  obtain ⟨hlisted, -, -, log, back, hbooks, hreach, hentered, -⟩ := h
  exact ⟨log, back, hbooks, lt_of_listed hlisted, hreach, hentered⟩

lemma IsRetried.bounded {node : WorkflowNode}
    (h : IsRetried E ids start least i node r upstream r' w) : Bounded E ids start w := by
  obtain ⟨_, -, -, -, _, _, hbooks, _, -⟩ := h
  exact hbooks.bounded (by omega)

lemma installPolicy_log (n : String) (r : Nat) (next : Option NodeExecutionState) (w : World) :
    (installPolicy n r next w).log = w.log := by
  cases next with
  | _ => rfl

lemma atHead_policy {node : WorkflowNode} {next : Option NodeExecutionState}
    (h : IsHeld E ids start least 0 i node e w)
    (hpolicy : failedNodePolicy E node w.clock (w.objects node.id e.object) = some (outcome, next)) :
    AtHead E ids start least (i + 1) (installPolicy node.id e.object next w) := by
  obtain ⟨hlisted, -, hcurrent, log, back, hbooks, hreach, hentered, -⟩ := h
  refine ⟨log, back, hbooks.mono (installPolicy_log _ _ _ _) (fun n => ?_), lt_of_listed hlisted, hreach,
    hentered⟩
  cases next with
  | none =>
    refine countersOf_install ?_ (World.current?_install_self _ _ _) (fun m hm => ?_) n
    · rw [countersOf_some hcurrent]
    rw [World.current?_install, if_neg (Ne.symm hm)]
  | some state =>
    refine countersOf_installNew ?_ ?_ (fun m hm => ?_) n
    · rw [countersOf_some hcurrent, counters_policy hpolicy]
    · show (w.installNew node.id state).current? node.id = _
      rw [World.current?_installNew, if_pos rfl]
    show (w.installNew node.id state).current? m = _
    rw [World.current?_installNew, if_neg (Ne.symm hm)]

lemma isSkipping_policy {node : WorkflowNode} {next : Option NodeExecutionState}
    (h : IsRetried E ids start least i node r upstream r' w)
    (hpolicy : failedNodePolicy E upstream w.clock (w.objects upstream.id r') = some (outcome, next)) :
    IsSkipping E ids start least i node r (installPolicy upstream.id r' next w) := by
  obtain ⟨hlt, hcurrent, hallocated, hupstream, log, back, hbooks, hreach, hentered⟩ := h
  refine ⟨hlt, log, back, hbooks.mono (installPolicy_log _ _ _ _) (fun n => ?_), hreach, hentered⟩
  by_cases hn : n = node.id
  · subst hn
    apply countersOf_congr
    · rw [Function.update_self, hcurrent]
    intro k hk
    obtain rfl : r = k := some.inj (hcurrent.symm.trans hk)
    cases next with
    | none => rfl
    | some state =>
      show (w.installNew upstream.id state).objects node.id r = _
      rw [World.objects_installNew]
      split
      · next hand =>
        obtain ⟨hid, hk⟩ := hand
        rw [hid] at hallocated
        omega
      rfl
  by_cases hup : n = upstream.id
  · subst hup
    have hcounts : countersOf w w.current? upstream.id = counters (w.objects upstream.id r') :=
      countersOf_some (hupstream hn)
    rw [hcounts]
    cases next with
    | none =>
      have htrack : Function.update (installPolicy upstream.id r' none w).current? node.id (some r)
          upstream.id = some r' := by
        rw [Function.update_of_ne hn]
        exact World.current?_install_self _ _ _
      rw [countersOf_some htrack]
      exact ⟨le_rfl, le_rfl⟩
    | some state =>
      have htrack : Function.update (installPolicy upstream.id r' (some state) w).current? node.id
          (some r) upstream.id = some (w.allocated upstream.id) := by
        rw [Function.update_of_ne hn]
        show (w.installNew upstream.id state).current? upstream.id = _
        rw [World.current?_installNew, if_pos rfl]
      rw [countersOf_some htrack]
      show _ ≤ counters ((w.installNew upstream.id state).objects upstream.id _)
      rw [World.objects_installNew, if_pos ⟨rfl, rfl⟩, counters_policy hpolicy]
  apply countersOf_congr
  · rw [Function.update_of_ne hn]
    cases next with
    | none =>
      show (w.install upstream.id r').current? n = _
      rw [World.current?_install, if_neg (Ne.symm hup)]
    | some state =>
      show (w.installNew upstream.id state).current? n = _
      rw [World.current?_installNew, if_neg (Ne.symm hup)]
  intro k _
  cases next with
  | none => rfl
  | some state =>
    show (w.installNew upstream.id state).objects n k = _
    rw [World.objects_installNew, if_neg (fun hand => hup hand.1)]

lemma IsSkipping.bounded {node : WorkflowNode} (h : IsSkipping E ids start least i node r w) :
    Bounded E ids start w := by
  obtain ⟨_, _, _, hbooks, _, -⟩ := h
  exact hbooks.bounded (by omega)

lemma atHead_skipWith {node : WorkflowNode} (h : IsSkipping E ids start least i node r w) :
    AtHead E ids start least (i + 1) (skipWithUpstream node.id r w) := by
  obtain ⟨hlt, log, back, hbooks, _, hentered⟩ := h
  refine ⟨log, back, hbooks.mono rfl (fun n => ?_), hlt, by omega, hentered⟩
  have htrack : (skipWithUpstream node.id r w).current?
      = Function.update w.current? node.id (some r) := install_current (w.modifyObject node.id r _) _ _
  rw [htrack]
  exact countersOf_modify (w := w) (f := fun s =>
    { s with status := .skipped, isSkipped := true, completedAt := some w.clock })
    ⟨le_rfl, le_rfl⟩ n

lemma isReady_prepare {node : WorkflowNode} (h : IsHeld E ids start least 0 i node e w)
    (htarget : retryTarget E node.id e = some upstream.id)
    (hcurrent : w.current? upstream.id = some r) (hupstream : E.node? upstream.id = some upstream) :
    IsReady E ids start least (.upstream i node e.object upstream (w.allocated upstream.id))
      (prepareUpstreamRetry upstream.id r w) := by
  obtain ⟨hlisted, hnode, hself, log, back, hbooks, -, _, hpaid, -⟩ := h
  have hrejected : e.rejected ≠ none := by
    intro hnone
    unfold retryTarget at htarget
    rw [hnone] at htarget
    cases htarget
  obtain ⟨hreach, hallocated⟩ := hpaid hrejected
  refine ⟨⟨hlisted, hnode, hupstream⟩, ?_, log, back, ?_, hreach, by omega⟩
  · intro _ hr'
    obtain rfl := some.inj hr'
    constructor
    · show e.object < Function.update w.allocated upstream.id _ node.id
      by_cases hid : node.id = upstream.id
      · rw [hid, Function.update_self]
        rw [hid] at hallocated
        omega
      rw [Function.update_of_ne hid]
      exact hallocated
    intro hid
    have hid' : node.id = upstream.id := hid
    rw [hid'] at hallocated
    exact Nat.ne_of_lt hallocated
  refine hbooks.mono rfl (fun n => ?_)
  show _ ≤ countersOf (prepareUpstreamRetry upstream.id r w)
    (Place.track (prepareUpstreamRetry upstream.id r w) (w.allocated upstream.id) _) n
  by_cases hn : n = node.id
  · subst hn
    apply countersOf_congr
    · rw [Place.track_owner, hself]
    intro k hk
    obtain rfl : e.object = k := some.inj (hself.symm.trans hk)
    show (w.installNew upstream.id _).objects node.id e.object = _
    rw [World.objects_installNew]
    split
    · next hand =>
      obtain ⟨hid, hk⟩ := hand
      rw [hid] at hallocated
      omega
    rfl
  by_cases hup : n = upstream.id
  · subst hup
    rw [countersOf_some hcurrent, countersOf_some (Place.track_target _ _ _ _ _ hn)]
    show _ ≤ counters ((w.installNew upstream.id _).objects upstream.id _)
    rw [World.objects_installNew, if_pos ⟨rfl, rfl⟩]
    exact ⟨le_rfl, le_rfl⟩
  apply countersOf_congr
  · rw [Place.track_other _ _ _ _ _ hn hup]
    show (w.installNew upstream.id _).current? n = _
    rw [World.current?_installNew, if_neg (Ne.symm hup)]
  intro k _
  show (w.installNew upstream.id _).objects n k = _
  rw [World.objects_installNew, if_neg (fun hand => hup hand.1)]

lemma isHeld_count {node : WorkflowNode} (h : IsHeld E ids start least 0 i node e w) :
    IsHeld E ids start least 1 i node e (countRejection node.id e.object w) := by
  obtain ⟨hlisted, hnode, hself, log, back, hbooks, hreach, hentered, hpaid, hback⟩ := h
  refine ⟨hlisted, hnode, hself, log, back, hbooks.mono rfl (fun n => ?_), hreach, hentered, hpaid, ?_⟩
  · exact countersOf_modify ⟨le_rfl, Nat.le_succ _⟩ n
  unfold countRejection
  rw [World.objects_modifyObject_self]
  exact Nat.succ_le_succ hback

lemma liveUpstreamSession_current {upstream : Nat}
    (h : liveUpstreamSession ids i w = some (upstreamId, upstream)) :
    w.current? upstreamId = some upstream := by
  unfold liveUpstreamSession at h
  obtain ⟨_, -, h⟩ := bind_eq_some_iff.1 h
  obtain ⟨_, hr, h⟩ := bind_eq_some_iff.1 h
  dsimp only at h
  split at h
  · injection h with h
    injection h with hid hobject
    rw [← hid, ← hobject]
    exact hr
  cases h

lemma isSending_send {node : WorkflowNode} {upstream : Nat}
    (h : IsHeld E ids start least 1 i node e w) (htype : node.nodeType = "approval") (hpos : 0 < i)
    (hcount : (w.objects node.id e.object).rejectionCount < 3)
    (hlive : liveUpstreamSession ids i w = some (upstreamId, upstream)) :
    IsSending E ids start least i node e.object upstreamId upstream w := by
  obtain ⟨hlisted, hnode, hself, log, back, hbooks, hreach, hentered, -, hback⟩ := h
  have hmem : node.id ∈ approvals E ids := by
    refine mem_filter.2 ⟨mem_dedup.2 (mem_of_getElem? hlisted), ?_⟩
    rw [hnode, any_some, htype]
    exact decide_eq_true rfl
  have hle : back node.id + 1 ≤ (w.objects node.id e.object).rejectionCount := hback
  exact ⟨hpos, lt_of_listed hlisted, hmem, hself, liveUpstreamSession_current hlive, log, back, hbooks,
    hreach, hentered, hback, by omega⟩

lemma Ledger.rollBack {track : String → Option Nat} (h : Ledger E start least w track log back)
    (hcount : back n + 1 ≤ (countersOf w track n).2) (htwice : back n + 1 ≤ 2) :
    Ledger E start least w track log (Function.update back n (back n + 1)) := by
  refine ⟨h.log_eq, h.least, h.known, h.counted, h.limited, fun m => ?_, fun m => ?_⟩
  · by_cases hm : m = n
    · subst hm
      rw [Function.update_self]
      exact hcount
    rw [Function.update_of_ne hm]
    exact h.rolled m
  by_cases hm : m = n
  · subst hm
    rw [Function.update_self]
    exact htwice
  rw [Function.update_of_ne hm]
  exact h.twice m

lemma atHead_rollBack {node : WorkflowNode} {upstream : Nat}
    (h : IsSending E ids start least i node r upstreamId upstream w) :
    AtHead E ids start least (i - 1) (rollBackApproval node.id upstreamId r upstream w) := by
  obtain ⟨_, _, happroval, hself, hupstream, log, back, hbooks, _, hentered, hback, htwice⟩ := h
  have htrack : (rollBackApproval node.id upstreamId r upstream w).current? = w.current? := by
    have houter : (rollBackApproval node.id upstreamId r upstream w).current?
        = Function.update ((w.modifyObject upstreamId upstream _).install upstreamId upstream).current?
          node.id (some r) := install_current (World.modifyObject _ node.id r _) _ _
    rw [houter, install_current]
    show Function.update (Function.update w.current? upstreamId (some upstream)) node.id (some r) = _
    rw [update_current hupstream, update_current hself]
  have hcost : slack E ids log (Function.update back node.id (back node.id + 1))
      = slack E ids log back + 2 := by
    unfold slack
    rw [rolls_update happroval]
    omega
  have hgrows : ∀ n, countersOf w w.current? n
      ≤ countersOf (rollBackApproval node.id upstreamId r upstream w) w.current? n := by
    intro n
    have hupstream' := @countersOf_modify w w.current? upstreamId upstream
      (fun s => { s with status := .running, error := "" }) ⟨le_rfl, le_rfl⟩ n
    have hnode := @countersOf_modify
      ((w.modifyObject upstreamId upstream (fun s => { s with status := .running, error := "" })
        ).install upstreamId upstream) w.current? node.id r
      (fun s => { s with status := .pending, rejectionReason := s.error })
      ⟨le_rfl, le_rfl⟩ n
    exact le_trans hupstream' hnode
  have hstands : Ledger E start least (rollBackApproval node.id upstreamId r upstream w)
      w.current? log back := hbooks.mono rfl hgrows
  have hcount := (hgrows node.id).2
  rw [countersOf_some hself] at hcount
  refine ⟨log, Function.update back node.id (back node.id + 1), ?_, by omega, ?_, hentered⟩
  · rw [htrack]
    exact hstands.rollBack (le_trans hback hcount) htwice
  rw [hcost]
  omega

end
end DeterminFlow.Engine
