/-
  Usage.NodeLedgers
  **THE LEDGER OF A NODE OVER ALL ITS ATTEMPTS.**

  Every node state, at any depth of sub-workflows, holds token totals and a
  ledger of calls.  The engine and the sub-workflow node write them back after
  an attempt: merged with the earlier ones when there are earlier totals and
  the session is another one, in their place otherwise.  All other operations
  leave them alone, except the reset of a loop, which drops the states of the
  nodes inside.
-/
import Mathlib.Tactic.Linarith
import DeterminFlow.Engine.NodeSequence
import DeterminFlow.Recovery.AttemptChain

namespace DeterminFlow.Ledger

open Library Workflow DeterminFlow.Runtime Engine List Option
open Recovery
open Relation (ReflTransGen)

/-! ## Node states at every depth -/

/-- `node_states` of a task, or `child_states` of a node. -/
abbrev NodeStates : Type := Dict String NodeExecutionState

abbrev NodePath : Type := List String

def stateAt : NodePath → NodeStates → Option NodeExecutionState
  | [], _ => none
  | [id], states => states.get? id
  | id :: next :: rest, states =>
    (states.get? id).bind (fun s => stateAt (next :: rest) s.childStates)

def setAt (state : NodeExecutionState) : NodePath → NodeStates → NodeStates
  | [], states => states
  | [id], states => states.set id state
  | id :: next :: rest, states =>
    match states.get? id with
    | some s => states.set id { s with childStates := setAt state (next :: rest) s.childStates }
    | none => states

/-! ## Writing back -/

/-- `get_cumulative_token_usage()` and `get_token_usage_calls()` of a
session. -/
structure SessionLedger where
  cumulative : Option TokenUsage
  calls : List TokenCall

/-- `bool(token_usage)`. -/
def hasUsage (usage : Option TokenUsage) : Bool := (usage.filter (· ≠ [])).isSome

/-- The result with the ledger of its session, when the manager has that
session. -/
def withSessionLedger (session : Option SessionLedger) (result : NodeResult) : NodeResult :=
  match session with
  | none => result
  | some ledger =>
    if result.sessionId = "" then result
    else
      { result with
        tokenUsage := if hasUsage ledger.cumulative then ledger.cumulative else result.tokenUsage
        tokenUsageCalls := ledger.calls }

/-- The end of an attempt, in `_execute_node` and in `_execute_child_plan`;
`previousSessionId` is what the attempt has noted. -/
def writeBack (now : Timestamp) (previousSessionId : String) (session : Option SessionLedger)
    (result : NodeResult) (s : NodeExecutionState) : NodeExecutionState :=
  applyResult now { s with sessionId := previousSessionId } (withSessionLedger session result) s

/-! ## Steps -/

/-- The states of a task, and for each node the `previous_session_id` of its
latest attempt. -/
structure Books where
  states : NodeStates := []
  captured : NodePath → String := fun _ => ""

inductive LedgerEvent where
  /-- A node gets its first state. -/
  | create (path : NodePath)
  /-- An operation of the failure policy or of recovery. -/
  | policy (path : NodePath)
  /-- `_reset_node_for_loop_iteration`. -/
  | reset (path : NodePath)
  /-- The engine or a plugin writes other fields. -/
  | write (path : NodePath)
  /-- `previous_session_id = node_state.session_id`: the engine after, the
  sub-workflow node before the attempt begins. -/
  | capture (path : NodePath)
  /-- The result of an attempt is written back. -/
  | finish (path : NodePath) (result : NodeResult) (session : Option SessionLedger)

inductive LedgerStep (b : Books) : LedgerEvent → Books → Prop where
  | create (path : NodePath) (id : String) :
      stateAt path b.states = none →
      LedgerStep b (.create path) { b with states := setAt { nodeId := id } path b.states }
  | policy (path : NodePath) (node : WorkflowNode) (l l' : Life) :
      stateAt path b.states = some l.state → PolicyStep node l l' →
      l'.state ≠ l.state.resetForIteration →
      LedgerStep b (.policy path) { b with states := setAt l'.state path b.states }
  | reset (path : NodePath) (s : NodeExecutionState) :
      stateAt path b.states = some s →
      LedgerStep b (.reset path) { b with states := setAt s.resetForIteration path b.states }
  | write (path : NodePath) (s s' : NodeExecutionState) :
      stateAt path b.states = some s → SameLedger s s' → s'.childStates = s.childStates →
      LedgerStep b (.write path) { b with states := setAt s' path b.states }
  | capture (path : NodePath) (s : NodeExecutionState) :
      stateAt path b.states = some s →
      LedgerStep b (.capture path)
        { b with captured := fun q => if q = path then s.sessionId else b.captured q }
  | finish (path : NodePath) (result : NodeResult) (session : Option SessionLedger)
      (now : Timestamp) (s : NodeExecutionState) :
      stateAt path b.states = some s →
      LedgerStep b (.finish path result session)
        { b with states :=
            setAt (writeBack now (b.captured path) session result s) path b.states }

/-! ## What is kept -/

def callsOf (s : Option NodeExecutionState) : List TokenCall :=
  (s.map (·.tokenUsageCalls)).getD []

def totalIn (usage : Option TokenUsage) (model key : String) : Rat :=
  ((((usage.getD []).get? model).getD []).get? key).getD 0

def totalOf (s : Option NodeExecutionState) (model key : String) : Rat :=
  totalIn (s.bind (·.tokenUsage)) model key

/-- **The call ids of the one are once in the other, and no total is lower.** -/
structure Holds (s s' : Option NodeExecutionState) : Prop where
  calls : ∀ id, id ≠ "" → id ∈ callIds (callsOf s) → (callIds (callsOf s')).count id = 1
  totals : ∀ model key, totalOf s model key ≤ totalOf s' model key

def Kept (states states' : NodeStates) : Prop :=
  ∀ path, Holds (stateAt path states) (stateAt path states')

def Tidy (states : NodeStates) : Prop :=
  ∀ path, ((callsOf (stateAt path states)).map TokenCall.key).Nodup

def NoLedger (states : NodeStates) : Prop :=
  ∀ path, (∀ id, id ≠ "" → id ∉ callIds (callsOf (stateAt path states))) ∧
    ∀ model key, totalOf (stateAt path states) model key ≤ 0

/-- The condition on a write-back: merged counters are not negative; a ledger
is replaced only by one that lists its calls, each once, and totals only by
totals that are not lower. -/
def WriteKeeps (previousSessionId : String) (s : NodeExecutionState) (result : NodeResult) :
    Prop :=
  if hasUsage s.tokenUsage = true ∧ previousSessionId ≠ result.sessionId then
    ∀ entry ∈ result.tokenUsage.getD [], ∀ counter ∈ entry.2, 0 ≤ counter.2
  else
    (hasUsage result.tokenUsage = true →
      ∀ model key, totalIn s.tokenUsage model key ≤ totalIn result.tokenUsage model key) ∧
    (result.tokenUsageCalls ≠ [] →
      (∀ id ∈ callIds s.tokenUsageCalls, id ≠ "" → id ∈ callIds result.tokenUsageCalls) ∧
        (result.tokenUsageCalls.map TokenCall.key).Nodup)

/-- **The condition on a step.** -/
def Meets (b : Books) : LedgerEvent → Prop
  | .reset path => ∀ s, stateAt path b.states = some s → NoLedger s.childStates
  | .finish path result session => ∀ s, stateAt path b.states = some s →
      WriteKeeps (b.captured path) s (withSessionLedger session result)
  | _ => True

def GoodStep (b b' : Books) : Prop := ∃ event, LedgerStep b event b' ∧ Meets b event

def AnyStep (b b' : Books) : Prop := ∃ event, LedgerStep b event b'

/-! ## Ledgers of calls -/

theorem count_callId {calls : List TokenCall} (h : (calls.map TokenCall.key).Nodup) {id : String}
    (hne : id ≠ "") (hmem : id ∈ callIds calls) : (callIds calls).count id = 1 := by
  have hkey : ∀ c : TokenCall, c.callId = id → c.key = id := by
    intro c hc
    unfold TokenCall.key
    rw [hc, if_neg hne]
  have hnodup : ∀ calls : List TokenCall, (calls.map TokenCall.key).Nodup →
      (callIds calls).count id ≤ 1 := by
    intro calls
    induction calls with
    | nil => intro _; exact Nat.zero_le 1
    | cons c rest ih =>
      intro h
      obtain ⟨hc, hrest⟩ := nodup_cons.1 h
      by_cases hid : c.callId = id
      · -- no later call has the key of the first
        have hzero : (callIds rest).count id = 0 := by
          rw [count_eq_zero]
          intro hlater
          obtain ⟨c', hc', hid'⟩ := mem_map.1 hlater
          exact hc (mem_map.2 ⟨c', hc', (hkey c' hid').trans (hkey c hid).symm⟩)
        show (c.callId :: callIds rest).count id ≤ 1
        rw [hid, count_cons_self, hzero]
      show (c.callId :: callIds rest).count id ≤ 1
      rw [count_cons_of_ne hid]
      exact ih hrest
  exact Nat.le_antisymm (hnodup calls h) (count_pos_iff.2 hmem)

def mergeStep (acc : List TokenCall) (call : TokenCall) : List TokenCall :=
  if call.key ∈ acc.map TokenCall.key then acc else acc ++ [call]

variable {acc : List TokenCall} {s' s : NodeExecutionState} {states : NodeStates}
  {q path : NodePath} {b' b : Books}

lemma mergeStep_nodup (h : (acc.map TokenCall.key).Nodup) (call : TokenCall) :
    ((mergeStep acc call).map TokenCall.key).Nodup := by
  unfold mergeStep
  split
  · exact h
  rename_i hnew
  rw [map_append]
  exact nodup_append.2 ⟨h, nodup_singleton _, fun k hk k' hk' heq =>
    hnew (mem_singleton.1 hk' ▸ heq ▸ hk)⟩

lemma foldl_mergeStep (more : List TokenCall) (h : (acc.map TokenCall.key).Nodup) :
    ((more.foldl mergeStep acc).map TokenCall.key).Nodup ∧ acc <+: more.foldl mergeStep acc := by
  induction more generalizing acc with
  | nil => exact ⟨h, prefix_rfl⟩
  | cons call rest ih =>
    obtain ⟨hnodup, hprefix⟩ := ih (mergeStep_nodup h call)
    refine ⟨hnodup, List.IsPrefix.trans ?_ hprefix⟩
    unfold mergeStep
    split
    · exact prefix_rfl
    exact prefix_append acc [call]

lemma foldl_mergeStep_tidy (calls : List TokenCall)
    (h : ((acc ++ calls).map TokenCall.key).Nodup) : calls.foldl mergeStep acc = acc ++ calls := by
  induction calls generalizing acc with
  | nil => simp
  | cons call rest ih =>
    have hnew : call.key ∉ acc.map TokenCall.key := by
      rw [map_append] at h
      intro hmem
      exact (nodup_append.1 h).2.2 _ hmem _ (by simp) rfl
    have hstep : mergeStep acc call = acc ++ [call] := if_neg hnew
    rw [foldl_cons, hstep, ih (by simpa using h)]
    simp

lemma mergeTokenUsageCalls_keeps {previous : List TokenCall}
    (h : (previous.map TokenCall.key).Nodup) (current : List TokenCall) :
    ((mergeTokenUsageCalls previous current).map TokenCall.key).Nodup ∧
      previous <+: mergeTokenUsageCalls previous current := by
  have hmerge : mergeTokenUsageCalls previous current = current.foldl mergeStep previous := by
    show (previous ++ current).foldl mergeStep [] = _
    rw [foldl_append, foldl_mergeStep_tidy previous (by simpa using h), nil_append]
  rw [hmerge]
  exact foldl_mergeStep current h

/-! ## Totals -/

theorem mergeCounters_le (target values : Dict String Rat) (h : ∀ counter ∈ values, 0 ≤ counter.2)
    (key : String) :
    (target.get? key).getD 0 ≤ ((mergeCounters target values).get? key).getD 0 := by
  unfold mergeCounters
  induction values generalizing target with
  | nil => exact le_refl _
  | cons counter rest ih =>
    rw [foldl_cons]
    refine le_trans ?_ (ih _ (fun c hc => h c (mem_cons_of_mem _ hc)))
    rw [Dict.get?_set]
    split
    · rename_i heq
      subst heq
      have hpos := h counter mem_cons_self
      show (target.get? counter.1).getD 0 ≤ (target.get? counter.1).getD 0 + counter.2
      linarith
    exact le_refl _

lemma mergeTokenUsage_le {previous current : Option TokenUsage}
    (hprevious : hasUsage previous = true)
    (h : ∀ entry ∈ current.getD [], ∀ counter ∈ entry.2, 0 ≤ counter.2) (model key : String) :
    totalIn previous model key ≤ totalIn (mergeTokenUsage previous current) model key := by
  cases previous with
  | none => cases hprevious
  | some p =>
    have hp : p ≠ [] := by
      intro hp
      rw [hp] at hprevious
      cases hprevious
    have hsome : Option.filter (fun u : TokenUsage => decide (u ≠ [])) (some p) = some p := by
      simp [Option.filter, hp]
    unfold mergeTokenUsage
    rw [hsome]
    cases hcurrent : Option.filter (fun u : TokenUsage => decide (u ≠ [])) current with
    | none => exact le_refl _
    | some c =>
      have hc : current = some c := by
        cases current with
        | none => cases hcurrent
        | some =>
          rw [filter_eq_some_iff] at hcurrent
          exact hcurrent.1
      rw [hc] at h
      simp only [getD_some] at h
      clear hcurrent hc hsome hp hprevious
      dsimp only
      -- one model after the other
      induction c generalizing p with
      | nil => exact le_refl _
      | cons entry rest ih =>
        rw [foldl_cons]
        refine le_trans ?_ (ih _ (fun e he => h e (mem_cons_of_mem _ he)))
        unfold totalIn
        simp only [getD_some]
        rw [Dict.get?_set]
        split
        · rename_i heq
          subst heq
          exact mergeCounters_le _ _ (h entry mem_cons_self) key
        exact le_refl _

/-! ## Writing one state -/

theorem Holds.refl {s : Option NodeExecutionState} (h : ((callsOf s).map TokenCall.key).Nodup) :
    Holds s s where
  calls := fun _ hne hmem => count_callId h hne hmem
  totals := fun _ _ => le_refl _

lemma Holds.trans {s s' s'' : Option NodeExecutionState} (h : Holds s s') (h' : Holds s' s'') :
    Holds s s'' where
  calls := by
    intro id hne hmem
    have hone := h.calls id hne hmem
    refine h'.calls id hne (count_pos_iff.1 ?_)
    omega
  totals := fun model key => le_trans (h.totals model key) (h'.totals model key)

lemma Holds.of_sameLedger (h : SameLedger s s')
    (htidy : (s.tokenUsageCalls.map TokenCall.key).Nodup) : Holds (some s) (some s') where
  calls := by
    intro id hne hmem
    show (callIds s'.tokenUsageCalls).count id = 1
    rw [h.2]
    exact count_callId htidy hne hmem
  totals := by
    intro model key
    show totalIn s.tokenUsage model key ≤ totalIn s'.tokenUsage model key
    rw [h.1]

lemma holds_some (htidy : (s'.tokenUsageCalls.map TokenCall.key).Nodup)
    (hids : ∀ id, id ≠ "" → id ∈ callIds s.tokenUsageCalls → id ∈ callIds s'.tokenUsageCalls)
    (htotals : ∀ model key, totalIn s.tokenUsage model key ≤ totalIn s'.tokenUsage model key) :
    Holds (some s) (some s') where
  calls := fun id hne hmem => count_callId htidy hne (hids id hne hmem)
  totals := htotals

/-- Kept and tidy. -/
structure Fits (states states' : NodeStates) : Prop where
  kept : Kept states states'
  tidy : Tidy states'

lemma Fits.refl (h : Tidy states) : Fits states states where
  kept := fun path => Holds.refl (h path)
  tidy := h

@[simp] lemma stateAt_one (id : String) (states : NodeStates) :
    stateAt [id] states = states.get? id := rfl

lemma stateAt_cons (id : String) (hq : q ≠ []) (states : NodeStates) :
    stateAt (id :: q) states = (states.get? id).bind (fun s => stateAt q s.childStates) := by
  cases q with
  | nil => exact absurd rfl hq
  | cons => rfl

lemma stateAt_append (hpath : path ≠ []) (hq : q ≠ []) : stateAt (path ++ q) states =
      (stateAt path states).bind (fun s => stateAt q s.childStates) := by
  induction path generalizing states with
  | nil => exact absurd rfl hpath
  | cons id rest ih =>
    cases rest with
    | nil => exact stateAt_cons id hq states
    | cons next more =>
      rw [cons_append, stateAt_cons id (by simp), stateAt_cons id (by simp)]
      cases states.get? id with
      | none => rfl
      | some s => exact ih (cons_ne_nil next more)

lemma fits_set {id : String} (htidy : Tidy states) (hat : Holds (states.get? id) (some s'))
    (hcalls : (s'.tokenUsageCalls.map TokenCall.key).Nodup)
    (hbelow : ∀ q, q ≠ [] → Holds ((states.get? id).bind (fun s => stateAt q s.childStates))
      (stateAt q s'.childStates)) (hchildren : Tidy s'.childStates) :
    Fits states (states.set id s') := by
  have hnew : ∀ path, Holds (stateAt path states) (stateAt path (states.set id s')) ∧
      ((callsOf (stateAt path (states.set id s'))).map TokenCall.key).Nodup := by
    intro path
    cases path with
    | nil => exact ⟨Holds.refl (htidy []), htidy []⟩
    | cons other more =>
      by_cases hid : id = other
      · subst hid
        cases more with
        | nil =>
          -- the state itself
          rw [stateAt_one, stateAt_one, Dict.get?_set_self]
          exact ⟨hat, hcalls⟩
        | cons next rest =>
          have hne := cons_ne_nil next rest
          rw [stateAt_cons id hne, stateAt_cons id hne, Dict.get?_set_self]
          exact ⟨hbelow _ hne, hchildren _⟩
      -- a path that does not begin with the id sees nothing
      have hsame : stateAt (other :: more) (states.set id s') =
          stateAt (other :: more) states := by
        cases more with
        | nil => exact Dict.get?_set_ne states s' hid
        | cons next rest =>
          have hne := cons_ne_nil next rest
          rw [stateAt_cons other hne, stateAt_cons other hne, Dict.get?_set_ne states s' hid]
      rw [hsame]
      exact ⟨Holds.refl (htidy _), htidy _⟩
  exact ⟨fun path => (hnew path).1, fun path => (hnew path).2⟩

lemma fits_setAt (hpath : path ≠ []) (htidy : Tidy states)
    (hat : Holds (stateAt path states) (some s'))
    (hcalls : (s'.tokenUsageCalls.map TokenCall.key).Nodup)
    (hbelow : ∀ q, q ≠ [] → Holds ((stateAt path states).bind (fun s => stateAt q s.childStates))
      (stateAt q s'.childStates)) (hchildren : Tidy s'.childStates) :
    Fits states (setAt s' path states) := by
  -- on the path: the state above keeps its own ledger, and below it is the inner write
  induction path generalizing states with
  | nil => exact absurd rfl hpath
  | cons id rest ih =>
    cases rest with
    | nil => exact fits_set htidy hat hcalls hbelow hchildren
    | cons next rest =>
      unfold setAt
      cases hget : states.get? id with
      | none => exact Fits.refl htidy
      | some s =>
        have hdown : ∀ q : NodePath, q ≠ [] →
            stateAt (id :: q) states = stateAt q s.childStates := by
          intro q hq
          rw [stateAt_cons id hq, hget]
          rfl
        have htidyBelow : Tidy s.childStates := by
          intro path
          cases path with
          | nil => exact htidy []
          | cons a b =>
            rw [← hdown _ (cons_ne_nil a b)]
            exact htidy _
        rw [hdown _ (cons_ne_nil next rest)] at hat hbelow
        have hinner := ih (cons_ne_nil next rest) htidyBelow hat hbelow
        have hkeys := htidy [id]
        rw [stateAt_one, hget] at hkeys
        refine fits_set htidy ?_ hkeys ?_ hinner.tidy
        · rw [hget]
          exact Holds.of_sameLedger ⟨rfl, rfl⟩ hkeys
        intro q _
        rw [hget]
        exact hinner.kept q

/-! ## What a step keeps -/

@[simp] lemma stateAt_nil (path : NodePath) : stateAt path [] = none := by
  cases path with
  | nil => rfl
  | cons id rest =>
    cases rest with
    | _ => rfl

lemma tidy_nil : Tidy [] := by
  intro _
  rw [stateAt_nil]
  exact nodup_nil

lemma fits_same_children (hstate : stateAt path states = some s) (htidy : Tidy states)
    (hat : Holds (some s) (some s')) (hcalls : (s'.tokenUsageCalls.map TokenCall.key).Nodup)
    (hchildren : s'.childStates = s.childStates) : Fits states (setAt s' path states) := by
  have hpath : path ≠ [] := by
    rintro rfl
    cases hstate
  have hbelow : Tidy s.childStates := by
    intro q
    cases q with
    | nil => exact htidy []
    | cons a b =>
      have hdown := htidy (path ++ (a :: b))
      rw [stateAt_append hpath (cons_ne_nil a b), hstate] at hdown
      exact hdown
  refine fits_setAt hpath htidy (hstate ▸ hat) hcalls (fun q _ => ?_) (hchildren ▸ hbelow)
  rw [hstate, hchildren]
  exact Holds.refl (hbelow q)

lemma policyStep_children {node : WorkflowNode} {l l' : Life} (h : PolicyStep node l l')
    (hreset : l'.state ≠ l.state.resetForIteration) :
    l'.state.childStates = l.state.childStates := by
  have hretry : ∀ {s s' : NodeExecutionState} {trigger : Trigger} {due : Option Timestamp},
      s.prepareRetry trigger due = some s' → s'.childStates = s.childStates := by
    intro s s' trigger due hs
    rcases prepareRetry_eq hs with rfl | rfl <;> rfl
  cases h with
  | autoRetry due s _ hs => exact hretry hs
  | childRetry trigger s _ hs => exact hretry hs
  | manualRetry s _ hs => exact (hretry hs).trans rfl
  | validatorRetry s hs => exact (hretry hs).trans rfl
  | activate s hs =>
    unfold NodeExecutionState.activateScheduledRetry at hs
    split at hs
    · cases hs
      rfl
    cases hs
  | reset => exact absurd rfl hreset
  | _ => rfl

lemma writeBack_holds {previousSessionId : String} {session : Option SessionLedger}
    {result : NodeResult} (now : Timestamp) (htidy : (s.tokenUsageCalls.map TokenCall.key).Nodup)
    (h : WriteKeeps previousSessionId s (withSessionLedger session result)) :
    Holds (some s) (some (writeBack now previousSessionId session result s)) ∧
      ((writeBack now previousSessionId session result s).tokenUsageCalls.map
        TokenCall.key).Nodup := by
  set fresh := withSessionLedger session result with hfresh
  set s' := writeBack now previousSessionId session result s with hs'
  -- what the assignments leave, by the two branches
  have husage : s'.tokenUsage = (mergedUsage { s with sessionId := previousSessionId } fresh).1 :=
    rfl
  have hcalls : s'.tokenUsageCalls =
      (mergedUsage { s with sessionId := previousSessionId } fresh).2 := rfl
  clear_value s'
  unfold WriteKeeps at h
  by_cases hmerge : hasUsage s.tokenUsage = true ∧ previousSessionId ≠ fresh.sessionId
  · -- merged: the earlier ledger is a first part of the new one
    rw [if_pos hmerge] at h
    have hboth : mergedUsage { s with sessionId := previousSessionId } fresh =
        (mergeTokenUsage s.tokenUsage fresh.tokenUsage,
          mergeTokenUsageCalls s.tokenUsageCalls fresh.tokenUsageCalls) := if_pos hmerge
    rw [hboth] at husage hcalls
    obtain ⟨hnodup, hprefix⟩ := mergeTokenUsageCalls_keeps htidy fresh.tokenUsageCalls
    have hids : callIds s.tokenUsageCalls ⊆ callIds s'.tokenUsageCalls := by
      rw [hcalls]
      exact (List.IsPrefix.map TokenCall.callId hprefix).subset
    refine ⟨holds_some (hcalls ▸ hnodup) (fun id _ hmem => hids hmem) ?_, hcalls ▸ hnodup⟩
    intro model key
    rw [husage]
    exact mergeTokenUsage_le hmerge.1 h model key
  -- replaced: the condition says that nothing is missing
  rw [if_neg hmerge] at h
  have hboth : mergedUsage { s with sessionId := previousSessionId } fresh =
      (if hasUsage fresh.tokenUsage = true then fresh.tokenUsage else s.tokenUsage,
        if fresh.tokenUsageCalls = [] then s.tokenUsageCalls else fresh.tokenUsageCalls) :=
    if_neg hmerge
  rw [hboth] at husage hcalls
  dsimp only at husage hcalls
  have hids : (∀ id ∈ callIds s.tokenUsageCalls, id ≠ "" → id ∈ callIds s'.tokenUsageCalls) ∧
      (s'.tokenUsageCalls.map TokenCall.key).Nodup := by
    rw [hcalls]
    by_cases hnone : fresh.tokenUsageCalls = []
    · rw [if_pos hnone]
      exact ⟨fun id hid _ => hid, htidy⟩
    rw [if_neg hnone]
    exact h.2 hnone
  refine ⟨holds_some hids.2 (fun id hne hmem => hids.1 id hmem hne) ?_, hids.2⟩
  intro model key
  rw [husage]
  by_cases hsome : hasUsage fresh.tokenUsage = true
  · rw [if_pos hsome]
    exact h.1 hsome model key
  rw [if_neg hsome]

lemma goodStep_fits (htidy : Tidy b.states) (h : GoodStep b b') : Fits b.states b'.states := by
  obtain ⟨_, hstep, hmeets⟩ := h
  have hkeys : ∀ {path s}, stateAt path b.states = some s →
      (s.tokenUsageCalls.map TokenCall.key).Nodup := by
    intro path s hs
    have := htidy path
    rw [hs] at this
    exact this
  cases hstep with
  | create path id hnone =>
    by_cases hpath : path = []
    · subst hpath
      exact Fits.refl htidy
    refine fits_setAt hpath htidy ?_ nodup_nil (fun q _ => ?_) tidy_nil
    · rw [hnone]
      exact ⟨nofun, fun _ _ => le_refl _⟩
    rw [hnone, stateAt_nil]
    exact Holds.refl nodup_nil
  | policy path node l l' hstate hpolicy hreset =>
    refine fits_same_children hstate htidy ?_ ?_ (policyStep_children hpolicy hreset)
    · exact Holds.of_sameLedger (effect_of_policyStep hpolicy).2 (hkeys hstate)
    rw [(effect_of_policyStep hpolicy).2.2]
    exact hkeys hstate
  | reset path s hstate =>
    have hpath : path ≠ [] := by
      rintro rfl
      cases hstate
    have hcalls : (s.tokenUsageCalls.map TokenCall.key).Nodup := hkeys hstate
    refine fits_setAt hpath htidy ?_ hcalls (fun q _ => ?_) tidy_nil
    · rw [hstate]
      exact Holds.of_sameLedger ⟨rfl, rfl⟩ hcalls
    -- the states below are dropped; they hold no ledger
    obtain ⟨hnocalls, hnototals⟩ := hmeets s hstate q
    rw [hstate]
    have hempty : stateAt q s.resetForIteration.childStates = none := stateAt_nil q
    rw [hempty]
    exact ⟨fun id hne hmem => absurd hmem (hnocalls id hne), hnototals⟩
  | write path s s' hstate hsame hchildren =>
    refine fits_same_children hstate htidy (Holds.of_sameLedger hsame (hkeys hstate)) ?_ hchildren
    rw [hsame.2]
    exact hkeys hstate
  | capture => exact Fits.refl htidy
  | finish path result session now s hstate =>
    obtain ⟨hholds, hnodup⟩ := writeBack_holds now (hkeys hstate) (hmeets s hstate)
    exact fits_same_children hstate htidy hholds hnodup rfl

/-! ## Runs -/

lemma Kept.trans {states' states'' : NodeStates} (h : Kept states states')
    (h' : Kept states' states'') : Kept states states'' :=
  fun path => (h path).trans (h' path)

lemma run_fits (htidy : Tidy b.states) (h : ReflTransGen GoodStep b b') :
    Fits b.states b'.states := by
  induction h with
  | refl => exact Fits.refl htidy
  | tail _ hstep ih =>
    have hnext := goodStep_fits ih.tidy hstep
    exact ⟨ih.kept.trans hnext.kept, hnext.tidy⟩

/-- **Whatever is stored at some time of the run is stored, once, at every
later time, and the totals have not decreased.** -/
theorem ledgers_kept {b₀ b₁ b₂ : Books} (htidy : Tidy b₀.states)
    (hbefore : ReflTransGen GoodStep b₀ b₁) (hafter : ReflTransGen GoodStep b₁ b₂) :
    Kept b₁.states b₂.states :=
  (run_fits (run_fits htidy hbefore).tidy hafter).kept

def oneCall : NodeResult where
  status := .success
  sessionId := "s1"
  tokenUsageCalls := [{ callId := "s1:1", dump := "" }]

theorem oneCall_kept : Kept [("n", { nodeId :="n" })]
      (setAt (writeBack "t" "" none oneCall { nodeId := "n" }) ["n"]
        [("n", { nodeId := "n" })]) := by
  have hcreate : GoodStep {} { states := [("n", { nodeId := "n" })] } :=
    ⟨.create ["n"], .create ["n"] "n" rfl, trivial⟩
  have hfinish : GoodStep { states := [("n", { nodeId := "n" })] }
      { states := setAt (writeBack "t" "" none oneCall { nodeId := "n" }) ["n"]
          [("n", { nodeId := "n" })] } := by
    refine ⟨.finish ["n"] oneCall none, .finish ["n"] oneCall none "t" _ rfl, fun _ hs => ?_⟩
    obtain rfl := some.inj hs
    refine (if_neg (by decide)).mpr ⟨nofun, fun _ => ⟨?_, ?_⟩⟩
    · exact fun _ hid _ => absurd hid not_mem_nil
    exact nodup_singleton _
  exact ledgers_kept tidy_nil (.single hcreate) (.single hfinish)

/-! ## A sub-workflow in a loop -/

def innerDone : NodeExecutionState := writeBack "t" "" none oneCall { nodeId := "c" }

/-- **The next round of the loop drops the call of the first.** -/
theorem nextRound_loses_call : ¬ ∀ b₀ b₁ b₂ : Books, Tidy b₀.states → ReflTransGen AnyStep b₀ b₁ →
      ReflTransGen AnyStep b₁ b₂ → Kept b₁.states b₂.states := by
  intro hall
  let outer : NodeExecutionState := { nodeId := "n" }
  have hcreate : AnyStep {} { states := [("n", outer)] } :=
    ⟨.create ["n"], .create ["n"] "n" rfl⟩
  have hinner : AnyStep { states := [("n", outer)] }
      { states := [("n", { outer with childStates := [("c", { nodeId := "c" })] })] } :=
    ⟨.create ["n", "c"], .create ["n", "c"] "c" rfl⟩
  have hfinish : AnyStep
      { states := [("n", { outer with childStates := [("c", { nodeId := "c" })] })] }
      { states := [("n", { outer with childStates := [("c", innerDone)] })] } :=
    ⟨.finish ["n", "c"] oneCall none, .finish ["n", "c"] oneCall none "t" _ rfl⟩
  have hreset : AnyStep { states := [("n", { outer with childStates := [("c", innerDone)] })] }
      { states := [("n", { outer with childStates := [("c", innerDone)] }.resetForIteration)] } :=
    ⟨.reset ["n"], .reset ["n"] _ rfl⟩
  have hkept := hall {} _ _ tidy_nil (((ReflTransGen.single hcreate).tail hinner).tail hfinish)
    (.single hreset) ["n", "c"]
  have hcount := hkept.calls "s1:1" (by decide) (by decide)
  cases hcount

end DeterminFlow.Ledger
