/-
  Engine.ThreeChoices
  **THREE PLACES THAT EVALUATE A BRANCH CONDITION.**

  The main plan, the condition loop and the walk through a loop body each
  collect the parameters and the outputs of completed nodes, and each decide
  by the conditions of a gateway.  The main plan takes every output.  The two
  loops leave out outputs with an empty key or a falsy value, so what such an
  output hides on the main plan stays visible to them.

  The choices differ besides: of two default branches the main plan takes the
  first and a loop body the last, and a condition loop looks at the branch
  that goes back and at no other.
-/
import DeterminFlow.Engine.BodyChoice

namespace DeterminFlow.Engine

open Library Coop Workflow DeterminFlow.Runtime List
open Option (any_some none_or not_mem_none some_or)

/-! ## The pools -/

def completedOutputs (w : World) : Pool :=
  w.task.nodeStates.flatMap (fun entry =>
    let state := w.objects entry.1 entry.2
    if state.status = .completed then state.outputs else [])

/-- `if k and v`. -/
def usable (entry : String × Json) : Bool := entry.1 != "" && entry.2.truthy

lemma update_append (d e e' : Pool) : d.update (e ++ e') = (d.update e).update e' := by
  unfold Dict.update
  exact foldl_append

lemma foldl_update {α : Type} (f : α → Pool) (l : List α) (d : Pool) :
    l.foldl (fun pool x => pool.update (f x)) d = d.update (l.flatMap f) := by
  induction l generalizing d with
  | nil => rfl
  | cons x l ih => rw [foldl_cons, ih, flatMap_cons, update_append]

lemma gatewayPool_eq (w : World) :
    gatewayPool w = w.task.parameterValues.update (completedOutputs w) := by
  unfold gatewayPool completedOutputs
  rw [← foldl_update]
  congr 1
  funext pool entry
  by_cases hdone : (w.objects entry.1 entry.2).status = .completed
  · simp only [hdone, if_true]
  simp only [hdone, if_false]
  rfl

lemma loopPool_eq (w : World) :
    loopPool w = w.task.parameterValues.update ((completedOutputs w).filter usable) := by
  unfold loopPool completedOutputs
  rw [foldl_update, filter_flatMap]
  congr 2
  funext entry
  unfold usableOutputs
  by_cases hdone : (w.objects entry.1 entry.2).status = .completed
  · simp only [hdone, if_true]
    rfl
  simp only [hdone, if_false]
  rfl

def lastOutput (outputs : Pool) (key : String) : Option Json :=
  ((outputs.filter (·.1 = key)).getLast?).map (·.2)

lemma written_eq_last (outputs : Pool) (key : String) :
    outputs.written key = lastOutput outputs key := by
  induction outputs using List.reverseRecOn with
  | nil => rfl
  | append_singleton outputs entry ih =>
    have hlast : Dict.written (outputs ++ [entry]) key =
        (Dict.set (Dict.update [] outputs) entry.1 entry.2).get? key := by
      unfold Dict.written
      rw [update_append]
      rfl
    have hfilter : (outputs ++ [entry]).filter (·.1 = key) =
        outputs.filter (·.1 = key) ++ (if entry.1 = key then [entry] else []) := by
      rw [filter_append, filter_cons, filter_nil]
      simp only [decide_eq_true_eq]
    rw [hlast, Dict.get?_set]
    unfold lastOutput at ih ⊢
    rw [hfilter]
    by_cases hkey : entry.1 = key
    · rw [if_pos hkey, if_pos hkey, getLast?_concat]
      rfl
    rw [if_neg hkey, if_neg hkey, append_nil, ← ih]
    rfl

/-- **Outputs that do not count hide nothing**: where the last output with a
key does not count, no output with that key counts, and the parameter with
that key has its value. -/
def HidesNothing (w : World) : Prop :=
  ∀ key value, lastOutput (completedOutputs w) key = some value → usable (key, value) = false →
    (∀ other, (key, other) ∈ completedOutputs w → usable (key, other) = false)
      ∧ w.task.parameterValues.get? key = some value

lemma lastOutput_mem {outputs : Pool} {key : String} {value : Json}
    (h : lastOutput outputs key = some value) : (key, value) ∈ outputs := by
  obtain ⟨entry, hentry, rfl⟩ := Option.map_eq_some_iff.1 h
  have hmem := mem_filter.1 (mem_of_getLast? hentry)
  have hkey : entry.1 = key := of_decide_eq_true hmem.2
  rw [← hkey]
  exact hmem.1

lemma lastOutput_none {outputs : Pool} {key : String} (h : lastOutput outputs key = none)
    (value : Json) : (key, value) ∉ outputs := by
  intro hmem
  have hnil := getLast?_eq_none_iff.1 (Option.map_eq_none_iff.1 h)
  have hnot := filter_eq_nil_iff.1 hnil (key, value) hmem
  exact hnot (decide_eq_true rfl)

lemma lastOutput_filter {outputs : Pool} {key : String} {value : Json}
    (h : lastOutput outputs key = some value) (husable : usable (key, value) = true) :
    lastOutput (outputs.filter usable) key = some value := by
  obtain ⟨entry, hentry, rfl⟩ := Option.map_eq_some_iff.1 h
  have hkey : entry.1 = key := of_decide_eq_true (mem_filter.1 (mem_of_getLast? hentry)).2
  obtain ⟨_, hbefore⟩ := getLast?_eq_some_iff.1 hentry
  have hcomm : (outputs.filter usable).filter (·.1 = key) =
      (outputs.filter (·.1 = key)).filter usable := by
    rw [filter_filter, filter_filter]
    exact filter_congr (fun _ _ => Bool.and_comm _ _)
  have husable' : usable entry = true := by
    rw [← hkey] at husable
    exact husable
  unfold lastOutput
  rw [hcomm, hbefore, filter_append, filter_cons, if_pos husable', filter_nil, getLast?_concat]
  rfl

lemma get?_pools (w : World) (key : String) : (gatewayPool w).get? key =
        (lastOutput (completedOutputs w) key).or (w.task.parameterValues.get? key)
      ∧ (loopPool w).get? key =
        (lastOutput ((completedOutputs w).filter usable) key).or
          (w.task.parameterValues.get? key) := by
  rw [gatewayPool_eq, loopPool_eq, Dict.get?_update, Dict.get?_update, written_eq_last,
    written_eq_last]
  exact ⟨rfl, rfl⟩

lemma pools_agree_iff (w : World) :
    (∀ key, (gatewayPool w).get? key = (loopPool w).get? key) ↔ HidesNothing w := by
  constructor
  · intro h key value hlast hunusable
    have hkey := h key
    rw [(get?_pools w key).1, (get?_pools w key).2, hlast, some_or] at hkey
    cases hfilter : lastOutput ((completedOutputs w).filter usable) key with
    | some =>
      -- an output that counts does not have the value of one that does not
      rw [hfilter, some_or] at hkey
      obtain rfl := Option.some.inj hkey
      have hcounts := (mem_filter.1 (lastOutput_mem hfilter)).2
      rw [hunusable] at hcounts
      cases hcounts
    | none =>
      rw [hfilter, none_or] at hkey
      refine ⟨fun other hother => ?_, hkey.symm⟩
      by_contra hcounts
      rw [Bool.not_eq_false] at hcounts
      exact lastOutput_none hfilter other (mem_filter.2 ⟨hother, hcounts⟩)
  intro h key
  rw [(get?_pools w key).1, (get?_pools w key).2]
  cases hlast : lastOutput (completedOutputs w) key with
  | none =>
    have hfilter : lastOutput ((completedOutputs w).filter usable) key = none := by
      cases hother : lastOutput ((completedOutputs w).filter usable) key with
      | none => rfl
      | some other =>
        exact absurd (mem_of_mem_filter (lastOutput_mem hother)) (lastOutput_none hlast other)
    rw [hfilter]
  | some value =>
    by_cases husable : usable (key, value) = true
    · rw [lastOutput_filter hlast husable]
    rw [Bool.not_eq_true] at husable
    obtain ⟨hnone, hparameter⟩ := h key value hlast husable
    have hfilter : lastOutput ((completedOutputs w).filter usable) key = none := by
      cases hother : lastOutput ((completedOutputs w).filter usable) key with
      | none => rfl
      | some other =>
        have hmem := mem_filter.1 (lastOutput_mem hother)
        rw [hnone other hmem.1] at hmem
        exact nomatch hmem.2
    rw [hfilter, hparameter, some_or, none_or]

/-! ## The choices -/

section
variable (E : Env) (body : List String) (w : World) (gatewayId : String)

def mainChoice : Option String :=
  (selectBranch E (gatewayPool w) (E.definition.conditionBranches gatewayId)).map (·.target)

def bodyChoice : Option String :=
  selectBodyTarget E (loopPool w) gatewayId (bodyTargets E body gatewayId)

/-- A condition loop whose branch `back` goes back is not left. -/
def loopChoice (back : BranchInfo) : Bool := (continues E gatewayId back w).2

/-- **One pool and one decision.**  `back` is the branch that goes back, when
the gateway ends a condition loop. -/
structure SameDecision (back : Option BranchInfo) : Prop where
  pools : ∀ key, (gatewayPool w).get? key = (loopPool w).get? key
  body : bodyChoice E body w gatewayId = mainChoice E w gatewayId
  loop : ∀ b ∈ back, loopChoice E w gatewayId b = decide (mainChoice E w gatewayId = some b.target)

/-- The condition of the branch to `target` is true. -/
def branchHolds (target : String) : Bool :=
  conditionHolds E (loopPool w) (edgeCondition E gatewayId target)

def defaultTargets : List String :=
  (E.definition.targetsOf gatewayId).filter (isDefaultEdge E gatewayId)

/-- **When there is one reading**: no output that does not count hides
anything, and where no condition is true the first and the last default
branch are one, which does not go back; where the condition of the branch that goes
back is true, no other before it is. -/
structure OneReading (back : Option BranchInfo) : Prop where
  hidesNothing : HidesNothing w
  defaults : (∀ t ∈ E.definition.targetsOf gatewayId, branchHolds E w gatewayId t = false) →
    (defaultTargets E gatewayId).head? = (defaultTargets E gatewayId).getLast?
      ∧ ∀ b ∈ back, (defaultTargets E gatewayId).head? ≠ some b.target
  first : ∀ b ∈ back, branchHolds E w gatewayId b.target = true →
    ∀ t ∈ (E.definition.targetsOf gatewayId).takeWhile (· ≠ b.target),
      branchHolds E w gatewayId t = false

def ReadsByKey : Prop :=
  ∀ expression (pool pool' : Pool), (∀ key, pool.get? key = pool'.get? key) →
    E.holds expression pool = E.holds expression pool'

variable {E body w gatewayId}

lemma conditionHolds_congr (hreads : ReadsByKey E) {pool pool' : Pool}
    (h : ∀ key, pool.get? key = pool'.get? key) (condition : Option EdgeCondition) :
    conditionHolds E pool condition = conditionHolds E pool' condition := by
  unfold conditionHolds
  cases condition with
  | none => rfl
  | some c => rw [any_some, any_some, hreads c.expression pool pool' h]

lemma find?_conditionBranches (p : BranchInfo → Bool) (gatewayId : String) :
    ((E.definition.conditionBranches gatewayId).find? p).map (·.target) =
      (E.definition.targetsOf gatewayId).find?
        (fun t => p { target := t, condition := edgeCondition E gatewayId t }) := by
  unfold WorkflowDef.conditionBranches
  rw [find?_map, Option.map_map]
  exact Option.map_id'

lemma mainChoice_eq (hreads : ReadsByKey E)
    (hpools : ∀ key, (gatewayPool w).get? key = (loopPool w).get? key) : mainChoice E w gatewayId =
      ((E.definition.targetsOf gatewayId).find? (branchHolds E w gatewayId)).or
        (defaultTargets E gatewayId).head? := by
  unfold mainChoice selectBranch
  rw [Option.map_or, find?_conditionBranches, find?_conditionBranches]
  simp only [conditionHolds_congr hreads hpools]
  unfold defaultTargets
  rw [head?_filter]
  rfl

lemma bodyChoice_eq (hinside : bodyTargets E body gatewayId = E.definition.targetsOf gatewayId) :
    bodyChoice E body w gatewayId =
      ((E.definition.targetsOf gatewayId).find? (branchHolds E w gatewayId)).or
        (defaultTargets E gatewayId).getLast? := by
  unfold bodyChoice selectBodyTarget
  rw [hinside]
  rfl

lemma loopChoice_eq {b : BranchInfo} (hb : b ∈ E.definition.conditionBranches gatewayId) :
    loopChoice E w gatewayId b = branchHolds E w gatewayId b.target := by
  obtain ⟨t, -, rfl⟩ := mem_map.1 hb
  show loopChoice E w gatewayId { target := t, condition := edgeCondition E gatewayId t } =
    branchHolds E w gatewayId t
  unfold loopChoice branchHolds continues conditionHolds
  cases edgeCondition E gatewayId t with
  | none => rfl
  | some c =>
    simp only [any_some]
    cases hdefault : c.isDefault with
    | true => simp
    | false =>
      cases htext : PyText.hasText c.expression with
      | _ => simp

lemma mem_targetsOf_branch {b : BranchInfo} (hb : b ∈ E.definition.conditionBranches gatewayId) :
    b.target ∈ E.definition.targetsOf gatewayId := by
  obtain ⟨_, ht, rfl⟩ := mem_map.1 hb
  exact ht

lemma find?_false {targets : List String} {p : String → Bool} (h : ∀ t ∈ targets, p t = false) :
    targets.find? p = none :=
  find?_eq_none.2 (fun t ht => by rw [h t ht]; decide)

end

/-! ## An empty output -/

/-- `check` leads to `work` if `mode` is `full`, else to `join`. -/
def modeCheck : WorkflowDef where
  nodes := [{ id := "first" }, { id := "work" }, { id := "join" }]
  gateways := [{ id := "check", gatewayType := .condition }]
  edges := [{ source := "__start__", target := "first" },
    { source := "first", target := "check" },
    { source := "check", target := "work", condition := some { expression := "\x7b\x7bmode\x7d\x7d == full" } },
    { source := "check", target := "join", condition := some { isDefault := true } },
    { source := "work", target := "join" }, { source := "join", target := "__end__" }]

/-- Its one condition looks `mode` up. -/
def modeEnv : Env where
  definition := modeCheck
  holds := fun _ pool => some (match pool.get? "mode" with
    | some (.str "full") => true
    | _ => false)
  parseLoopExpression := fun _ => none
  parseJson := fun _ => none
  itemText := fun _ => ""
  retryDeadline := fun now _ => some now
  recursionLimit := 1000

/-- The parameter `mode` is `full`, and the first node has the output `mode`. -/
def modeWorld (output : String) : World where
  task := { nodeStates := [("first", 0)], parameterValues := [("mode", .str "full")] }
  objects := fun _ _ => { status := .completed, outputs := [("mode", .str output)] }
  allocated := fun n => if n = "first" then 1 else 0

lemma modeEnv_reads : ReadsByKey modeEnv := by
  intro _ _ _ h
  show some _ = some _
  rw [h "mode"]

end DeterminFlow.Engine
