/-
  Engine.BodyChoice
  **CONDITION GATEWAYS INSIDE A LOOP BODY.**

  A gateway of the main plan freezes its choice in
  `control_flow_state['conditions']`.  The walk through a loop body does not:
  whenever it reaches a condition gateway it evaluates the conditions again,
  over the parameters and outputs there are by then.
-/
import DeterminFlow.Engine.TaskRun
import DeterminFlow.Workflow.Validation

namespace DeterminFlow.Engine

open Library Coop Workflow DeterminFlow.Runtime List Option

section
variable (E : Env) (disabled body : List String)

/-! ## The step of the walk that decides -/

/-- The walk reaches condition gateway `gatewayId` at `place`. -/
structure ReachesCondition (place : BodyPlace) (gatewayId : String) : Prop where
  current : place.current = some gatewayId
  named : gatewayId ≠ ""
  fresh : gatewayId ∉ place.executed
  enabled : gatewayId ∉ disabled
  condition : (E.definition.getGateway gatewayId).map (·.gatewayType) = some .condition

/-- Reaching the gateway in world `w`, the walk chooses `target`: its first
step reads the world, its second one records the choice. -/
def Chooses (place : BodyPlace) (gatewayId : String) (w : World) (target : String) : Prop :=
  (((bodyStep E disabled body place).advance 0 w).bind fun read =>
    (read.2.1.advance 0 read.1).map (·.1)) = some (w.record (.chose gatewayId target))

variable {E disabled body} {gatewayId : String} {place : BodyPlace}

lemma record_injective {w : World} {t t' : String}
    (h : w.record (.chose gatewayId t) = w.record (.chose gatewayId t')) : t = t' := by
  have hlog : (LogEntry.chose gatewayId t :: w.log) = .chose gatewayId t' :: w.log :=
    congrArg World.log h
  have hentry := (cons.inj hlog).1
  exact (LogEntry.chose.inj hentry).2

lemma bodyStep_condition (h : ReachesCondition E disabled place gatewayId) :
    bodyStep E disabled body place = bodyCondition E disabled body place gatewayId := by
  obtain ⟨_, hgateway, htype⟩ := map_eq_some_iff.1 h.condition
  unfold bodyStep
  rw [h.current]
  simp only
  rw [if_neg (by simp [h.named, h.fresh]), if_neg h.enabled, hgateway]
  simp only [htype]

lemma chooses_iff (h : ReachesCondition E disabled place gatewayId) (w : World)
    (target : String) : Chooses E disabled body place gatewayId w target
      ↔ selectBodyTarget E (loopPool w) gatewayId (bodyTargets E body gatewayId) = some target := by
  unfold Chooses
  rw [bodyStep_condition h]
  unfold bodyCondition
  cases hselect : selectBodyTarget E (loopPool w) gatewayId (bodyTargets E body gatewayId) with
  | none =>
    simp [Prog.get, Bind.bind, Prog.bind, Prog.advance, Pure.pure, hselect]
  | some =>
    simp only [Prog.get, Prog.modify, Bind.bind, Prog.bind, Prog.advance, hselect, bind_some,
      map_some, some.injEq]
    constructor
    · intro hworld
      exact record_injective (some.inj hworld)
    intro htarget
    rw [htarget]
    rfl

/-! ## When the same branch is selected again -/

lemma find?_eq_some_iff_takeWhile (p : String → Bool) (targets : List String) (t : String) :
    targets.find? p = some t
      ↔ t ∈ targets ∧ p t = true ∧ ∀ s ∈ targets.takeWhile (· ≠ t), p s = false := by
  induction targets with
  | nil => simp
  | cons head rest ih =>
    by_cases hp : p head = true
    · rw [find?_cons_of_pos hp]
      constructor
      · intro h
        obtain rfl := some.inj h
        refine ⟨mem_cons_self, hp, ?_⟩
        rw [takeWhile_cons_of_neg (by simp)]
        intro s hs
        cases hs
      intro h
      obtain ⟨_, _, hbefore⟩ := h
      by_contra hne
      have hhead : head ∈ (head :: rest).takeWhile (· ≠ t) := by
        rw [takeWhile_cons_of_pos (by simpa using fun heq => hne (congrArg some heq))]
        exact mem_cons_self
      rw [hbefore head hhead] at hp
      cases hp
    rw [find?_cons_of_neg hp, ih]
    by_cases hhead : head = t
    · have hno : ¬ p t = true := by
        rw [← hhead]
        exact hp
      constructor
      all_goals
        intro h
        exact absurd h.2.1 hno
    rw [takeWhile_cons_of_pos (by simpa using hhead)]
    simp only [mem_cons, forall_eq_or_imp]
    constructor
    · intro h
      exact ⟨.inr h.1, h.2.1, by simpa using hp, h.2.2⟩
    intro h
    exact ⟨h.1.resolve_left (fun heq => hhead heq.symm), h.2.1, h.2.2.2⟩

variable (E body)

/-- The edge to `target` is the default one. -/
def isDefaultEdge (gatewayId target : String) : Bool :=
  (edgeCondition E gatewayId target).any (·.isDefault)

/-- **The conditions that led to the choice of `target` have kept their
values**: that of its edge is true and those before it are false, or, for a
default edge, all of them are false. -/
def StillSelected (gatewayId target : String) (pool : Pool) : Prop :=
  if isDefaultEdge E gatewayId target = true then
    ∀ s ∈ bodyTargets E body gatewayId, conditionHolds E pool (edgeCondition E gatewayId s) = false
  else
    conditionHolds E pool (edgeCondition E gatewayId target) = true
      ∧ ∀ s ∈ (bodyTargets E body gatewayId).takeWhile (· ≠ target),
          conditionHolds E pool (edgeCondition E gatewayId s) = false

variable {E body}

lemma conditionHolds_default {target : String} (pool : Pool)
    (h : isDefaultEdge E gatewayId target = true) :
    conditionHolds E pool (edgeCondition E gatewayId target) = false := by
  unfold isDefaultEdge at h
  unfold conditionHolds
  cases hc : edgeCondition E gatewayId target with
  | none => rfl
  | some =>
    rw [hc, any_some] at h
    simp [h]

lemma isDefaultEdge_of_getLast? {target : String} {targets : List String}
    (h : (targets.filter (fun t => (edgeCondition E gatewayId t).any (·.isDefault))).getLast?
      = some target) : isDefaultEdge E gatewayId target = true :=
  (mem_filter.1 (mem_of_getLast? h)).2

lemma selectBodyTarget_again {target : String} {before after : Pool}
    (hfirst : selectBodyTarget E before gatewayId (bodyTargets E body gatewayId) = some target) :
    selectBodyTarget E after gatewayId (bodyTargets E body gatewayId) = some target
      ↔ StillSelected E body gatewayId target after := by
  unfold StillSelected
  unfold selectBodyTarget at *
  generalize bodyTargets E body gatewayId = targets at *
  by_cases hdefault : isDefaultEdge E gatewayId target = true
  · rw [if_pos hdefault]
    have hnever : ∀ pool, targets.find? (fun t => conditionHolds E pool
        (edgeCondition E gatewayId t)) ≠ some target := by
      intro pool hfound
      have htrue := find?_some hfound
      rw [conditionHolds_default pool hdefault] at htrue
      cases htrue
    have hlast : (targets.filter (fun t => (edgeCondition E gatewayId t).any
        (·.isDefault))).getLast? = some target := by
      cases hfound : targets.find? (fun t => conditionHolds E before
          (edgeCondition E gatewayId t)) with
      | none =>
        rw [hfound] at hfirst
        exact hfirst
      | some found =>
        rw [hfound] at hfirst
        exact absurd (hfound.trans hfirst) (hnever before)
    constructor
    · intro h
      cases hfound : targets.find? (fun t => conditionHolds E after
          (edgeCondition E gatewayId t)) with
      | none =>
        intro s hs
        have hfalse := find?_eq_none.1 hfound s hs
        simpa using hfalse
      | some found =>
        rw [hfound] at h
        exact absurd (hfound.trans h) (hnever after)
    intro h
    have hnone : targets.find? (fun t => conditionHolds E after
        (edgeCondition E gatewayId t)) = none := by
      rw [find?_eq_none]
      intro s hs
      rw [h s hs]
      simp
    rw [hnone]
    exact hlast
  rw [if_neg hdefault]
  -- a target that is no default one is found by its condition
  have hfound : ∀ pool, (targets.find? (fun t => conditionHolds E pool
        (edgeCondition E gatewayId t))).or
      (targets.filter (fun t => (edgeCondition E gatewayId t).any (·.isDefault))).getLast?
        = some target →
      targets.find? (fun t => conditionHolds E pool (edgeCondition E gatewayId t))
        = some target := by
    intro pool hselect
    cases hfind : targets.find? (fun t => conditionHolds E pool
        (edgeCondition E gatewayId t)) with
    | none =>
      rw [hfind] at hselect
      exact absurd (isDefaultEdge_of_getLast? hselect) hdefault
    | some found =>
      rw [hfind] at hselect
      exact hselect
  have hmem : target ∈ targets := mem_of_find?_eq_some (hfound before hfirst)
  constructor
  · intro h
    exact ((find?_eq_some_iff_takeWhile _ targets target).1 (hfound after h)).2
  intro h
  have hagain := (find?_eq_some_iff_takeWhile
    (fun t => conditionHolds E after (edgeCondition E gatewayId t)) targets target).2 ⟨hmem, h⟩
  rw [hagain]
  rfl

end

/-! ## A retried loop body -/

/-- In each iteration `b` runs, then `x` and `z`, or `y`. -/
def decidedInLoop : WorkflowDef where
  nodes := [{ id := "b" }, { id := "x" }, { id := "z" }, { id := "y" }, { id := "fin" }]
  gateways := [{ id := "each", gatewayType := .loop }, { id := "check", gatewayType := .condition }]
  edges := [{ source := "__start__", target := "each" },
    { source := "each", target := "b", condition := some { expression := "for i in 1" } },
    { source := "each", target := "fin", condition := some { isDefault := true } },
    { source := "b", target := "check" },
    { source := "check", target := "x", condition := some { expression := "not done" } },
    { source := "check", target := "y", condition := some { isDefault := true } },
    { source := "x", target := "z" }, { source := "z", target := "each" },
    { source := "y", target := "each" }, { source := "fin", target := "__end__" }]

/-- The condition is true as long as no node has written `done`. -/
def doneEnv : Env :=
  { plainEnv decidedInLoop with
    holds := fun _ pool => some (!pool.has "done")
    parseLoopExpression := fun _ => some (.range "i" 0 1) }

def decidedBody : List String := ["b", "y", "x", "z"]

def atCheck : BodyPlace := { executed := ["b"], current := some "check" }

def undone : World := { task := {} }

lemma atCheck_reached : ReachesCondition doneEnv [] atCheck "check" where
  current := rfl
  named := by decide
  fresh := by decide
  enabled := by decide
  condition := by decide

/-- `b` and `x` complete, `x` writes `done`, and `z` fails. -/
def bodyFails : List (Move engineSig) :=
  [proceed .main] ++ save .main ++ save .main ++ save .main ++ [finish .main {}] ++ save .main
    ++ save .main ++ [finish .main { outputs := [("done", .str "1")] }] ++ save .main ++ save .main
    ++ [finish .main { status := .failed }] ++ save .main ++ save .main ++ [proceed .main]

def choicesOfIteration (w : World) : List (String × String) :=
  (w.log.takeWhile (fun | .reset _ => false | _ => true)).filterMap
    (fun | .chose gateway target => some (gateway, target) | _ => none)

end DeterminFlow.Engine
