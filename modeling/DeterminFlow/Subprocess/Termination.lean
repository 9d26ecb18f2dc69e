/-
  Subprocess.Termination
  **WHEN THE EXPANSION OF SUB-WORKFLOWS ENDS.**

  Nothing counts the depth of the chain of expansions, and neither saving a
  definition nor opening one looks for a way back: every definition is
  checked for itself.  Whether the chain is finite is a property of all
  stored definitions together.
-/
import DeterminFlow.Subprocess.Expansion
import DeterminFlow.Workflow.Validation
import Mathlib.Data.List.Chain

namespace DeterminFlow.Subprocess

open Library Runs Workflow DeterminFlow.Runtime List WorkflowDef Dict
open Relation (ReflTransGen TransGen)

/-! ## What a definition can open -/

def isPassed : PlanStep → Bool
  | .branch _ _ => true
  | .convergeGateway _ _ => true
  | .loopGateway _ _ _ _ => true
  | _ => false

/-- With the choices made so far, the plan can come to the node. -/
inductive Startable (d : WorkflowDef) : Dict String String → List PlanStep → String → Prop
  | here (choices : Dict String String) (rest : List PlanStep) (id : String) :
      Startable d choices (.node id :: rest) id
  | later {choices : Dict String String} {rest : List PlanStep} {id : String} (other : String) :
      Startable d choices rest id → Startable d choices (.node other :: rest) id
  | gateway {choices : Dict String String} {rest : List PlanStep} {id : String}
      (holds : BranchInfo → Bool) (gatewayId : String) (branches : List BranchInfo)
      (loop : Option LoopInfo) (convergenceNodeId : String) (selected : BranchInfo)
      (path : List String) (tail : List PlanStep) :
      branches ≠ [] → selectBranch choices holds gatewayId branches = some selected →
      branchPath d (convergenceOf convergenceNodeId) [] selected.target = .ok path →
      planTail (convergenceOf convergenceNodeId) rest = some tail →
      Startable d (choices.set gatewayId selected.target) (path.map .node ++ tail) id →
      Startable d choices (.conditionGateway gatewayId branches loop convergenceNodeId :: rest) id
  | pass {choices : Dict String String} {rest : List PlanStep} {id : String} (step : PlanStep) :
      isPassed step = true → Startable d choices rest id → Startable d choices (step :: rest) id

/-- **The expansion of `o` can open `o'`**: a sub-workflow node that the plan
can come to, and that the scheme has not disabled, passes the checks. -/
structure Opens (P : Platform) (o o' : Opening) : Prop where
  opens : ∃ node choices, Startable o.template.definition choices o.plan node.id ∧
    o.template.definition.getNode node.id = some node ∧ isReserved node.id = false ∧
    node.id ∉ o.disabledIds ∧ nodeTypeOf node = "subprocess" ∧
    P.registered "subprocess" = true ∧ openChild P o.template node = .ok o'

/-- A node of the task can open `o`. -/
def TaskOpens (P : Platform) (task : Template) (o : Opening) : Prop :=
  ∃ node, task.definition.getNode node.id = some node ∧ isReserved node.id = false ∧
    nodeTypeOf node = "subprocess" ∧ P.registered "subprocess" = true ∧
    openChild P task node = .ok o

/-- The task can come to open `o`, at some depth. -/
def TaskReaches (P : Platform) (task : Template) (o : Opening) : Prop :=
  ∃ o₁, TaskOpens P task o₁ ∧ ReflTransGen (Opens P) o₁ o

def Chain.ids (chain : Chain) : List String := chain.map (·.opening.id)

/-- **The expansion ends**: in every run no definition is expanded inside its
own expansion, and the chain is no longer than the store. -/
def ExpansionEnds (P : Platform) (task : Template) : Prop :=
  ∀ events (chain : Chain), run (step P task) [] events = some chain →
    chain.ids.Nodup ∧ chain.length ≤ P.workflows.length

/-! ## What one round does -/

/-- The plan ahead of an expansion comes to no node that its plan does not
come to from the beginning. -/
def Frame.Inside (f : Frame) : Prop :=
  ∀ id, Startable f.definition f.conditionChoices f.plan id →
    ∃ choices, Startable f.definition choices f.opening.plan id

variable {f f' : Frame} {gatewayId convergenceNodeId n : String} {branches : List BranchInfo}
  {holds : BranchInfo → Bool} {P : Platform} {task : Template} {o o' : Opening} {chain : Chain}

lemma nodeTurn_goesOn {id : String} {rest : List PlanStep} (h : f.nodeTurn id rest = .goesOn f') :
    ∃ states,
      f' = { f with childStates := states, plan := rest } := by
  unfold Frame.nodeTurn at h
  split at h
  · cases h
    exact ⟨f.childStates, rfl⟩
  split at h
  · cases h
    exact ⟨f.childStates, rfl⟩
  split at h
  · cases h
    exact ⟨_, rfl⟩
  split at h <;> cases h
  · exact ⟨_, rfl⟩
  exact ⟨f.childStates, rfl⟩

lemma nodeTurn_starts {id : String} {rest : List PlanStep} {node : WorkflowNode}
    (h : f.nodeTurn id rest = .starts node) :
    f.definition.getNode id = some node ∧ isReserved id = false ∧
      id ∉ f.opening.disabledIds := by
  unfold Frame.nodeTurn at h
  split at h
  · cases h
  rename_i node' hget
  split at h
  · cases h
  rename_i hreserved
  split at h
  · cases h
  rename_i hdisabled
  split at h <;> cases h
  all_goals exact ⟨hget, by simpa using hreserved, hdisabled⟩

lemma gatewayTurn_goesOn {rest : List PlanStep}
    (h : f.gatewayTurn holds gatewayId branches convergenceNodeId rest = .goesOn f') :
    branches ≠ [] ∧ ∃ selected path tail,
      selectBranch f.conditionChoices holds gatewayId branches = some selected ∧
      branchPath f.definition (convergenceOf convergenceNodeId) [] selected.target = .ok path ∧
      planTail (convergenceOf convergenceNodeId) rest = some tail ∧
      f' = { f with
        childStates := skipOthers f.definition branches selected.target
          (convergenceOf convergenceNodeId) f.childStates
        conditionChoices := f.conditionChoices.set gatewayId selected.target
        plan := path.map .node ++ tail } := by
  unfold Frame.gatewayTurn at h
  split at h
  · cases h
  rename_i hbranches
  split at h
  · cases h
  rename_i selected hselected
  dsimp only at h
  split at h
  · cases h
  rename_i path hpath
  split at h
  · cases h
  rename_i tail htail
  cases h
  exact ⟨hbranches, selected, path, tail, hselected, hpath, htail, rfl⟩

lemma gatewayTurn_not_starts {rest : List PlanStep} {node : WorkflowNode} :
    f.gatewayTurn holds gatewayId branches convergenceNodeId rest ≠ .starts node := by
  intro h
  unfold Frame.gatewayTurn at h
  split at h
  · cases h
  split at h
  · cases h
  dsimp only at h
  split at h
  · cases h
  split at h <;> cases h

lemma turn_goesOn (hinside : f.Inside) (h : f.turn holds = .goesOn f') :
    f'.opening = f.opening ∧ f'.Inside := by
  -- it is enough to come back from the new plan to the old one
  suffices hback : f'.opening = f.opening ∧ ∀ id,
      Startable f.definition f'.conditionChoices f'.plan id →
        Startable f.definition f.conditionChoices f.plan id by
    obtain ⟨hopening, hplan⟩ := hback
    have hdefinition : f'.definition = f.definition := by
      unfold Frame.definition
      rw [hopening]
    refine ⟨hopening, fun id hid => ?_⟩
    rw [hdefinition] at hid ⊢
    rw [hopening]
    exact hinside id (hplan id hid)
  unfold Frame.turn at h
  split at h
  case h_1 => cases h
  case h_2 id rest hplan =>
    obtain ⟨_, rfl⟩ := nodeTurn_goesOn h
    refine ⟨rfl, fun other hother => ?_⟩
    rw [hplan]
    exact .later id hother
  case h_3 gatewayId branches loop convergenceNodeId rest hplan =>
    obtain ⟨hbranches, selected, path, tail, hselected, hpath, htail, rfl⟩ := gatewayTurn_goesOn h
    refine ⟨rfl, fun other hother => ?_⟩
    rw [hplan]
    exact .gateway holds gatewayId branches loop convergenceNodeId selected path tail hbranches
      hselected hpath htail hother
  case h_4 => cases h
  case h_5 step rest hnode hgateway hparallel hplan =>
    cases h
    refine ⟨rfl, fun other hother => ?_⟩
    rw [hplan]
    refine .pass step ?_ hother
    cases step with
    | node id => exact absurd rfl (hnode id)
    | conditionGateway id branches loop convergence =>
      exact absurd rfl (hgateway id branches loop convergence)
    | parallelGateway id converge => exact absurd rfl (hparallel id converge)
    | _ => rfl

lemma turn_starts {node : WorkflowNode} (h : f.turn holds = .starts node) :
    (∃ rest, f.plan = .node node.id :: rest) ∧ f.definition.getNode node.id = some node ∧
      isReserved node.id = false ∧ node.id ∉ f.opening.disabledIds := by
  unfold Frame.turn at h
  split at h
  case h_1 => cases h
  case h_2 id rest hplan =>
    obtain ⟨hget, hreserved, hdisabled⟩ := nodeTurn_starts h
    obtain rfl := getNode_id _ hget
    exact ⟨⟨rest, hplan⟩, hget, hreserved, hdisabled⟩
  case h_3 => exact absurd h gatewayTurn_not_starts
  case h_4 => cases h
  case h_5 => cases h

lemma Frame.Inside.begin (h : f.Inside) (id : String) : (f.begin id).Inside := h

lemma complete_opening (f : Frame) : f.complete.opening = f.opening := by
  unfold Frame.complete
  split <;> rfl

lemma Frame.Inside.complete (h : f.Inside) : f.complete.Inside := by
  unfold Frame.complete
  split
  · rename_i id rest hplan
    intro other hother
    refine h other ?_
    rw [hplan]
    exact .later id hother
  exact h

lemma enter_inside (o : Opening) (left : Remains) : (o.enter left).Inside :=
  fun _ h => ⟨left.conditionChoices, h⟩

/-! ## The chain follows what can be opened -/

def Linked (P : Platform) (task : Template) : List Opening → Prop
  | [] => True
  | [o] => TaskOpens P task o
  | o :: o' :: rest => Opens P o' o ∧ Linked P task (o' :: rest)

def Chain.openings (chain : Chain) : List Opening := chain.map (·.opening)

/-- **The invariant of the chain.** -/
structure Follows (P : Platform) (task : Template) (chain : Chain) : Prop where
  inside : ∀ f ∈ chain, f.Inside
  linked : Linked P task chain.openings

lemma Linked.tail {P : Platform} {task : Template} {o : Opening} {rest : List Opening}
    (h : Linked P task (o :: rest)) : Linked P task rest := by
  cases rest with
  | nil => trivial
  | cons => exact h.2

lemma Follows.replace {rest : Chain} (h : Follows P task (f :: rest))
    (hopening : f'.opening = f.opening) (hinside : f'.Inside) : Follows P task (f' :: rest) where
  inside := by
    intro g hg
    rcases mem_cons.1 hg with rfl | hg
    · exact hinside
    exact h.inside g (mem_cons_of_mem _ hg)
  linked := by
    have hlinked := h.linked
    unfold Chain.openings at hlinked ⊢
    rw [map_cons, hopening]
    exact hlinked

lemma Follows.tail {P : Platform} {task : Template} {f : Frame} {rest : Chain}
    (h : Follows P task (f :: rest)) : Follows P task rest where
  inside := fun g hg => h.inside g (mem_cons_of_mem _ hg)
  linked := h.linked.tail

lemma Follows.nil (P : Platform) (task : Template) : Follows P task [] where
  inside := nofun
  linked := trivial

lemma Follows.push {rest : Chain} (h : Follows P task (f :: rest)) (hopens : Opens P f.opening o)
    (left : Remains) : Follows P task (o.enter left :: f :: rest) where
  inside := by
    intro g hg
    rcases mem_cons.1 hg with rfl | hg
    · exact enter_inside o left
    exact h.inside g hg
  linked := ⟨hopens, h.linked⟩

lemma startNode_follows {rest : Chain} {node : WorkflowNode} (h : Follows P task (f :: rest))
    (hstarts : f.turn holds = .starts node) (completed : Bool) (left : Remains) :
    Follows P task (startNode P f rest node completed left) := by
  have hbegin : Follows P task (f.begin node.id :: rest) :=
    h.replace rfl ((h.inside f mem_cons_self).begin node.id)
  unfold startNode
  dsimp only
  split
  · exact Follows.nil P task
  rename_i hregistered
  split
  · rename_i htype
    split
    · rename_i o hopen
      obtain ⟨⟨steps, hplan⟩, hget, hreserved, hdisabled⟩ := turn_starts hstarts
      -- the node is the next one of the plan ahead
      obtain ⟨choices, hstartable⟩ := h.inside f mem_cons_self node.id
        (hplan ▸ .here f.conditionChoices steps node.id)
      rw [htype] at hregistered
      exact hbegin.push ⟨node, choices, hstartable, hget, hreserved, hdisabled, htype,
        by simpa using hregistered, hopen⟩ left
    exact Follows.nil P task
  split
  · exact hbegin.replace (complete_opening _)
      (Frame.Inside.complete (hbegin.inside _ mem_cons_self))
  exact Follows.nil P task

lemma step_follows {chain' : Chain} {e : Event} (h : Follows P task chain)
    (hstep : step P task chain e = some chain') : Follows P task chain' := by
  unfold step at hstep
  split at hstep
  case h_1 nodeId left =>
    split at hstep
    · cases hstep
    rename_i node hget
    split at hstep
    · cases hstep
    rename_i hguard
    obtain ⟨hreserved, hrest⟩ := not_or.1 hguard
    obtain ⟨htype, hregistered⟩ := not_or.1 hrest
    obtain rfl := getNode_id _ hget
    split at hstep
    · rename_i o hopen
      cases hstep
      refine ⟨fun g hg => ?_, ?_⟩
      · obtain rfl := mem_singleton.1 hg
        exact enter_inside o left
      exact ⟨node, hget, by simpa using hreserved, not_not.1 htype,
        by simpa using hregistered, hopen⟩
    cases hstep
    exact Follows.nil P task
  case h_2 f rest holds completed left =>
    split at hstep
    · rename_i f' hturn
      cases hstep
      obtain ⟨hopening, hinside⟩ := turn_goesOn (h.inside f mem_cons_self) hturn
      exact h.replace hopening hinside
    · rename_i node hturn
      cases hstep
      exact startNode_follows h hturn completed left
    split at hstep
    · cases hstep
      cases rest with
      | nil => exact Follows.nil P task
      | cons g =>
        exact h.tail.replace (complete_opening g)
          (Frame.Inside.complete (h.tail.inside g mem_cons_self))
    cases hstep
    exact Follows.nil P task
  case h_3 =>
    cases hstep
    exact Follows.nil P task
  case h_4 => cases hstep

lemma run_follows {events : List Event} (hrun : run (step P task) [] events = some chain) :
    Follows P task chain :=
  invariant (fun _ _ _ h hstep => step_follows h hstep) (Follows.nil P task) hrun

/-! ## Without a way back -/

theorem Linked.reaches {rest : List Opening} (h : Linked P task (o :: rest)) :
    TaskReaches P task o ∧ ∀ o' ∈ rest, TransGen (Opens P) o' o := by
  induction rest generalizing o with
  | nil => exact ⟨⟨o, h, .refl⟩, nofun⟩
  | cons o' rest ih =>
    obtain ⟨⟨o₁, hstart, hpath⟩, hinner⟩ := ih h.2
    refine ⟨⟨o₁, hstart, hpath.tail h.1⟩, fun o'' hmem => ?_⟩
    rcases mem_cons.1 hmem with rfl | hmem
    · exact .single h.1
    exact (hinner o'' hmem).tail h.1

def NoWayBack (P : Platform) (task : Template) : Prop :=
  ∀ o, TaskReaches P task o → ∀ o', TransGen (Opens P) o o' → o'.id ≠ o.id

lemma Linked.nodup {openings : List Opening} (hback : NoWayBack P task)
    (h : Linked P task openings) : (openings.map (·.id)).Nodup := by
  induction openings with
  | nil => exact nodup_nil
  | cons o rest ih =>
    rw [map_cons, nodup_cons]
    refine ⟨fun hmem => ?_, ih h.tail⟩
    obtain ⟨o', hmem', hid⟩ := mem_map.1 hmem
    obtain ⟨front, back, hrest⟩ := append_of_mem hmem'
    -- the outer one of the two is reached by the task
    have houter : Linked P task (o' :: back) := by
      have hsuffix : ∀ (l : List Opening) {m : List Opening}, Linked P task (l ++ m) →
          Linked P task m := by
        intro l m hl
        induction l with
        | nil => exact hl
        | cons x l ihl => exact ihl hl.tail
      exact hsuffix front (hrest ▸ h.tail)
    exact hback o' houter.reaches.1 o (h.reaches.2 o' hmem') hid.symm

lemma openChild_cases {parent : Template} {node : WorkflowNode}
    (h : openChild P parent node = .ok o) :
    o.id = safeId (node.subWorkflowId.getD "") ∧ P.workflows.get? o.id = some o.template ∧
      o.plan = o.template.definition.getExecutionPlan (P.candidate o.template.definition) none none := by
  unfold openChild at h
  dsimp only at h
  split at h
  · cases h
  split at h
  · cases h
  rename_i id child hload
  have hstored : safeId (node.subWorkflowId.getD "") = id ∧
      P.workflows.get? id = some child := by
    unfold loadChildDefinition at hload
    dsimp only at hload
    split at hload
    · cases hload
    obtain ⟨_, ht, heq⟩ := Option.map_eq_some_iff.1 hload
    cases heq
    exact ⟨rfl, ht⟩
  split at h
  · cases h
  split at h
  · cases h
  split at h
  · cases h
  split at h
  · cases h
  cases h
  exact ⟨hstored.1.symm, hstored.2, rfl⟩

lemma Linked.stored {openings : List Opening} (h : Linked P task openings) :
    ∀ o ∈ openings, o.id ∈ P.workflows.keys := by
  have hkey : ∀ {parent : Template} {node : WorkflowNode} {o : Opening},
      openChild P parent node = .ok o → o.id ∈ P.workflows.keys := by
    intro parent node o hopen
    exact mem_map.2 ⟨_, mem_of_get? (openChild_cases hopen).2.1, rfl⟩
  induction openings with
  | nil => exact nofun
  | cons o rest ih =>
    intro o' hmem
    rcases mem_cons.1 hmem with rfl | hmem
    · cases rest with
      | nil =>
        obtain ⟨node, -, -, -, -, hopen⟩ := h
        exact hkey hopen
      | cons =>
        obtain ⟨node, _, -, -, -, -, -, -, hopen⟩ := h.1
        exact hkey hopen
    exact ih h.tail o' hmem

lemma ends_of_noWayBack (hback : NoWayBack P task) : ExpansionEnds P task := by
  intro _ chain hrun
  have hlinked := (run_follows hrun).linked
  have hids : chain.ids = chain.openings.map (·.id) := by
    unfold Chain.ids Chain.openings
    rw [map_map]
    rfl
  have hnodup : chain.ids.Nodup := hids ▸ hlinked.nodup hback
  have hsubset : chain.ids ⊆ P.workflows.keys := by
    intro id hid
    rw [hids] at hid
    obtain ⟨o, ho, rfl⟩ := mem_map.1 hid
    exact hlinked.stored o ho
  have hlength := (hnodup.subperm hsubset).length_le
  simp only [Chain.ids, Dict.keys, length_map] at hlength
  exact ⟨hnodup, hlength⟩

/-! ## With a way back -/

/-- Every other node has completed, and `n` has failed. -/
def allBut (d : WorkflowDef) (n : String) : Dict String NodeStatus :=
  d.nodeIds.map (fun id => (id, if id = n then .failed else .completed))

/-- The plan goes past every node but `n`. -/
structure Ready (n : String) (f : Frame) : Prop where
  nonePending : ∀ id, f.childStates.get? id ≠ some .pending
  failed : f.childStates.get? n = some .failed
  others : ∀ id ∈ f.definition.nodeIds, id ≠ n →
    f.childStates.get? id = some .completed ∨ f.childStates.get? id = some .skipped

lemma get?_allBut (d : WorkflowDef) (n id : String) : (allBut d n).get? id =
      if id ∈ d.nodeIds then some (if id = n then .failed else .completed) else none := by
  unfold allBut
  induction d.nodeIds with
  | nil => rfl
  | cons other rest ih =>
    rw [map_cons, get?_cons, ih]
    by_cases h : other = id
    · subst h
      simp
    have hmem : id ∈ other :: rest ↔ id ∈ rest := by simp [Ne.symm h]
    simp only [if_neg h, hmem]

lemma enter_ready (hn : n ∈ o.template.definition.nodeIds) (choices : Dict String String) :
    Ready n (o.enter { childStates := allBut o.template.definition n, conditionChoices := choices }) := by
  set d := o.template.definition with hd
  have hall : ∀ ids : List String, (∀ id ∈ ids, id ∈ d.nodeIds) →
      ids.foldl (fun states id => states.setDefault id NodeStatus.pending) (allBut d n) =
        allBut d n := by
    intro ids
    induction ids with
    | nil => intro _; rfl
    | cons id rest ih =>
      intro hids
      have hhas : (allBut d n).has id = true := by
        rw [has_iff, get?_allBut, if_pos (hids id mem_cons_self)]
        rfl
      rw [foldl_cons]
      unfold setDefault
      rw [if_pos hhas]
      exact ih (fun id hid => hids id (mem_cons_of_mem _ hid))
  have hstates : (o.enter { childStates := allBut d n, conditionChoices := choices }).childStates =
      allBut d n := hall _ (fun id hid => ((mem_executableIds d).1 hid).1)
  constructor
  · intro id
    rw [hstates, get?_allBut]
    split
    · split <;> simp
    simp
  · rw [hstates, get?_allBut, if_pos hn, if_pos rfl]
  intro id hid hne
  have hmem : id ∈ d.nodeIds := hid
  rw [hstates, get?_allBut, if_pos hmem, if_neg hne]
  exact .inl rfl

lemma skipOthers_eq {states : Dict String NodeStatus}
    (h : ∀ id, states.get? id ≠ some .pending) (d : WorkflowDef) (branches : List BranchInfo)
    (target convergence : String) : skipOthers d branches target convergence states = states := by
  unfold skipOthers
  generalize (branches.filter (·.target ≠ target)).flatMap
    (fun b => d.collectBranchNodes states.keys b.target convergence) = ids
  induction ids with
  | nil => rfl
  | cons id rest ih =>
    rw [foldl_cons, if_neg (h id)]
    exact ih

lemma Ready.set {id : String} {s : NodeStatus} {rest : List PlanStep} (h : Ready n f)
    (hne : id ≠ n) (hs : s = .completed ∨ s = .skipped) : Ready n { f with childStates :=f.childStates.set id s, plan := rest } where
  nonePending := by
    intro other
    show (f.childStates.set id s).get? other ≠ some .pending
    rw [get?_set]
    split
    · rcases hs with rfl | rfl <;> simp
    exact h.nonePending other
  failed := by
    show (f.childStates.set id s).get? n = some .failed
    rw [get?_set_ne _ _ hne]
    exact h.failed
  others := by
    intro other hother hother'
    show (f.childStates.set id s).get? other = some .completed ∨
      (f.childStates.set id s).get? other = some .skipped
    rw [get?_set]
    split
    · rcases hs with rfl | rfl
      · exact .inl rfl
      exact .inr rfl
    exact h.others other hother hother'

lemma Ready.nodeTurn {id : String} (h : Ready n f) (hne : id ≠ n) (rest : List PlanStep) :
    ∃ f', f.nodeTurn id rest = .goesOn f' ∧ f'.opening = f.opening ∧
      f'.conditionChoices = f.conditionChoices ∧ f'.plan = rest ∧ Ready n f' := by
  unfold Frame.nodeTurn
  cases hget : f.definition.getNode id with
  | none => exact ⟨_, rfl, rfl, rfl, rfl, h.nonePending, h.failed, h.others⟩
  | some =>
    dsimp only
    by_cases hreserved : isReserved id = true
    · rw [if_pos hreserved]
      exact ⟨_, rfl, rfl, rfl, rfl, h.nonePending, h.failed, h.others⟩
    rw [if_neg hreserved]
    by_cases hdisabled : id ∈ f.opening.disabledIds
    · rw [if_pos hdisabled]
      exact ⟨_, rfl, rfl, rfl, rfl, h.set hne (.inr rfl)⟩
    rw [if_neg hdisabled]
    have hnode : id ∈ f.definition.nodeIds := by
      rw [← getNode_isSome_iff, hget]
      rfl
    unfold Frame.statusOf
    rcases h.others id hnode hne with hs | hs
    · rw [hs]
      exact ⟨_, rfl, rfl, rfl, rfl, h.set hne (.inl rfl)⟩
    rw [hs]
    exact ⟨_, rfl, rfl, rfl, rfl, h.nonePending, h.failed, h.others⟩

lemma Ready.starts {node : WorkflowNode} (h : Ready node.id f)
    (hget : f.definition.getNode node.id = some node) (hreserved : isReserved node.id = false)
    (hdisabled : node.id ∉ f.opening.disabledIds) (rest : List PlanStep) :
    f.nodeTurn node.id rest = .starts node := by
  unfold Frame.nodeTurn
  rw [hget]
  dsimp only
  rw [if_neg (by simp [hreserved]), if_neg hdisabled]
  unfold Frame.statusOf
  rw [h.failed]
  rfl

lemma Ready.gatewayTurn (h : Ready n f) {after tail : List PlanStep} {selected : BranchInfo}
    {path : List String} (hbranches : branches ≠ [])
    (hselected : selectBranch f.conditionChoices holds gatewayId branches = some selected)
    (hpath : branchPath f.definition (convergenceOf convergenceNodeId) [] selected.target =
      .ok path) (htail : planTail (convergenceOf convergenceNodeId) after = some tail) :
    ∃ f', f.gatewayTurn holds gatewayId branches convergenceNodeId after = .goesOn f' ∧
      f'.opening = f.opening ∧
      f'.conditionChoices = f.conditionChoices.set gatewayId selected.target ∧
      f'.plan = path.map .node ++ tail ∧ Ready n f' := by
  have hturn : f.gatewayTurn holds gatewayId branches convergenceNodeId after = .goesOn
      { f with
        conditionChoices := f.conditionChoices.set gatewayId selected.target
        plan := path.map .node ++ tail } := by
    unfold Frame.gatewayTurn
    rw [if_neg hbranches, hselected]
    dsimp only
    rw [hpath]
    dsimp only
    -- nothing is pending, so nothing is skipped
    rw [htail, skipOthers_eq h.nonePending]
  exact ⟨_, hturn, rfl, rfl, rfl, h.nonePending, h.failed, h.others⟩

lemma Frame.definition_eq (h : f'.opening = f.opening) : f'.definition = f.definition := by
  unfold Frame.definition
  rw [h]

lemma comes_to_after {node : WorkflowNode} {rest : Chain} (hturn : f.turn holds = .goesOn f')
    (hopening : f'.opening = f.opening)
    (h : ∃ events f'', run (step P task) (f' :: rest) events = some (f'' :: rest) ∧
      f''.opening = f'.opening ∧ ∀ holds, f''.turn holds = .starts node) :
    ∃ events f'', run (step P task) (f :: rest) events = some (f'' :: rest) ∧
      f''.opening = f.opening ∧ ∀ holds, f''.turn holds = .starts node := by
  obtain ⟨events, f'', hrun, hopening', hstarts⟩ := h
  have hstep : step P task (f :: rest) (.turn holds true {}) = some (f' :: rest) := by
    simp only [step, hturn]
  refine ⟨.turn holds true {} :: events, f'', ?_, hopening'.trans hopening, hstarts⟩
  rw [run_cons, hstep]
  exact hrun

lemma comes_to {d : WorkflowDef} {node : WorkflowNode} {choices : Dict String String}
    {plan : List PlanStep} (hget : d.getNode node.id = some node)
    (hreserved : isReserved node.id = false) (hstartable : Startable d choices plan node.id)
    (hd : f.definition = d) (hchoices : f.conditionChoices = choices) (hplan : f.plan = plan)
    (hready : Ready node.id f) (hdisabled : node.id ∉ f.opening.disabledIds) (rest : Chain) :
    ∃ events f', run (step P task) (f :: rest) events = some (f' :: rest) ∧
      f'.opening = f.opening ∧ ∀ holds, f'.turn holds = .starts node := by
  generalize hn : node.id = n at hstartable
  induction hstartable generalizing f with
  | here choices after =>
    subst hn
    refine ⟨[], f, rfl, rfl, fun holds => ?_⟩
    unfold Frame.turn
    rw [hplan]
    exact hready.starts (hd ▸ hget) hreserved hdisabled after
  | @later choices after id other _ ih =>
    subst hn
    by_cases hsame : other = node.id
    · -- the plan has the node here already
      refine ⟨[], f, rfl, rfl, fun holds => ?_⟩
      unfold Frame.turn
      rw [hplan, hsame]
      exact hready.starts (hd ▸ hget) hreserved hdisabled after
    obtain ⟨f', hturn, hopening, hkept, hplan', hready'⟩ := hready.nodeTurn hsame after
    have hfirst : f.turn (fun _ => false) = .goesOn f' := by
      unfold Frame.turn
      rw [hplan]
      exact hturn
    exact comes_to_after hfirst hopening (ih ((Frame.definition_eq hopening).trans hd)
      (hkept.trans hchoices) hplan' hready' (hopening ▸ hdisabled) rfl)
  | @gateway choices after id holds gatewayId branches loop convergence selected path tail hbranches
      hselected hpath htail _ ih =>
    subst hn
    obtain ⟨f', hturn, hopening, hkept, hplan', hready'⟩ :=
      hready.gatewayTurn hbranches (hchoices.symm ▸ hselected) (hd.symm ▸ hpath) htail
    have hfirst : f.turn holds = .goesOn f' := by
      unfold Frame.turn
      rw [hplan]
      exact hturn
    exact comes_to_after hfirst hopening (ih ((Frame.definition_eq hopening).trans hd)
      (hkept.trans (by rw [hchoices])) hplan' hready' (hopening ▸ hdisabled) rfl)
  | @pass choices after id step' hpassed _ ih =>
    subst hn
    have hfirst : f.turn (fun _ => false) = .goesOn { f with plan := after } := by
      unfold Frame.turn
      rw [hplan]
      cases step' <;> first | rfl | cases hpassed
    exact comes_to_after hfirst rfl
      (ih hd hchoices rfl ⟨hready.nonePending, hready.failed, hready.others⟩ hdisabled rfl)

lemma expands_path {path : List Opening} :
    ∀ {o : Opening}, List.IsChain (Opens P) (o :: path) → ∃ left, ∀ rest : Chain,
      ∃ events front, run (step P task) (o.enter left :: rest) events = some (front ++ rest) ∧
        Chain.openings front = (o :: path).reverse := by
  induction path with
  | nil =>
    intro o _
    exact ⟨{}, fun rest => ⟨[], [o.enter {}], rfl, rfl⟩⟩
  | cons o' path ih =>
    intro o hchain
    rw [isChain_cons_cons] at hchain
    obtain ⟨⟨node, choices, hstartable, hget, hreserved, hdisabled, htype, hregistered, hopen⟩,
      hpath⟩ := hchain
    obtain ⟨left, hinner⟩ := ih hpath
    have hnode : node.id ∈ o.template.definition.nodeIds := by
      rw [← getNode_isSome_iff, hget]
      rfl
    refine ⟨{ childStates := allBut o.template.definition node.id, conditionChoices := choices },
      fun rest => ?_⟩
    obtain ⟨events, f, hrun, hopening, hstarts⟩ := comes_to (P := P) hget hreserved
      hstartable rfl rfl rfl (enter_ready hnode choices) hdisabled rest
    obtain ⟨events', front, hrun', hopenings⟩ := hinner (f.begin node.id :: rest)
    have hpush : step P task (f :: rest) (.turn (fun _ => false) true left) =
        some (o'.enter left :: f.begin node.id :: rest) := by
      simp only [step, hstarts]
      have hbegin : (f.begin node.id).opening = o := hopening
      unfold startNode
      dsimp only
      rw [htype, hregistered, hbegin, hopen]
      rfl
    refine ⟨events ++ .turn (fun _ => false) true left :: events', front ++ [f.begin node.id], ?_, ?_⟩
    · rw [run_append, hrun]
      show run (step P task) (f :: rest) (.turn (fun _ => false) true left :: events') = _
      rw [run_cons, hpush]
      show run (step P task) (o'.enter left :: f.begin node.id :: rest) events' = _
      rw [hrun', append_assoc]
      rfl
    have hlast : (f.begin node.id).opening = o := hopening
    unfold Chain.openings at hopenings ⊢
    rw [map_append, hopenings, map_singleton, hlast]
    exact reverse_cons.symm

lemma noWayBack_of_ends (hends : ExpansionEnds P task) : NoWayBack P task := by
  rintro o ⟨o₁, ⟨node, hget, hreserved, htype, hregistered, hopen⟩, hreach⟩ o' hback hid
  -- the way to `o`, and the way back
  obtain ⟨out, hout, hlast⟩ := exists_isChain_cons_of_relationReflTransGen hreach
  obtain ⟨o₂, hfirst, hrest⟩ := TransGen.head'_iff.1 hback
  obtain ⟨home, hhome, hlast'⟩ := exists_isChain_cons_of_relationReflTransGen hrest
  have hchain : List.IsChain (Opens P) (o₁ :: (out ++ o₂ :: home)) := by
    rw [← cons_append, isChain_append]
    refine ⟨hout, hhome, fun _ hx _ hy => ?_⟩
    rw [getLast?_eq_getLast_of_ne_nil (cons_ne_nil o₁ out), hlast] at hx
    cases hx
    cases hy
    exact hfirst
  obtain ⟨left, hexpand⟩ := expands_path hchain
  obtain ⟨events, front, hrun, hopenings⟩ := hexpand []
  have hstart : step P task [] (.start node.id left) = some [o₁.enter left] := by
    simp only [step, hget]
    rw [if_neg (by simp [hreserved, htype, hregistered]), hopen]
  have hnodup := (hends (.start node.id left :: events) (front ++ [])
    (by rw [run_cons, hstart]; exact hrun)).1
  have hids : Chain.ids (front ++ []) = ((o₁ :: out) ++ (o₂ :: home)).reverse.map (·.id) := by
    have : Chain.openings front = ((o₁ :: out) ++ (o₂ :: home)).reverse := hopenings
    rw [append_nil, ← this]
    unfold Chain.ids Chain.openings
    rw [map_map]
    rfl
  rw [hids, map_reverse, nodup_reverse, map_append, nodup_append] at hnodup
  refine hnodup.2.2 o.id ?_ o'.id ?_ hid.symm
  · exact mem_map.2 ⟨o, hlast ▸ getLast_mem _, rfl⟩
  exact mem_map.2 ⟨o', hlast' ▸ getLast_mem _, rfl⟩

/-- **The expansion ends exactly when no definition the task can open leads
back to itself.** -/
theorem expansion_ends_iff (P : Platform) (task : Template) :
    ExpansionEnds P task ↔ NoWayBack P task :=
  ⟨noWayBack_of_ends, ends_of_noWayBack⟩

/-! ## References -/

/-- The definition stored as `id` has a sub-workflow node with this target. -/
def Refers (P : Platform) (id id' : String) : Prop :=
  ∃ t, P.workflows.get? id = some t ∧ ∃ node ∈ t.definition.nodes,
    nodeTypeOf node = "subprocess" ∧ safeId (node.subWorkflowId.getD "") = id'

lemma Opens.refers (h : Opens P o o') (hstored : P.workflows.get? o.id = some o.template) :
    Refers P o.id o'.id := by
  obtain ⟨node, _, -, hget, -, -, htype, -, hopen⟩ := h.opens
  have hmem : node ∈ o.template.definition.nodes := by
    unfold getNode at hget
    exact mem_reverse.1 (mem_of_find?_eq_some hget)
  exact ⟨o.template, hstored, node, hmem, htype, (openChild_cases hopen).1.symm⟩

lemma Opens.stored (h : Opens P o o') : P.workflows.get? o'.id = some o'.template := by
  obtain ⟨_, _, -, -, -, -, -, -, hopen⟩ := h.opens
  exact (openChild_cases hopen).2.1

lemma opens_refer (hstored : P.workflows.get? o.id = some o.template)
    (h : TransGen (Opens P) o o') :
    TransGen (Refers P) o.id o'.id ∧ P.workflows.get? o'.id = some o'.template := by
  induction h with
  | single hstep => exact ⟨.single (hstep.refers hstored), hstep.stored⟩
  | tail _ hstep ih => exact ⟨.tail ih.1 (hstep.refers ih.2), hstep.stored⟩

theorem expansion_ends_of_acyclic (hacyclic : ∀ id, ¬ TransGen (Refers P) id id) (task : Template) :
    ExpansionEnds P task := by
  apply ends_of_noWayBack
  rintro o ⟨o₁, ⟨node, -, -, -, -, hopen⟩, hreach⟩ o' hback hid
  have hstored : P.workflows.get? o.id = some o.template := by
    induction hreach with
    | refl => exact (openChild_cases hopen).2.1
    | tail _ hstep => exact hstep.stored
  have hrefers := (opens_refer hstored hback).1
  rw [hid] at hrefers
  exact hacyclic o.id hrefers

/-! ## A definition that calls itself -/

def selfCalling : Template where
  workflowId := "wf"
  definition :=
    { nodes := [{ id := "n", nodeType := "subprocess", subWorkflowId := some "wf" }]
      edges := [{ source := "__start__", target := "n" }, { source := "n", target := "__end__" }] }

def onlySelfCalling : Platform where
  workflows := [("wf", selfCalling)]

def selfOpening : Opening where
  id := "wf"
  template := selfCalling
  disabledIds := []
  plan := [.node "n"]

/-- Under another id it calls a definition that calls none. -/
def twoLevels : Platform where
  workflows := [("top", selfCalling), ("wf", { workflowId := "wf", definition := {} })]

theorem expansion_ends_of_acyclic_twoLevels : ExpansionEnds twoLevels selfCalling := by
  have hrefers : ∀ a b, Refers twoLevels a b → a = "top" ∧ b = "wf" := by
    rintro a b ⟨t, hget, node, hnode, -, rfl⟩
    rcases List.mem_cons.1 (Dict.mem_of_get? hget) with htop | hwf
    · obtain ⟨rfl, rfl⟩ := Prod.mk.inj htop
      rw [List.mem_singleton.1 hnode]
      exact ⟨rfl, by decide⟩
    obtain ⟨rfl, rfl⟩ := Prod.mk.inj (List.mem_singleton.1 hwf)
    cases hnode
  refine expansion_ends_of_acyclic (fun id h => ?_) selfCalling
  obtain ⟨_, hfirst, -⟩ := TransGen.head'_iff.1 h
  obtain ⟨_, -, hlast⟩ := TransGen.tail'_iff.1 h
  exact absurd ((hrefers _ _ hfirst).1.symm.trans (hrefers _ _ hlast).2) (by decide)

/-- **It is accepted, and expanded inside itself, as deep as one likes.** -/
theorem selfCalling_expands :
    (¬ ∀ (P : Platform) (task : Template), (∀ entry ∈ P.workflows, entry.2.definition.Accepted) →
        task.definition.Accepted → ExpansionEnds P task) ∧
      ∀ depth, ∃ events chain, run (step onlySelfCalling selfCalling) [] events = some chain ∧
        chain.length = depth := by
  have hdeeper : ∀ (f : Frame) (rest : Chain), f = selfOpening.enter {} →
      step onlySelfCalling selfCalling (f :: rest) (.turn (fun _ => false) true {}) =
        some (selfOpening.enter {} :: f.begin "n" :: rest) := by
    rintro f rest rfl
    rfl
  have hdepth : ∀ depth, ∃ events rest, run (step onlySelfCalling selfCalling) [] events =
      some (selfOpening.enter {} :: rest) ∧ rest.length = depth := by
    intro depth
    induction depth with
    | zero => exact ⟨[.start "n" {}], [], rfl, rfl⟩
    | succ depth ih =>
      obtain ⟨events, rest, hrun, hlength⟩ := ih
      refine ⟨events ++ [.turn (fun _ => false) true {}],
        (selfOpening.enter {}).begin "n" :: rest, ?_, by rw [length_cons, hlength]⟩
      rw [run_append, hrun]
      exact congrArg (Option.bind · some) (hdeeper _ rest rfl)
  refine ⟨fun hall => ?_, fun depth => ?_⟩
  · have hends := hall onlySelfCalling selfCalling (by decide) (by decide)
    -- one definition is stored, and two are under expansion
    obtain ⟨events, rest, hrun, hlength⟩ := hdepth 1
    have htoo := (hends events _ hrun).2
    rw [length_cons, hlength] at htoo
    exact absurd htoo (by decide)
  cases depth with
  | zero => exact ⟨[], [], rfl, rfl⟩
  | succ depth =>
    obtain ⟨events, rest, hrun, hlength⟩ := hdepth depth
    exact ⟨events, _, hrun, by rw [length_cons, hlength]⟩

end DeterminFlow.Subprocess
