/-
  Workflow.PlanCoverage
  **WHEN A PARALLEL PLAN SCHEDULES EVERY NODE ONCE.**

  The plan of a definition whose gateways are only parallel and converge
  gateways is laid out along lines of the graph: one main line, which jumps
  from a parallel gateway to the node after its converge gateway, and one
  branch line per out-edge of each parallel gateway on the main line.  The
  lines are described here from the edges alone; the plan schedules exactly
  the nodes on them, line by line.
-/
import DeterminFlow.Workflow.Validation
import DeterminFlow.Library.Cover

namespace DeterminFlow.Workflow

open Library Relation List Option

namespace WorkflowDef

/-! ## The lines of a definition -/

section
variable (d : WorkflowDef)

def converges (p : String) : Option String := (d.convergeOf p).filter (· != "")

def mainNext (x : String) : Option String :=
  if d.isGatewayOf .parallel x then (d.converges x).bind d.firstTarget else d.firstTarget x

/-- What an id of the main line lays out: itself, and for a parallel gateway
its branches and its converge gateway. -/
def laysOut (x : String) : List String :=
  x :: if d.isGatewayOf .parallel x then d.branchNodeIds x ++ (d.converges x).toList else []

/-- **The main line** from `current`, given what is laid out already: it
follows `mainNext` until that is missing, empty or laid out. -/
inductive MainLine : List String → Option String → List String → Prop
  | missing {laid : List String} : MainLine laid none []
  | back {laid : List String} {x : String} (h : x = "" ∨ x ∈ laid) :
      MainLine laid (some x) []
  | on {laid l : List String} {x : String} (hne : x ≠ "") (hnew : x ∉ laid)
      (rest : MainLine (laid ++ d.laysOut x) (d.mainNext x) l) :
      MainLine laid (some x) (x :: l)

/-- `x` is on the branch of `p` that starts at `t`: reached from `t` along
first out-edges, before the paired and not past any converge gateway. -/
def OnBranch (p t x : String) : Prop :=
  ∃ start, branchHead (d.convergeOf p) t = some start
    ∧ Follows (d.branchNext (d.convergeOf p)) start x

/-- `x` is on the main line `l`, on a branch of it, or converges one. -/
def OnLines (l : List String) (x : String) : Prop :=
  x ∈ l ∨ ∃ p ∈ l, d.isGatewayOf .parallel p = true
    ∧ (d.convergeOf p = some x ∨ ∃ t ∈ d.targetsOf p, d.OnBranch p t x)

/-- An edge out of `__start__` or out of the lines opens a path to `n` that
stays off the lines. -/
def Escapes (l : List String) (n : String) : Prop :=
  ∃ u v, (u = "__start__" ∨ d.OnLines l u) ∧ (u, v) ∈ d.arcs ∧ ¬ d.OnLines l v
    ∧ ReflTransGen (fun a b => (a, b) ∈ d.arcs ∧ ¬ d.OnLines l b) v n

/-- No two lines meet on an executable node. -/
structure LinesApart (l : List String) : Prop where
  main : ∀ p ∈ l, d.isGatewayOf .parallel p = true → ∀ t ∈ d.targetsOf p,
    ∀ n ∈ d.executableIds, d.OnBranch p t n → n ∉ l
  siblings : ∀ p ∈ l, d.isGatewayOf .parallel p = true →
    (d.targetsOf p).Pairwise (fun t u =>
      ∀ n ∈ d.executableIds, d.OnBranch p t n → ¬ d.OnBranch p u n)
  blocks : l.Pairwise (fun p q =>
    d.isGatewayOf .parallel p = true → d.isGatewayOf .parallel q = true →
      ∀ t ∈ d.targetsOf p, ∀ u ∈ d.targetsOf q,
        ∀ n ∈ d.executableIds, d.OnBranch p t n → ¬ d.OnBranch q u n)

/-- Every executable node occurs exactly once over the `node` and `branch`
steps of the plan. -/
def PlansEachOnce (candidate : String) : Prop :=
  ∀ n ∈ d.executableIds,
    (scheduledIds (d.getExecutionPlan candidate none none)).count n = 1

end

/-! ## Branch lines -/

section
variable (d : WorkflowDef)

/-- Ids a walk from `x` can stand on. -/
def walkIds (x : String) : List String := x :: d.edges.map (·.target)

variable {y x t : String} {cid : Option String}

lemma firstTarget_mem_walkIds {z : String} (h : d.firstTarget x = some y) : y ∈ d.walkIds z := by
  obtain ⟨e, he, _, ht⟩ := d.mem_arcs.1 (d.firstTarget_mem h)
  exact mem_cons_of_mem _ (mem_map.2 ⟨e, he, ht⟩)

lemma branchHead_eq_some {s : String} (h : branchHead cid t = some s) : s = t := by
  unfold branchHead at h
  split at h
  · cases h
  exact (some.inj h).symm

lemma branchNext_firstTarget (h : d.branchNext cid x = some y) : d.firstTarget x = some y := by
  unfold branchNext at h
  split at h
  · cases h
  obtain ⟨_, ht, hty⟩ := bind_eq_some_iff.1 h
  rw [ht, branchHead_eq_some hty]

lemma mem_branchLine {p : String} : x ∈ d.branchLine (d.convergeOf p) t ↔ d.OnBranch p t x := by
  unfold branchLine OnBranch
  cases hstart : branchHead (d.convergeOf p) t with
  | none => simp [walk, walkFuel]
  | some s =>
    have hclosed : ∀ a ∈ d.walkIds s, ∀ b,
        d.branchNext (d.convergeOf p) a = some b → b ∈ d.walkIds s :=
      fun a _ b hab => d.firstTarget_mem_walkIds (d.branchNext_firstTarget hab)
    have hlen : (d.walkIds s).length < d.walkFuel := by simp [walkIds, walkFuel]
    rw [mem_walk hclosed hlen (by simp [walkIds])]
    simp

lemma nodup_branchNodes (cid : Option String) (t : String) : (d.branchNodes cid t).Nodup :=
  (nodup_walk _ _ _).filter _

end

/-! ## What the plan schedules -/

section
variable (d : WorkflowDef)

/-- A plain id of the main line: it gets a `node` step. -/
def plain (x : String) : Bool :=
  !d.isGatewayOf .parallel x && !d.isGatewayOf .converge x && (d.getNode x).isSome

def branchLists (x : String) : List (List String) :=
  if d.isGatewayOf .parallel x then (d.targetsOf x).map (d.branchNodes (d.convergeOf x)) else []

def cell (x : String) : List String :=
  if d.plain x then [x] else (d.branchLists x).flatten

def lineLists (l : List String) : List (List String) :=
  l.filter d.plain :: l.flatMap d.branchLists

lemma scheduledIds_branchSteps (p : String) :
    scheduledIds (d.branchSteps p) = d.branchNodeIds p := by
  simp only [scheduledIds, branchSteps, branchNodeIds, flatMap_def]
  congr 1
  apply ext_getElem
  · simp
  intro _ _ _
  simp [PlanStep.scheduled]

variable {l laid : List String}

/-- What a walk may still visit gets less. -/
lemma card_laysOut_lt {ids : List String} {x : String} (hx : x ∈ ids) (hnew : x ∉ laid) :
    (ids.toFinset \ (laid ++ d.laysOut x).toFinset).card < (ids.toFinset \ laid.toFinset).card := by
  apply Finset.card_lt_card
  refine (Finset.ssubset_iff_of_subset ?_).2 ⟨x, ?_, ?_⟩
  · intro _ hz
    simp only [Finset.mem_sdiff, List.mem_toFinset, mem_append] at hz ⊢
    exact ⟨hz.1, fun h => hz.2 (.inl h)⟩
  · simp [hx, hnew]
  simp [laysOut]

lemma MainLine.length_le {d : WorkflowDef} {current : Option String}
    (h : d.MainLine laid current l) (ids : List String)
    (hids : ∀ x ∈ ids, ∀ y, d.mainNext x = some y → y ∈ ids)
    (hcurrent : ∀ x, current = some x → x ∈ ids) :
    l.length ≤ (ids.toFinset \ laid.toFinset).card := by
  induction h with
  | @on laid l x _ hnew _ ih =>
    have hx : x ∈ ids := hcurrent x rfl
    have hrest := ih (fun y hy => hids x hx y hy)
    have hlt := d.card_laysOut_lt hx hnew
    simp only [length_cons]
    omega
  | _ => simp

lemma MainLine.unique {d : WorkflowDef} {m : List String} {current : Option String}
    (h : d.MainLine laid current l) (h' : d.MainLine laid current m) : l = m := by
  induction h generalizing m with
  | missing => cases h'; rfl
  | back hb =>
    cases h' with
    | back => rfl
    | on => rcases hb with hb | hb <;> contradiction
  | on hne hnew _ ih =>
    cases h' with
    | back hb => rcases hb with hb | hb <;> contradiction
    | on _ _ rest => rw [ih rest]

lemma exists_mainLine_aux (ids : List String)
    (hids : ∀ x ∈ ids, ∀ y, d.mainNext x = some y → y ∈ ids) :
    ∀ (n : Nat) (laid : List String) (current : Option String),
      (∀ x, current = some x → x ∈ ids) →
      (ids.toFinset \ laid.toFinset).card ≤ n → ∃ l, d.MainLine laid current l := by
  intro n
  induction n with
  | zero =>
    intro laid current hcurrent hcard
    cases current with
    | none => exact ⟨[], .missing⟩
    | some x =>
      have hmem : x ∈ laid := by
        by_contra hnew
        have hpos : x ∈ ids.toFinset \ laid.toFinset := by simp [hcurrent x rfl, hnew]
        rw [Finset.card_eq_zero.1 (Nat.le_zero.1 hcard)] at hpos
        cases hpos
      exact ⟨[], .back (.inr hmem)⟩
  | succ n ih =>
    intro laid current hcurrent hcard
    cases current with
    | none => exact ⟨[], .missing⟩
    | some x =>
      by_cases hback : x = "" ∨ x ∈ laid
      · exact ⟨[], .back hback⟩
      have hx : x ∈ ids := hcurrent x rfl
      have hnew : x ∉ laid := fun h => hback (.inr h)
      have hlt := d.card_laysOut_lt hx hnew
      obtain ⟨l, hl⟩ := ih (laid ++ d.laysOut x) (d.mainNext x)
        (fun y hy => hids x hx y hy) (by omega)
      exact ⟨x :: l, .on (fun h => hback (.inl h)) hnew hl⟩

lemma mainNext_mem_walkIds {x y z : String} (h : d.mainNext x = some y) : y ∈ d.walkIds z := by
  unfold mainNext at h
  split at h
  · obtain ⟨_, _, hc⟩ := bind_eq_some_iff.1 h
    exact d.firstTarget_mem_walkIds hc
  exact d.firstTarget_mem_walkIds h

lemma exists_mainLine (start : String) : ∃ l, d.MainLine [] (some start) l :=
  d.exists_mainLine_aux (d.walkIds start) (fun _ _ _ h => d.mainNext_mem_walkIds h) _ [] _
    (by simp [walkIds]) le_rfl

lemma MainLine.length_lt_walkFuel {d : WorkflowDef} {start : String}
    (h : d.MainLine [] (some start) l) : l.length < d.walkFuel := by
  have hle := h.length_le (d.walkIds start) (fun _ _ _ h => d.mainNext_mem_walkIds h)
    (by simp [walkIds])
  have hcard := toFinset_card_le (d.walkIds start)
  have hlen : (d.walkIds start).length = d.edges.length + 1 := by simp [walkIds]
  simp only [toFinset_nil, Finset.sdiff_empty] at hle
  unfold walkFuel
  omega

lemma MainLine.not_laid {d : WorkflowDef} {current : Option String}
    (h : d.MainLine laid current l) : ∀ x ∈ l, x ∉ laid := by
  induction h with
  | on _ hnew _ ih =>
    intro y hy
    rcases mem_cons.1 hy with rfl | hy
    · exact hnew
    exact fun hlaid => ih y hy (mem_append_left _ hlaid)
  | _ => simp

lemma MainLine.nodup {d : WorkflowDef} {current : Option String} (h : d.MainLine laid current l) :
    l.Nodup := by
  induction h with
  | on _ _ rest ih =>
    refine nodup_cons.2 ⟨fun hmem => ?_, ih⟩
    exact rest.not_laid _ hmem (by simp [laysOut])
  | _ => exact nodup_nil

def ForkJoinOnly : Prop :=
  ∀ g ∈ d.gateways, g.gatewayType = .parallel ∨ g.gatewayType = .converge

variable {d}

lemma ForkJoinOnly.not_gateway (h : d.ForkJoinOnly) {kind : GatewayType}
    (hp : kind ≠ .parallel) (hc : kind ≠ .converge) (x : String) :
    d.isGatewayOf kind x = false := by
  have hnil : d.gateways.filter (·.gatewayType = kind) = [] := by
    rw [filter_eq_nil_iff]
    intro g hg hkind
    have hkind : g.gatewayType = kind := by simpa using hkind
    rcases h g hg with hg | hg
    · exact hp (hkind.symm.trans hg)
    exact hc (hkind.symm.trans hg)
  simp [isGatewayOf, gatewayOfType, hnil]

lemma scheduledIds_planLoop (hkinds : d.ForkJoinOnly) {current : Option String}
    (h : d.MainLine laid current l) : ∀ (fuel : Nat) (order : List String), l.length < fuel →
      scheduledIds (d.planLoop none fuel laid order current) = l.flatMap d.cell := by
  have hcond : ∀ x, d.isGatewayOf .condition x = false :=
    hkinds.not_gateway (by simp) (by simp)
  have hloop : ∀ x, d.isGatewayOf .loop x = false := hkinds.not_gateway (by simp) (by simp)
  induction h with
  | missing =>
    intro fuel order hfuel
    cases fuel <;> simp [planLoop]
  | @back laid x hb =>
    intro fuel order hfuel
    cases fuel with
    | zero => simp at hfuel
    | succ =>
      have hhalt : halts none laid x = true := by
        rcases hb with hb | hb <;> simp [halts, hb]
      simp [planLoop, hhalt]
  | @on laid l x hne hnew _ ih =>
    intro fuel order hfuel
    cases fuel with
    | zero => simp at hfuel
    | succ fuel =>
      have hfuel' : l.length < fuel := by
        simp only [length_cons] at hfuel
        omega
      have hhalt : halts none laid x = false := by simp [halts, hne, hnew]
      by_cases hpar : d.isGatewayOf .parallel x = true
      · -- a parallel gateway: its branches, then the walk after its converge gateway
        have hcell : d.cell x = d.branchNodeIds x := by
          simp [cell, plain, hpar, branchLists, branchNodeIds, flatMap_def]
        by_cases hcid : (d.convergeOf x).getD "" = ""
        · have hnone : d.mainNext x = none := by
            rw [mainNext, if_pos hpar, converges]
            cases hc : d.convergeOf x with
            | none => rfl
            | some c =>
              rw [hc] at hcid
              have hc' : c = "" := hcid
              simp [hc']
          have hl : l.flatMap d.cell = [] := by
            have hsched := ih fuel order hfuel'
            rw [hnone] at hsched
            rw [← hsched]
            cases fuel <;> simp [planLoop]
          rw [planLoop]
          simp only [hhalt, hpar, hcid, if_true, Bool.false_eq_true, if_false,
            scheduledIds_cons, PlanStep.scheduled, scheduledIds_branchSteps,
            nil_append, flatMap_cons, hcell, hl, append_nil]
        obtain ⟨c, hc⟩ : ∃ c, d.convergeOf x = some c := by
          cases hc : d.convergeOf x with
          | none => simp [hc] at hcid
          | some c => exact ⟨c, rfl⟩
        have hcne : c ≠ "" := by simpa [hc] using hcid
        have hconv : d.converges x = some c := by simp [converges, hc, hcne]
        have hnext : d.mainNext x = d.firstTarget c := by simp [mainNext, hpar, hconv]
        have hlays : laid ++ d.laysOut x = laid ++ [x] ++ d.branchNodeIds x ++ [c] := by
          simp [laysOut, hpar, hconv]
        have hsched := ih fuel (order ++ [x] ++ [c]) hfuel'
        rw [hnext, hlays] at hsched
        rw [planLoop]
        simp only [hhalt, hpar, if_true, Bool.false_eq_true, if_false, hc,
          getD_some, hcne, scheduledIds_cons, scheduledIds_append,
          PlanStep.scheduled, scheduledIds_branchSteps, nil_append,
          cons_append, flatMap_cons, hcell, hsched]
      have hpar : d.isGatewayOf .parallel x = false := by simpa using hpar
      have hnext : d.mainNext x = d.firstTarget x := by simp [mainNext, hpar]
      have hlays : laid ++ d.laysOut x = laid ++ [x] := by simp [laysOut, hpar]
      have hsched := ih fuel (order ++ [x]) hfuel'
      rw [hnext, hlays] at hsched
      rw [planLoop]
      by_cases hconv : d.isGatewayOf .converge x = true
      · simp [hhalt, hpar, hcond, hloop, hconv, hsched, cell, plain, branchLists]
      have hconv : d.isGatewayOf .converge x = false := by simpa using hconv
      cases hnode : d.getNode x with
      | none =>
        simp [hhalt, hpar, hcond, hloop, hconv, hsched, cell, plain, branchLists, hnode]
      | some =>
        simp [hhalt, hpar, hcond, hloop, hconv, hsched, cell, plain, hnode, PlanStep.scheduled]

end

/-! ## The plan of a definition without gateways -/

section
variable {d : WorkflowDef}

lemma planLoop_of_no_gateways (hnil : d.gateways = []) (stop : Option String) :
    ∀ (fuel : Nat) (seen order : List String) (current : Option String),
      d.planLoop stop fuel seen order current
        = ((walk (fun id => (d.firstTarget id).bind
              (fun id => if id = "" ∨ some id = stop then none else some id))
            fuel seen (current.bind
              (fun id => if id = "" ∨ some id = stop then none else some id))).filter
            (fun id => (d.getNode id).isSome)).map .node := by
  have hno : ∀ kind x, d.isGatewayOf kind x = false := by
    intro kind x
    simp [isGatewayOf, gatewayOfType, hnil]
  intro fuel
  induction fuel with
  | zero => intro seen order current; simp [planLoop, walk]
  | succ fuel ih =>
    intro seen order current
    cases current with
    | none => simp [planLoop, walk]
    | some x =>
      rw [planLoop]
      by_cases hhead : x = "" ∨ some x = stop
      · have hhalt : halts stop seen x = true := by
          rcases hhead with h | h <;> simp [halts, h]
        simp [hhalt, hhead, walk]
      by_cases hseen : x ∈ seen
      · have hhalt : halts stop seen x = true := by simp [halts, hseen]
        simp [hhalt, hhead, walk, hseen]
      have hhalt : halts stop seen x = false := by
        rw [not_or] at hhead
        simp [halts, hhead.1, hhead.2, hseen]
      simp only [hhalt, hno, Bool.false_eq_true, if_false, bind_some, hhead, walk, hseen, ih]
      cases hnode : d.getNode x <;> simp [hnode]

lemma serialPlan_eq_planLoop (hnil : d.gateways = []) (stop : Option String) (start : String) :
    d.serialPlan stop start = d.planLoop stop d.walkFuel [] [] (some start) := by
  rw [planLoop_of_no_gateways hnil]
  rfl

lemma getExecutionPlan_eq_planLoop (he : d.edges ≠ []) (hs : d.targetsOf "__start__" ≠ [])
    (candidate : String) : d.getExecutionPlan candidate none none
      = d.planLoop none d.walkFuel [] [] (some candidate) := by
  unfold getExecutionPlan
  simp only [he, hs, if_false, and_false, filter_none, getD_none]
  by_cases hnil : d.gateways = []
  · rw [if_pos hnil, serialPlan_eq_planLoop hnil]
  rw [if_neg hnil]

end

/-! ## Exactly once -/

section
variable {d : WorkflowDef}

lemma count_cells (l : List String) (n : String) :
    (l.flatMap d.cell).count n = (d.lineLists l).flatten.count n := by
  induction l with
  | nil => simp [lineLists]
  | cons x l ih =>
    simp only [lineLists, flatten_cons, count_append, flatMap_cons, flatten_append] at ih ⊢
    rw [ih]
    by_cases hplain : d.plain x = true
    · have hlists : d.branchLists x = [] := by
        have hpar : d.isGatewayOf .parallel x = false := by
          simp only [plain, Bool.and_eq_true, Bool.not_eq_true'] at hplain
          exact hplain.1.1
        simp [branchLists, hpar]
      simp [cell, hplain, hlists, count_cons]
      omega
    simp [cell, hplain]
    omega

variable {l : List String} {n : String}

lemma lineLists_nodup {laid : List String} {current : Option String}
    (h : d.MainLine laid current l) : ∀ p ∈ d.lineLists l, p.Nodup := by
  intro p hp
  rcases mem_cons.1 hp with rfl | hp
  · exact h.nodup.filter _
  obtain ⟨_, _, hx⟩ := mem_flatMap.1 hp
  unfold branchLists at hx
  split at hx
  · obtain ⟨_, _, rfl⟩ := mem_map.1 hx
    exact d.nodup_branchNodes _ _
  cases hx

variable (h : Checked d) (hconv : ∀ p c, d.convergeOf p = some c → c ∈ d.convergeIds)

include h in
lemma executable_isGatewayOf (hn : n ∈ d.executableIds) (kind : GatewayType) :
    d.isGatewayOf kind n = false := by
  by_contra hg
  exact h.not_gateway hn (isGatewayOf_mem_gatewayIds (by simpa using hg))

include h in
lemma executable_plain (hn : n ∈ d.executableIds) : d.plain n = true := by
  have hnode := d.getNode_isSome_iff.2 (d.mem_executableIds.1 hn).1
  simp [plain, executable_isGatewayOf h hn, hnode]

include h in
lemma mem_branchNodes_executable (hn : n ∈ d.executableIds) (p t : String) :
    n ∈ d.branchNodes (d.convergeOf p) t ↔ d.OnBranch p t n := by
  have hnode := d.getNode_isSome_iff.2 (d.mem_executableIds.1 hn).1
  rw [← d.mem_branchLine, branchNodes, mem_filter]
  simp [executable_isGatewayOf h hn, hnode]

include h hconv in
lemma onLines_executable (hn : n ∈ d.executableIds) (l : List String) :
    d.OnLines l n ↔ ∃ q ∈ d.lineLists l, n ∈ q := by
  constructor
  · rintro (hmain | ⟨p, hp, hpar, hc | ⟨t, ht, hbranch⟩⟩)
    · exact ⟨_, mem_cons_self, mem_filter.2 ⟨hmain, executable_plain h hn⟩⟩
    · exact absurd (convergeIds_subset_gatewayIds (hconv p n hc)) (h.not_gateway hn)
    refine ⟨d.branchNodes (d.convergeOf p) t, ?_, (mem_branchNodes_executable h hn p t).2 hbranch⟩
    refine mem_cons_of_mem _ (mem_flatMap.2 ⟨p, hp, ?_⟩)
    rw [branchLists, if_pos hpar]
    exact mem_map_of_mem ht
  rintro ⟨q, hq, hnq⟩
  rcases mem_cons.1 hq with rfl | hq
  · exact .inl (mem_of_mem_filter hnq)
  obtain ⟨p, hp, hpq⟩ := mem_flatMap.1 hq
  unfold branchLists at hpq
  split at hpq
  · rename_i hpar
    obtain ⟨t, ht, rfl⟩ := mem_map.1 hpq
    exact .inr ⟨p, hp, hpar, .inr ⟨t, ht, (mem_branchNodes_executable h hn p t).1 hnq⟩⟩
  cases hpq

include h hconv in
lemma covered_iff (l : List String) : (∀ n ∈ d.executableIds, ∃ q ∈ d.lineLists l, n ∈ q)
      ↔ ∀ n ∈ d.executableIds, ¬ d.Escapes l n := by
  constructor
  · rintro hcover n hn ⟨u, v, _, _, hv, hpath⟩
    have hline := (onLines_executable h hconv hn l).2 (hcover n hn)
    rcases ReflTransGen.cases_tail hpath with heq | ⟨w, _, _, hoff⟩
    · exact hv (by rw [← heq]; exact hline)
    exact hoff hline
  intro hnone n hn
  rw [← onLines_executable h hconv hn l]
  by_contra hoff
  have hstart : n ≠ "__start__" := by
    intro heq
    have hres := (d.mem_executableIds.1 hn).2
    rw [heq] at hres
    cases hres
  obtain ⟨u, v, hu, huv, hv, hpath⟩ :=
    (h.reached hn).last_exit (S := fun x => x = "__start__" ∨ d.OnLines l x) (.inl rfl)
      (by rintro (h | h) <;> contradiction)
  refine hnone n hn ⟨u, v, hu, huv.1, fun hl => hv (.inr hl), ?_⟩
  exact hpath.lift id (fun _ _ hab => ⟨hab.1.1, fun hl => hab.2 (.inr hl)⟩)

include h in
lemma apart_branchLists_iff (p q : String) (t u : String) :
    Apart (· ∈ d.executableIds) (d.branchNodes (d.convergeOf p) t)
        (d.branchNodes (d.convergeOf q) u)
      ↔ ∀ n ∈ d.executableIds, d.OnBranch p t n → ¬ d.OnBranch q u n := by
  constructor
  · intro hap n hn hp hq
    exact hap n hn ((mem_branchNodes_executable h hn p t).2 hp)
      ((mem_branchNodes_executable h hn q u).2 hq)
  intro hap n hn hp hq
  exact hap n hn ((mem_branchNodes_executable h hn p t).1 hp)
    ((mem_branchNodes_executable h hn q u).1 hq)

include h in
lemma linesApart_iff (l : List String) :
    (d.lineLists l).Pairwise (Apart (· ∈ d.executableIds)) ↔ d.LinesApart l := by
  have hmem : ∀ (p : String) (q : List String), q ∈ d.branchLists p ↔
      d.isGatewayOf .parallel p = true ∧
        ∃ t ∈ d.targetsOf p, d.branchNodes (d.convergeOf p) t = q := by
    intro p q
    unfold branchLists
    split <;> simp_all
  rw [lineLists, pairwise_cons, pairwise_flatMap]
  constructor
  · rintro ⟨hmain, hsib, hblocks⟩
    refine ⟨?_, ?_, ?_⟩
    · intro p hp hpar t ht n hn hbranch hl
      refine hmain _ (mem_flatMap.2 ⟨p, hp, (hmem p _).2 ⟨hpar, t, ht, rfl⟩⟩) n hn
        (mem_filter.2 ⟨hl, executable_plain h hn⟩) ?_
      exact (mem_branchNodes_executable h hn p t).2 hbranch
    · intro p hp hpar
      have hpair := hsib p hp
      rw [branchLists, if_pos hpar, pairwise_map] at hpair
      exact hpair.imp (fun hab => (apart_branchLists_iff h p p _ _).1 hab)
    refine hblocks.imp ?_
    intro p q hpq hp hq t ht u hu
    exact (apart_branchLists_iff h p q t u).1
      (hpq _ ((hmem p _).2 ⟨hp, t, ht, rfl⟩) _ ((hmem q _).2 ⟨hq, u, hu, rfl⟩))
  rintro ⟨hmain, hsib, hblocks⟩
  refine ⟨?_, ?_, ?_⟩
  · intro q hq n hn hl hnq
    obtain ⟨p, hp, hpq⟩ := mem_flatMap.1 hq
    obtain ⟨hpar, t, ht, rfl⟩ := (hmem p q).1 hpq
    exact hmain p hp hpar t ht n hn ((mem_branchNodes_executable h hn p t).1 hnq)
      (mem_of_mem_filter hl)
  · intro p hp
    unfold branchLists
    split
    · rename_i hpar
      rw [pairwise_map]
      exact (hsib p hp hpar).imp (fun hab => (apart_branchLists_iff h p p _ _).2 hab)
    exact List.Pairwise.nil
  refine hblocks.imp ?_
  intro p q hpq a ha b hb
  obtain ⟨hp, t, ht, rfl⟩ := (hmem p a).1 ha
  obtain ⟨hq, u, hu, rfl⟩ := (hmem q b).1 hb
  exact (apart_branchLists_iff h p q t u).2 (hpq hp hq t ht u hu)

lemma count_plan (hd : Checked d) (hkinds : d.ForkJoinOnly) {candidate : String}
    (hl : d.MainLine [] (some candidate) l) (n : String) :
    (scheduledIds (d.getExecutionPlan candidate none none)).count n
      = (d.lineLists l).flatten.count n := by
  rw [getExecutionPlan_eq_planLoop hd.hasEdges hd.start_targets_ne_nil,
    scheduledIds_planLoop hkinds hl _ _ hl.length_lt_walkFuel, count_cells]

lemma ForkJoinOnly.autoPair (hkinds : d.ForkJoinOnly) : d.autoPairGateways.ForkJoinOnly := by
  intro _ hg
  obtain ⟨g₀, hg₀, rfl⟩ := mem_map.1 hg
  rw [pairGateway_type]
  exact hkinds g₀ hg₀

/-- **Each executable node is scheduled exactly once iff the lines are closed
and apart**: from `__start__` and from the lines no path leads off them to an
executable node, and no two lines meet on one. -/
theorem plansEachOnce_iff (hd : d.Accepted) (hkinds : d.ForkJoinOnly) {candidate : String}
    (_hcandidate : candidate ∈ d.autoPairGateways.startChoices) :
    d.autoPairGateways.PlansEachOnce candidate ↔
      ∃ l, d.autoPairGateways.MainLine [] (some candidate) l
        ∧ (∀ n ∈ d.autoPairGateways.executableIds, ¬ d.autoPairGateways.Escapes l n)
        ∧ d.autoPairGateways.LinesApart l := by
  obtain ⟨l, hl⟩ := d.autoPairGateways.exists_mainLine candidate
  by_cases hempty : d.executableNodes = []
  · -- without executable nodes both sides hold
    have hnone : ∀ n, n ∉ d.autoPairGateways.executableIds := by
      intro n hn
      exact executableNodes_ne_nil hn hempty
    refine iff_of_true (fun n hn => absurd hn (hnone n))
      ⟨l, hl, fun n hn => absurd hn (hnone n), ?_⟩
    refine ⟨fun _ _ _ _ _ n hn => absurd hn (hnone n), fun _ _ _ => ?_, ?_⟩
    · exact pairwise_of_forall (fun _ _ n hn => absurd hn (hnone n))
    exact pairwise_of_forall (fun _ _ _ _ _ _ _ _ n hn => absurd hn (hnone n))
  have hc : Checked d.autoPairGateways := hd.checked hempty
  have hconv : ∀ p c, d.autoPairGateways.convergeOf p = some c →
      c ∈ d.autoPairGateways.convergeIds := fun p c => Accepted.convergeOf_mem hc
  have honce : d.autoPairGateways.PlansEachOnce candidate ↔
      (∀ n ∈ d.autoPairGateways.executableIds, ¬ d.autoPairGateways.Escapes l n)
        ∧ d.autoPairGateways.LinesApart l := by
    rw [← covered_iff hc hconv l, ← linesApart_iff hc l, ← covers_once_iff (lineLists_nodup hl)]
    unfold PlansEachOnce
    refine forall₂_congr (fun n _ => ?_)
    rw [count_plan hc hkinds.autoPair hl n]
  rw [honce]
  constructor
  · exact fun hboth => ⟨l, hl, hboth⟩
  rintro ⟨_, hm, hboth⟩
  rw [hl.unique hm]
  exact hboth

end

/-! ## Branches that join early -/

/-- Three branches, two of which join in `merge` before the converge gateway. -/
def joinBeforeConverge : WorkflowDef where
  nodes := [{ id := "a" }, { id := "b" }, { id := "c" }, { id := "merge" }]
  gateways := [{ id := "fork", gatewayType := .parallel },
    { id := "join", gatewayType := .converge }]
  edges := [{ source := "__start__", target := "fork" },
    { source := "fork", target := "a" }, { source := "fork", target := "b" },
    { source := "fork", target := "c" }, { source := "a", target := "merge" },
    { source := "b", target := "merge" }, { source := "merge", target := "join" },
    { source := "c", target := "join" }, { source := "join", target := "__end__" }]

def twoBranches : WorkflowDef where
  nodes := [{ id := "a" }, { id := "b" }]
  gateways := [{ id := "fork", gatewayType := .parallel },
    { id := "join", gatewayType := .converge }]
  edges := [{ source := "__start__", target := "fork" },
    { source := "fork", target := "a" }, { source := "fork", target := "b" },
    { source := "a", target := "join" }, { source := "b", target := "join" },
    { source := "join", target := "__end__" }]

/-- **A node where two branches join early is scheduled by both.** -/
theorem joinBeforeConverge_schedules_twice :
    joinBeforeConverge.Accepted ∧ joinBeforeConverge.ForkJoinOnly
      ∧ "__start__" ∈ joinBeforeConverge.autoPairGateways.startChoices
      ∧ "merge" ∈ joinBeforeConverge.autoPairGateways.executableIds
      ∧ (scheduledIds (joinBeforeConverge.autoPairGateways.getExecutionPlan
          "__start__" none none)).count "merge" = 2
      ∧ ¬ joinBeforeConverge.autoPairGateways.PlansEachOnce "__start__" := by
  have htwice : (scheduledIds (joinBeforeConverge.autoPairGateways.getExecutionPlan
      "__start__" none none)).count "merge" = 2 := by decide
  have hmem : "merge" ∈ joinBeforeConverge.autoPairGateways.executableIds := by decide
  refine ⟨by decide, ?_, by decide, hmem, htwice, ?_⟩
  · unfold ForkJoinOnly; decide
  intro honce
  rw [honce _ hmem] at htwice
  cases htwice

/-- Disjoint branches: the condition holds because the nodes are planned once. -/
theorem twoBranches_lines : ∃ l, twoBranches.autoPairGateways.MainLine [] (some "__start__") l
      ∧ (∀ n ∈ twoBranches.autoPairGateways.executableIds,
          ¬ twoBranches.autoPairGateways.Escapes l n)
      ∧ twoBranches.autoPairGateways.LinesApart l :=
  (plansEachOnce_iff (by decide) (by unfold ForkJoinOnly; decide) (by decide)).1
    (by unfold PlansEachOnce; decide)

end WorkflowDef
end DeterminFlow.Workflow
