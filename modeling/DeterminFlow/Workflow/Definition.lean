/-
  Workflow.Definition
  **WORKFLOW DEFINITIONS AND THEIR GRAPH.**

  The data model of `workflow/definition.py` as far as planning, validation
  and execution read it, and the graph computations on it: the index
  lookups, the convergence node of a condition gateway, the nodes of one
  branch, and the pairing of parallel with converge gateways.

  Texts that only prompts and the editor read (positions, templates,
  variable bindings) are left out.
-/
import DeterminFlow.Library.Search
import DeterminFlow.Library.PyText

namespace DeterminFlow.Workflow

open Library List

/-! ## Settings kept as Python values -/

/-- A node setting before `validate` has checked its type: what
`isinstance`, truth testing, `==` and `int()` can tell apart. -/
inductive PyValue where
  | none
  | bool (value : Bool)
  | int (value : Int)
  | float (value : Rat)
  | str (value : String)
  /-- A list or a dict. -/
  | container (isEmpty : Bool)
  deriving DecidableEq

namespace PyValue

/-- `bool(value)`. -/
def truthy : PyValue → Bool
  | none => false
  | bool b => b
  | int i => i != 0
  | float q => q != 0
  | str s => s != ""
  | container isEmpty => !isEmpty

/-- `value == 0`. -/
def equalsZero : PyValue → Bool
  | bool b => !b
  | int i => i == 0
  | float q => q == 0
  | _ => false

/-- `int(value)`; `Option.none` stands for `TypeError` and `ValueError`. -/
def toInt? : PyValue → Option Int
  | bool b => some (if b then 1 else 0)
  | int i => some i
  | float q => some (Int.tdiv q.num q.den)
  | str s => PyText.intOf? s
  | none | container _ => Option.none

def isIntegerInRange (value : PyValue) (minimum maximum : Int) : Bool :=
  match value with
  | int i => decide (minimum ≤ i) && decide (i ≤ maximum)
  | _ => false

end PyValue

/-! ## Nodes, edges, gateways -/

structure WorkflowNode where
  id : String
  label : String := ""
  nodeType : String := "agent"
  firstMessage : String := ""
  requireNonEmptyOutput : PyValue := .bool false
  retryEmptyOutputInSession : PyValue := .bool false
  jsonOutputField : PyValue := .str ""
  jsonOutputFieldMinChars : PyValue := .int 0
  subWorkflowId : Option String := none
  maxRejectCount : Int := 3
  /-- `node_params["max_reject_count"]`, when the key is there. -/
  paramMaxRejectCount : Option PyValue := none
  failAutoSkip : Bool := false
  autoRetryCount : PyValue := .int 0
  autoRetryIntervalSeconds : PyValue := .int 0
  deriving DecidableEq

/-- The `condition` dict of an edge.  An empty dict is falsy wherever the
source reads one, so it is the absent condition here. -/
structure EdgeCondition where
  expression : String := ""
  label : String := ""
  isDefault : Bool := false
  deriving DecidableEq

structure WorkflowEdge where
  source : String
  target : String
  condition : Option EdgeCondition := none
  deriving DecidableEq

/-- `edge.condition and edge.condition.get("is_default")`. -/
def WorkflowEdge.isDefault (e : WorkflowEdge) : Bool :=
  e.condition.any (·.isDefault)

inductive GatewayType where
  | parallel
  | converge
  | condition
  | loop
  /-- Any other text; such a gateway is walked through. -/
  | other (name : String)
  deriving DecidableEq

structure WorkflowGateway where
  id : String
  gatewayType : GatewayType := .parallel
  label : String := ""
  convergeGatewayId : Option String := none
  deriving DecidableEq

structure WorkflowDef where
  nodes : List WorkflowNode := []
  edges : List WorkflowEdge := []
  gateways : List WorkflowGateway := []
  httpExecutionPolicy : String := "public"
  deriving DecidableEq

/-- `label or id`, the name used in messages. -/
def nameOr (label id : String) : String := if label = "" then id else label

/-- `id.startswith("__") and id.endswith("__")`. -/
def isReserved (id : String) : Bool :=
  ['_', '_'].isPrefixOf id.toList && ['_', '_'].isSuffixOf id.toList

namespace WorkflowDef

variable (d : WorkflowDef)

/-! ## Index lookups -/

/-- `get_node`: of several nodes with one id the index keeps the last. -/
def getNode (id : String) : Option WorkflowNode :=
  d.nodes.reverse.find? (·.id = id)

def getGateway (id : String) : Option WorkflowGateway :=
  d.gateways.reverse.find? (·.id = id)

/-- `{g.id: g for g in gateways if g.gateway_type == kind}.get(id)`. -/
def gatewayOfType (kind : GatewayType) (id : String) : Option WorkflowGateway :=
  (d.gateways.filter (·.gatewayType = kind)).reverse.find? (·.id = id)

/-- `{n.id for n in nodes}`. -/
def nodeIds : List String := d.nodes.map (·.id)

/-- `{g.id for g in gateways}`. -/
def gatewayIds : List String := d.gateways.map (·.id)

/-- The nodes that are not of the form `__x__`. -/
def executableNodes : List WorkflowNode := d.nodes.filter (fun n => !isReserved n.id)

def executableIds : List String := d.executableNodes.map (·.id)

def arcs : List (String × String) := d.edges.map (fun e => (e.source, e.target))

/-- `adj.get(id, [])`: successors in edge order, repeats included. -/
def targetsOf (id : String) : List String := outs d.arcs id

/-- `rev_adj.get(id, [])`. -/
def sourcesOf (id : String) : List String :=
  (d.edges.filter (·.target = id)).map (·.source)

/-- `next((e for e in edges if e.source == source and e.target == target), None)`. -/
def edgeBetween (source target : String) : Option WorkflowEdge :=
  d.edges.find? (fun e => e.source = source ∧ e.target = target)

/-- `adj.get(id, [])[0]` where there is one. -/
def firstTarget (id : String) : Option String := (d.targetsOf id).head?

lemma mem_targetsOf {x y : String} : y ∈ d.targetsOf x ↔ (x, y) ∈ d.arcs := mem_outs

lemma mem_arcs {x y : String} : (x, y) ∈ d.arcs ↔ ∃ e ∈ d.edges, e.source = x ∧ e.target = y := by
  simp [arcs]

lemma firstTarget_mem {x y : String} (h : d.firstTarget x = some y) : (x, y) ∈ d.arcs :=
  d.mem_targetsOf.1 (mem_of_mem_head? h)

lemma getNode_isSome_iff {id : String} : (d.getNode id).isSome ↔ id ∈ d.nodeIds := by
  simp [getNode, nodeIds]

lemma getNode_id {id : String} {n : WorkflowNode} (h : d.getNode id = some n) : n.id = id := by
  simpa using find?_some h

lemma mem_executableIds {id : String} :
    id ∈ d.executableIds ↔ id ∈ d.nodeIds ∧ isReserved id = false := by
  simp only [executableIds, executableNodes, nodeIds, mem_map, mem_filter]
  constructor
  · rintro ⟨n, ⟨hn, hr⟩, rfl⟩
    exact ⟨⟨n, hn, rfl⟩, by simpa using hr⟩
  rintro ⟨⟨n, hn, rfl⟩, hr⟩
  exact ⟨n, ⟨hn, by simpa using hr⟩, rfl⟩

/-! ## Convergence and branches of a condition gateway -/

def reachableFrom (start : String) : List String :=
  search d.arcs .queue (fun _ => false) (fun seen t => !decide (t ∈ seen)) [start]

/-- `_find_convergence_node`.  The second search of the source visits the
nodes in the order of the first one and returns at the first hit; without a
common node there is no hit, which is the source's early `return end_node`. -/
def findConvergenceNode (branchTargets : List String) (endNode : String := "__end__") :
    String :=
  if branchTargets.length < 2 then endNode
  else
    let common (c : String) : Bool :=
      branchTargets.all (fun t => decide (c ∈ d.reachableFrom t))
    ((branchTargets.head?.map d.reachableFrom).getD []).find?
      (fun c => common c && !decide (c ∈ branchTargets)) |>.getD endNode

/-- `_collect_branch_nodes`, in visiting order. -/
def collectBranchNodes (ids : List String) (startNode convergenceNode : String) :
    List String :=
  (search d.arcs .queue (· == convergenceNode)
    (fun seen t => !decide (t ∈ seen) && t != convergenceNode) [startNode]).filter (· ∈ ids)

/-- **What `_collect_branch_nodes` returns**: the nodes of `ids` that the
start reaches without passing the convergence node. -/
theorem mem_collectBranchNodes {ids : List String} {startNode convergenceNode n : String} :
    n ∈ d.collectBranchNodes ids startNode convergenceNode
      ↔ n ∈ ids ∧ Reaches d.arcs (· == convergenceNode) startNode n := by
  have hkeep : ∀ (s : List String) (y : String),
      (!decide (y ∈ s) && y != convergenceNode) = false →
        y ∈ s ∨ (y == convergenceNode) = true := by
    intro s y h
    by_cases hy : y ∈ s
    · exact .inl hy
    right; simpa [hy] using h
  simp only [collectBranchNodes, mem_filter, decide_eq_true_eq, mem_search hkeep,
    mem_singleton, exists_eq_left]
  exact and_comm

/-! ## Pairing parallel gateways -/

/-- What one out-edge of a parallel gateway can reach, the gateway itself
included. -/
def branchReachable (gatewayId target : String) : List String :=
  gatewayId :: search d.arcs .stack (fun _ => false) (fun _ _ => true) [target]

def convergeIds : List String :=
  (d.gateways.filter (·.gatewayType = .converge)).map (·.id)

def parallelIds : List String :=
  (d.gateways.filter (·.gatewayType = .parallel)).map (·.id)

def pairedConverge (gatewayId : String) : Option String :=
  d.convergeIds.find? (fun cid =>
    cid != gatewayId
      && (d.targetsOf gatewayId).all (fun t => decide (cid ∈ d.branchReachable gatewayId t)))

/-- `auto_pair_gateways` on one gateway: parallel gateways with at least two
out-edges are paired anew, the others stay as they are. -/
def pairGateway (g : WorkflowGateway) : WorkflowGateway :=
  if g.gatewayType = .parallel ∧ 2 ≤ (d.targetsOf g.id).length then
    { g with convergeGatewayId := d.pairedConverge g.id }
  else g

/-- `auto_pair_gateways`: the definition it leaves. -/
def autoPairGateways : WorkflowDef :=
  { d with gateways := d.gateways.map d.pairGateway }

/-- `auto_pair_gateways`: the errors it returns. -/
def pairingErrors : List String :=
  (d.gateways.filter (fun g =>
      g.gatewayType = .parallel ∧ 2 ≤ (d.targetsOf g.id).length
        ∧ d.pairedConverge g.id = none)).map
    (fun g => "并行网关 " ++ nameOr g.label g.id ++ " 缺少对应的汇聚网关")

end WorkflowDef
end DeterminFlow.Workflow
