/-
  Workflow.Validation
  **WHICH DEFINITIONS ARE ACCEPTED.**

  `WorkflowDef.validate` check by check, with the texts it reports, and
  `WorkflowManager.validate_workflow`: pair the gateways, validate, accept
  when neither step reports anything.

  Python iterates some of these sets in an order of its own; the lists here
  follow the definition.  Acceptance depends on emptiness only.
-/
import DeterminFlow.Workflow.ExecutionPlan

namespace DeterminFlow.Workflow

open Library List

/-! ## Checks on a single node -/

def maxAutoRetryCount : Int := 20
def maxAutoRetryIntervalSeconds : Int := 86400
def maxJsonFieldMinChars : Int := 10000000

/-- `[A-Za-z_]`. -/
def isPathLead (c : Char) : Bool := c.isAlpha || c == '_'

/-- `[A-Za-z_][A-Za-z0-9_-]*`. -/
def isPathName : List Char → Bool
  | [] => false
  | c :: rest => isPathLead c && rest.all (fun x => x.isAlphanum || x == '_' || x == '-')

/-- `\d+`. -/
def isPathIndex (part : List Char) : Bool := !part.isEmpty && part.all PyText.isDecimal

/-- `is_valid_json_field_path`: dotted names, later parts may be indices. -/
def isValidJsonFieldPath (path : String) : Bool :=
  match PyText.splitAt '.' (PyText.stripChars path) with
  | [] => false
  | head :: rest => isPathName head && rest.all (fun part => isPathName part || isPathIndex part)

def errorUnless (ok : Bool) (message : String) : List String := if ok then [] else [message]

@[simp] lemma errorUnless_eq_nil {ok : Bool} {message : String} :
    errorUnless ok message = [] ↔ ok = true := by
  cases ok <;> simp [errorUnless]

namespace WorkflowNode

variable (n : WorkflowNode)

def name : String := nameOr n.label n.id

/-- `isinstance(json_output_field, str) and json_output_field.strip()`. -/
def hasJsonField : Bool :=
  match n.jsonOutputField with
  | .str s => PyText.hasText s
  | _ => false

/-- `json_output_field_min_chars != 0`. -/
def hasJsonMinimum : Bool := !n.jsonOutputFieldMinChars.equalsZero

def hasOutputChecks : Bool :=
  n.requireNonEmptyOutput.truthy || n.retryEmptyOutputInSession.truthy
    || n.jsonOutputField.truthy || n.jsonOutputFieldMinChars.truthy

def retryErrors : List String :=
  errorUnless (n.autoRetryCount.isIntegerInRange 0 maxAutoRetryCount)
    ("节点 '" ++ n.name ++ "' 的自动重试次数必须是 0 到 20 的整数")
  ++ errorUnless (n.autoRetryIntervalSeconds.isIntegerInRange 0 maxAutoRetryIntervalSeconds)
    ("节点 '" ++ n.name ++ "' 的自动重试间隔必须是 0 到 86400 秒的整数")

/-- The switch for asking again in the session: a boolean, and only on top
of the non-empty check. -/
def retryEmptyErrors : List String :=
  match n.retryEmptyOutputInSession with
  | .bool retry =>
    errorUnless (!(retry && n.requireNonEmptyOutput != .bool true))
      ("节点 '" ++ n.name ++ "' 只有开启 LLM 非空输出校验后才能启用空输出原会话追问")
  | _ => ["节点 '" ++ n.name ++ "' 的空输出原会话追问必须是布尔值"]

def jsonPathValid : Bool :=
  match n.jsonOutputField with
  | .str s => isValidJsonFieldPath s
  | _ => false

def outputErrors : List String :=
  (match n.requireNonEmptyOutput with
    | .bool _ => []
    | _ => ["节点 '" ++ n.name ++ "' 的 LLM 非空输出校验必须是布尔值"])
  ++ n.retryEmptyErrors
  ++ errorUnless (n.hasJsonField == n.hasJsonMinimum)
    ("节点 '" ++ n.name ++ "' 的 JSON 字段路径和最小字数必须同时配置")
  ++ errorUnless (!n.hasJsonField || n.jsonPathValid)
    ("节点 '" ++ n.name ++ "' 的 JSON 字段路径格式无效")
  ++ errorUnless
    (!n.hasJsonMinimum || n.jsonOutputFieldMinChars.isIntegerInRange 1 maxJsonFieldMinChars)
    ("节点 '" ++ n.name ++ "' 的 JSON 字段最小字数必须是 1 到 10000000 的整数")

/-- All checks on one executable node.  A node of another type with output
checks is reported once and not checked further. -/
def errors : List String :=
  n.retryErrors ++
    if n.nodeType != "agent" && n.hasOutputChecks then
      ["节点 '" ++ n.name ++ "' 不是 Agent 节点，不能配置 LLM 输出校验"]
    else n.outputErrors

end WorkflowNode

namespace WorkflowDef

variable (d : WorkflowDef)

/-! ## Checks on gateways -/

def gatewaysOf (kind : GatewayType) : List WorkflowGateway :=
  d.gateways.filter (·.gatewayType = kind)

/-- `WorkflowGateway` in messages. -/
def gatewayName (g : WorkflowGateway) : String := nameOr g.label g.id

def policyErrors : List String :=
  errorUnless (d.httpExecutionPolicy == "public" || d.httpExecutionPolicy == "internal_only")
    "http_execution_policy 必须是 public 或 internal_only"

def subprocessErrors : List String :=
  (d.nodes.filter (fun n => n.nodeType == "subprocess" && n.subWorkflowId.all (· == ""))).map
    (fun n => "子流程节点 '" ++ n.name ++ "' 未指定目标流程，请打开节点配置选择要嵌套的流程模板")

def parallelErrors : List String :=
  (d.gatewaysOf .parallel).flatMap fun g =>
    if (d.targetsOf g.id).length < 2 then
      ["并行网关 " ++ gatewayName g ++ " 出边少于 2 条，无法创建并行分支"]
    else
      ((d.targetsOf g.id).filter (· ∈ d.convergeIds)).map (fun _ =>
        "并行网关 " ++ gatewayName g
          ++ " 的出边直接连到了汇聚网关，两者之间必须有至少一个可执行节点")

def convergeErrors : List String :=
  (d.gatewaysOf .converge).flatMap fun g =>
    errorUnless (decide (2 ≤ (d.sourcesOf g.id).length))
      ("汇聚网关 " ++ gatewayName g ++ " 入边少于 2 条")
    ++ errorUnless (decide ((d.targetsOf g.id).length = 1))
      ("汇聚网关 " ++ gatewayName g ++ " 出边必须恰好 1 条，当前为 " ++ toString (d.targetsOf g.id).length)

def branchRegion (cid target : String) : List String :=
  search d.arcs .stack (fun x => x == cid || decide (x ∈ d.convergeIds)) (fun _ _ => true)
    [target]

/-- No parallel gateway on a branch of another one.  The source's search
stops at the first one it meets, which is whether there is one. -/
def nestedErrors : List String :=
  (d.gatewaysOf .parallel).flatMap fun g =>
    match g.convergeGatewayId with
    | none => []
    | some cid =>
      if cid = "" ∨ d.convergeIds = [] then []
      else
        ((d.targetsOf g.id).filter (fun t => (d.branchRegion cid t).any (· ∈ d.parallelIds))).map
          (fun _ => "并行网关 " ++ gatewayName g
            ++ " 的分支内嵌套了另一个并行网关，当前不支持嵌套并行")

def outEdges (id : String) : List WorkflowEdge := d.edges.filter (·.source = id)

def blankConditions (g : WorkflowGateway) : List String :=
  (d.outEdges g.id).filterMap (·.condition) |>.filter
      (fun c => !c.isDefault && !PyText.hasText c.expression) |>.map
    (fun c => "条件网关 " ++ gatewayName g ++ " 的分支 '" ++ c.label ++ "' 表达式为空")

def conditionErrors : List String :=
  (d.gatewaysOf .condition).flatMap fun g =>
    errorUnless (decide (1 ≤ (d.sourcesOf g.id).length))
      ("条件网关 " ++ gatewayName g ++ " 入边少于 1 条")
    ++ errorUnless (decide (2 ≤ (d.targetsOf g.id).length))
      ("条件网关 " ++ gatewayName g ++ " 出边少于 2 条（需要至少一个条件分支 + 一个默认分支）")
    ++ errorUnless ((d.outEdges g.id).any (·.isDefault))
      ("条件网关 " ++ gatewayName g ++ " 缺少默认分支（必须有一条出边设为默认）")
    ++ d.blankConditions g

/-- `_compute_loop_body_node_ids`: the search of the plan, but from the
first target that is not default. -/
def computeLoopBodyNodeIds (gatewayId : String) : List String :=
  match (d.targetsOf gatewayId).find? (fun t => !d.targetIsDefault gatewayId t) with
  | none => []
  | some start =>
    if start = "" then []
    else (d.loopRegion gatewayId start).filter
      (fun id => (d.getNode id).isSome && !decide (id ∈ d.gatewayIds))

def loopErrors : List String :=
  (d.gatewaysOf .loop).flatMap fun g =>
    errorUnless (decide (1 ≤ (d.sourcesOf g.id).length))
      ("循环网关 " ++ gatewayName g ++ " 入边少于 1 条")
    ++ errorUnless (decide ((d.targetsOf g.id).length = 2))
      ("循环网关 " ++ gatewayName g ++ " 出边必须恰好 2 条（一条循环体，一条退出），当前为 "
        ++ toString (d.targetsOf g.id).length)
    ++ errorUnless ((d.outEdges g.id).any (·.isDefault))
      ("循环网关 " ++ gatewayName g ++ " 缺少退出分支（必须有一条出边设为默认）")
    ++ ((d.computeLoopBodyNodeIds g.id).filter (· ∈ (d.gatewaysOf .loop).map (·.id))).map
      (fun id => "循环网关 " ++ gatewayName g ++ " 的循环体内包含另一个循环网关 " ++ id
        ++ "，不支持嵌套循环")

/-! ## Checks on ids and paths -/

/-- `', '.join(sorted(ids))` on a set of ids. -/
def joinSorted (ids : List String) : String :=
  ", ".intercalate (ids.dedup.mergeSort (fun a b => decide (a ≤ b)))

def overlapErrors : List String :=
  let overlap := d.executableIds.filter (· ∈ d.gatewayIds)
  errorUnless overlap.isEmpty
    ("网关 ID 与节点 ID 冲突: " ++ joinSorted overlap ++ "，网关不能同时存在于 nodes 和 gateways 数组中")

def fanOutErrors : List String :=
  (d.executableIds.dedup.filter
      (fun id => !decide (id ∈ d.gatewayIds) && decide (1 < (d.targetsOf id).length))).map
    (fun id => "节点 " ++ ((d.getNode id).map (·.label)).getD id ++ " 有 "
      ++ toString (d.targetsOf id).length
      ++ " 条出边，但未使用并行网关。"
      ++ "请从左侧「流程控制」拖入并行网关和汇聚网关来创建并行结构")

def connected (id : String) : Bool :=
  decide (id ∈ d.edges.map (·.source)) || decide (id ∈ d.edges.map (·.target))
    || decide (id ∈ d.gatewayIds)

def orphanErrors : List String :=
  let orphaned := d.executableIds.filter (fun id => !d.connected id)
  errorUnless orphaned.isEmpty ("存在未连线的节点: " ++ joinSorted orphaned)

/-- Everything reached from `__start__`, depth first. -/
def visitedFromStart : List String :=
  search d.arcs .stack (fun _ => false) (fun _ _ => true) ["__start__"]

def startHasOut : Bool := d.edges.any (·.source = "__start__")
def endHasIn : Bool := d.edges.any (·.target = "__end__")

def pathErrors : List String :=
  errorUnless d.startHasOut "START 节点未连接到任何 Agent 节点"
  ++ errorUnless d.endHasIn "没有节点连接到 END 节点"
  ++ if d.startHasOut && d.endHasIn then
      errorUnless (decide ("__end__" ∈ d.visitedFromStart))
        "从 START 到 END 的连接不完整（存在断链）"
      ++ (d.executableIds.dedup.filter
          (fun id => d.connected id && !decide (id ∈ d.visitedFromStart))).map
        (fun id => "节点 " ++ id ++ " 不在从 START 出发的路径上")
    else []

/-- **`validate`**, with its early returns: a definition without executable
nodes, one with errors in its settings, and one without edges. -/
def validate : List String :=
  let settings := d.policyErrors ++ d.executableNodes.flatMap (·.errors)
  if d.executableNodes = [] then settings
  else
    let settings := settings ++ d.subprocessErrors
    if settings ≠ [] then settings
    else if d.edges = [] then ["工作流中存在节点，但没有任何连线"]
    else
      d.parallelErrors ++ d.convergeErrors ++ d.nestedErrors ++ d.conditionErrors
        ++ d.loopErrors ++ d.overlapErrors ++ d.fanOutErrors ++ d.orphanErrors ++ d.pathErrors

def validateWorkflow : List String :=
  d.autoPairGateways.validate ++ d.pairingErrors

/-- `validate_workflow` reports `valid`. -/
def Accepted : Prop := d.validateWorkflow = []

instance : Decidable d.Accepted := inferInstanceAs (Decidable (_ = _))

/-! ## What acceptance gives -/

variable {d}

/-- No check past the early returns has reported anything. -/
structure Checked (d : WorkflowDef) : Prop where
  hasEdges : d.edges ≠ []
  parallel : d.parallelErrors = []
  converge : d.convergeErrors = []
  nested : d.nestedErrors = []
  condition : d.conditionErrors = []
  loop : d.loopErrors = []
  overlap : d.overlapErrors = []
  fanOut : d.fanOutErrors = []
  orphan : d.orphanErrors = []
  path : d.pathErrors = []

lemma checked_of_validate (h : d.validate = []) (hn : d.executableNodes ≠ []) : Checked d := by
  rw [validate, if_neg hn] at h
  by_cases hs : d.policyErrors ++ d.executableNodes.flatMap (·.errors)
      ++ d.subprocessErrors ≠ []
  · rw [if_pos hs] at h
    exact absurd h hs
  rw [if_neg hs] at h
  by_cases he : d.edges = []
  · rw [if_pos he] at h
    cases h
  rw [if_neg he] at h
  simp only [append_eq_nil_iff] at h
  obtain ⟨⟨⟨⟨⟨⟨⟨⟨h1, h2⟩, h3⟩, h4⟩, h5⟩, h6⟩, h7⟩, h8⟩, h9⟩ := h
  exact ⟨he, h1, h2, h3, h4, h5, h6, h7, h8, h9⟩

lemma Accepted.checked (h : d.Accepted) (hn : d.executableNodes ≠ []) :
    Checked d.autoPairGateways := by
  have hv : d.autoPairGateways.validate = [] := (append_eq_nil_iff.1 h).1
  exact checked_of_validate hv hn

lemma executableNodes_ne_nil {id : String} (h : id ∈ d.executableIds) :
    d.executableNodes ≠ [] := by
  intro hnil
  simp [executableIds, hnil] at h

namespace Checked

variable (h : Checked d)
include h

lemma not_gateway {id : String} (hid : id ∈ d.executableIds) : id ∉ d.gatewayIds := by
  intro hg
  have hnil := errorUnless_eq_nil.1 h.overlap
  have hmem : id ∈ d.executableIds.filter (· ∈ d.gatewayIds) := by simp [hid, hg]
  rw [isEmpty_iff.1 hnil] at hmem
  cases hmem

lemma startHasOut : d.startHasOut = true := by
  have hp := h.path
  simp only [pathErrors, append_eq_nil_iff, errorUnless_eq_nil] at hp
  exact hp.1.1

lemma endHasIn : d.endHasIn = true := by
  have hp := h.path
  simp only [pathErrors, append_eq_nil_iff, errorUnless_eq_nil] at hp
  exact hp.1.2

lemma connected_of_executable {id : String} (hid : id ∈ d.executableIds) :
    d.connected id = true := by
  by_contra hc
  have hnil := errorUnless_eq_nil.1 h.orphan
  have hmem : id ∈ d.executableIds.filter (fun id => !d.connected id) := by
    simpa [hid] using hc
  rw [isEmpty_iff.1 hnil] at hmem
  cases hmem

lemma reached {id : String} (hid : id ∈ d.executableIds) :
    Reaches d.arcs (fun _ => false) "__start__" id := by
  have hp := h.path
  simp only [pathErrors, h.startHasOut, h.endHasIn, Bool.and_self, if_true,
    append_eq_nil_iff, map_eq_nil_iff, filter_eq_nil_iff] at hp
  have hvisited := hp.2.2 id (mem_dedup.2 hid)
  rw [h.connected_of_executable hid] at hvisited
  have hmem : id ∈ d.visitedFromStart := by simpa using hvisited
  have hkeep : ∀ (s : List String) (y : String), (fun _ _ => true) s y = false →
      y ∈ s ∨ (fun _ : String => false) y = true := by simp
  obtain ⟨_, hr, hreach⟩ := (mem_search hkeep).1 hmem
  rw [mem_singleton.1 hr] at hreach
  exact hreach

lemma start_targets_ne_nil : d.targetsOf "__start__" ≠ [] := by
  have hs := h.startHasOut
  simp only [WorkflowDef.startHasOut, any_eq_true, decide_eq_true_eq] at hs
  obtain ⟨e, he, hsource⟩ := hs
  have hmem : e.target ∈ d.targetsOf "__start__" :=
    d.mem_targetsOf.2 (d.mem_arcs.2 ⟨e, he, hsource, rfl⟩)
  exact ne_nil_of_mem hmem

lemma two_le_targets {g : WorkflowGateway} (hg : g ∈ d.gateways)
    (hp : g.gatewayType = .parallel) : 2 ≤ (d.targetsOf g.id).length := by
  by_contra hfew
  have hnil := (flatMap_eq_nil_iff.1 h.parallel) g (by simp [gatewaysOf, hg, hp])
  rw [if_pos (by omega)] at hnil
  cases hnil

end Checked

@[simp] lemma pairGateway_id (g : WorkflowGateway) : (d.pairGateway g).id = g.id := by
  unfold pairGateway
  split <;> rfl

@[simp] lemma pairGateway_type (g : WorkflowGateway) :
    (d.pairGateway g).gatewayType = g.gatewayType := by
  unfold pairGateway
  split <;> rfl

lemma mem_convergeIds {id : String} :
    id ∈ d.convergeIds ↔ ∃ g ∈ d.gateways, g.gatewayType = .converge ∧ g.id = id := by
  simp [convergeIds, and_assoc]

lemma mem_convergeIds_autoPair {id : String} (hid : id ∈ d.convergeIds) :
    id ∈ d.autoPairGateways.convergeIds := by
  obtain ⟨g, hg, htype, hgid⟩ := mem_convergeIds.1 hid
  refine mem_convergeIds.2 ⟨d.pairGateway g, ?_, by simpa using htype, by simpa using hgid⟩
  exact mem_map_of_mem hg

lemma convergeIds_subset_gatewayIds {id : String} (hid : id ∈ d.convergeIds) :
    id ∈ d.gatewayIds := by
  obtain ⟨g, hg, _, hgid⟩ := mem_convergeIds.1 hid
  exact mem_map.2 ⟨g, hg, hgid⟩

lemma mem_of_gatewayOfType {kind : GatewayType} {id : String} {g : WorkflowGateway}
    (h : d.gatewayOfType kind id = some g) : g ∈ d.gateways ∧ g.gatewayType = kind ∧ g.id = id := by
  have hmem := mem_of_find?_eq_some h
  simp only [mem_reverse, mem_filter, decide_eq_true_eq] at hmem
  exact ⟨hmem.1, hmem.2, by simpa using find?_some h⟩

lemma isGatewayOf_iff {kind : GatewayType} {id : String} :
    d.isGatewayOf kind id = true ↔ ∃ g ∈ d.gateways, g.gatewayType = kind ∧ g.id = id := by
  simp [isGatewayOf, gatewayOfType, and_assoc]

lemma isGatewayOf_mem_gatewayIds {kind : GatewayType} {id : String}
    (h : d.isGatewayOf kind id = true) : id ∈ d.gatewayIds := by
  obtain ⟨g, hg, _, hid⟩ := isGatewayOf_iff.1 h
  exact mem_map.2 ⟨g, hg, hid⟩

lemma Accepted.convergeOf_mem (h : Checked d.autoPairGateways) {p c : String}
    (hc : d.autoPairGateways.convergeOf p = some c) : c ∈ d.autoPairGateways.convergeIds := by
  obtain ⟨_, hfound, hgc⟩ := Option.bind_eq_some_iff.1 hc
  obtain ⟨hmem, htype, _⟩ := mem_of_gatewayOfType hfound
  obtain ⟨_, _, rfl⟩ := mem_map.1 hmem
  have htwo := h.two_le_targets hmem htype
  rw [pairGateway_id] at htwo
  rw [pairGateway_type] at htype
  unfold pairGateway at hgc
  rw [if_pos ⟨htype, htwo⟩] at hgc
  exact mem_convergeIds_autoPair (mem_of_find?_eq_some hgc)

end WorkflowDef
end DeterminFlow.Workflow
