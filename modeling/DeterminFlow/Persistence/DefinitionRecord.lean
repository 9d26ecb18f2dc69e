/-
  Persistence.DefinitionRecord
  **WHAT A WORKFLOW DEFINITION STORES OF ITSELF.**

  `WorkflowDef.to_dict` and `from_dict`, with the nodes, edges, variables,
  gateways and execution schemes inside.  What is read is completed: bindings
  receive their variable key, numeric texts become numbers, a missing id is
  generated.  What is written leaves out fields without a value.

  Reading what was written changes nothing, unless a value was left out that is
  not the default of its field: an edge whose id or end is `None`, and a node
  whose `model_override` counts as false without being `""`.
-/
import DeterminFlow.Persistence.TaskRecord

namespace DeterminFlow.Persistence.Records

open Library PyJson List Option

section
variable {F : Type}

/-! ## Coercions -/

/-- `stripped.lstrip("+-").isdigit()` of a text that is stripped first. -/
def isIntegerText (text : String) : Bool :=
  let digits := (PyText.stripChars text).dropWhile (fun c => c = '+' || c = '-')
  !digits.isEmpty && digits.all PyText.isDigit

/-- `_coerce_integer_setting(value, default=0)`; `none` stands for the
`ValueError` of `int`. -/
def coerceIntegerSetting : PyJson F → Option (PyJson F)
  | .null => some (.int 0)
  | .str text => if isIntegerText text then (PyText.intOf? text).map .int else some (.str text)
  | value => some value

lemma coerceIntegerSetting_idem {value coerced : PyJson F}
    (h : coerceIntegerSetting value = some coerced) :
    coerceIntegerSetting coerced = some coerced := by
  cases value with
  | str text =>
    by_cases hdigits : isIntegerText text = true
    · simp only [coerceIntegerSetting, if_pos hdigits] at h
      rw [map_eq_some_iff] at h
      obtain ⟨_, -, hn⟩ := h
      rw [← hn]
      rfl
    simp only [coerceIntegerSetting, if_neg hdigits] at h
    rw [← some.inj h, coerceIntegerSetting, if_neg hdigits]
  | _ =>
    rw [← some.inj h]
    rfl

/-- `int(raw_version)`, with the way round over `float` for texts. -/
def versionOf (rt : PyRuntime F) : PyJson F → Option Int
  | .str text =>
    match PyText.intOf? text with
    | some i => some i
    | none =>
      match rt.floatOf text with
      | some f => intOf rt (.float f)
      | none => none
  | .float f =>
    match rt.floatInt f with
    | .finite i => some i
    | .nan => some 1
    | .infinite => none
  | .bool b => some b.toNat
  | .int i => some i
  | .null | .list _ | .dict _ => some 1

/-- `str(value or "public")` -/
def policyOf (rt : PyRuntime F) (value : PyJson F) : String :=
  if value.truthy rt.toPyFormat then value.toText rt.toPyFormat else "public"

lemma toText_ne (rt : PyRuntime F) {value : PyJson F}
    (h : value.truthy rt.toPyFormat = true) : value.toText rt.toPyFormat ≠ "" := by
  cases value with
  | null => cases h
  | bool b =>
    cases b with
    | false => cases h
    | true =>
      show "True" ≠ ""
      decide
  | int i =>
    cases i with
    | ofNat => exact Nat.repr_ne_empty
    | negSucc =>
      intro hempty
      have hlist := congrArg String.toList hempty
      rw [toText, Int.toString_eq_repr, Int.repr_eq_if, if_neg (by omega),
        String.toList_append] at hlist
      cases (append_eq_nil_iff.1 hlist).1
  | float f => exact rt.floatRepr_ne f
  | str => exact (bne_iff_ne.1 h)
  | _ => exact rt.containerStr_ne _

lemma policyOf_ne (rt : PyRuntime F) (value : PyJson F) : policyOf rt value ≠ "" := by
  unfold policyOf
  split
  · exact toText_ne rt ‹_›
  decide

lemma policyOf_str (rt : PyRuntime F) {policy : String} (h : policy ≠ "") :
    policyOf rt (.str policy) = policy := by
  have htruthy : (PyJson.str policy).truthy rt.toPyFormat = true := bne_iff_ne.2 h
  rw [policyOf, if_pos htruthy]
  rfl

/-! ## Nodes -/

structure WorkflowNode (F : Type) where
  id : PyJson F
  label : PyJson F
  nodeType : PyJson F
  agentType : PyJson F
  systemPromptTemplate : PyJson F
  firstMessage : PyJson F
  position : PyJson F
  varBindings : Dict String (Dict String (PyJson F))
  nodeParams : PyJson F
  autoFlow : PyJson F
  enableCompleteNodeTask : PyJson F
  outputVariable : PyJson F
  enableRejectUpstream : PyJson F
  maxRejectCount : Int
  saveOutputToFile : PyJson F
  outputFilePath : PyJson F
  requireNonEmptyOutput : PyJson F
  retryEmptyOutputInSession : PyJson F
  jsonOutputField : PyJson F
  jsonOutputFieldMinChars : PyJson F
  modelOverride : PyJson F
  subWorkflowId : PyJson F
  subSchemeId : PyJson F
  subWorkflowParams : PyJson F
  failAutoSkip : PyJson F
  autoRetryCount : PyJson F
  autoRetryIntervalSeconds : PyJson F

def isNull : PyJson F → Bool
  | .null => true
  | _ => false

/-- `{"x": x, "y": y}` -/
def pointAt (x y : Int) : PyJson F := .dict [("x", .int x), ("y", .int y)]

def WorkflowNode.toDict (rt : PyRuntime F) (n : WorkflowNode F) : Dict String (PyJson F) :=
  [("id", n.id), ("label", n.label), ("node_type", n.nodeType), ("agent_type", n.agentType),
    ("system_prompt_template", n.systemPromptTemplate), ("first_message", n.firstMessage),
    ("position", n.position),
    ("var_bindings", .dict (n.varBindings.map (fun entry => (entry.1, .dict entry.2)))),
    ("node_params", n.nodeParams), ("auto_flow", n.autoFlow),
    ("enable_complete_node_task", n.enableCompleteNodeTask),
    ("output_variable", n.outputVariable), ("enable_reject_upstream", n.enableRejectUpstream),
    ("max_reject_count", .int n.maxRejectCount), ("save_output_to_file", n.saveOutputToFile),
    ("output_file_path", n.outputFilePath),
    ("require_non_empty_output", n.requireNonEmptyOutput),
    ("retry_empty_output_in_session", n.retryEmptyOutputInSession),
    ("json_output_field", n.jsonOutputField),
    ("json_output_field_min_chars", n.jsonOutputFieldMinChars)]
  ++ (optField (n.modelOverride.truthy rt.toPyFormat) "model_override" n.modelOverride
  ++ (optField (!isNull n.subWorkflowId) "sub_workflow_id" n.subWorkflowId
  ++ (optField (!isNull n.subSchemeId) "sub_scheme_id" n.subSchemeId
  ++ [("sub_workflow_params", n.subWorkflowParams), ("fail_auto_skip", n.failAutoSkip),
    ("auto_retry_count", n.autoRetryCount),
    ("auto_retry_interval_seconds", n.autoRetryIntervalSeconds)])))

def completedBinding (rt : PyRuntime F) (data : Dict String (PyJson F)) (field : String)
    (binding : Dict String (PyJson F)) : Dict String (PyJson F) :=
  if binding.has "var_key" then binding
  else binding.set "var_key" (.str ((getD data "id" (.str "")).toText rt.toPyFormat ++ "_" ++ field))

def completedEntry (rt : PyRuntime F) (data : Dict String (PyJson F)) (entry : String × PyJson F) :
    Option (String × Dict String (PyJson F)) :=
  (asDict? entry.2).map (fun binding => (entry.1, completedBinding rt data entry.1 binding))

/-- The bindings of a node as `from_dict` completes them. -/
def bindingsOf (rt : PyRuntime F) (data : Dict String (PyJson F))
    (raw : Dict String (PyJson F)) : Dict String (Dict String (PyJson F)) :=
  raw.filterMap (completedEntry rt data)

/-- `WorkflowNode.from_dict`; `none` stands for an exception. -/
def WorkflowNode.fromDict (rt : PyRuntime F) (generatedId : String)
    (data : Dict String (PyJson F)) : Option (WorkflowNode F) := do
  let rawBindings ← asDict? (getD data "var_bindings" (.dict []))
  let maxRejectCount ← intOf rt (getD data "max_reject_count" (.int 3))
  let minChars ← coerceIntegerSetting (getD data "json_output_field_min_chars" (.int 0))
  let retries ← coerceIntegerSetting (getD data "auto_retry_count" (.int 0))
  let interval ← coerceIntegerSetting (getD data "auto_retry_interval_seconds" (.int 0))
  return {
    id := getD data "id" (.str generatedId)
    label := getD data "label" (.str "")
    nodeType := getD data "node_type" (.str "agent")
    agentType := getD data "agent_type" (.str "default")
    systemPromptTemplate := getD data "system_prompt_template" (.str "")
    firstMessage := getD data "first_message" (.str "")
    position := getD data "position" (pointAt 0 0)
    varBindings := bindingsOf rt data rawBindings
    nodeParams := getD data "node_params" (.dict [])
    autoFlow := getD data "auto_flow" (.bool false)
    enableCompleteNodeTask := getD data "enable_complete_node_task" (.bool true)
    outputVariable := getD data "output_variable" (.str "")
    enableRejectUpstream := getD data "enable_reject_upstream" (.bool false)
    maxRejectCount := maxRejectCount
    saveOutputToFile := getD data "save_output_to_file" (.bool false)
    outputFilePath := getD data "output_file_path" (.str "")
    requireNonEmptyOutput := getD data "require_non_empty_output" (.bool false)
    retryEmptyOutputInSession := getD data "retry_empty_output_in_session" (.bool false)
    jsonOutputField := getD data "json_output_field" (.str "")
    jsonOutputFieldMinChars := minChars
    modelOverride := getD data "model_override" (.str "")
    subWorkflowId := getD data "sub_workflow_id" .null
    subSchemeId := getD data "sub_scheme_id" .null
    subWorkflowParams := getD data "sub_workflow_params" (.dict [])
    failAutoSkip := getD data "fail_auto_skip" (.bool false)
    autoRetryCount := retries
    autoRetryIntervalSeconds := interval }

/-! ## Edges, gateways, variables and schemes -/

structure WorkflowEdge (F : Type) where
  id : PyJson F
  source : PyJson F
  target : PyJson F
  condition : PyJson F

/-- `WorkflowEdge.to_dict`: every field that is `None` is left out. -/
def WorkflowEdge.toDict (e : WorkflowEdge F) : Dict String (PyJson F) :=
  optField (!isNull e.id) "id" e.id ++ (optField (!isNull e.source) "source" e.source
    ++ (optField (!isNull e.target) "target" e.target
    ++ optField (!isNull e.condition) "condition" e.condition))

def WorkflowEdge.fromDict (generatedId : String) (data : Dict String (PyJson F)) :
    WorkflowEdge F where
  id := getD data "id" (.str generatedId)
  source := getD data "source" (.str "")
  target := getD data "target" (.str "")
  condition := getD data "condition" .null

structure WorkflowGateway (F : Type) where
  id : PyJson F
  gatewayType : PyJson F
  label : PyJson F
  position : PyJson F
  convergeGatewayId : PyJson F

def WorkflowGateway.toDict (g : WorkflowGateway F) : Dict String (PyJson F) :=
  [("id", g.id), ("gateway_type", g.gatewayType), ("label", g.label), ("position", g.position),
    ("converge_gateway_id", g.convergeGatewayId)]

def WorkflowGateway.fromDict (generatedId : String) (data : Dict String (PyJson F)) :
    WorkflowGateway F where
  id := getD data "id" (.str generatedId)
  gatewayType := getD data "gateway_type" (.str "parallel")
  label := getD data "label" (.str "")
  position := getD data "position" (pointAt 0 0)
  convergeGatewayId := getD data "converge_gateway_id" .null

structure WorkflowVariable (F : Type) where
  key : PyJson F
  name : PyJson F
  type : PyJson F
  default : PyJson F
  required : PyJson F
  description : PyJson F
  options : PyJson F
  sourceType : PyJson F
  sourceNodeId : PyJson F
  hidden : PyJson F

def WorkflowVariable.toDict (v : WorkflowVariable F) : Dict String (PyJson F) :=
  [("key", v.key), ("name", v.name), ("type", v.type), ("default", v.default),
    ("required", v.required), ("description", v.description), ("options", v.options),
    ("source_type", v.sourceType), ("source_node_id", v.sourceNodeId), ("hidden", v.hidden)]

def WorkflowVariable.fromDict (data : Dict String (PyJson F)) : WorkflowVariable F where
  key := getD data "key" (.str "")
  name := getD data "name" (.str "")
  type := getD data "type" (.str "text")
  default := getD data "default" (.str "")
  required := getD data "required" (.bool false)
  description := getD data "description" (.str "")
  options := getD data "options" (.list [])
  sourceType := getD data "source_type" (.str "input")
  sourceNodeId := getD data "source_node_id" (.str "")
  hidden := getD data "hidden" (.bool false)

structure ExecutionScheme (F : Type) where
  id : PyJson F
  name : PyJson F
  selectedNodeIds : PyJson F
  createdAt : PyJson F
  updatedAt : PyJson F

def ExecutionScheme.toDict (s : ExecutionScheme F) : Dict String (PyJson F) :=
  [("id", s.id), ("name", s.name), ("selected_node_ids", s.selectedNodeIds),
    ("created_at", s.createdAt), ("updated_at", s.updatedAt)]

/-- What a scheme receives that was stored without an id or a time. -/
structure GeneratedScheme where
  id : String
  createdAt : String
  updatedAt : String

def ExecutionScheme.fromDict (generated : GeneratedScheme) (data : Dict String (PyJson F)) :
    ExecutionScheme F where
  id := getD data "id" (.str generated.id)
  name := getD data "name" (.str "")
  selectedNodeIds := getD data "selected_node_ids" (.list [])
  createdAt := getD data "created_at" (.str generated.createdAt)
  updatedAt := getD data "updated_at" (.str generated.updatedAt)

/-! ## The definition -/

structure WorkflowDef (F : Type) where
  workflowId : PyJson F
  name : PyJson F
  version : Int
  createdAt : PyJson F
  updatedAt : PyJson F
  nodes : List (WorkflowNode F)
  edges : List (WorkflowEdge F)
  workflowVariables : List (WorkflowVariable F)
  gateways : List (WorkflowGateway F)
  executionSchemes : List (ExecutionScheme F)
  httpExecutionPolicy : String
  startPosition : PyJson F
  endPosition : PyJson F

def WorkflowDef.toDict (rt : PyRuntime F) (d : WorkflowDef F) : Dict String (PyJson F) :=
  [("workflow_id", d.workflowId), ("name", d.name), ("version", .int d.version),
    ("created_at", d.createdAt), ("updated_at", d.updatedAt),
    ("nodes", .list (d.nodes.map (fun n => .dict (n.toDict rt)))),
    ("edges", .list (d.edges.map (fun e => .dict e.toDict))),
    ("variables", .list (d.workflowVariables.map (fun v => .dict v.toDict))),
    ("gateways", .list (d.gateways.map (fun g => .dict g.toDict))),
    ("execution_schemes", .list (d.executionSchemes.map (fun s => .dict s.toDict))),
    ("http_execution_policy", .str d.httpExecutionPolicy), ("start_position", d.startPosition),
    ("end_position", d.endPosition)]

/-- What a definition receives that was stored without ids or times; items are
counted from 0. -/
structure GeneratedDef where
  workflowId : String
  createdAt : String
  updatedAt : String
  nodeId : Nat → String
  edgeId : Nat → String
  gatewayId : Nat → String
  scheme : Nat → GeneratedScheme

/-- `[read(item) for item in items]`, where `read` knows the position and wants
a dict. -/
def readFrom {α : Type} (read : Nat → Dict String (PyJson F) → Option α) :
    Nat → List (PyJson F) → Option (List α)
  | _, [] => some []
  | i, item :: rest => do
      let data ← asDict? item
      let first ← read i data
      let others ← readFrom read (i + 1) rest
      return first :: others

def readItems {α : Type} (read : Nat → Dict String (PyJson F) → Option α)
    (value : PyJson F) : Option (List α) := do
  let items ← itemsOf? value
  readFrom read 0 items

/-- `WorkflowDef.from_dict`; `none` stands for an exception. -/
def WorkflowDef.fromDict (rt : PyRuntime F) (generated : GeneratedDef)
    (data : Dict String (PyJson F)) : Option (WorkflowDef F) := do
  let nodes ← readItems (fun i => WorkflowNode.fromDict rt (generated.nodeId i))
    (getD data "nodes" (.list []))
  let edges ← readItems (fun i item => some (WorkflowEdge.fromDict (generated.edgeId i) item))
    (getD data "edges" (.list []))
  let workflowVariables ← readItems (fun _ item => some (WorkflowVariable.fromDict item))
    (getD data "variables" (.list []))
  let gateways ←
    readItems (fun i item => some (WorkflowGateway.fromDict (generated.gatewayId i) item))
      (getD data "gateways" (.list []))
  let schemes ←
    readItems (fun i item => some (ExecutionScheme.fromDict (generated.scheme i) item))
      (getD data "execution_schemes" (.list []))
  let version ← versionOf rt (getD data "version" (.int 1))
  -- `_rebuild_caches` uses the ids of nodes and gateways as keys
  if nodes.all (fun n => hashable n.id) && gateways.all (fun g => hashable g.id) then
    return {
      workflowId := getD data "workflow_id" (.str generated.workflowId)
      name := getD data "name" (.str "")
      version := version
      createdAt := getD data "created_at" (.str generated.createdAt)
      updatedAt := getD data "updated_at" (.str generated.updatedAt)
      nodes := nodes
      edges := edges
      workflowVariables := workflowVariables
      gateways := gateways
      executionSchemes := schemes
      httpExecutionPolicy := policyOf rt (getD data "http_execution_policy" .null)
      startPosition := getD data "start_position" (pointAt 300 50)
      endPosition := getD data "end_position" (pointAt 300 550) }
  else none

/-! ## Items that are read back -/

variable {α : Type} {read : Nat → Dict String (PyJson F) → Option α} {P : α → Prop}
  {write : α → Dict String (PyJson F)} {data : Dict String (PyJson F)} {rt : PyRuntime F}
  {generated : GeneratedDef} {d : WorkflowDef F}

lemma mem_readFrom {items : List (PyJson F)} :
    ∀ {i : Nat} {out : List α}, readFrom read i items = some out →
      ∀ x ∈ out, ∃ j data, read j data = some x := by
  induction items with
  | nil =>
    intro i out h x hx
    rw [← some.inj h] at hx
    cases hx
  | cons item rest ih =>
    intro i out h x hx
    simp only [readFrom, Option.bind_eq_bind, Option.bind_eq_some_iff, Option.pure_def] at h
    obtain ⟨data, -, _, hfirst, _, hothers, hout⟩ := h
    rw [← some.inj hout, mem_cons] at hx
    cases hx with
    | inl heq => exact ⟨i, data, heq ▸ hfirst⟩
    | inr hmem => exact ih hothers x hmem

lemma readFrom_map_iff {items : List α} (h : ∀ x ∈ items, ∀ i, read i (write x) = some x ↔ P x) :
    ∀ i : Nat,
      readFrom read i (items.map (fun x => .dict (write x))) = some items ↔ ∀ x ∈ items, P x := by
  induction items with
  | nil => exact fun i => ⟨nofun, fun _ => rfl⟩
  | cons first rest ih =>
    intro i
    have hrest := ih (fun x hx => h x (mem_cons_of_mem _ hx)) (i + 1)
    have hfirst := h first mem_cons_self i
    rw [forall_mem_cons, ← hrest, ← hfirst]
    simp only [map_cons, readFrom, asDict?, Option.bind_eq_bind, bind_some,
      Option.bind_eq_some_iff, Option.pure_def, some.injEq, cons.injEq]
    constructor
    · rintro ⟨x, hx, _, hothers, rfl, rfl⟩
      exact ⟨hx, hothers⟩
    rintro ⟨hx, hothers⟩
    exact ⟨first, hx, rest, hothers, rfl, rfl⟩

lemma readItems_map_iff {items : List α} (h : ∀ x ∈ items, ∀ i, read i (write x) = some x ↔ P x) :
    readItems read (.list (items.map (fun x => .dict (write x)))) = some items
      ↔ ∀ x ∈ items, P x :=
  readFrom_map_iff h 0

lemma readItems_map {items : List α} (h : ∀ x i, read i (write x) = some x) :
    readItems read (.list (items.map (fun x => .dict (write x)))) = some items :=
  (readItems_map_iff (P := fun _ => True) (fun x _ i => iff_of_true (h x i) trivial)).2
    (fun _ _ => trivial)

lemma mem_readItems {value : PyJson F} {out : List α} (h : readItems read value = some out) :
    ∀ x ∈ out, ∃ j data, read j data = some x := by
  rw [readItems, Option.bind_eq_bind, Option.bind_eq_some_iff] at h
  obtain ⟨_, -, hitems⟩ := h
  exact mem_readFrom hitems

/-! ### Edges -/

/-- The three fields of an edge whose default is not `None` hold something. -/
def WorkflowEdge.Complete (e : WorkflowEdge F) : Prop :=
  isNull e.id = false ∧ isNull e.source = false ∧ isNull e.target = false

instance (e : WorkflowEdge F) : Decidable e.Complete :=
  inferInstanceAs (Decidable (_ ∧ _ ∧ _))

lemma if_notNull_else_null (value : PyJson F) :
    (if !isNull value then value else .null) = value := by
  cases value <;> rfl

lemma if_notNull_eq_iff (value : PyJson F) (text : String) :
    (if !isNull value then value else .str text) = value ↔ isNull value = false := by
  cases value <;> simp [isNull]

lemma WorkflowEdge.fromDict_toDict (generatedId : String) (e : WorkflowEdge F) :
    WorkflowEdge.fromDict generatedId e.toDict =
      { id := if !isNull e.id then e.id else .str generatedId
        source := if !isNull e.source then e.source else .str ""
        target := if !isNull e.target then e.target else .str ""
        condition := e.condition } := by
  have hend : ∀ d, getD (optField (!isNull e.condition) "condition" e.condition) "condition" d
      = if !isNull e.condition then e.condition else d := fun d => by
    rw [← append_nil (optField _ _ _), getD_optField_self]
    rfl
  have hother : ∀ key d, "condition" ≠ key →
      getD (optField (!isNull e.condition) "condition" e.condition) key d = d := fun key d hne => by
    rw [← append_nil (optField _ _ _), getD_optField_ne _ _ _ hne]
    rfl
  have hid : getD e.toDict "id" (.str generatedId)
      = if !isNull e.id then e.id else .str generatedId := by
    rw [WorkflowEdge.toDict, getD_optField_self, getD_optField_ne _ _ _ (by decide),
      getD_optField_ne _ _ _ (by decide), hother _ _ (by decide)]
  have hsource : getD e.toDict "source" (.str "")
      = if !isNull e.source then e.source else .str "" := by
    rw [WorkflowEdge.toDict, getD_optField_ne _ _ _ (by decide), getD_optField_self,
      getD_optField_ne _ _ _ (by decide), hother _ _ (by decide)]
  have htarget : getD e.toDict "target" (.str "")
      = if !isNull e.target then e.target else .str "" := by
    rw [WorkflowEdge.toDict, getD_optField_ne _ _ _ (by decide),
      getD_optField_ne _ _ _ (by decide), getD_optField_self, hother _ _ (by decide)]
  have hcondition : getD e.toDict "condition" .null = e.condition := by
    rw [WorkflowEdge.toDict, getD_optField_ne _ _ _ (by decide),
      getD_optField_ne _ _ _ (by decide), getD_optField_ne _ _ _ (by decide), hend,
      if_notNull_else_null]
  rw [WorkflowEdge.fromDict, hid, hsource, htarget, hcondition]

lemma WorkflowEdge.fromDict_toDict_iff (generatedId : String) (e : WorkflowEdge F) :
    some (WorkflowEdge.fromDict generatedId e.toDict) = some e ↔ e.Complete := by
  obtain ⟨_, _, _, _⟩ := e
  rw [WorkflowEdge.fromDict_toDict, some.injEq, WorkflowEdge.mk.injEq,
    if_notNull_eq_iff, if_notNull_eq_iff, if_notNull_eq_iff]
  simp [WorkflowEdge.Complete]

/-! ### Nodes -/

/-- What `from_dict` leaves of a node: every binding has its variable key, and
the numeric settings are coerced. -/
structure WorkflowNode.Settled (n : WorkflowNode F) : Prop where
  bindings : ∀ entry ∈ n.varBindings, Dict.has entry.2 "var_key" = true
  minChars : coerceIntegerSetting n.jsonOutputFieldMinChars = some n.jsonOutputFieldMinChars
  retries : coerceIntegerSetting n.autoRetryCount = some n.autoRetryCount
  interval : coerceIntegerSetting n.autoRetryIntervalSeconds = some n.autoRetryIntervalSeconds

def WorkflowNode.PlainOverride (rt : PyRuntime F) (n : WorkflowNode F) : Prop :=
  n.modelOverride.truthy rt.toPyFormat = true ∨ n.modelOverride = .str ""

lemma has_completedBinding (rt : PyRuntime F) (data : Dict String (PyJson F)) (field : String)
    (binding : Dict String (PyJson F)) :
    (completedBinding rt data field binding).has "var_key" = true := by
  unfold completedBinding
  split
  · assumption
  rw [Dict.has_iff, Dict.get?_set_self]
  rfl

lemma bindingsOf_has (rt : PyRuntime F) (data raw : Dict String (PyJson F)) :
    ∀ entry ∈ bindingsOf rt data raw, Dict.has entry.2 "var_key" = true := by
  intro entry hmem
  obtain ⟨source, -, hsource⟩ := mem_filterMap.1 hmem
  obtain ⟨binding, -, hbinding⟩ := map_eq_some_iff.1 hsource
  rw [← hbinding]
  exact has_completedBinding rt data source.1 binding

lemma bindingsOf_map (rt : PyRuntime F) (data : Dict String (PyJson F))
    {bindings : Dict String (Dict String (PyJson F))}
    (h : ∀ entry ∈ bindings, Dict.has entry.2 "var_key" = true) :
    bindingsOf rt data (bindings.map (fun entry => (entry.1, .dict entry.2))) = bindings := by
  induction bindings with
  | nil => rfl
  | cons entry rest ih =>
    have hentry := h entry mem_cons_self
    have hrest := ih (fun other hmem => h other (mem_cons_of_mem _ hmem))
    have hfirst : completedBinding rt data entry.1 entry.2 = entry.2 := if_pos hentry
    have hone : completedEntry rt data (entry.1, PyJson.dict entry.2) = some entry := by
      rw [completedEntry, asDict?, map_some, hfirst]
    rw [bindingsOf] at hrest ⊢
    rw [map_cons, filterMap_cons_some hone, hrest]

lemma WorkflowNode.settled_of_fromDict {generatedId : String} {n : WorkflowNode F}
    (h : WorkflowNode.fromDict rt generatedId data = some n) : n.Settled := by
  simp only [WorkflowNode.fromDict, Option.bind_eq_bind, Option.bind_eq_some_iff,
    Option.pure_def, some.injEq] at h
  obtain ⟨raw, -, _, -, minChars, hchars, retries, hretries, interval, hinterval, rfl⟩ := h
  exact
    { bindings := bindingsOf_has rt data raw
      minChars := coerceIntegerSetting_idem hchars
      retries := coerceIntegerSetting_idem hretries
      interval := coerceIntegerSetting_idem hinterval }

section
variable (rt : PyRuntime F) (n : WorkflowNode F)

lemma getD_node_last {key : String} (d : PyJson F) (hmodel : "model_override" ≠ key)
    (hworkflow : "sub_workflow_id" ≠ key) (hscheme : "sub_scheme_id" ≠ key)
    (rest : Dict String (PyJson F)) :
    getD (optField (n.modelOverride.truthy rt.toPyFormat) "model_override" n.modelOverride
      ++ (optField (!isNull n.subWorkflowId) "sub_workflow_id" n.subWorkflowId
      ++ (optField (!isNull n.subSchemeId) "sub_scheme_id" n.subSchemeId ++ rest))) key d
    = getD rest key d := by
  rw [getD_optField_ne _ _ _ hmodel, getD_optField_ne _ _ _ hworkflow,
    getD_optField_ne _ _ _ hscheme]

lemma getD_node_modelOverride : getD (n.toDict rt) "model_override" (.str "")
      = if n.modelOverride.truthy rt.toPyFormat then n.modelOverride else .str "" := by
  rw [WorkflowNode.toDict, getD_append_of_get?_none _ _ rfl, getD_optField_self,
    getD_optField_ne _ _ _ (by decide), getD_optField_ne _ _ _ (by decide)]
  rfl

lemma getD_node_subWorkflowId : getD (n.toDict rt) "sub_workflow_id" .null = n.subWorkflowId := by
  rw [WorkflowNode.toDict, getD_append_of_get?_none _ _ rfl, getD_optField_ne _ _ _ (by decide),
    getD_optField_self, getD_optField_ne _ _ _ (by decide)]
  exact if_notNull_else_null _

lemma getD_node_subSchemeId : getD (n.toDict rt) "sub_scheme_id" .null = n.subSchemeId := by
  rw [WorkflowNode.toDict, getD_append_of_get?_none _ _ rfl, getD_optField_ne _ _ _ (by decide),
    getD_optField_ne _ _ _ (by decide), getD_optField_self]
  exact if_notNull_else_null _

lemma getD_node_subWorkflowParams (d : PyJson F) :
    getD (n.toDict rt) "sub_workflow_params" d = n.subWorkflowParams := by
  rw [WorkflowNode.toDict, getD_append_of_get?_none _ _ rfl,
    getD_node_last _ _ _ (by decide) (by decide) (by decide)]
  rfl

lemma getD_node_failAutoSkip (d : PyJson F) :
    getD (n.toDict rt) "fail_auto_skip" d = n.failAutoSkip := by
  rw [WorkflowNode.toDict, getD_append_of_get?_none _ _ rfl,
    getD_node_last _ _ _ (by decide) (by decide) (by decide)]
  rfl

lemma getD_node_autoRetryCount (d : PyJson F) :
    getD (n.toDict rt) "auto_retry_count" d = n.autoRetryCount := by
  rw [WorkflowNode.toDict, getD_append_of_get?_none _ _ rfl,
    getD_node_last _ _ _ (by decide) (by decide) (by decide)]
  rfl

lemma getD_node_autoRetryIntervalSeconds (d : PyJson F) :
    getD (n.toDict rt) "auto_retry_interval_seconds" d = n.autoRetryIntervalSeconds := by
  rw [WorkflowNode.toDict, getD_append_of_get?_none _ _ rfl,
    getD_node_last _ _ _ (by decide) (by decide) (by decide)]
  rfl

lemma WorkflowNode.fromDict_toDict (h : n.Settled) (generatedId : String) :
    WorkflowNode.fromDict rt generatedId (n.toDict rt) = some { n with
      modelOverride :=
        if n.modelOverride.truthy rt.toPyFormat then n.modelOverride else .str "" } := by
  -- the fields that are always there are found by computation
  have hbindings : getD (n.toDict rt) "var_bindings" (.dict [])
      = .dict (n.varBindings.map (fun entry => (entry.1, .dict entry.2))) := rfl
  have hrejects : getD (n.toDict rt) "max_reject_count" (.int 3) = .int n.maxRejectCount := rfl
  have hchars : getD (n.toDict rt) "json_output_field_min_chars" (.int 0)
      = n.jsonOutputFieldMinChars := rfl
  have hcount : intOf rt (.int n.maxRejectCount) = some n.maxRejectCount := rfl
  simp only [WorkflowNode.fromDict, hbindings, hrejects, hchars, hcount, asDict?, h.minChars,
    h.retries, h.interval, getD_node_modelOverride, getD_node_subWorkflowId,
    getD_node_subSchemeId, getD_node_subWorkflowParams, getD_node_failAutoSkip,
    getD_node_autoRetryCount, getD_node_autoRetryIntervalSeconds,
    bindingsOf_map rt (n.toDict rt) h.bindings, Option.bind_eq_bind, bind_some]
  rfl

lemma WorkflowNode.fromDict_toDict_iff (h : n.Settled) (generatedId : String) :
    WorkflowNode.fromDict rt generatedId (n.toDict rt) = some n ↔ n.PlainOverride rt := by
  rw [WorkflowNode.fromDict_toDict rt n h, some.injEq, WorkflowNode.PlainOverride]
  constructor
  · intro heq
    have hmodel : (if n.modelOverride.truthy rt.toPyFormat then n.modelOverride else .str "")
        = n.modelOverride := congrArg WorkflowNode.modelOverride heq
    by_cases htruthy : n.modelOverride.truthy rt.toPyFormat = true
    · exact .inl htruthy
    rw [if_neg htruthy] at hmodel
    exact .inr hmodel.symm
  intro hplain
  have hmodel : (if n.modelOverride.truthy rt.toPyFormat then n.modelOverride else .str "")
      = n.modelOverride := by
    cases hplain with
    | inl htruthy => rw [if_pos htruthy]
    | inr hempty => rw [hempty]; exact ite_self _
  rw [hmodel]

end

/-! ## Tasks and definitions -/

lemma WorkflowDef.fromDict_eq_some (h : WorkflowDef.fromDict rt generated data = some d) :
    readItems (fun i => WorkflowNode.fromDict rt (generated.nodeId i))
        (getD data "nodes" (.list [])) = some d.nodes
      ∧ readItems (fun i item => some (WorkflowEdge.fromDict (generated.edgeId i) item))
          (getD data "edges" (.list [])) = some d.edges
      ∧ (d.nodes.all (fun n => hashable n.id) && d.gateways.all (fun g => hashable g.id)) = true
      ∧ d.httpExecutionPolicy = policyOf rt (getD data "http_execution_policy" .null) := by
  simp only [WorkflowDef.fromDict, Option.bind_eq_bind, Option.bind_eq_some_iff,
    Option.pure_def] at h
  obtain ⟨nodes, hnodes, edges, hedges, _, -, gateways, -, _, -, _, -, h⟩ := h
  by_cases hhash : (nodes.all (fun n => hashable n.id)
      && gateways.all (fun g => hashable g.id)) = true
  · rw [if_pos hhash, some.injEq] at h
    rw [← h]
    exact ⟨hnodes, hedges, hhash, rfl⟩
  rw [if_neg hhash] at h
  cases h

lemma WorkflowDef.fromDict_toDict_iff (h : WorkflowDef.fromDict rt generated data = some d)
    (again : GeneratedDef) : WorkflowDef.fromDict rt again (d.toDict rt) = some d
      ↔ (∀ e ∈ d.edges, e.Complete) ∧ ∀ n ∈ d.nodes, n.PlainOverride rt := by
  obtain ⟨hnodes, -, hhash, hpolicy⟩ := WorkflowDef.fromDict_eq_some h
  have hsettled : ∀ n ∈ d.nodes, n.Settled := by
    intro n hmem
    obtain ⟨i, _, hsource⟩ := mem_readItems hnodes n hmem
    exact WorkflowNode.settled_of_fromDict hsource
  have hnodesIff : readItems (fun i => WorkflowNode.fromDict rt (again.nodeId i))
      (.list (d.nodes.map (fun n => .dict (n.toDict rt)))) = some d.nodes
        ↔ ∀ n ∈ d.nodes, n.PlainOverride rt :=
    readItems_map_iff
      (fun n hmem i => WorkflowNode.fromDict_toDict_iff rt n (hsettled n hmem) (again.nodeId i))
  have hedgesIff : readItems (fun i item => some (WorkflowEdge.fromDict (again.edgeId i) item))
      (.list (d.edges.map (fun e => .dict e.toDict))) = some d.edges
        ↔ ∀ e ∈ d.edges, e.Complete :=
    readItems_map_iff (fun e _ i => WorkflowEdge.fromDict_toDict_iff (again.edgeId i) e)
  constructor
  · intro hagain
    obtain ⟨hnodes', hedges', -, -⟩ := WorkflowDef.fromDict_eq_some hagain
    exact ⟨hedgesIff.1 hedges', hnodesIff.1 hnodes'⟩
  intro ⟨hcomplete, hplain⟩
  have hfields : getD (d.toDict rt) "nodes" (.list [])
        = .list (d.nodes.map (fun n => .dict (n.toDict rt)))
      ∧ getD (d.toDict rt) "edges" (.list []) = .list (d.edges.map (fun e => .dict e.toDict))
      ∧ getD (d.toDict rt) "variables" (.list [])
        = .list (d.workflowVariables.map (fun v => .dict v.toDict))
      ∧ getD (d.toDict rt) "gateways" (.list [])
        = .list (d.gateways.map (fun g => .dict g.toDict))
      ∧ getD (d.toDict rt) "execution_schemes" (.list [])
        = .list (d.executionSchemes.map (fun s => .dict s.toDict))
      ∧ getD (d.toDict rt) "http_execution_policy" .null = .str d.httpExecutionPolicy
      ∧ getD (d.toDict rt) "version" (.int 1) = .int d.version :=
    ⟨rfl, rfl, rfl, rfl, rfl, rfl, rfl⟩
  obtain ⟨fnodes, fedges, fvariables, fgateways, fschemes, fpolicy, fversion⟩ := hfields
  -- variables, gateways and schemes write every field
  have hvariables : readItems (fun _ item => some (WorkflowVariable.fromDict item))
      (.list (d.workflowVariables.map (fun v => .dict v.toDict)))
      = some d.workflowVariables := readItems_map (fun _ _ => rfl)
  have hgateways :
      readItems (fun i item => some (WorkflowGateway.fromDict (again.gatewayId i) item))
        (.list (d.gateways.map (fun g => .dict g.toDict))) = some d.gateways :=
    readItems_map (fun _ _ => rfl)
  have hschemes :
      readItems (fun i item => some (ExecutionScheme.fromDict (again.scheme i) item))
        (.list (d.executionSchemes.map (fun s => .dict s.toDict))) = some d.executionSchemes :=
    readItems_map (fun _ _ => rfl)
  have hkept : policyOf rt (.str d.httpExecutionPolicy) = d.httpExecutionPolicy :=
    policyOf_str rt (hpolicy ▸ policyOf_ne rt _)
  have hversion : versionOf rt (.int d.version) = some d.version := rfl
  simp only [WorkflowDef.fromDict, fnodes, fedges, fvariables, fgateways, fschemes, fpolicy,
    fversion, hnodesIff.2 hplain, hedgesIff.2 hcomplete, hvariables, hgateways, hschemes, hkept,
    hversion, Option.bind_eq_bind, bind_some, if_pos hhash]
  rfl

/-- Nothing a checkpoint or a snapshot stores is lost or changed by being read
back: a task comes back with all the states of its nodes, and so does a
definition that was itself read, if and only if its edges are complete and the
model overrides of its nodes are plain. -/
theorem snapshots_read_back (rt : PyRuntime F) :
    (∀ (generated : GeneratedTask) (task : WorkflowTask F), AllStorable rt task.nodeStates →
        WorkflowTask.fromDict rt generated (task.toDict rt) = some task)
      ∧ ∀ (generated again : GeneratedDef) (data : Dict String (PyJson F)) (d : WorkflowDef F),
          WorkflowDef.fromDict rt generated data = some d →
            (WorkflowDef.fromDict rt again (d.toDict rt) = some d
              ↔ (∀ e ∈ d.edges, e.Complete) ∧ ∀ n ∈ d.nodes, n.PlainOverride rt) :=
  ⟨fun generated task h => WorkflowTask.fromDict_toDict rt generated task h,
    fun _ again _ _ h => WorkflowDef.fromDict_toDict_iff h again⟩

end

/-! ## A definition that is read back changed -/

def bareRuntime : PyRuntime Empty where
  floatRepr f := nomatch f
  floatTruthy f := nomatch f
  containerStr _ := "[]"
  floatInt f := nomatch f
  floatOf _ := none
  floatRepr_ne f := nomatch f
  containerStr_ne _ := by decide

def countedIds : GeneratedDef where
  workflowId := "wf"
  createdAt := "2026-01-01"
  updatedAt := "2026-01-01"
  nodeId i := "node-" ++ i.repr
  edgeId i := "edge-" ++ i.repr
  gatewayId i := "gw-" ++ i.repr
  scheme i := ⟨"scheme-" ++ i.repr, "2026-01-01", "2026-01-01"⟩

def oneEdge (edgeId modelOverride : PyJson Empty) : Dict String (PyJson Empty) :=
  [("workflow_id", .str "wf-1"), ("name", .str "flow"),
    ("nodes", .list [.dict [("id", .str "a"), ("auto_retry_count", .str "2"),
      ("model_override", modelOverride)]]),
    ("edges", .list [.dict [("id", edgeId), ("source", .str "a"), ("target", .str "__end__")]])]

/-- What of a definition is `None`: the ids of its edges, the overrides of its nodes. -/
def noneFields (d : WorkflowDef Empty) : List Bool × List Bool :=
  (d.edges.map (fun e => isNull e.id), d.nodes.map (fun n => isNull n.modelOverride))

/-- An edge with the id `None` comes back with a generated id, and a model
override that is `None` comes back as `""`. -/
theorem noneFields_change :
    ((WorkflowDef.fromDict bareRuntime countedIds (oneEdge .null .null)).bind (fun d =>
        (WorkflowDef.fromDict bareRuntime countedIds (d.toDict bareRuntime)).map (fun again =>
          (noneFields d, noneFields again))))
      = some (([true], [true]), ([false], [false])) := by
  decide +kernel

def nestedState : NodeState Empty :=
  let blank : NodeRecord Empty :=
    { nodeId := .str "a", status := .str "running", sessionId := .str "", startedAt := .null,
      completedAt := .null, summary := .str "", error := .str "", rejectionCount := .int 0,
      rejectionReason := .str "", rejectUpstreamCount := .int 0, outputs := .dict [],
      stdout := .str "", stderr := .str "", tokenUsage := .null, tokenUsageCalls := [],
      rejectionHistory := [], iterationHistory := .list [], isSkipped := .bool false,
      attemptCount := 1, automaticRetryCount := 0, nextRetryAt := none, attemptHistory := [],
      inputSnapshot := [], upstreamSummarySnapshot := "", nextAttemptTrigger := "initial" }
  .mk blank [("b", .mk { blank with
    nodeId := .str "b", status := .str "failed", isSkipped := .bool true
    tokenUsage := .dict [("total_tokens", .int 7)], attemptCount := 3 } [])]

def failedTask : WorkflowTask Empty where
  taskId := .str "task-1"
  workflowId := .str "wf-1"
  name := .str "flow"
  status := .str "failed"
  mainSessionId := .null
  mainTakeover := true
  currentNodeId := .str "a"
  runId := .null
  createdAt := .str "2026-01-01"
  updatedAt := .str "2026-01-02"
  startedAt := .null
  completedAt := .null
  nodeStates := [("a", nestedState)]
  snapshotDefinition := .null
  parameterValues := .dict []
  snapshotVariables := .null
  workspaceOverride := .null
  workspaceMode := .str "legacy_shared"
  workspaceRef := .null
  disabledNodeIds := .list []
  schemeId := .null
  controlFlowState := [("loop", .int 2)]
  executorId := .null
  executorEpoch := .null

/-- The definition of `oneEdge`, read. -/
def oneEdgeFlow : WorkflowDef Empty where
  workflowId := .str "wf-1"
  name := .str "flow"
  version := 1
  createdAt := .str "2026-01-01"
  updatedAt := .str "2026-01-01"
  nodes :=
    [{ id := .str "a", label := .str "", nodeType := .str "agent", agentType := .str "default",
       systemPromptTemplate := .str "", firstMessage := .str "", position := pointAt 0 0,
       varBindings := [], nodeParams := .dict [], autoFlow := .bool false,
       enableCompleteNodeTask := .bool true, outputVariable := .str "",
       enableRejectUpstream := .bool false, maxRejectCount := 3, saveOutputToFile := .bool false,
       outputFilePath := .str "", requireNonEmptyOutput := .bool false,
       retryEmptyOutputInSession := .bool false, jsonOutputField := .str "",
       jsonOutputFieldMinChars := .int 0, modelOverride := .str "m", subWorkflowId := .null,
       subSchemeId := .null, subWorkflowParams := .dict [], failAutoSkip := .bool false,
       autoRetryCount := .int 2, autoRetryIntervalSeconds := .int 0 }]
  edges := [{ id := .str "e", source := .str "a", target := .str "__end__", condition := .null }]
  workflowVariables := []
  gateways := []
  executionSchemes := []
  httpExecutionPolicy := "public"
  startPosition := pointAt 300 50
  endPosition := pointAt 300 550

/-- The failed task and the read definition come back as they were. -/
theorem failedTask_and_oneEdgeFlow_return :
    WorkflowTask.fromDict bareRuntime ⟨"t", "now", "now"⟩ (failedTask.toDict bareRuntime)
        = some failedTask
      ∧ WorkflowDef.fromDict bareRuntime countedIds (oneEdgeFlow.toDict bareRuntime)
        = some oneEdgeFlow := by
  have hchild : AllStorable bareRuntime failedTask.nodeStates :=
    ⟨⟨⟨.inl rfl, ⟨[], rfl⟩, ⟨false, rfl⟩⟩, ⟨⟨.inr rfl, ⟨[], rfl⟩, ⟨true, rfl⟩⟩, trivial⟩, trivial⟩,
      trivial⟩
  have hread : WorkflowDef.fromDict bareRuntime countedIds (oneEdge (.str "e") (.str "m"))
      = some oneEdgeFlow := by rfl
  constructor
  · exact (snapshots_read_back bareRuntime).1 _ failedTask hchild
  apply ((snapshots_read_back bareRuntime).2 _ countedIds _ oneEdgeFlow hread).2
  constructor
  · decide
  intro _ hmem
  rw [mem_singleton.1 hmem]
  exact .inl rfl

end DeterminFlow.Persistence.Records
