/-
  Usage.Aggregation
  **WHICH NODE PAYS FOR A CALL.**

  `aggregate_token_usage` walks the node states, normalises the rows of their
  call ledgers, prices all rows in one list, and then looks each row of a node
  up in that list: by its id, or, without one, by node, session and call
  index, where the first row that fits is taken.  The groups by model and by
  agent type are those of the nodes' token totals.
-/
import Mathlib.Algebra.Order.BigOperators.Group.List
import Mathlib.Algebra.Order.Ring.NNRat
import Mathlib.Data.List.Pairwise
import Mathlib.Tactic.NormNum
import DeterminFlow.Library.Dict

namespace DeterminFlow.Usage

open Library List

/-! ## Rows -/

/-- `TOKEN_KEYS`. -/
inductive TokenKey where
  | promptTokens
  | completionTokens
  | totalTokens
  | cachedTokens
  | reasoningTokens
  | callCount
  deriving DecidableEq

def tokenKeys : List TokenKey :=
  [.promptTokens, .completionTokens, .totalTokens, .cachedTokens, .reasoningTokens, .callCount]

/-- The `_safe_int` of each token field. -/
abbrev Counts : Type := TokenKey → Nat

def zeroUsage : Counts := fun _ => 0

def addToAggregate (target modelData : Counts) : Counts :=
  fun key => target key + modelData key

/-- A `call_id` as the code reads it: `str(call_id)`, which is empty for a row
without the field, and whether the value counts as true. -/
structure CallId where
  text : String
  truthy : Bool
  deriving DecidableEq

def CallId.usable (id : CallId) : Bool := id.text ≠ "" && id.truthy

section
variable {ι ρ : Type}

/-- A row of `token_usage_calls`; `ι` are the values of `call_index` up to
`==`, and `ρ` the fields that only the price reads. -/
structure RawCall (ι ρ : Type) where
  callId : CallId
  callIndex : ι
  /-- The text of a value that counts as true. -/
  sessionId : Option String
  /-- The text of a value that counts as true. -/
  agentType : Option String
  provider : String
  model : String
  modelId : String
  counts : Counts
  other : ρ

/-- A normalised row. -/
structure Call (ι ρ : Type) where
  callId : CallId
  callIndex : ι
  sessionId : String
  agentType : String
  provider : String
  model : String
  modelId : String
  nodeId : String
  nodeStatus : String
  counts : Counts
  other : ρ

/-- `text or other`. -/
def orElse (text other : String) : String := if text = "" then other else text

/-- `model_id.split(":", 1)`, when there is a colon. -/
def splitColon (modelId : String) : Option (String × String) :=
  match modelId.toList.span (· ≠ ':') with
  | (before, _ :: after) => some (String.ofList before, String.ofList after)
  | (_, []) => none

def normalizeCall (nodeId agentType status sessionId : String) (call : RawCall ι ρ) : Call ι ρ :=
  let modelId :=
    if call.modelId = "" ∧ call.provider ≠ "" ∧ call.model ≠ "" then
      s!"{call.provider}:{call.model}"
    else call.modelId
  let inferred := splitColon modelId
  let provider := orElse call.provider ((inferred.map (·.1)).getD "")
  let model := orElse call.model ((inferred.map (·.2)).getD "")
  { callId := call.callId
    callIndex := call.callIndex
    sessionId := call.sessionId.getD sessionId
    agentType := if agentType = "unknown" then call.agentType.getD "unknown" else agentType
    provider := orElse provider "unknown"
    model := orElse model (orElse modelId "unknown")
    modelId := orElse modelId "unknown"
    nodeId := nodeId
    nodeStatus := status
    counts := fun key =>
      if key = .callCount ∧ call.counts .callCount = 0 then 1 else call.counts key
    other := call.other }

/-! ## Costs -/

/-- A row with its price; `none` for an unpriced one. -/
structure PricedCall (ι ρ : Type) where
  call : Call ι ρ
  amount : Option NNRat

/-- `price_usage_calls`: every row is priced by itself. -/
def priceUsageCalls (price : Call ι ρ → Option NNRat) (calls : List (Call ι ρ)) :
    List (PricedCall ι ρ) :=
  calls.map (fun call => { call := call, amount := price call })

inductive CostStatus where
  | noUsage
  | priced
  | partiallyPriced
  | unpriced
  deriving DecidableEq

structure CostSummary where
  costStatus : CostStatus
  currency : String
  amount : NNRat
  pricedCallCount : Nat
  unpricedCallCount : Nat
  pricedUsage : Counts
  unpricedUsage : Counts

def usageOf (calls : List (PricedCall ι ρ)) : Counts :=
  calls.foldl (fun usage call => addToAggregate usage call.call.counts) zeroUsage

def amountOf (calls : List (PricedCall ι ρ)) : NNRat :=
  (calls.map (fun call => call.amount.getD 0)).sum

def costSummary (usage : Counts) (calls : List (PricedCall ι ρ)) (currency : String) :
    CostSummary :=
  let pricedCalls := calls.filter (fun call => call.amount.isSome)
  let unpricedCalls := calls.filter (fun call => call.amount.isNone)
  let unledgered : Counts := fun key => usage key - usageOf calls key
  let hasUnledgered := tokenKeys.any (fun key => unledgered key ≠ 0)
  let hasPriced := !pricedCalls.isEmpty
  let hasUnpriced := !unpricedCalls.isEmpty || hasUnledgered
  { costStatus :=
      if tokenKeys.all (fun key => usage key = 0) then .noUsage
      else if hasPriced && !hasUnpriced then .priced
      else if hasPriced then .partiallyPriced
      else .unpriced
    currency := currency
    amount := amountOf calls
    pricedCallCount := pricedCalls.length
    unpricedCallCount := unpricedCalls.length + unledgered .callCount
    pricedUsage := usageOf pricedCalls
    unpricedUsage := addToAggregate (usageOf unpricedCalls) unledgered }

def attachGroupCosts (groups : Dict String Counts) (calls : List (PricedCall ι ρ))
    (groupKey : Call ι ρ → String) (currency : String) : Dict String (Counts × CostSummary) :=
  groups.mapValues (fun value usage =>
    (usage, costSummary usage (calls.filter (fun call => groupKey call.call = value)) currency))

/-! ## The walk over the node states -/

/-- An event of `rejection_history`. -/
structure Rejection where
  /-- `rejection_id`, or the JSON text of the event. -/
  identity : String
  retryCallIds : List String
  deriving DecidableEq

/-- What the aggregation reads of a node state. -/
inductive UsageState (ι ρ : Type) where
  /-- `tokenUsage`: the model ids with their data, `none` where that is no
  dictionary; `calls`: the rows, `none` where that is no dictionary;
  `histories`: the rejection histories of the iterations, then the node's. -/
  | mk (tokenUsage : List (String × Option Counts)) (calls : List (Option (RawCall ι ρ)))
      (status sessionId : String) (histories : List (List Rejection))
      (childStates : List (String × UsageState ι ρ))

/-- `f"{parent_id}/{raw_node_id}"`, or the id itself at the top. -/
def qualifiedId (parentId rawNodeId : String) : String :=
  if parentId = "" then rawNodeId else s!"{parentId}/{rawNodeId}"

mutual

def iterNodeStates (parentId : String) :
    List (String × UsageState ι ρ) → List (String × String × UsageState ι ρ)
  | [] => []
  | (rawNodeId, state) :: rest =>
    (qualifiedId parentId rawNodeId, rawNodeId, state) ::
      (iterChildStates (qualifiedId parentId rawNodeId) state ++ iterNodeStates parentId rest)

def iterChildStates (nodeId : String) :
    UsageState ι ρ → List (String × String × UsageState ι ρ)
  | .mk _ _ _ _ _ childStates => iterNodeStates nodeId childStates

end

/-- `_iter_rejection_history`: every event once. -/
def iterRejectionHistory : List Rejection → List String → List Rejection
  | [], _ => []
  | event :: rest, seen =>
    if event.identity ∈ seen then iterRejectionHistory rest seen
    else event :: iterRejectionHistory rest (event.identity :: seen)

/-- An entry of `nodes_detail` before the prices. -/
structure NodeDetail (ι ρ : Type) where
  nodeId : String
  agentType : String
  status : String
  sessionId : String
  modelIds : List String
  tokenUsage : List (String × Option Counts)
  usage : Counts
  calls : List (Call ι ρ)

/-- What the loop over the nodes accumulates. -/
structure Collected (ι ρ : Type) where
  nodesDetail : List (NodeDetail ι ρ) := []
  byModel : Dict String Counts := []
  byAgentType : Dict String Counts := []
  total : Counts := zeroUsage
  rawCalls : List (Call ι ρ) := []
  rawRejections : List Rejection := []
  seenCallIds : List String := []

def collectCalls (normalize : RawCall ι ρ → Call ι ρ) :
    List (Option (RawCall ι ρ)) → List String → List (Call ι ρ) × List String
  | [], seen => ([], seen)
  | none :: rest, seen => collectCalls normalize rest seen
  | some item :: rest, seen =>
    let call := normalize item
    if call.callId.text ≠ "" ∧ call.callId.text ∈ seen then collectCalls normalize rest seen
    else
      let later := collectCalls normalize rest
        (if call.callId.text = "" then seen else call.callId.text :: seen)
      (call :: later.1, later.2)

def addToGroup (groups : Dict String Counts) (key : String) (modelData : Counts) :
    Dict String Counts :=
  groups.set key (addToAggregate ((groups.get? key).getD zeroUsage) modelData)

def addModel (agentType : String) (acc : Collected ι ρ) (modelId : String) (modelData : Counts) :
    Collected ι ρ :=
  { acc with
    byModel := addToGroup acc.byModel modelId modelData
    byAgentType := addToGroup acc.byAgentType agentType modelData
    total := addToAggregate acc.total modelData }

def modelsOf (tokenUsage : List (String × Option Counts)) : List (String × Counts) :=
  tokenUsage.filterMap (fun entry => entry.2.map (fun modelData => (entry.1, modelData)))

def recordedAgentType (agentType : String) (calls : List (Call ι ρ)) : Option String :=
  if agentType = "unknown" then (calls.head?.map (·.agentType)).filter (· ≠ "") else none

def relabel (recorded : Option String) (calls : List (Call ι ρ)) : List (Call ι ρ) :=
  match recorded with
  | some agentType => calls.map (fun call => { call with agentType := agentType })
  | none => calls

def visitNode (nodeAgentMap : Dict String String) (acc : Collected ι ρ)
    (node : String × String × UsageState ι ρ) : Collected ι ρ :=
  match node with
  | (nodeId, rawNodeId, .mk tokenUsage rawCalls status sessionId histories _) =>
    let acc :=
      { acc with
        rawRejections := acc.rawRejections ++ iterRejectionHistory histories.flatten [] }
    if tokenUsage = [] ∧ rawCalls = [] then acc
    else
      let mapped :=
        (nodeAgentMap.get? nodeId).getD ((nodeAgentMap.get? rawNodeId).getD "unknown")
      let collected := collectCalls (normalizeCall nodeId mapped status sessionId) rawCalls
        acc.seenCallIds
      let recorded := recordedAgentType mapped collected.1
      let agentType := recorded.getD mapped
      let calls := relabel recorded collected.1
      let models := modelsOf tokenUsage
      let detail : NodeDetail ι ρ :=
        { nodeId := nodeId
          agentType := agentType
          status := status
          sessionId := sessionId
          modelIds := models.map (·.1)
          tokenUsage := tokenUsage
          usage := models.foldl (fun usage entry => addToAggregate usage entry.2) zeroUsage
          calls := calls }
      let acc :=
        { acc with
          nodesDetail := acc.nodesDetail ++ [detail]
          rawCalls := acc.rawCalls ++ calls
          seenCallIds := collected.2 }
      models.foldl (fun acc entry => addModel agentType acc entry.1 entry.2) acc

def collect (nodeAgentMap : Dict String String) (nodeStates : List (String × UsageState ι ρ)) :
    Collected ι ρ :=
  (iterNodeStates "" nodeStates).foldl (visitNode nodeAgentMap) {}

/-! ## Attribution -/

def sameCall [DecidableEq ι] (nodeId : String) (raw call : Call ι ρ) : Bool :=
  call.nodeId = nodeId && call.sessionId = raw.sessionId && call.callIndex = raw.callIndex

def callsById (pricedCalls : List (PricedCall ι ρ)) : Dict String (PricedCall ι ρ) :=
  (pricedCalls.filter (fun call => call.call.callId.truthy)).foldl
    (fun byId call => byId.set call.call.callId.text call) []

def attributed [DecidableEq ι] (pricedCalls : List (PricedCall ι ρ)) (nodeId : String)
    (raw : Call ι ρ) : PricedCall ι ρ :=
  let byId :=
    if raw.callId.text = "" then none else (callsById pricedCalls).get? raw.callId.text
  match byId with
  | some call => call
  | none =>
    (pricedCalls.find? (fun call => sameCall nodeId raw call.call)).getD
      { call := raw, amount := none }

/-- An entry of `nodes_detail` with its prices. -/
structure NodeCost (ι ρ : Type) where
  detail : NodeDetail ι ρ
  calls : List (PricedCall ι ρ)
  cost : CostSummary

/-- A rejection event with the cost of its retries. -/
structure RejectionCost where
  event : Rejection
  retryUsage : Counts
  retryCost : CostSummary

/-- What `aggregate_token_usage` returns. -/
structure Aggregate (ι ρ : Type) where
  calls : List (PricedCall ι ρ)
  rejections : List RejectionCost
  nodes : List (NodeCost ι ρ)
  byModel : Dict String (Counts × CostSummary)
  byAgentType : Dict String (Counts × CostSummary)
  total : Counts
  cost : CostSummary

/-- `aggregate_token_usage`, for the prices that a configuration gives. -/
def aggregateTokenUsage [DecidableEq ι] (price : Call ι ρ → Option NNRat) (currency : String)
    (nodeAgentMap : Dict String String) (nodeStates : List (String × UsageState ι ρ)) :
    Aggregate ι ρ :=
  let acc := collect nodeAgentMap nodeStates
  let pricedCalls := priceUsageCalls price acc.rawCalls
  { calls := pricedCalls
    rejections := acc.rawRejections.map (fun event =>
      let eventCalls :=
        pricedCalls.filter (fun call => call.call.callId.text ∈ event.retryCallIds)
      { event := event
        retryUsage := usageOf eventCalls
        retryCost := costSummary (usageOf eventCalls) eventCalls currency })
    nodes := acc.nodesDetail.map (fun node =>
      let nodeCalls := node.calls.map (attributed pricedCalls node.nodeId)
      { detail := node
        calls := nodeCalls
        cost := costSummary node.usage nodeCalls currency })
    byModel := attachGroupCosts acc.byModel pricedCalls (·.modelId) currency
    byAgentType := attachGroupCosts acc.byAgentType pricedCalls (·.agentType) currency
    total := acc.total
    cost := costSummary acc.total pricedCalls currency }

/-- The amounts of the nodes, of the models and of the agent types each add up
to the total. -/
structure CostsAgree (out : Aggregate ι ρ) : Prop where
  nodes : (out.nodes.map (·.cost.amount)).sum = out.cost.amount
  models : (out.byModel.map (·.2.2.amount)).sum = out.cost.amount
  agentTypes : (out.byAgentType.map (·.2.2.amount)).sum = out.cost.amount

/-! ## What the walk collects -/

def idsApart (a b : Call ι ρ) : Prop := a.callId.text ≠ "" → a.callId.text ≠ b.callId.text

instance : Std.Symm (idsApart (ι := ι) (ρ := ρ)) where
  symm := by
    intro a b h hb heq
    exact h (heq ▸ hb) heq.symm

/-- The rows, the nodes and the groups fit together. -/
structure Collected.Sound (acc : Collected ι ρ) : Prop where
  rows : acc.rawCalls = acc.nodesDetail.flatMap (·.calls)
  ofNode : ∀ n ∈ acc.nodesDetail, ∀ c ∈ n.calls, c.nodeId = n.nodeId
  apart : acc.rawCalls.Pairwise idsApart
  seen : ∀ c ∈ acc.rawCalls, c.callId.text ≠ "" → c.callId.text ∈ acc.seenCallIds
  modelKeys : ∀ m, m ∈ acc.byModel.keys ↔ ∃ n ∈ acc.nodesDetail, m ∈ n.modelIds
  agentKeys : ∀ a, a ∈ acc.byAgentType.keys ↔
    ∃ n ∈ acc.nodesDetail, n.agentType = a ∧ n.modelIds ≠ []
  modelsNodup : acc.byModel.keys.Nodup
  agentsNodup : acc.byAgentType.keys.Nodup

lemma collectCalls_sound (normalize : RawCall ι ρ → Call ι ρ)
    (items : List (Option (RawCall ι ρ))) (seen : List String) : let out :=collectCalls normalize items seen
    (∀ c ∈ out.1, ∃ item, c = normalize item) ∧ out.1.Pairwise idsApart ∧
      (∀ c ∈ out.1, c.callId.text ≠ "" → c.callId.text ∉ seen ∧ c.callId.text ∈ out.2) ∧
      ∀ id ∈ seen, id ∈ out.2 := by
  induction items generalizing seen with
  | nil => exact ⟨by simp [collectCalls], by simp [collectCalls], by simp [collectCalls], fun _ h => h⟩
  | cons item rest ih =>
    cases item with
    | none => exact ih seen
    | some item =>
      unfold collectCalls
      dsimp only
      split
      · exact ih seen
      rename_i hnew
      obtain ⟨hnorm, hapart, hids, hseen⟩ :=
        ih (if (normalize item).callId.text = "" then seen
          else (normalize item).callId.text :: seen)
      have hold : ∀ id ∈ seen, id ∈ (if (normalize item).callId.text = "" then seen
          else (normalize item).callId.text :: seen) := by
        intro id hid
        split
        · exact hid
        exact mem_cons_of_mem _ hid
      refine ⟨?_, ?_, ?_, fun id hid => hseen id (hold id hid)⟩
      · intro c hc
        rcases mem_cons.1 hc with rfl | hc
        · exact ⟨item, rfl⟩
        exact hnorm c hc
      · refine pairwise_cons.2 ⟨fun c hc hne heq => ?_, hapart⟩
        refine (hids c hc (heq ▸ hne)).1 ?_
        rw [if_neg hne, heq]
        exact mem_cons_self
      intro c hc hne
      rcases mem_cons.1 hc with rfl | hc
      · refine ⟨fun hmem => hnew ⟨hne, hmem⟩, hseen _ ?_⟩
        rw [if_neg hne]
        exact mem_cons_self
      exact ⟨fun hmem => (hids c hc hne).1 (hold _ hmem), (hids c hc hne).2⟩

variable {calls rows : List (Call ι ρ)} {α : Type} {l : List α} {row : Call ι ρ}

lemma mem_relabel {recorded : Option String} {c : Call ι ρ} (h : c ∈ relabel recorded calls) :
    ∃ c' ∈ calls, c.callId = c'.callId ∧ c.nodeId = c'.nodeId := by
  cases recorded with
  | none => exact ⟨c, h, rfl, rfl⟩
  | some =>
    obtain ⟨c', hc', rfl⟩ := mem_map.1 h
    exact ⟨c', hc', rfl, rfl⟩

lemma relabel_apart {recorded : Option String} (h : calls.Pairwise idsApart) :
    (relabel recorded calls).Pairwise idsApart := by
  cases recorded with
  | none => exact h
  | some => exact pairwise_map.2 h

lemma mem_keys_addToGroup {groups : Dict String Counts} {key other : String}
    {modelData : Counts} :
    other ∈ (addToGroup groups key modelData).keys ↔ other = key ∨ other ∈ groups.keys :=
  Dict.mem_keys_set

lemma exists_mem_concat {d : α} {p : α → Prop} :
    (∃ n ∈ l ++ [d], p n) ↔ (∃ n ∈ l, p n) ∨ p d := by
  simp [or_and_right, exists_or]

lemma foldl_addModel (agentType : String) (models : List (String × Counts))
    (acc : Collected ι ρ) : let out :=models.foldl (fun acc entry => addModel agentType acc entry.1 entry.2) acc
    (out.nodesDetail = acc.nodesDetail ∧ out.rawCalls = acc.rawCalls ∧
      out.seenCallIds = acc.seenCallIds) ∧
    (∀ m, m ∈ out.byModel.keys ↔ m ∈ models.map (·.1) ∨ m ∈ acc.byModel.keys) ∧
    (∀ a, a ∈ out.byAgentType.keys ↔ (a = agentType ∧ models ≠ []) ∨ a ∈ acc.byAgentType.keys) ∧
    (acc.byModel.keys.Nodup → out.byModel.keys.Nodup) ∧
    (acc.byAgentType.keys.Nodup → out.byAgentType.keys.Nodup) := by
  induction models generalizing acc with
  | nil => exact ⟨⟨rfl, rfl, rfl⟩, by simp, by simp, id, id⟩
  | cons entry rest ih =>
    obtain ⟨hsame, hmodel, hagent, hmodels, hagents⟩ := ih (addModel agentType acc entry.1 entry.2)
    refine ⟨hsame, fun m => ?_, fun a => ?_, fun h => ?_, fun h => ?_⟩
    · refine (hmodel m).trans ?_
      show _ ∨ m ∈ (addToGroup acc.byModel entry.1 entry.2).keys ↔ _
      rw [mem_keys_addToGroup, map_cons, mem_cons, or_left_comm, or_assoc]
    · refine (hagent a).trans ?_
      show _ ∨ a ∈ (addToGroup acc.byAgentType agentType entry.2).keys ↔ _
      rw [mem_keys_addToGroup]
      have hne : entry :: rest ≠ [] := cons_ne_nil entry rest
      tauto
    · exact hmodels (Dict.nodup_keys_set h _ _)
    exact hagents (Dict.nodup_keys_set h _ _)

lemma visitNode_sound (nodeAgentMap : Dict String String) {acc : Collected ι ρ}
    (hacc : acc.Sound) (node : String × String × UsageState ι ρ) :
    (visitNode nodeAgentMap acc node).Sound := by
  obtain ⟨nodeId, rawNodeId, tokenUsage, rawCalls, status, sessionId, histories, _⟩ :=
    node
  unfold visitNode
  dsimp only
  split
  · exact ⟨hacc.rows, hacc.ofNode, hacc.apart, hacc.seen, hacc.modelKeys, hacc.agentKeys,
      hacc.modelsNodup, hacc.agentsNodup⟩
  set mapped :=
    (nodeAgentMap.get? nodeId).getD ((nodeAgentMap.get? rawNodeId).getD "unknown") with hmapped
  obtain ⟨hnorm, hapart, hids, hseen⟩ :=
    collectCalls_sound (normalizeCall nodeId mapped status sessionId) rawCalls acc.seenCallIds
  set collected := collectCalls (normalizeCall nodeId mapped status sessionId) rawCalls
    acc.seenCallIds with hcollected
  set calls := relabel (recordedAgentType mapped collected.1) collected.1 with hcalls
  obtain ⟨⟨hnodes, hrows, hsaw⟩, hmodel, hagent, hmodels, hagents⟩ := foldl_addModel
    ((recordedAgentType mapped collected.1).getD mapped) (modelsOf tokenUsage)
    { acc with
      rawRejections := acc.rawRejections ++ iterRejectionHistory histories.flatten []
      nodesDetail := acc.nodesDetail ++
        [{ nodeId := nodeId
           agentType := (recordedAgentType mapped collected.1).getD mapped
           status := status
           sessionId := sessionId
           modelIds := (modelsOf tokenUsage).map (·.1)
           tokenUsage := tokenUsage
           usage := (modelsOf tokenUsage).foldl
            (fun usage entry => addToAggregate usage entry.2) zeroUsage
           calls := calls }]
      rawCalls := acc.rawCalls ++ calls
      seenCallIds := collected.2 }
  have hofCalls : ∀ c ∈ calls, c.nodeId = nodeId ∧
      (c.callId.text ≠ "" → c.callId.text ∉ acc.seenCallIds ∧ c.callId.text ∈ collected.2) := by
    intro c hc
    obtain ⟨c', hc', hid, hnode⟩ := mem_relabel hc
    obtain ⟨_, rfl⟩ := hnorm c' hc'
    refine ⟨hnode, fun hne => ?_⟩
    rw [hid] at hne ⊢
    exact hids _ hc' hne
  refine ⟨?_, ?_, ?_, ?_, fun _ => ?_, fun a => ?_, hmodels hacc.modelsNodup,
    hagents hacc.agentsNodup⟩
  · rw [hrows, hnodes]
    simp [hacc.rows]
  · rw [hnodes]
    intro n hn c hc
    rcases mem_append.1 hn with hn | hn
    · exact hacc.ofNode n hn c hc
    obtain rfl := mem_singleton.1 hn
    exact (hofCalls c hc).1
  · rw [hrows]
    refine pairwise_append.2 ⟨hacc.apart, relabel_apart hapart, fun a ha b hb hne heq => ?_⟩
    exact ((hofCalls b hb).2 (heq ▸ hne)).1 (heq ▸ hacc.seen a ha hne)
  · rw [hrows, hsaw]
    intro c hc hne
    rcases mem_append.1 hc with hc | hc
    · exact hseen _ (hacc.seen c hc hne)
    exact ((hofCalls c hc).2 hne).2
  · rw [hmodel, hnodes, exists_mem_concat, hacc.modelKeys]
    exact or_comm
  rw [hagent, hnodes, exists_mem_concat, hacc.agentKeys, or_comm, eq_comm (a := a),
    Ne, Ne, map_eq_nil_iff]

lemma collect_sound (nodeAgentMap : Dict String String)
    (nodeStates : List (String × UsageState ι ρ)) : (collect nodeAgentMap nodeStates).Sound := by
  unfold collect
  have hstart : ({} : Collected ι ρ).Sound := by
    constructor <;> simp [Dict.keys]
  generalize ({} : Collected ι ρ) = acc at hstart ⊢
  induction iterNodeStates "" nodeStates generalizing acc with
  | nil => exact hstart
  | cons node rest ih => exact ih _ (visitNode_sound nodeAgentMap hstart node)

/-! ## Sums over groups -/

lemma sum_groups (groupKey : Call ι ρ → String) (calls : List (PricedCall ι ρ))
    (keys : List String) (h : keys.Nodup) :
    (keys.map (fun value => amountOf (calls.filter (fun c => groupKey c.call = value)))).sum =
      amountOf (calls.filter (fun c => groupKey c.call ∈ keys)) := by
  induction keys with
  | nil => simp [amountOf]
  | cons key rest ih =>
    obtain ⟨hkey, hrest⟩ := nodup_cons.1 h
    rw [map_cons, sum_cons, ih hrest]
    -- the rows of the first group and those of the others
    clear ih
    induction calls with
    | nil => simp [amountOf]
    | cons c more ihc =>
      by_cases hc : groupKey c.call = key
      · simp only [filter_cons, hc, hkey, decide_true, ↓reduceIte, decide_false,
          Bool.false_eq_true, mem_cons, true_or] at ihc ⊢
        simp only [amountOf, map_cons, sum_cons] at ihc ⊢
        rw [add_assoc, ihc]
      by_cases hr : groupKey c.call ∈ rest
      · simp only [filter_cons, hc, hr, decide_true, ↓reduceIte, decide_false,
          Bool.false_eq_true, mem_cons, false_or] at ihc ⊢
        simp only [amountOf, map_cons, sum_cons] at ihc ⊢
        rw [add_left_comm, ihc]
      simp only [filter_cons, hc, hr, decide_false,
        Bool.false_eq_true, ↓reduceIte, mem_cons, or_self] at ihc ⊢
      exact ihc

noncomputable def onlyRow (row : Call ι ρ) : Call ι ρ → Option NNRat :=
  fun call => by
    classical
    exact if call = row then some 1 else none

lemma onlyRow_self (row : Call ι ρ) : (onlyRow row row).getD 0 = 1 := by
  simp [onlyRow]

lemma onlyRow_ne {call : Call ι ρ} (h : call ≠ row) : (onlyRow row call).getD 0 = 0 := by
  simp [onlyRow, h]

lemma onlyRow_sum (hrow : row ∈ rows) :
    (rows.map (fun call => (onlyRow row call).getD 0)).sum ≠ 0 := by
  have hone : (1 : NNRat) ≤ (rows.map (fun call => (onlyRow row call).getD 0)).sum :=
    single_le_sum (fun _ _ => bot_le) _
      (mem_map.2 ⟨row, hrow, onlyRow_self row⟩)
  intro hzero
  rw [hzero] at hone
  cases hone

lemma onlyRow_sum_zero {f : α → Call ι ρ} (h : ∀ a ∈ l, f a ≠ row) :
    (l.map (fun a => (onlyRow row (f a)).getD 0)).sum = 0 := by
  refine sum_eq_zero (fun _ hx => ?_)
  obtain ⟨a, ha, rfl⟩ := mem_map.1 hx
  exact onlyRow_ne (h a ha)

/-! ## Which row stands for a row -/

lemma eq_of_same_text (h : rows.Pairwise idsApart) {a b : Call ι ρ} (ha : a ∈ rows)
    (hb : b ∈ rows) (hne : a.callId.text ≠ "") (heq : a.callId.text = b.callId.text) : a = b := by
  by_contra hab
  exact h.forall ha hb hab hne heq

variable [DecidableEq ι]

def standIn (rows : List (Call ι ρ)) (row : Call ι ρ) : Call ι ρ :=
  if row.callId.usable then row else (rows.find? (sameCall row.nodeId row)).getD row

lemma sameCall_self (row : Call ι ρ) : sameCall row.nodeId row row = true := by
  simp [sameCall]

lemma sameCall_congr {other : Call ι ρ} (h : sameCall row.nodeId row other = true) :
    sameCall other.nodeId other = sameCall row.nodeId row := by
  simp only [sameCall, Bool.and_eq_true, decide_eq_true_eq] at h
  funext call
  simp only [sameCall, h.1.1, h.1.2, h.2]

lemma attributed_eq (price : Call ι ρ → Option NNRat) (h : rows.Pairwise idsApart)
    (hrow : row ∈ rows) : attributed (priceUsageCalls price rows) row.nodeId row =
      { call := standIn rows row, amount := price (standIn rows row) } := by
  have hfind : (priceUsageCalls price rows).find? (fun c => sameCall row.nodeId row c.call) =
      (rows.find? (sameCall row.nodeId row)).map
        (fun call => { call := call, amount := price call }) := by
    rw [priceUsageCalls, find?_map]
    rfl
  obtain ⟨first, hfirst⟩ : ∃ first, rows.find? (sameCall row.nodeId row) = some first := by
    rw [← Option.isSome_iff_exists, find?_isSome]
    exact ⟨row, hrow, sameCall_self row⟩
  unfold attributed standIn
  dsimp only
  rw [hfind, hfirst]
  by_cases hempty : row.callId.text = ""
  · simp [CallId.usable, hempty]
  rw [if_neg hempty, callsById, Dict.get?_foldl_set]
  -- a row that is found by the id is the row itself
  have hself : ∀ c ∈ (priceUsageCalls price rows).filter (fun c => c.call.callId.truthy),
      c.call.callId.text = row.callId.text → c = { call := row, amount := price row } ∧
        row.callId.truthy = true := by
    intro c hc htext
    obtain ⟨hmem, htruthy⟩ := mem_filter.1 hc
    obtain ⟨call, hcall, rfl⟩ := mem_map.1 hmem
    obtain rfl := eq_of_same_text h hrow hcall hempty htext.symm
    exact ⟨rfl, htruthy⟩
  cases htruthy : row.callId.truthy with
  | false =>
    have hnone : ((priceUsageCalls price rows).filter
        (fun c => c.call.callId.truthy)).reverse.find?
          (fun c => c.call.callId.text = row.callId.text) = none := by
      rw [find?_eq_none]
      intro c hc htext
      have := (hself c (mem_reverse.1 hc) (of_decide_eq_true htext)).2
      rw [htruthy] at this
      cases this
    rw [hnone]
    simp [CallId.usable, htruthy]
  | true =>
    have hsome : ((priceUsageCalls price rows).filter
        (fun c => c.call.callId.truthy)).reverse.find?
          (fun c => c.call.callId.text = row.callId.text) =
        some { call := row, amount := price row } := by
      have hexists : (((priceUsageCalls price rows).filter
          (fun c => c.call.callId.truthy)).reverse.find?
            (fun c => c.call.callId.text = row.callId.text)).isSome := by
        rw [find?_isSome]
        refine ⟨{ call := row, amount := price row }, ?_, by simp⟩
        rw [mem_reverse, mem_filter]
        exact ⟨mem_map_of_mem hrow, htruthy⟩
      obtain ⟨c, hc⟩ := Option.isSome_iff_exists.1 hexists
      have htext := find?_some hc
      have hmem := mem_reverse.1 (mem_of_find?_eq_some hc)
      rw [hc, (hself c hmem (of_decide_eq_true htext)).1]
    rw [hsome]
    simp [CallId.usable, htruthy, hempty]

/-! ## When the costs agree -/

/-- **Every row without a usable id is the first of its key, and the model and
the agent type of every row have a group.** -/
structure Attributable (nodeAgentMap : Dict String String)
    (nodeStates : List (String × UsageState ι ρ)) : Prop where
  first : ∀ row ∈ (collect nodeAgentMap nodeStates).rawCalls, row.callId.usable = false →
    ∀ first, (collect nodeAgentMap nodeStates).rawCalls.find? (sameCall row.nodeId row) =
      some first → first = row
  model : ∀ row ∈ (collect nodeAgentMap nodeStates).rawCalls,
    ∃ n ∈ (collect nodeAgentMap nodeStates).nodesDetail, row.modelId ∈ n.modelIds
  agentType : ∀ row ∈ (collect nodeAgentMap nodeStates).rawCalls,
    ∃ n ∈ (collect nodeAgentMap nodeStates).nodesDetail,
      n.agentType = row.agentType ∧ n.modelIds ≠ []

variable (price : Call ι ρ → Option NNRat) (currency : String)
  (nodeAgentMap : Dict String String) (nodeStates : List (String × UsageState ι ρ))

lemma nodes_amount :
    ((aggregateTokenUsage price currency nodeAgentMap nodeStates).nodes.map (·.cost.amount)).sum =
      ((collect nodeAgentMap nodeStates).rawCalls.map (fun row =>
        (price (standIn (collect nodeAgentMap nodeStates).rawCalls row)).getD 0)).sum := by
  have hsound := collect_sound nodeAgentMap nodeStates
  set acc := collect nodeAgentMap nodeStates with hacc
  -- a node pays for its own rows
  have hnode : ∀ n ∈ acc.nodesDetail,
      amountOf (n.calls.map (attributed (priceUsageCalls price acc.rawCalls) n.nodeId)) =
        (n.calls.map (fun row => (price (standIn acc.rawCalls row)).getD 0)).sum := by
    intro n hn
    unfold amountOf
    rw [map_map]
    congr 1
    refine map_congr_left (fun row hrow => ?_)
    have hmem : row ∈ acc.rawCalls := by
      rw [hsound.rows, mem_flatMap]
      exact ⟨n, hn, hrow⟩
    show (attributed _ n.nodeId row).amount.getD 0 = _
    rw [← hsound.ofNode n hn row hrow, attributed_eq price hsound.apart hmem]
  have hsum : ∀ nodes : List (NodeDetail ι ρ),
      (nodes.map (fun n =>
        (n.calls.map (fun row => (price (standIn acc.rawCalls row)).getD 0)).sum)).sum =
      ((nodes.flatMap (·.calls)).map
        (fun row => (price (standIn acc.rawCalls row)).getD 0)).sum := by
    intro nodes
    induction nodes with
    | nil => rfl
    | cons n rest ih => simp [ih]
  calc ((aggregateTokenUsage price currency nodeAgentMap nodeStates).nodes.map (·.cost.amount)).sum
      = (acc.nodesDetail.map (fun n =>
          amountOf (n.calls.map
            (attributed (priceUsageCalls price acc.rawCalls) n.nodeId)))).sum := by
        unfold aggregateTokenUsage
        rw [map_map, ← hacc]
        rfl
    _ = (acc.nodesDetail.map (fun n =>
          (n.calls.map (fun row => (price (standIn acc.rawCalls row)).getD 0)).sum)).sum := by
        rw [map_congr_left hnode]
    _ = _ := by rw [hsum, ← hsound.rows]

lemma total_amount : (aggregateTokenUsage price currency nodeAgentMap nodeStates).cost.amount =
      ((collect nodeAgentMap nodeStates).rawCalls.map (fun row => (price row).getD 0)).sum := by
  show amountOf (priceUsageCalls price _) = _
  unfold amountOf priceUsageCalls
  rw [map_map]
  rfl

lemma groups_amount (groups : Dict String Counts) (groupKey : Call ι ρ → String)
    (rows : List (Call ι ρ)) (hnodup : groups.keys.Nodup) :
    ((attachGroupCosts groups (priceUsageCalls price rows) groupKey currency).map
      (·.2.2.amount)).sum =
      ((rows.filter (fun row => groupKey row ∈ groups.keys)).map
        (fun row => (price row).getD 0)).sum := by
  have hgroups : (attachGroupCosts groups (priceUsageCalls price rows) groupKey currency).map
      (·.2.2.amount) = groups.keys.map (fun value =>
        amountOf ((priceUsageCalls price rows).filter (fun c => groupKey c.call = value))) := by
    unfold attachGroupCosts Dict.mapValues Dict.keys
    rw [map_map, map_map]
    rfl
  rw [hgroups, sum_groups groupKey _ _ hnodup]
  unfold amountOf priceUsageCalls
  rw [filter_map, map_map]
  rfl

lemma standIn_eq_self_iff : standIn rows row = row ↔ (row.callId.usable = false →
      ∀ first, rows.find? (sameCall row.nodeId row) = some first → first = row) := by
  unfold standIn
  split
  · rename_i husable
    simp [husable]
  rename_i husable
  cases hfind : rows.find? (sameCall row.nodeId row) with
  | none => simp
  | some => simp [husable]

lemma standIn_ne (h : standIn rows row ≠ row) (other : Call ι ρ) (hother : other ∈ rows) :
    standIn rows other ≠ row := by
  intro heq
  have husable : row.callId.usable = false := by
    cases hrow : row.callId.usable with
    | false => rfl
    | true => exact absurd (by simp [standIn, hrow]) h
  unfold standIn at heq
  split at heq
  · rename_i hyes
    rw [heq, husable] at hyes
    cases hyes
  -- the first row of the key of the other is the row, so it is the first of its own key
  obtain ⟨first, hfirst⟩ : ∃ first, rows.find? (sameCall other.nodeId other) = some first := by
    rw [← Option.isSome_iff_exists, find?_isSome]
    exact ⟨other, hother, sameCall_self other⟩
  rw [hfirst] at heq
  obtain rfl : first = row := heq
  have hkey := sameCall_congr (find?_some hfirst)
  refine h ?_
  unfold standIn
  rw [husable, hkey, hfirst]
  rfl

/-- **The costs add up for every price exactly when every row is attributed
to its own node, model and agent type.** -/
theorem costs_agree_iff :
    (∀ price, CostsAgree (aggregateTokenUsage price currency nodeAgentMap nodeStates)) ↔
      Attributable nodeAgentMap nodeStates := by
  have hsound := collect_sound nodeAgentMap nodeStates
  constructor
  · intro hagree
    refine ⟨fun row hrow => ?_, fun row hrow => ?_, fun row hrow => ?_⟩
    · rw [← standIn_eq_self_iff]
      by_contra hne
      have hnodes := (hagree (onlyRow row)).nodes
      rw [nodes_amount, total_amount, onlyRow_sum_zero (standIn_ne hne)] at hnodes
      exact onlyRow_sum hrow hnodes.symm
    · rw [← hsound.modelKeys]
      by_contra hkey
      have hmodels := (hagree (onlyRow row)).models
      rw [total_amount] at hmodels
      refine onlyRow_sum hrow (hmodels.symm.trans ?_)
      refine (groups_amount _ _ _ _ _ hsound.modelsNodup).trans ?_
      refine onlyRow_sum_zero (f := id) (fun c hc heq => hkey ?_)
      obtain rfl : c = row := heq
      exact of_decide_eq_true (mem_filter.1 hc).2
    rw [← hsound.agentKeys]
    by_contra hkey
    have hagents := (hagree (onlyRow row)).agentTypes
    rw [total_amount] at hagents
    refine onlyRow_sum hrow (hagents.symm.trans ?_)
    refine (groups_amount _ _ _ _ _ hsound.agentsNodup).trans ?_
    refine onlyRow_sum_zero (f := id) (fun c hc heq => hkey ?_)
    obtain rfl : c = row := heq
    exact of_decide_eq_true (mem_filter.1 hc).2
  intro hattr price
  refine ⟨?_, ?_, ?_⟩
  · rw [nodes_amount, total_amount]
    congr 1
    refine map_congr_left (fun row hrow => ?_)
    rw [standIn_eq_self_iff.2 (hattr.first row hrow)]
  · rw [total_amount]
    refine (groups_amount _ _ _ _ _ hsound.modelsNodup).trans ?_
    rw [filter_eq_self.2 (fun row hrow =>
      decide_eq_true ((hsound.modelKeys _).2 (hattr.model row hrow)))]
  rw [total_amount]
  refine (groups_amount _ _ _ _ _ hsound.agentsNodup).trans ?_
  rw [filter_eq_self.2 (fun row hrow =>
    decide_eq_true ((hsound.agentKeys _).2 (hattr.agentType row hrow)))]

end

/-! ## Two rows without ids -/

def bareRow (promptTokens : Nat) : RawCall Unit Unit where
  callId := { text := "", truthy := false }
  callIndex := ()
  sessionId := none
  agentType := none
  provider := "p"
  model := "m"
  modelId := "p:m"
  counts := fun key => if key = .promptTokens then promptTokens else 0
  other := ()

def twoBareRows : List (String × UsageState Unit Unit) :=
  [("n", .mk [("p:m", some zeroUsage)] [some (bareRow 1), some (bareRow 2)] "completed" "s" [] [])]

/-- The first row is paid twice, the second not at all. -/
theorem twoBareRows_disagree : ¬ ∀ (price : Call Unit Unit → Option NNRat)
        (nodeStates : List (String × UsageState Unit Unit)),
      CostsAgree (aggregateTokenUsage price "USD" [] nodeStates) := by
  intro hall
  have hnodes := (hall (fun call => some (call.counts .promptTokens)) twoBareRows).nodes
  rw [nodes_amount, total_amount] at hnodes
  have hrows : (collect [] twoBareRows).rawCalls =
      [normalizeCall "n" "unknown" "completed" "s" (bareRow 1),
        normalizeCall "n" "unknown" "completed" "s" (bareRow 2)] := rfl
  have hstand : ∀ row ∈ (collect [] twoBareRows).rawCalls,
      standIn (collect [] twoBareRows).rawCalls row =
        normalizeCall "n" "unknown" "completed" "s" (bareRow 1) := by
    intro row hrow
    rw [hrows] at hrow ⊢
    rcases mem_cons.1 hrow with rfl | hrow
    · rfl
    obtain rfl := mem_singleton.1 hrow
    rfl
  rw [map_congr_left (fun row hrow => by rw [hstand row hrow]), hrows] at hnodes
  have hcounts : ∀ tokens, (normalizeCall "n" "unknown" "completed" "s" (bareRow tokens)).counts
      .promptTokens = tokens := fun _ => rfl
  simp only [map_cons, map_nil, hcounts, Option.getD_some] at hnodes
  norm_num at hnodes

end DeterminFlow.Usage
