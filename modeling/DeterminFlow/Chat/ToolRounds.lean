/-
  Chat.ToolRounds
  **THE ROUNDS OF TOOL CALLS IN ONE RUN.**

  The node of the model strips the calls that would use up the last round, the
  router ends a run that has no round left, and the guard refuses a call
  without one.  A response that keeps its calls leaves a round over, so the
  router sends it on and the guard lets its calls pass.
-/
import DeterminFlow.Context.Message

namespace DeterminFlow.Chat.ToolRounds

open Context List

/-! ## The two nodes and the edge between them -/

structure AgentState where
  messages : List Message
  remainingRounds : Int
  deriving DecidableEq

/-- What the model answers to one request. -/
structure Response where
  content : Content
  toolCalls : List ToolCall
  deriving DecidableEq

def Response.message (r : Response) : Message :=
  { role := .ai, content := r.content, toolCalls := r.toolCalls }

def Response.stripped (r : Response) : Message :=
  { role := .ai
    content := if r.content.nonempty then r.content
      else .text "[工具调用已因轮次耗尽被跳过，请继续对话]" }

/-- `llm_node`, from the response on. -/
def llmNode (r : Response) (s : AgentState) : AgentState :=
  if r.toolCalls = [] then { s with messages := s.messages ++ [r.message] }
  else if s.remainingRounds ≤ 1 then ⟨s.messages ++ [r.stripped], 0⟩
  else ⟨s.messages ++ [r.message], s.remainingRounds - 1⟩

/-- `should_continue`; false is `__end__`. -/
def shouldContinue (s : AgentState) : Bool :=
  (s.messages.getLast?.any Message.callsTools) && decide (0 < s.remainingRounds)

/-- `RoundsGuard.check`: the reason of a refusal. -/
def roundsGuard (s : AgentState) : Option String :=
  if s.remainingRounds ≤ 0 then
    some "工具调用次数已达本轮上限，无法继续执行。请根据已有信息直接回复用户。"
  else none

/-- `_awrap`: one call behind the guard. -/
def awrap (execute : ToolCall → Content) (s : AgentState) (call : ToolCall) : Message :=
  { role := .tool
    toolCallId := call.id
    content := ((roundsGuard s).map (fun reason => Content.text ("[错误] " ++ reason))).getD
      (execute call) }

def lastCalls (s : AgentState) : List ToolCall :=
  (s.messages.getLast?.map (·.toolCalls)).getD []

def toolNode (execute : ToolCall → Content) (s : AgentState) : AgentState :=
  { s with messages := s.messages ++ (lastCalls s).map (awrap execute s) }

/-- A run that reached `__end__`. -/
structure Finished where
  state : AgentState
  responses : Nat
  refused : Nat
  deriving DecidableEq

section
variable (responses : Nat → Response) (execute : Nat → ToolCall → Content)

/-- The graph from the node of the model on. -/
def runGraph : (fuel turn refused : Nat) → AgentState → Option Finished
  | 0, _, _, _ => none
  | fuel + 1, turn, refused, s =>
    let s := llmNode (responses turn) s
    if shouldContinue s then
      runGraph fuel (turn + 1)
        (refused + if (roundsGuard s).isSome then (lastCalls s).length else 0)
        (toolNode (execute turn) s)
    else some ⟨s, turn + 1, refused⟩

end

/-! ## Calls and their results -/

/-- Every message with calls is followed by their results, in order. -/
def Answered : List Message → Prop
  | [] => True
  | m :: rest =>
    (m.callsTools = true → m.toolCalls.map (fun call => (Role.tool, call.id))
      <+: rest.map (fun result => (result.role, result.toolCallId))) ∧ Answered rest

lemma Answered.append {before after : List Message} (hbefore : Answered before)
    (hafter : Answered after) : Answered (before ++ after) := by
  induction before with
  | nil => exact hafter
  | cons m before ih =>
    refine ⟨fun hm => (hbefore.1 hm).trans ?_, ih hbefore.2⟩
    exact map_append ▸ prefix_append _ _

lemma answered_silent {messages : List Message}
    (h : ∀ m ∈ messages, m.callsTools = false) : Answered messages := by
  induction messages with
  | nil => trivial
  | cons m rest ih =>
    refine ⟨fun hm => ?_, ih fun m hm => h m (mem_cons_of_mem _ hm)⟩
    rw [h m mem_cons_self] at hm
    cases hm

lemma answered_round (execute : ToolCall → Content) (s : AgentState) (r : Response)
    {rest : List Message} (hrest : Answered rest) :
    Answered (r.message :: (r.toolCalls.map (awrap execute s) ++ rest)) := by
  refine ⟨fun _ => ?_, (answered_silent fun _ hm => ?_).append hrest⟩
  · rw [map_append, map_map]
    exact prefix_append _ _
  obtain ⟨_, -, rfl⟩ := mem_map.1 hm
  rfl

/-! ## What the nodes do -/

lemma llmNode_ends {r : Response} {s : AgentState}
    (h : r.toolCalls = [] ∨ s.remainingRounds ≤ 1) :
    ∃ m : Message, m.role = .ai ∧ m.toolCalls = [] ∧
      (llmNode r s).messages = s.messages ++ [m] ∧ shouldContinue (llmNode r s) = false := by
  unfold llmNode
  by_cases hcalls : r.toolCalls = []
  · rw [if_pos hcalls]
    exact ⟨r.message, rfl, hcalls, rfl, by
      simp [shouldContinue, Message.callsTools, Response.message, hcalls]⟩
  rw [if_neg hcalls, if_pos (h.resolve_left hcalls)]
  exact ⟨r.stripped, rfl, rfl, rfl, by simp [shouldContinue]⟩

lemma llmNode_goes_on {r : Response} {s : AgentState} (hcalls : r.toolCalls ≠ [])
    (hrounds : 1 < s.remainingRounds) :
    llmNode r s = ⟨s.messages ++ [r.message], s.remainingRounds - 1⟩ ∧
      shouldContinue (llmNode r s) = true ∧ roundsGuard (llmNode r s) = none ∧
      lastCalls (llmNode r s) = r.toolCalls := by
  have heq : llmNode r s = ⟨s.messages ++ [r.message], s.remainingRounds - 1⟩ := by
    unfold llmNode
    rw [if_neg hcalls, if_neg (by omega)]
  refine ⟨heq, ?_, ?_, ?_⟩ <;> rw [heq]
  · simp [shouldContinue, Message.callsTools, Response.message, hcalls]
    omega
  · exact if_neg (by dsimp only; omega)
  simp [lastCalls, Response.message]

/-! ## The run -/

/-- **The run ended in its rounds**, with every call answered and none refused. -/
structure Ended (history : List Message) (bound : Nat) (f : Finished) : Prop where
  responses_le : f.responses ≤ bound
  refused : f.refused = 0
  answered : ∃ rest, f.state.messages = history ++ rest ∧ Answered rest ∧
    ∃ last, rest.getLast? = some last ∧ last.role = .ai ∧ last.toolCalls = []

variable {responses : Nat → Response} {execute : Nat → ToolCall → Content}

lemma runGraph_ends (fuel turn : Nat) {s : AgentState} (hpos : 0 < fuel)
    (hfuel : s.remainingRounds ≤ fuel) :
    ∃ f, runGraph responses execute fuel turn 0 s = some f ∧ Ended s.messages (turn + fuel) f := by
  induction fuel generalizing turn s with
  | zero => cases hpos
  | succ fuel ih =>
    unfold runGraph
    by_cases h : (responses turn).toolCalls = [] ∨ s.remainingRounds ≤ 1
    · obtain ⟨m, hrole, hcalls, hmessages, hend⟩ := llmNode_ends h
      refine ⟨⟨llmNode (responses turn) s, turn + 1, 0⟩, if_neg (by simp [hend]),
        by dsimp only; omega, rfl, [m], hmessages, answered_silent fun _ hm' => ?_, m, rfl, hrole,
        hcalls⟩
      rw [mem_singleton.1 hm']
      simp [Message.callsTools, hcalls]
    -- the calls are kept, so a round is left for the guard and for the rest
    obtain ⟨hcalls, hrounds⟩ := not_or.1 h
    obtain ⟨heq, hgo, hguard, hlast⟩ := llmNode_goes_on (r := responses turn) hcalls
      (Int.not_le.1 hrounds)
    obtain ⟨f, hrun, _, hrefused, rest, hmessages, hrest, last, hend, hai⟩ :=
      ih (turn + 1) (s := toolNode (execute turn) (llmNode (responses turn) s))
        (by omega) (by simp only [toolNode, heq]; omega)
    refine ⟨f, ?_, by omega, hrefused, (responses turn).message :: ((responses turn).toolCalls.map
      (awrap (execute turn) (llmNode (responses turn) s)) ++ rest), ?_,
      answered_round _ _ _ hrest, last, ?_, hai⟩
    · simp only [hgo, if_true, hguard, Option.isSome_none, Bool.false_eq_true, if_false]
      exact hrun
    · rw [hmessages, toolNode, hlast]
      simp only [heq, append_assoc, cons_append, nil_append]
    rw [getLast?_cons, getLast?_append, hend]
    rfl

/-- **A run ends in its rounds, with every call answered.** -/
theorem runGraph_within_rounds (responses : Nat → Response)
    (execute : Nat → ToolCall → Content) (history : List Message) (rounds : Nat) :
    ∃ f, runGraph responses execute (max rounds 1) 0 0 ⟨history, rounds⟩ = some f ∧
      Ended history (max rounds 1) f ∧ (Answered history → Answered f.state.messages) := by
  obtain ⟨f, hrun, hended⟩ := @runGraph_ends responses execute (max rounds 1) 0
    ⟨history, rounds⟩ (by omega) (by dsimp only; omega)
  rw [Nat.zero_add] at hended
  obtain ⟨_, hmessages, hrest, -⟩ := hended.answered
  exact ⟨f, hrun, hended, fun hhistory => hmessages ▸ hhistory.append hrest⟩

end DeterminFlow.Chat.ToolRounds
