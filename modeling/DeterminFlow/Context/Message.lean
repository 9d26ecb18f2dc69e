/-
  Context.Message
  **THE MESSAGES OF A MODEL CONTEXT.**

  `lc_messages` of a session is a list of chat messages.  A message says of
  itself, as a ghost, where it comes from: the turn it was made in, or the
  compaction that put it there.

  A message counts as a checkpoint when it is an assistant message that
  contains `<summary>…</summary>`, whoever wrote it.
-/
import DeterminFlow.Library.PyText
import DeterminFlow.Library.Scan

namespace DeterminFlow.Context

open Library PyText List

/-! ## Messages -/

/-- `SystemMessage`, `HumanMessage`, `AIMessage` and `ToolMessage`. -/
inductive Role where
  | system
  | human
  | ai
  | tool
  deriving DecidableEq

/-- A content block: its `type`, its text, and `str(block)`. -/
structure Block where
  kind : String
  text : String
  shown : String
  deriving DecidableEq

/-- `content` is a text or a list of blocks. -/
inductive Content where
  | text (value : String)
  | blocks (value : List Block)
  deriving DecidableEq

/-- A call in `tool_calls`; `args` is `str(args)`. -/
structure ToolCall where
  id : String
  name : String
  args : String
  deriving DecidableEq

/-- Ghost: where a message comes from. -/
inductive Origin where
  | prompt
  /-- The turn with that number. -/
  | turn (number : Nat)
  /-- A summary that replaces earlier messages. -/
  | summary
  /-- The boundary message that follows it. -/
  | boundary
  /-- The files that are read again. -/
  | attachment
  deriving DecidableEq

structure Message where
  role : Role
  content : Content
  toolCalls : List ToolCall := []
  toolCallId : String := ""
  origin : Origin := .prompt
  deriving DecidableEq

/-- `bool(content)`. -/
def Content.nonempty : Content → Bool
  | .text value => value != ""
  | .blocks value => !value.isEmpty

/-- `content if isinstance(content, str) else str(content)`. -/
def Content.shown : Content → String
  | .text value => value
  | .blocks value => "[" ++ String.intercalate ", " (value.map (·.shown)) ++ "]"

/-- `message_content_text`. -/
def Content.visibleText : Content → String
  | .text value => value
  | .blocks value =>
    String.join ((value.filter (fun b => b.kind = "text" ∨ b.kind = "text_delta")).map (·.text))

/-- `isinstance(msg, AIMessage) and msg.tool_calls`. -/
def Message.callsTools (m : Message) : Bool := m.role == .ai && !m.toolCalls.isEmpty

lemma role_of_callsTools {m : Message} (h : m.callsTools = true) : m.role = .ai := by
  unfold Message.callsTools at h
  rw [Bool.and_eq_true, beq_iff_eq] at h
  exact h.1

/-! ## Tokens -/

def isChinese (c : Char) : Bool := 0x4e00 ≤ c.toNat && c.toNat ≤ 0x9fff

/-- `estimate_tokens`: two tokens for three Chinese characters, one for four
others. -/
def estimateTokens (text : String) : Nat :=
  if text = "" then 0
  else
    let chinese := text.toList.countP isChinese
    (8 * chinese + 3 * (text.toList.length - chinese)) / 12 + 1

def messageTokens (m : Message) : Nat :=
  estimateTokens m.content.shown
    + (if m.role = .ai then (m.toolCalls.map (fun tc => estimateTokens tc.args)).sum else 0)

/-- `estimate_tokens(str(content or ""))`. -/
def contentTokens (m : Message) : Nat :=
  if m.content.nonempty then estimateTokens m.content.shown else 0

/-- `estimate_messages_tokens`, tool calls included. -/
def estimateMessagesTokens (messages : List Message) : Nat :=
  (messages.map (fun m => contentTokens m
    + (if m.role = .ai then (m.toolCalls.map (fun tc => estimateTokens tc.args)).sum else 0))).sum

/-! ## Checkpoints -/

/-- What stands before and after the first occurrence of `pattern`. -/
def cut? (pattern : List Char) : List Char → Option (List Char × List Char)
  | [] => if pattern = [] then some ([], []) else none
  | c :: rest =>
    if pattern.isPrefixOf (c :: rest) then some ([], (c :: rest).drop pattern.length)
    else (cut? pattern rest).map (fun parts => (c :: parts.1, parts.2))

lemma cut?_suffix (pattern before after : List Char) :
    ∃ x y, cut? pattern (before ++ pattern ++ after) = some (x, y) ∧ after <:+ y := by
  induction before with
  | nil =>
    cases hp : pattern with
    | nil => cases after <;> simp [cut?]
    | cons => simp [cut?]
  | cons c before ih =>
    simp only [cons_append, cut?]
    split
    · refine ⟨[], _, rfl, ?_⟩
      have hle : pattern.length ≤ (c :: (before ++ pattern)).length := by
        simp only [length_cons, length_append]
        omega
      rw [← cons_append, drop_append_of_le_length hle]
      exact suffix_append _ _
    obtain ⟨x, y, hcut, hsuffix⟩ := ih
    refine ⟨c :: x, y, ?_, hsuffix⟩
    rw [hcut]
    rfl

/-- `<summary>`. -/
def openTag : List Char := "<summary>".toList

/-- `</summary>`. -/
def closeTag : List Char := "</summary>".toList

/-- The group of `re.search(r"<summary>(.*?)</summary>", text, re.DOTALL)`. -/
def summaryGroup? (text : List Char) : Option (List Char) :=
  (cut? openTag text).bind (fun parts => (cut? closeTag parts.2).map (·.1))

lemma summaryGroup?_isSome (before inner after : List Char) :
    (summaryGroup? (before ++ openTag ++ (inner ++ closeTag ++ after))).isSome = true := by
  obtain ⟨_, y, hopen, z, hy⟩ := cut?_suffix openTag before (inner ++ closeTag ++ after)
  obtain ⟨_, _, hclose, -⟩ := cut?_suffix closeTag (z ++ inner) after
  have hrest : y = z ++ inner ++ closeTag ++ after := by
    rw [← hy]
    simp only [append_assoc]
  unfold summaryGroup?
  rw [hopen, Option.bind_some, Option.isSome_map, hrest, hclose]
  rfl

def isCheckpoint (m : Message) : Bool :=
  m.role == .ai && (summaryGroup? m.content.shown.toList).isSome

def findLatestCheckpointIndex (messages : List Message) : Option Nat :=
  scanDown (fun i => (messages[i]?).any isCheckpoint) 0 messages.length

/-! ## Pairs of tool calls and results -/

def toolMessageIds (messages : List Message) : List String :=
  (messages.filter (·.role = .tool)).map (·.toolCallId)

def toolCallIds (messages : List Message) : List String :=
  (messages.filter (·.callsTools)).flatMap (fun m => m.toolCalls.map (·.id))

/-- An assistant message that lacks a result loses its calls, and is dropped
when it has no text. -/
def sanitizeCalls (answered : List String) (m : Message) : Option Message :=
  if m.callsTools && m.toolCalls.any (fun tc => !answered.contains tc.id) then
    if m.content.nonempty then some { m with toolCalls := [] } else none
  else some m

def sanitizeToolPairs (messages : List Message) : List Message :=
  let sanitized := messages.filterMap (sanitizeCalls (toolMessageIds messages))
  sanitized.filter (fun m => m.role ≠ .tool ∨ m.toolCallId ∈ toolCallIds sanitized)

end DeterminFlow.Context
