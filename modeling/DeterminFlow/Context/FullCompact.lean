/-
  Context.FullCompact
  **THE COMPACTION OF A CONTEXT.**

  The full strategy splits a context into a region that is summarised and a
  recent region that is kept, has a compressor model write the summary, and
  builds the new context.  The scheduler writes a snapshot before and after,
  and has the post-processor insert a boundary message and the files read
  lately.

  What the compressor model answers, the files that can be read and the
  exceptions of the snapshot writer come from outside.
-/
import DeterminFlow.Context.Message

namespace DeterminFlow.Context

open Library PyText

/-! ## The split -/

/-- The settings the strategy reads. -/
structure CompressionConfig where
  keepRecentTokens : Int := 51200
  maxRetryCount : Nat := 2
  keepRecentToolResults : Int := 5
  maxContextTokens : Nat := 128000
  /-- `max(1, int(maxContextTokens * toolResultTokenRatio))`. -/
  toolBudget : Nat := 51200

def systemStart (messages : List Message) : Nat :=
  ((messages.findIdx? (·.role = .system)).map (· + 1)).getD 0

def startIndex (messages : List Message) : Nat :=
  max (systemStart messages) ((findLatestCheckpointIndex messages).getD 0)

def tokensAt (messages : List Message) (i : Nat) : Nat := ((messages[i]?).map messageTokens).getD 0

def recentIndex (keepRecentTokens : Int) (messages : List Message) (start : Nat) : Nat :=
  budgetScan (tokensAt messages) keepRecentTokens start messages.length 0 messages.length

def hasRole (messages : List Message) (role : Role) (i : Nat) : Bool :=
  (messages[i]?).any (·.role = role)

/-- The tool messages from `start` on that are protected, oldest first. -/
def protectedTools (keepRecent : Int) (messages : List Message) (start : Nat) : List Nat :=
  let toolIndices := (List.range messages.length).filter
    (fun i => decide (start ≤ i) && hasRole messages .tool i)
  toolIndices.drop (toolIndices.length - min keepRecent.toNat toolIndices.length)

def callsOneOf (messages : List Message) (ids : List String) (i : Nat) : Bool :=
  (messages[i]?).any (fun m => m.callsTools && m.toolCalls.any (fun tc => ids.contains tc.id))

/-- The round of the first protected tool message: from its user message on,
or else from the message that calls one of the protected tools. -/
def roundStart (messages : List Message) (start first : Nat) (ids : List String) : Nat :=
  match scanDown (hasRole messages .human) start (first + 1) with
  | some i => i
  | none => (scanDown (callsOneOf messages ids) start first).getD first

def findProtectedToolRoundStart (keepRecent : Int) (messages : List Message) (start : Nat) :
    Option Nat :=
  let tools := protectedTools keepRecent messages start
  if keepRecent ≤ 0 then none
  else tools.head?.map (fun first => roundStart messages start first
    (tools.filterMap (fun i => (messages[i]?).map (·.toolCallId))))

/-- The index at which `_split_messages` cuts. -/
def splitIndex (cfg : CompressionConfig) (messages : List Message) : Nat :=
  let start := startIndex messages
  let split := max start (recentIndex cfg.keepRecentTokens messages start)
  match findProtectedToolRoundStart cfg.keepRecentToolResults messages start with
  | some i => min split i
  | none => split

/-- `_split_messages`: the region to summarise and the recent region. -/
def splitMessages (cfg : CompressionConfig) (messages : List Message) :
    List Message × List Message :=
  ((messages.take (splitIndex cfg messages)).drop (startIndex messages),
    messages.drop (splitIndex cfg messages))

/-! ## Clipping tool results for the compressor's request -/

/-- The binary search of `_clip_content`: `low ≤ keep_chars < high`. -/
def clipSearch (text marker : List Char) (target : Nat) :
    (fuel low high : Nat) → List Char → List Char
  | 0, _, _, best => best
  | fuel + 1, low, high, best =>
    if high ≤ low then best
    else
      let keep := (low + high - 1) / 2
      let candidate := text.take (keep / 2) ++ marker ++ text.drop (text.length - (keep - keep / 2))
      if estimateTokens (String.ofList candidate) ≤ target then
        clipSearch text marker target fuel (keep + 1) high candidate
      else clipSearch text marker target fuel low keep best

def clipContent (content : Content) (target : Nat) : String :=
  let text := if content.nonempty then content.shown else ""
  let original := estimateTokens text
  if original ≤ target then text
  else
    let marker := ("\n...[Tool result clipped: original ~" ++ toString original
      ++ " tokens]...\n").toList
    String.ofList (clipSearch text.toList marker (max 64 target) (text.toList.length + 1) 0
      (text.toList.length + 1) marker)

/-- One candidate of `compact_for_request`; `excess` is what is still too much. -/
def clipCandidate (state : List Message × Int) (index : Nat) : List Message × Int :=
  match state.1[index]? with
  | none => state
  | some m =>
    if state.2 ≤ 0 then state
    else
      let current := contentTokens m
      let target := max (min 64 current : Int) ((current : Int) - state.2)
      if (current : Int) ≤ target then state
      else
        let clipped := { m with content := .text (clipContent m.content target.toNat) }
        (state.1.set index clipped, state.2 - max 0 ((current : Int) - contentTokens clipped))

def compactForRequest (cfg : CompressionConfig) (messages : List Message) : List Message :=
  let toolIndices := (List.range messages.length).filter (hasRole messages .tool)
  let total := (toolIndices.map (fun i => ((messages[i]?).map contentTokens).getD 0)).sum
  (toolIndices.foldl clipCandidate (messages, (total : Int) - cfg.toolBudget)).1

/-! ## The summary -/

def userContentParts (m : Message) : List String :=
  match m.role with
  | .human => ["[用户消息]\n" ++ m.content.shown]
  | .ai => ("[助手消息]\n" ++ m.content.shown)
      :: m.toolCalls.map (fun tc => "[工具调用] " ++ tc.name ++ "\n" ++ tc.args)
  | .tool => ["[工具结果]\n" ++ m.content.shown]
  | .system => []

def prepareUserContent (messages : List Message) : String :=
  String.intercalate "\n\n" (messages.flatMap userContentParts)

/-- `[SystemMessage(system_prompt), HumanMessage(user_content)]`. -/
def compressorRequest (systemPrompt : String) (messages : List Message) : List Message :=
  [{ role := .system, content := .text systemPrompt },
    { role := .human, content := .text (prepareUserContent messages) }]

def prepareCompressorRequest (cfg : CompressionConfig) (systemPrompt : String)
    (messages : List Message) : Option (List Message) :=
  let request := compressorRequest systemPrompt messages
  if estimateMessagesTokens request ≤ cfg.maxContextTokens then some request
  else
    let clipped := compressorRequest systemPrompt (compactForRequest cfg messages)
    if estimateMessagesTokens clipped ≤ cfg.maxContextTokens then some clipped else none

/-- `text.strip()` on characters. -/
def strip (text : List Char) : List Char := stripChars (String.ofList text)

def withoutNestedTags (summary : List Char) : List Char :=
  let summary := if openTag.isPrefixOf summary then strip (summary.drop openTag.length) else summary
  if closeTag.isSuffixOf summary then strip (summary.take (summary.length - closeTag.length))
  else summary

/-- `re.sub(r"<analysis>.*?</analysis>", "", text)`. -/
def withoutAnalysis : (fuel : Nat) → List Char → List Char
  | 0, text => text
  | fuel + 1, text =>
    match cut? "<analysis>".toList text with
    | none => text
    | some (before, rest) =>
      match cut? "</analysis>".toList rest with
      | none => text
      | some (_, after) => before ++ withoutAnalysis fuel after

def nonemptyText (text : List Char) : Option String :=
  if text = [] then none else some (String.ofList text)

def extractSummary (content : String) : Option String :=
  let text := content.toList
  let tagged := (summaryGroup? text).bind (fun group =>
    if strip group = [] then none else nonemptyText (withoutNestedTags (strip group)))
  match tagged with
  | some summary => some summary
  | none => nonemptyText (strip (withoutAnalysis text.length text))

/-- What an attempt of the compressor model gives. -/
inductive LlmAnswer where
  | reply (content : Content)
  /-- An exception; its text in lower case. -/
  | error (text : String)

/-- The keywords of a context overflow in `error_check`. -/
def overflowKeywords : List String :=
  ["413", "context overflow", "context_length_exceeded", "maximum context length",
    "request too large", "too large", "token limit"]

def isContextOverflow (text : String) : Bool :=
  overflowKeywords.any (fun keyword => (cut? keyword.toList text.toList).isSome)

/-- The attempts of `_generate_summary`. -/
def summaryAttempts (llm : Nat → LlmAnswer) : (left attempt : Nat) → Option String
  | 0, _ => none
  | left + 1, attempt =>
    match llm attempt with
    | .reply (.text content) =>
      match extractSummary content with
      | some summary => some summary
      | none => summaryAttempts llm left (attempt + 1)
    | .reply (.blocks _) => summaryAttempts llm left (attempt + 1)
    | .error text =>
      if isContextOverflow text then none else summaryAttempts llm left (attempt + 1)

/-- What a compaction takes from outside. -/
structure Compressor where
  /-- The compressor's system prompt; `none` when building it raises. -/
  systemPrompt : Option String := some ""
  /-- The answers of the model, by attempt. -/
  llm : Nat → LlmAnswer := fun _ => .error ""
  /-- Paths and contents of the files read lately. -/
  files : List (String × String) := []
  /-- The snapshot before the compaction raises no exception. -/
  preSnapshot : Bool := true
  /-- The snapshot after it raises none. -/
  postSnapshot : Bool := true

/-- `_generate_summary`; the outer `none` is an exception, the inner one a
summary that failed. -/
def generateSummary (cfg : CompressionConfig) (compressor : Compressor) (messages : List Message) :
    Option (Option String) :=
  compressor.systemPrompt.map (fun prompt =>
    (prepareCompressorRequest cfg prompt messages).bind
      (fun _ => summaryAttempts compressor.llm (cfg.maxRetryCount + 1) 0))

/-! ## The new context -/

def summaryMessage (summary : String) : Message where
  role := .ai
  content := .text ("<summary>\n" ++ summary ++ "\n</summary>")
  origin := .summary

def buildNewMessages (messages : List Message) (summary : String) (recent : List Message) :
    List Message :=
  messages.filter (·.role = .system) ++ [summaryMessage summary]
    ++ recent.filter (·.role ≠ .system)

def onlyCheckpoint : List Message → Bool
  | [m] => isCheckpoint m
  | _ => false

/-- The summary a compaction of these messages gets: `none` when there is
nothing to summarise or the summary fails; the outer `none` is an exception. -/
def fullSummary (cfg : CompressionConfig) (compressor : Compressor) (messages : List Message) :
    Option (Option String) :=
  let compressible := (splitMessages cfg messages).1
  if compressible = [] ∨ onlyCheckpoint compressible = true then some none
  else generateSummary cfg compressor compressible

/-- `FullCompactStrategy.execute`; `none` is an exception. -/
def fullCompact (cfg : CompressionConfig) (compressor : Compressor) (messages : List Message) :
    Option (List Message) :=
  (fullSummary cfg compressor messages).map (fun summary =>
    match summary with
    | none => messages
    | some summary => buildNewMessages messages summary (splitMessages cfg messages).2)

/-- `_create_boundary_message`. -/
def boundaryMessage (fileCount : Nat) : Message where
  role := .system
  content := .text ("[Context Compact Boundary]\n\n上下文已被压缩。以下是压缩后的上下文结构：\n\n"
    ++ "1. 系统提示词（保持不变）\n2. 对话摘要（压缩后的关键信息）\n3. 本边界消息\n4. 最近的对话原文（保留）\n"
    ++ (if 0 < fileCount then "5. 近期操作的文件内容（" ++ toString fileCount ++ "个文件）\n" else "")
    ++ "\n注意：之前的对话历史已被压缩为摘要，请基于摘要继续工作。")
  origin := .boundary

/-- `_create_file_message`. -/
def fileMessage (files : List (String × String)) : Message where
  role := .system
  content := .text ("[附件文件]\n\n以下是近期操作过的文件内容，供参考：\n\n"
    ++ String.join (files.map (fun f => "--- " ++ f.1 ++ " ---\n" ++ f.2 ++ "\n\n")))
  origin := .attachment

def boundaryIndex (messages : List Message) : Nat :=
  match messages.findIdx? (·.role = .ai) with
  | some i => i + 1
  | none => 0

def insertedMessages (files : List (String × String)) : List Message :=
  boundaryMessage files.length :: (if files = [] then [] else [fileMessage files])

/-- `PostProcessor.process`. -/
def postProcess (files : List (String × String)) (messages : List Message) : List Message :=
  messages.take (boundaryIndex messages) ++ insertedMessages files
    ++ messages.drop (boundaryIndex messages)

/-- `_execute_with_snapshots`; `none` is an exception. -/
def executeWithSnapshots (cfg : CompressionConfig) (compressor : Compressor)
    (messages : List Message) : Option (List Message) :=
  if compressor.preSnapshot = false then none
  else
    (fullCompact cfg compressor messages).bind (fun compressed =>
      if compressor.postSnapshot = false then none
      else some (postProcess compressor.files compressed))

/-- `CompressionScheduler.execute` with the strategy `FULL`. -/
def executeFull (cfg : CompressionConfig) (compressor : Compressor) (messages : List Message) :
    List Message :=
  (executeWithSnapshots cfg compressor messages).getD messages

end DeterminFlow.Context
