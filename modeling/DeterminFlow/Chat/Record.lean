/-
  Chat.Record
  **THE RECORD OF A SESSION.**

  A session keeps its history twice: `record`, in a format of its own, for
  the disk and for the user, and `lc_messages`, for the model.  A message is
  written to the record field by field, and a restart makes the messages
  from the record again; entries that only the user sees are passed over.
-/
import DeterminFlow.Context.Compactions

namespace DeterminFlow.Chat

open Context Option

/-! ## Entries -/

/-- The entries that only the user sees. -/
inductive Display where
  | compressionDivider
  | planProgress
  | contentSafetyWarning
  | contentSafetyDiagnostic
  | contentFilterWarning
  | recursionLimitReached
  deriving DecidableEq

/-- The `type` of an entry. -/
inductive EntryType where
  | user
  | assistant
  | tool
  | display (kind : Display)
  deriving DecidableEq

structure Entry where
  /-- The number in `msg_{n:05d}`. -/
  id : Nat
  type : EntryType
  content : String := ""
  contentBlocks : Option (List Block) := none
  toolCalls : List ToolCall := []
  toolCallId : String := ""
  /-- Ghost: the turn it belongs to. -/
  turn : Nat
  deriving DecidableEq

/-- `msg.get("type") == "user"`. -/
def Entry.isUser (e : Entry) : Bool := e.type == .user

def turnOf (m : Message) : Option Nat :=
  if m.role = .system then none
  else
    match m.origin with
    | .turn number => some number
    | _ => none

def contentBlocks : Content → Option (List Block)
  | .text _ => none
  | .blocks value => some value

/-- The entry that `_append_to_record` appends. -/
def entryOf (id : Nat) (m : Message) : Option Entry :=
  let entry (type : EntryType) : Entry :=
    { id := id, type := type, content := m.content.visibleText,
      contentBlocks := contentBlocks m.content, turn := (turnOf m).getD 0 }
  match m.role with
  | .system => none
  | .human => some (entry .user)
  | .ai => some { entry .assistant with toolCalls := m.toolCalls }
  | .tool => some { entry .tool with toolCallId := m.toolCallId }

/-- `msg.get("content_blocks", msg.get("content", ""))`. -/
def Entry.restoredContent (e : Entry) : Content :=
  match e.contentBlocks with
  | some value => .blocks value
  | none => .text e.content

def restoreEntry (e : Entry) : Option Message :=
  match e.type with
  | .user => some { role := .human, content := e.restoredContent, origin := .turn e.turn }
  | .assistant => some { role := .ai, content := e.restoredContent, toolCalls := e.toolCalls,
                         origin := .turn e.turn }
  | .tool => some { role := .tool, content := e.restoredContent, toolCallId := e.toolCallId,
                    origin := .turn e.turn }
  | .display _ => none

def promptMessages (systemPrompt : String) : List Message := setPrompt systemPrompt []

def recordMessages (record : List Entry) : List Message := record.filterMap restoreEntry

def restoreLcFromRecord (systemPrompt : String) (record : List Entry) : List Message :=
  sanitizeToolPairs (promptMessages systemPrompt ++ recordMessages record)

def startsWithPrompt (messages : List Message) : Bool :=
  (messages.head?).any (·.role = .system)

def restoreLcFromContext (systemPrompt : String) (context : List Message) : List Message :=
  sanitizeToolPairs
    ((if startsWithPrompt context then [] else promptMessages systemPrompt) ++ context)

lemma entryOf_eq_some {id : Nat} {m : Message} {e : Entry} (h : entryOf id m = some e) :
    e.id = id ∧ e.turn = (turnOf m).getD 0 ∧ (e.isUser = true → m.role = .human) := by
  unfold entryOf at h
  cases hrole : m.role with
  | system =>
    simp only [hrole] at h
    cases h
  | human =>
    simp only [hrole] at h
    rw [← some.inj h]
    exact ⟨rfl, rfl, fun _ => rfl⟩
  | _ =>
    simp only [hrole] at h
    rw [← some.inj h]
    exact ⟨rfl, rfl, fun huser => absurd huser Bool.false_ne_true⟩

lemma restoreEntry_eq_some {e : Entry} {m : Message} (h : restoreEntry e = some m) :
    turnOf m = some e.turn ∧ m.role ≠ .system ∧ (m.role = .human ↔ e.isUser = true) := by
  unfold restoreEntry at h
  unfold Entry.isUser
  cases htype : e.type with
  | display =>
    simp only [htype] at h
    cases h
  | _ =>
    simp only [htype] at h
    rw [← some.inj h]
    exact ⟨rfl, by simp, by simp⟩

/-! ## Replies -/

/-- What a model or a tool answers in a turn. -/
inductive Reply where
  | assistant (content : Content) (toolCalls : List ToolCall)
  | tool (content : Content) (toolCallId : String)
  deriving DecidableEq

/-- `AIMessage` and `ToolMessage`. -/
def Reply.message (turn : Nat) : Reply → Message
  | .assistant content toolCalls =>
    { role := .ai, content := content, toolCalls := toolCalls, origin := .turn turn }
  | .tool content toolCallId =>
    { role := .tool, content := content, toolCallId := toolCallId, origin := .turn turn }

def Reply.entry (id turn : Nat) : Reply → Entry
  | .assistant content toolCalls =>
    { id := id, type := .assistant, content := content.visibleText,
      contentBlocks := contentBlocks content, toolCalls := toolCalls, turn := turn }
  | .tool content toolCallId =>
    { id := id, type := .tool, content := content.visibleText,
      contentBlocks := contentBlocks content, toolCallId := toolCallId, turn := turn }

@[simp] lemma entryOf_message (id turn : Nat) (r : Reply) :
    entryOf id (r.message turn) = some (r.entry id turn) := by
  cases r <;> rfl

lemma restoredContent_eq {e : Entry} {content : Content}
    (htext : e.content = content.visibleText) (hblocks : e.contentBlocks = contentBlocks content) :
    e.restoredContent = content := by
  unfold Entry.restoredContent
  rw [hblocks, htext]
  cases content with
  | _ => rfl

@[simp] lemma restoreEntry_entry (id turn : Nat) (r : Reply) :
    restoreEntry (r.entry id turn) = some (r.message turn) := by
  cases r with
  | assistant content toolCalls =>
    have hcontent : ((Reply.assistant content toolCalls).entry id turn).restoredContent = content :=
      restoredContent_eq rfl rfl
    show some _ = some _
    rw [hcontent]
    rfl
  | tool content toolCallId =>
    have hcontent : ((Reply.tool content toolCallId).entry id turn).restoredContent = content :=
      restoredContent_eq rfl rfl
    show some _ = some _
    rw [hcontent]
    rfl

end DeterminFlow.Chat
