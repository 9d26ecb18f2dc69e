/-
  Chat.ReplayedEvents
  **EVERY REPLY ONCE.**

  The replies of a turn are recorded as their events come in, and the rest of
  the graph's final state at the end, behind as many messages as were recorded.
  A model call whose end is repeated is known by its run id; the end of a tool
  is recorded as often as it is heard.
-/
import DeterminFlow.Chat.Reload
import Mathlib.Data.List.Perm.Basic

namespace DeterminFlow.Chat.ReplayedEvents

open Context List

/-! ## Events that are repeated -/

structure GraphEvent where
  event : StreamEvent
  /-- `run_id`, of the end of a model call. -/
  runId : String := ""
  /-- The usage of the call gets an entry in `_token_usage_calls`. -/
  metered : Bool := true

/-- The events that the streaming loop handles, where the usage of the run ids
is recorded: the end of a model call is passed over when it is known. -/
def heard : List String → List GraphEvent → List StreamEvent
  | _, [] => []
  | recorded, g :: rest =>
    match g.event with
    | .modelEnd _ _ =>
      if g.runId ≠ "" ∧ g.runId ∈ recorded then heard recorded rest
      else g.event :: heard (if g.metered then g.runId :: recorded else recorded) rest
    | _ => g.event :: heard recorded rest

def ended (s : Session) (t : Turn) (recorded : List String) (graph : List GraphEvent) : Session :=
  (s.invokeGraphOnce { t with course := .streamed (heard recorded graph) .done }).2

/-- The new messages of the final state stand once each in the record, in some
order, and in the context, in theirs; a result has the id of its call. -/
def OnceEach (start : Session) (replies : List Reply) (s : Session) : Prop :=
  ∃ new, s.record = start.record ++ new
    ∧ (recordMessages new).Perm (replies.map (Reply.message start.turns))
    ∧ s.lcMessages = start.lcMessages ++ replies.map (Reply.message start.turns)

/-! ## What a turn records -/

lemma message_injective (turn : Nat) : Function.Injective (Reply.message turn) := by
  intro r r' h
  cases r with
  | assistant content toolCalls =>
    cases r' with
    | assistant =>
      have hcontent := congrArg Message.content h
      have hcalls := congrArg Message.toolCalls h
      simp only [Reply.message] at hcontent hcalls
      rw [hcontent, hcalls]
    | tool => exact absurd (congrArg Message.role h) (by simp [Reply.message])
  | tool result toolCallId =>
    cases r' with
    | assistant => exact absurd (congrArg Message.role h) (by simp [Reply.message])
    | tool =>
      have hcontent := congrArg Message.content h
      have hid := congrArg Message.toolCallId h
      simp only [Reply.message] at hcontent hid
      rw [hcontent, hid]

section
variable {start : Session} {events : List StreamEvent} {replies : List Reply}

lemma finish_lc (hfinal : finalReplies events = some replies) :
    (start.stream events).finish.lcMessages
      = sanitizeToolPairs (start.lcMessages ++ replies.map (Reply.message start.turns)) := by
  have htracks := tracks_stream start events
  have hmessages := htracks.final
  rw [hfinal, Option.map_some] at hmessages
  have hlc : ∀ (st : Stream) (final : List Message) (n : Nat),
      (st.session.syncMessages final n).lcMessages = final := by
    intro st final n
    unfold Session.syncMessages
    dsimp only
    rw [(syncContextSnapshot_frame _ _).2.2.2.1]
    have hkeep : ∀ (messages : List Message) (s : Session),
        (messages.foldl Session.appendToRecord s).lcMessages = s.lcMessages := by
      intro messages
      induction messages with
      | nil => exact fun _ => rfl
      | cons m rest ih => exact fun s => (ih _).trans (appendToRecord_lc s m)
    exact hkeep _ _
  unfold Stream.finish
  rw [hmessages]
  dsimp only
  rw [hlc, (whole_sanitizeToolPairs _).sanitize]

lemma finish_record {front : List Message} {human : Message} (hfinal : finalReplies events = some replies)
    (hlast : start.lcMessages = front ++ [human]) (hhuman : human.role = .human)
    (hclean : sanitizeToolPairs (start.lcMessages ++ replies.map (Reply.message start.turns))
      = start.lcMessages ++ replies.map (Reply.message start.turns)) :
    ∃ new, (start.stream events).finish.record = start.record ++ new
      ∧ recordMessages new = (keptReplies (savedReplies events) replies).map (Reply.message start.turns) := by
  have htracks := tracks_stream start events
  have hmessages := htracks.final
  rw [hfinal, Option.map_some] at hmessages
  have hturn : turnMessages (start.lcMessages ++ replies.map (Reply.message start.turns))
      = replies.map (Reply.message start.turns) := by
    rw [hlast, append_assoc, singleton_append]
    exact turnMessages_append hhuman (message_not_human _ _)
  generalize hall : start.lcMessages ++ replies.map (Reply.message start.turns) = all at *
  obtain ⟨happended, -⟩ := extends_appendAll { (start.stream events).session with lcMessages := all }
    start.turns (replies.drop (savedReplies events).length)
  have hbefore : start.Extends start.turns (savedReplies events)
      { (start.stream events).session with lcMessages := all } := htracks.session.congr rfl rfl rfl rfl
  have hsynced : start.Extends start.turns (keptReplies (savedReplies events) replies)
      ((start.stream events).session.syncMessages all (savedReplies events).length) := by
    unfold Session.syncMessages
    dsimp only
    rw [hturn, ← map_drop]
    exact (hbefore.trans happended).sync false
  obtain ⟨new, hrecord, hnew⟩ := hsynced.record
  refine ⟨new, ?_, hnew.messages⟩
  unfold Stream.finish
  rw [hmessages, htracks.count]
  dsimp only
  rw [hclean]
  exact hrecord

end

def askedOnce : Turn where
  content := "go"
  course := .unprepared

def answeredReplies : List Reply :=
  [.assistant (.text "") [{ id := "c", name := "t", args := "" }], .tool (.text "ok") "c",
    .assistant (.text "done") []]

def graphOf (toolEnds : Nat) : List GraphEvent :=
  [{ event := .modelEnd (.text "") [{ id := "c", name := "t", args := "" }], runId := "m1" },
      { event := .modelEnd (.text "") [{ id := "c", name := "t", args := "" }], runId := "m1" }]
    ++ List.replicate toolEnds { event := .toolEnd (.text "ok") "c" }
    ++ [{ event := .modelEnd (.text "done") [], runId := "m2" }, { event := .rootEnd answeredReplies }]

end DeterminFlow.Chat.ReplayedEvents
