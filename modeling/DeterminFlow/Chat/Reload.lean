/-
  Chat.Reload
  **A RESTART, AND WHAT THE MODEL SEES.**

  After a restart the context is made from the record.  The model sees what
  it saw before only if every turn has left the two in step: a turn that is
  taken back has to be taken back from both, and a turn that is kept has to
  be recorded as the graph's final state has it.
-/
import DeterminFlow.Chat.Editing
import DeterminFlow.Chat.ToolPairs

namespace DeterminFlow.Chat

open Context Library.PyText List Option StreamEvent

/-! ## Histories in step -/

def Session.history (s : Session) : List Message :=
  promptMessages s.systemPrompt ++ recordMessages s.record

/-- **A history built turn by turn**: a user message, and replies whose
broken pairs do not touch what was there. -/
inductive Turned : List Message → Prop where
  | start {messages : List Message} : (∀ m ∈ messages, m.role = .system) → Turned messages
  | turn {before replies : List Message} {human : Message} : Turned before →
      human.role = .human → (∀ m ∈ replies, m.role ≠ .human) → Apart before replies →
      Turned (before ++ human :: replies)

/-- **The two histories are in step.** -/
structure Session.InStep (s : Session) : Prop where
  lc : s.lcMessages = sanitizeToolPairs s.history
  turned : Turned s.history

def Session.Idle (s : Session) : Prop :=
  s.record = [] → s.context = [] ∨ s.context = promptMessages s.systemPrompt

variable {m : Message} {l : List Message} {replies replies' : List Reply} {saved : List Entry}
  {e : Entry} {st : Stream} {final : Option (List Reply)} {s₁ : Session} {messageId : Nat}

lemma plain_of_human (h : m.role = .human) : m.callsTools = false ∧ m.role ≠ .tool := by
  refine ⟨?_, by rw [h]; decide⟩
  unfold Message.callsTools
  rw [h]
  rfl

lemma plain_of_system (h : m.role = .system) : m.callsTools = false ∧ m.role ≠ .tool := by
  refine ⟨?_, by rw [h]; decide⟩
  unfold Message.callsTools
  rw [h]
  rfl

lemma Apart.cons_human {l' : List Message} (h : Apart l l') (hm : m.role = .human) :
    Apart l (m :: l') := by
  have hplain : ∀ m' ∈ [m], m'.callsTools = false ∧ m'.role ≠ .tool := fun m' hm' => by
    rw [mem_singleton.1 hm']
    exact plain_of_human hm
  have hnone : Apart l [m] := by
    have hsingle := apart_of_plain hplain l
    exact ⟨hsingle.right, hsingle.left⟩
  have hids : ∀ id ∈ pairIds (l ++ [m]), id ∈ pairIds l := by
    intro id hid
    rcases pairIds_append.1 hid with hid | hid
    · exact hid
    exact absurd (mem_pairIds.1 hid) (by
      simp [mem_toolCallIds, mem_toolMessageIds, (plain_of_human hm).1, (plain_of_human hm).2])
  refine hnone.extend ⟨fun id hid => ?_, fun id hid hmem => h.right id hid (hids id hmem)⟩
  rcases brokenIds_append hnone hid with hid | hid
  · exact h.left id hid
  exact absurd (mem_pairIds.1 (mem_brokenIds.1 hid).1) (by
    simp [mem_toolCallIds, mem_toolMessageIds, (plain_of_human hm).1, (plain_of_human hm).2])

lemma sanitizeToolPairs_cons_human (hm : m.role = .human) (l : List Message) :
    sanitizeToolPairs (m :: l) = m :: sanitizeToolPairs l := by
  have hplain : ∀ m' ∈ [m], m'.callsTools = false ∧ m'.role ≠ .tool := fun m' hm' => by
    rw [mem_singleton.1 hm']
    exact plain_of_human hm
  rw [← singleton_append, sanitizeToolPairs_append (apart_of_plain hplain l),
    (whole_of_plain hplain).sanitize, singleton_append]

lemma Turned.cut {messages : List Message} (h : Turned messages) {before after : List Message}
    {m : Message} (hsplit : messages = before ++ m :: after) (hm : m.role = .human) :
    Turned before ∧ Apart before (m :: after) := by
  induction h generalizing before m after with
  | start hsystem =>
    have hrole := hsystem m (hsplit ▸ mem_append_right _ mem_cons_self)
    rw [hm] at hrole
    cases hrole
  | @turn earlier replies human hturned hhuman hreplies hapart ih =>
    have hcut := append_eq_append_iff.1 hsplit
    have hwhole : Apart earlier (human :: replies) := hapart.cons_human hhuman
    -- the cut is in an earlier turn, or at the last one, whose replies are no user messages
    rcases hcut with ⟨part, hbefore, hrest⟩ | ⟨part, hearlier, hrest⟩
    · cases part with
      | nil =>
        rw [append_nil] at hbefore
        rw [nil_append] at hrest
        rw [hbefore, ← hrest]
        exact ⟨hturned, hwhole⟩
      | cons =>
        have hmem : m ∈ replies := by
          rw [cons_append] at hrest
          rw [(cons.inj hrest).2]
          exact mem_append_right _ mem_cons_self
        exact absurd hm (hreplies m hmem)
    cases part with
    | nil =>
      rw [append_nil] at hearlier
      rw [nil_append] at hrest
      rw [← hearlier, hrest]
      exact ⟨hturned, hwhole⟩
    | cons =>
      rw [cons_append] at hrest
      obtain ⟨rfl, hafter⟩ := cons.inj hrest
      obtain ⟨hturned', hapart'⟩ := ih hearlier hm
      rw [hearlier] at hwhole
      rw [hafter]
      exact ⟨hturned', hapart'.extend hwhole⟩

variable {s s' : Session} {t : Turn}

lemma promptMessages_system {systemPrompt : String} (hm : m ∈ promptMessages systemPrompt) :
    m.role = .system := by
  unfold promptMessages setPrompt at hm
  split at hm
  · cases hm
  rw [mem_singleton.1 hm]

lemma sanitizeToolPairs_prompt (systemPrompt : String) :
    sanitizeToolPairs (promptMessages systemPrompt) = promptMessages systemPrompt :=
  (whole_of_plain (fun _ hm => plain_of_system (promptMessages_system hm))).sanitize

lemma Session.InStep.whole (h : s.InStep) : Whole s.lcMessages := by
  rw [h.lc]
  exact whole_sanitizeToolPairs _

lemma Session.InStep.lc_of_empty (h : s.InStep) (hempty : s.record = []) :
    s.lcMessages = promptMessages s.systemPrompt := by
  rw [h.lc]
  unfold Session.history
  rw [hempty]
  show sanitizeToolPairs (promptMessages s.systemPrompt ++ []) = _
  rw [append_nil, sanitizeToolPairs_prompt]

lemma reload_of_inStep (h : s.InStep) (hidle : s.Idle) : s.reload.lcMessages = s.lcMessages := by
  show (if s.record ≠ [] then _ else _) = _
  split
  · rw [h.lc]
    rfl
  rename_i hempty
  have hempty' : s.record = [] := not_not.1 hempty
  rw [h.lc_of_empty hempty']
  split
  · rename_i hcontext
    rcases hidle hempty' with hnil | hprompt
    · exact absurd hnil hcontext
    have hstarts : startsWithPrompt (promptMessages s.systemPrompt) = true := by
      rw [hprompt] at hcontext
      unfold promptMessages setPrompt at hcontext ⊢
      split
      · rename_i hprompt'
        rw [if_pos hprompt'] at hcontext
        exact absurd rfl hcontext
      rfl
    unfold restoreLcFromContext
    rw [hprompt, hstarts, if_pos rfl, nil_append, sanitizeToolPairs_prompt]
  rfl

/-! ## What a turn leaves -/

def SavedAs (turn : Nat) (saved : List Entry) (replies : List Reply) : Prop :=
  saved.map (fun e => (e.isUser, restoreEntry e))
    = replies.map (fun r => (false, some (r.message turn)))

lemma SavedAs.messages {turn : Nat} (h : SavedAs turn saved replies) :
    recordMessages saved = replies.map (Reply.message turn) := by
  have hsecond := congrArg (List.filterMap Prod.snd) h
  rw [filterMap_map, filterMap_map] at hsecond
  refine hsecond.trans ?_
  rw [← filterMap_eq_map]
  rfl

lemma SavedAs.isUser {turn : Nat} (h : SavedAs turn saved replies) (he : e ∈ saved) :
    e.isUser = false := by
  have hmem : (e.isUser, restoreEntry e) ∈ saved.map (fun e => (e.isUser, restoreEntry e)) :=
    mem_map.2 ⟨e, he, rfl⟩
  unfold SavedAs at h
  rw [h] at hmem
  obtain ⟨_, -, hr⟩ := mem_map.1 hmem
  exact (congrArg Prod.fst hr).symm

lemma SavedAs.append {turn : Nat} {saved' : List Entry} (h : SavedAs turn saved replies)
    (h' : SavedAs turn saved' replies') : SavedAs turn (saved ++ saved') (replies ++ replies') := by
  unfold SavedAs
  rw [map_append, map_append, h, h']

lemma SavedAs.nil_iff {turn : Nat} (h : SavedAs turn saved replies) :
    saved = [] ↔ replies = [] := by
  have hlength := congrArg List.length h
  rw [length_map, length_map] at hlength
  rw [← length_eq_zero_iff, ← length_eq_zero_iff, hlength]

/-- The record goes on with replies; the prompt and the turn are the same. -/
structure Session.Extends (start : Session) (turn : Nat) (replies : List Reply) (s : Session) :
    Prop where
  systemPrompt : s.systemPrompt = start.systemPrompt
  recovery : s.supportsRecovery = start.supportsRecovery
  turns : s.turns = start.turns
  record : ∃ saved, s.record = start.record ++ saved ∧ SavedAs turn saved replies

lemma Session.Extends.refl (s : Session) (turn : Nat) : s.Extends turn [] s :=
  ⟨rfl, rfl, rfl, [], (append_nil _).symm, rfl⟩

lemma Session.Extends.trans {start : Session} {turn : Nat} (h : start.Extends turn replies s)
    (h' : s.Extends turn replies' s') : start.Extends turn (replies ++ replies') s' := by
  obtain ⟨saved, hrecord, hsaved⟩ := h.record
  obtain ⟨saved', hrecord', hsaved'⟩ := h'.record
  refine ⟨h'.systemPrompt.trans h.systemPrompt, h'.recovery.trans h.recovery,
    h'.turns.trans h.turns, saved ++ saved', ?_, hsaved.append hsaved'⟩
  rw [hrecord', hrecord, append_assoc]

lemma Session.Extends.congr {start : Session} {turn : Nat} (h : start.Extends turn replies s)
    (hprompt : s'.systemPrompt = s.systemPrompt)
    (hrecovery : s'.supportsRecovery = s.supportsRecovery) (hturns : s'.turns = s.turns)
    (hrecord : s'.record = s.record) : start.Extends turn replies s' :=
  ⟨hprompt.trans h.systemPrompt, hrecovery.trans h.recovery, hturns.trans h.turns,
    hrecord ▸ h.record⟩

lemma extends_appendToRecord (s : Session) (turn : Nat) (r : Reply) :
    s.Extends turn [r] (s.appendToRecord (r.message turn)) := by
  unfold Session.appendToRecord
  rw [entryOf_message]
  refine ⟨rfl, rfl, rfl, [r.entry (s.msgCounter + 1) turn], rfl, ?_⟩
  unfold SavedAs
  rw [map_singleton, map_singleton, restoreEntry_entry]
  cases r <;> rfl

@[simp] lemma appendToRecord_lc (s : Session) (m : Message) :
    (s.appendToRecord m).lcMessages = s.lcMessages := by
  unfold Session.appendToRecord
  cases entryOf (s.msgCounter + 1) m <;> rfl

lemma syncContextSnapshot_frame (s : Session) (force : Bool) :
    (s.syncContextSnapshot force).systemPrompt = s.systemPrompt ∧
      (s.syncContextSnapshot force).supportsRecovery = s.supportsRecovery ∧
      (s.syncContextSnapshot force).record = s.record ∧
      (s.syncContextSnapshot force).lcMessages = s.lcMessages ∧
      ((s.syncContextSnapshot force).context = s.context ∨
        (s.syncContextSnapshot force).context = s.lcMessages) := by
  unfold Session.syncContextSnapshot
  split
  · exact ⟨rfl, rfl, rfl, rfl, Or.inr rfl⟩
  split
  · exact ⟨rfl, rfl, rfl, rfl, Or.inr rfl⟩
  exact ⟨rfl, rfl, rfl, rfl, Or.inl rfl⟩

lemma Session.Extends.sync {start : Session} {turn : Nat} (h : start.Extends turn replies s)
    (force : Bool) : start.Extends turn replies (s.syncContextSnapshot force) := by
  obtain ⟨hprompt, hrecovery, hrecord, -, -⟩ := syncContextSnapshot_frame s force
  exact h.congr hprompt hrecovery (syncContextSnapshot_turns s force) hrecord

lemma Session.Extends.rollback {start : Session} {turn : Nat} (h : start.Extends turn replies s)
    (hpop : popIf Entry.isUser s.record = s.record) (sanitizePairs sync : Bool) :
    start.Extends turn replies (s.rollbackOnError true sanitizePairs sync) := by
  have hsame : ∀ messages : List Message,
      start.Extends turn replies { s with lcMessages := messages, record := s.record } :=
    fun messages => h.congr rfl rfl rfl rfl
  unfold Session.rollbackOnError
  dsimp only
  rw [if_pos rfl, hpop]
  split
  · exact (hsame _).sync false
  exact hsame _

/-! ## The stream -/

def savedReply : StreamEvent → Option Reply
  | .modelEnd content toolCalls => some (.assistant content toolCalls)
  | .toolEnd result toolCallId => some (.tool result toolCallId)
  | _ => none

def rootReplies : StreamEvent → Option (List Reply)
  | .rootEnd replies => some replies
  | _ => none

def savedReplies (events : List StreamEvent) : List Reply := events.filterMap savedReply

def finalReplies (events : List StreamEvent) : Option (List Reply) :=
  (events.filterMap rootReplies).getLast?

/-- A stream that began with `start` and has recorded the replies. -/
structure Stream.Tracks (start : Session) (saved : List Reply) (final : Option (List Reply))
    (st : Stream) : Prop where
  session : start.Extends start.turns saved st.session
  lc : st.session.lcMessages = start.lcMessages
  context : saved = [] → st.session.context = start.context
  count : st.incrementalSavedCount = saved.length
  final : st.finalMessages
    = final.map (fun replies => start.lcMessages ++ replies.map (Reply.message start.turns))

lemma Stream.Tracks.save {start : Session} {saved : List Reply} (h : st.Tracks start saved final)
    (r : Reply) : (st.save r).Tracks start (saved ++ [r]) final := by
  have happended := h.session.trans (extends_appendToRecord st.session start.turns r)
  refine ⟨?_, ?_, fun hnil => ?_, ?_, h.final⟩
  · show start.Extends _ _ ((st.session.appendToRecord (r.message st.session.turns)).syncContextSnapshot
      false)
    rw [h.session.turns]
    exact happended.sync false
  · show ((st.session.appendToRecord _).syncContextSnapshot false).lcMessages = _
    rw [(syncContextSnapshot_frame _ _).2.2.2.1, appendToRecord_lc]
    exact h.lc
  · exact absurd hnil (by simp)
  show st.incrementalSavedCount + 1 = _
  rw [h.count, length_append, length_singleton]

lemma Stream.Tracks.feed {start : Session} {events : List StreamEvent}
    (h : st.Tracks start (savedReplies events) (finalReplies events)) (event : StreamEvent) :
    (st.feed event).Tracks start (savedReplies (events ++ [event]))
      (finalReplies (events ++ [event])) := by
  unfold savedReplies finalReplies at *
  rw [filterMap_append, filterMap_append]
  cases event with
  | modelEnd content toolCalls =>
    show (st.save _).Tracks _ _ _
    rw [show [modelEnd content toolCalls].filterMap rootReplies = [] from rfl,
      append_nil]
    exact h.save _
  | toolStart =>
    rw [show [toolStart].filterMap rootReplies = [] from rfl,
      show [toolStart].filterMap savedReply = [] from rfl, append_nil,
      append_nil]
    exact ⟨h.session.congr rfl rfl rfl rfl, h.lc, h.context, h.count, h.final⟩
  | toolEnd result toolCallId =>
    show (st.save _).Tracks _ _ _
    rw [show [toolEnd result toolCallId].filterMap rootReplies = [] from rfl,
      append_nil]
    exact h.save _
  | rootEnd replies =>
    rw [show [rootEnd replies].filterMap rootReplies = [replies] from rfl,
      show [rootEnd replies].filterMap savedReply = [] from rfl, append_nil,
      getLast?_concat]
    refine ⟨h.session, h.lc, h.context, h.count, ?_⟩
    show some (st.session.lcMessages ++ replies.map (Reply.message st.session.turns)) = _
    rw [h.lc, h.session.turns]
    rfl

lemma tracks_stream (start : Session) (events : List StreamEvent) :
    (start.stream events).Tracks start (savedReplies events) (finalReplies events) := by
  have hfeed : ∀ (done rest : List StreamEvent) (st : Stream),
      st.Tracks start (savedReplies done) (finalReplies done) →
      (rest.foldl Stream.feed st).Tracks start (savedReplies (done ++ rest))
        (finalReplies (done ++ rest)) := by
    intro done rest
    induction rest generalizing done with
    | nil =>
      intro st hst
      rwa [append_nil]
    | cons event rest ih =>
      intro st hst
      have hnext := ih (done ++ [event]) (st.feed event) (hst.feed event)
      rwa [append_assoc, singleton_append] at hnext
  refine hfeed [] events _ ⟨(Session.Extends.refl start _).congr rfl rfl rfl rfl, rfl, fun _ => rfl,
    rfl, rfl⟩

/-! ## Turns that keep the histories in step -/

/-- What the record keeps of a turn that is synchronised: what the stream has
recorded, and the rest of the final state. -/
def keptReplies (saved final : List Reply) : List Reply := saved ++ final.drop saved.length

/-- **The record reproduces the final state**: what it keeps of the turn is,
cleaned, what the graph has answered, and its broken pairs do not touch the
history before. -/
structure Reproduces (before : List Message) (turn : Nat) (saved final : List Reply) : Prop where
  same : sanitizeToolPairs ((keptReplies saved final).map (Reply.message turn))
    = final.map (Reply.message turn)
  apart : Apart before ((keptReplies saved final).map (Reply.message turn))

/-- A stream that ends without a final state has recorded nothing; with one,
the record reproduces it. -/
def Synchronised (before : List Message) (turn : Nat) (saved : List Reply) :
    Option (List Reply) → Prop
  | none => saved = []
  | some final => Reproduces before turn saved final

/-- **The condition on a turn's end.** -/
def Ending.Keeps (recovery : Bool) (before : List Message) (turn : Nat) (saved : List Reply)
    (final : Option (List Reply)) : Ending → Prop
  | .done => Synchronised before turn saved final
  | .lateFailure => recovery = true ∨ Synchronised before turn saved final
  | .aborted =>
    (saved = [] → final = none) ∧
      (saved ≠ [] → ∃ replies, final = some replies ∧ Reproduces before turn saved replies)
  | .recursionLimit => False
  | .contentRisk => False
  | .contentFilter => False
  | .badRequest => recovery = true ∨ saved = []
  | .failed => recovery = true ∨ saved = []
  | .cancelled => True

/-- **The condition on a turn** that begins in a session. -/
def Turn.Keeps (t : Turn) (s : Session) : Prop :=
  match t.course with
  | .streamed events ending =>
    ending.Keeps s.supportsRecovery s.history (s.turns + 1) (savedReplies events)
      (finalReplies events)
  | _ => True

def Ending.Stays (recovery : Bool) (saved : List Reply) : Ending → Prop
  | .done => True
  | .lateFailure => recovery = false
  | .aborted => saved ≠ []
  | .cancelled => True
  | _ => False

def Turn.Stays (t : Turn) (recovery : Bool) : Prop :=
  match t.course with
  | .streamed events ending => ending.Stays recovery (savedReplies events)
  | .cancelledEarly => True
  | _ => False

def Session.Uncompressed (s : Session) (t : Turn) : Prop :=
  (t.compression.run false s.compressor (s.addTurn t.fullContent).lcMessages).applied = false

def Session.Untrimmed (s : Session) (t : Turn) : Prop :=
  s.compressor = false →
    contentsTokens (s.addTurn t.fullContent).lcMessages ≤ t.compression.maxContextTokens

def Session.Untouched (s : Session) (t : Turn) : Prop :=
  match t.course with
  | .unprepared => True
  | .stopped .preparation => True
  | .stopped .compression => s.Uncompressed t
  | _ => s.Uncompressed t ∧ s.Untrimmed t

def Session.humanMessage (s : Session) (t : Turn) : Message :=
  { role := .human, content := .text t.fullContent, origin := .turn (s.turns + 1) }

def Session.userEntry (s : Session) (t : Turn) : Entry :=
  { id := s.msgCounter + 1, type := .user, content := t.fullContent, turn := s.turns + 1 }

/-- The turn is taken back, from the record and from the context. -/
structure Session.Undone (s s' : Session) : Prop where
  systemPrompt : s'.systemPrompt = s.systemPrompt
  record : s'.record = s.record
  lc : s'.lcMessages = s.lcMessages
  context : s'.context = s.context ∨ s'.context = s.lcMessages

def Session.Kept (s s' : Session) : Prop :=
  s'.InStep ∧ s'.record ≠ []

lemma Session.InStep.undone (h : s.InStep) (hsame : s.Undone s') : s'.InStep := by
  have hhistory : s'.history = s.history := by
    unfold Session.history
    rw [hsame.systemPrompt, hsame.record]
  refine ⟨?_, ?_⟩
  · rw [hsame.lc, hhistory]
    exact h.lc
  rw [hhistory]
  exact h.turned

lemma Session.Idle.undone (hidle : s.Idle) (h : s.InStep) (hsame : s.Undone s') : s'.Idle := by
  intro hempty
  rw [hsame.record] at hempty
  rw [hsame.systemPrompt]
  rcases hsame.context with hcontext | hcontext
  · rw [hcontext]
    exact hidle hempty
  rw [hcontext, h.lc_of_empty hempty]
  exact Or.inr rfl

lemma Session.InStep.kept (h : s.InStep) {kept new : List Message} {saved : List Entry}
    (hprompt : s'.systemPrompt = s.systemPrompt)
    (hrecord : s'.record = s.record ++ s.userEntry t :: saved)
    (hsaved : recordMessages saved = kept) (hkept : ∀ m ∈ kept, m.role ≠ .human)
    (hlc : s'.lcMessages = s.lcMessages ++ s.humanMessage t :: new)
    (hnew : sanitizeToolPairs kept = new) (hapart : Apart s.history kept) : s.Kept s' := by
  have hhuman : (s.humanMessage t).role = .human := rfl
  have hhistory : s'.history = s.history ++ s.humanMessage t :: kept := by
    unfold Session.history
    rw [hprompt, hrecord, recordMessages_append, ← append_assoc, ← hsaved]
    rfl
  refine ⟨⟨?_, ?_⟩, ?_⟩
  · rw [hhistory, sanitizeToolPairs_append (hapart.cons_human hhuman),
      sanitizeToolPairs_cons_human hhuman, hnew, ← h.lc]
    exact hlc
  · rw [hhistory]
    exact .turn h.turned hhuman hkept hapart
  rw [hrecord]
  simp

lemma check_eq (hcompressed : s.Uncompressed t) :
    (s.addTurn t.fullContent).checkAndCompressMessages t.compression false
      = s.addTurn t.fullContent := by
  unfold Session.checkAndCompressMessages
  refine if_neg ?_
  rw [show (s.addTurn t.fullContent).compressor = s.compressor from rfl, hcompressed]
  decide

lemma prepare_eq (h : Whole s.lcMessages) (hcompressed : s.Uncompressed t)
    (htrimmed : s.Untrimmed t) : s.prepare t = s.addTurn t.fullContent := by
  have hwhole : Whole (s.addTurn t.fullContent).lcMessages :=
    h.append (whole_of_plain (fun m hm => by
      rw [mem_singleton.1 hm]
      exact plain_of_human rfl))
  unfold Session.prepare
  rw [check_eq hcompressed]
  unfold Session.trimContext
  split
  · rfl
  rename_i hcompressor
  have hfits := htrimmed (Bool.eq_false_of_not_eq_true hcompressor)
  have htrim : trimMessages t.compression.maxContextTokens (s.addTurn t.fullContent).lcMessages
      = (s.addTurn t.fullContent).lcMessages := by
    unfold trimMessages
    split
    · rfl
    exact hwhole.sanitize
  rw [htrim]

lemma popIf_concat {α : Type} (p : α → Bool) (l : List α) (a : α) :
    popIf p (l ++ [a]) = if p a = true then l else l ++ [a] := by
  unfold popIf
  rw [getLast?_concat, any_some, dropLast_concat]

lemma rollback_undone (h : Whole s.lcMessages) {sanitizePairs sync : Bool}
    (hprompt : s₁.systemPrompt = s.systemPrompt) (hrecord : s₁.record = s.record ++ [s.userEntry t])
    (hlc : s₁.lcMessages = s.lcMessages ++ [s.humanMessage t])
    (hcontext : s₁.context = s.context ∨ s₁.context = s.lcMessages) :
    s.Undone (s₁.rollbackOnError true sanitizePairs sync) := by
  -- the last message is the user's, and nothing else was broken
  have hlc' : (if sanitizePairs = true then
      sanitizeToolPairs (popIf (fun m => decide (m.role = .human)) s₁.lcMessages)
      else popIf (fun m => decide (m.role = .human)) s₁.lcMessages) = s.lcMessages := by
    rw [hlc, popIf_concat, if_pos (show decide ((s.humanMessage t).role = .human) = true from rfl)]
    split
    · exact h.sanitize
    rfl
  have hrecord' : popIf Entry.isUser s₁.record = s.record := by
    rw [hrecord, popIf_concat, if_pos (show (s.userEntry t).isUser = true from rfl)]
  unfold Session.rollbackOnError
  dsimp only
  rw [hlc', if_pos rfl, hrecord']
  split
  · obtain ⟨hprompt', -, hrecord'', hlc'', hcontext'⟩ := syncContextSnapshot_frame
      ({ s₁ with lcMessages := s.lcMessages, record := s.record }) false
    refine ⟨hprompt'.trans hprompt, hrecord'', hlc'', ?_⟩
    rcases hcontext' with hcontext' | hcontext'
    · rw [hcontext']
      exact hcontext
    exact Or.inr hcontext'
  exact ⟨hprompt, rfl, rfl, hcontext⟩

lemma turnMessages_append {replies : List Message} {human : Message}
    (hhuman : human.role = .human) (hreplies : ∀ m ∈ replies, m.role ≠ .human) :
    turnMessages (l ++ human :: replies) = replies := by
  have hany : (l ++ human :: replies).any (fun m => m.role = .human) = true :=
    any_eq_true.2 ⟨human, mem_append_right _ mem_cons_self, decide_eq_true hhuman⟩
  unfold turnMessages
  rw [if_pos hany, reverse_append, reverse_cons, append_assoc,
    takeWhile_append_of_pos (fun m hm => by
      simpa using hreplies m (mem_reverse.1 hm)),
    singleton_append, takeWhile_cons_of_neg (by simpa using hhuman), append_nil,
    reverse_reverse]

lemma extends_appendAll (s : Session) (turn : Nat) (replies : List Reply) :
    s.Extends turn replies ((replies.map (Reply.message turn)).foldl Session.appendToRecord s) ∧
      ((replies.map (Reply.message turn)).foldl Session.appendToRecord s).lcMessages
        = s.lcMessages := by
  induction replies generalizing s with
  | nil => exact ⟨.refl s turn, rfl⟩
  | cons r rest ih =>
    obtain ⟨hrest, hlc⟩ := ih (s.appendToRecord (r.message turn))
    refine ⟨(extends_appendToRecord s turn r).trans hrest, ?_⟩
    exact hlc.trans (appendToRecord_lc _ _)

lemma message_not_human (turn : Nat) (replies : List Reply) :
    ∀ m ∈ replies.map (Reply.message turn), m.role ≠ .human := by
  intro m hm
  obtain ⟨r, -, rfl⟩ := mem_map.1 hm
  exact (message_of_reply turn r).1

lemma finish_kept (h : s.InStep) {saved final : List Reply}
    (hsession : (s.addTurn t.fullContent).Extends (s.turns + 1) saved st.session)
    (hcount : st.incrementalSavedCount = saved.length)
    (hfinal : st.finalMessages = some (s.lcMessages ++ s.humanMessage t ::
      final.map (Reply.message (s.turns + 1))))
    (hrepro : Reproduces s.history (s.turns + 1) saved final) : s.Kept st.finish := by
  have hwhole : Whole (s.lcMessages ++ s.humanMessage t :: final.map (Reply.message (s.turns + 1))) := by
    -- the condition says that cleaning leaves the new turn as it is
    have hnew : Whole (s.humanMessage t :: final.map (Reply.message (s.turns + 1))) := by
      rw [← hrepro.same, ← sanitizeToolPairs_cons_human (show (s.humanMessage t).role = .human from rfl)]
      exact whole_sanitizeToolPairs _
    exact h.whole.append hnew
  -- the messages of the turn are those after its user message
  have hturn : turnMessages (s.lcMessages ++ s.humanMessage t ::
      final.map (Reply.message (s.turns + 1))) = final.map (Reply.message (s.turns + 1)) :=
    turnMessages_append rfl (message_not_human _ _)
  generalize hall : s.lcMessages ++ s.humanMessage t :: final.map (Reply.message (s.turns + 1))
    = all at *
  obtain ⟨happended, hlc⟩ := extends_appendAll { st.session with lcMessages := all } (s.turns + 1)
    (final.drop saved.length)
  have hstart : (s.addTurn t.fullContent).Extends (s.turns + 1) saved
      { st.session with lcMessages := all } := hsession.congr rfl rfl rfl rfl
  -- the record gets what the stream has not recorded yet
  have hsynced : (s.addTurn t.fullContent).Extends (s.turns + 1) (keptReplies saved final)
      (st.session.syncMessages all saved.length) := by
    unfold Session.syncMessages
    dsimp only
    rw [hturn, ← map_drop]
    exact (hstart.trans happended).sync false
  have hlc' : (st.session.syncMessages all saved.length).lcMessages = all := by
    unfold Session.syncMessages
    dsimp only
    rw [(syncContextSnapshot_frame _ _).2.2.2.1, hturn, ← map_drop]
    exact hlc
  obtain ⟨entries, hrecord, hentries⟩ := hsynced.record
  have hfinish : st.finish.systemPrompt = s.systemPrompt ∧
      st.finish.record = s.record ++ s.userEntry t :: entries ∧
      st.finish.lcMessages = all := by
    unfold Stream.finish
    dsimp only
    rw [hfinal]
    dsimp only
    rw [hwhole.sanitize, hcount, hlc', hwhole.sanitize]
    refine ⟨hsynced.systemPrompt, ?_, rfl⟩
    rw [hrecord, show (s.addTurn t.fullContent).record = s.record ++ [s.userEntry t] from rfl,
      append_assoc, singleton_append]
  exact h.kept hfinish.1 hfinish.2.1 hentries.messages (message_not_human _ _)
    (hfinish.2.2.trans hall.symm) hrepro.same hrepro.apart

/-! ## The ends of a turn -/

/-- **What is left of a turn**: it is kept, or taken back; a cancellation, and
an exception in an interactive main session, restore a checkpoint. -/
def Settled (s : Session) (stays : Prop) (result : Outcome × Session) : Prop :=
  result.1 = .cancelled ∨ (s.supportsRecovery = true ∧ result.1 = .raised ∧ ¬ stays) ∨
    (s.Kept result.2 ∧ (result.1 = .raised → s.supportsRecovery = false)) ∨
    (s.Undone result.2 ∧ ¬ stays)

lemma finish_none (hfinal : st.finalMessages = none) :
    st.finish.systemPrompt = st.session.systemPrompt ∧ st.finish.record = st.session.record ∧
      st.finish.context = st.session.context ∧
      st.finish.lcMessages = sanitizeToolPairs st.session.lcMessages := by
  unfold Stream.finish
  rw [hfinal]
  exact ⟨rfl, rfl, rfl, rfl⟩

lemma popIf_saved {record : List Entry} (hsaved : ∀ e ∈ saved, e.isUser = false)
    (hne : saved ≠ []) : popIf Entry.isUser (record ++ saved) = record ++ saved := by
  obtain ⟨_, last, rfl⟩ := (eq_nil_or_concat' saved).resolve_left hne
  have hlast : last.isUser = false :=
    hsaved last (mem_append_right _ (mem_singleton.2 rfl))
  rw [← append_assoc, popIf_concat, hlast]
  rfl

variable {events : List StreamEvent}

lemma tracks_turn (s : Session) (t : Turn) (events : List StreamEvent) :
    ((s.addTurn t.fullContent).stream events).Tracks (s.addTurn t.fullContent)
      (savedReplies events) (finalReplies events) := tracks_stream _ _

lemma final_of_tracks {saved : List Reply} (h : st.Tracks (s.addTurn t.fullContent) saved final)
    (hfinal : final = some replies) : st.finalMessages = some (s.lcMessages ++ s.humanMessage t ::
      replies.map (Reply.message (s.turns + 1))) := by
  rw [h.final, hfinal]
  show some ((s.lcMessages ++ [s.humanMessage t]) ++ _) = _
  rw [append_assoc, singleton_append]
  rfl

lemma synchronised_kept (h : s.InStep)
    (hsync : Synchronised s.history (s.turns + 1) (savedReplies events) (finalReplies events)) :
    s.Kept ((s.addTurn t.fullContent).stream events).finish := by
  have htracks := tracks_turn s t events
  cases hfinal : finalReplies events with
  | some =>
    rw [hfinal] at hsync
    exact finish_kept h htracks.session htracks.count (final_of_tracks htracks hfinal) hsync
  | none =>
    rw [hfinal] at hsync
    -- no final state: nothing may have been recorded either
    have hnil : savedReplies events = [] := hsync
    have hnone : ((s.addTurn t.fullContent).stream events).finalMessages = none := by
      rw [htracks.final, hfinal]
      rfl
    obtain ⟨hprompt, hrecord, -, hlc⟩ := finish_none hnone
    obtain ⟨saved, hsavedRecord, hsaved⟩ := htracks.session.record
    have hsavedNil : saved = [] := hsaved.nil_iff.2 hnil
    have hwhole : Whole (s.addTurn t.fullContent).lcMessages :=
      h.whole.append (whole_of_plain (fun m hm => by
        rw [mem_singleton.1 hm]
        exact plain_of_human rfl))
    have hempty : Apart [] s.history :=
      apart_of_plain (fun m hm => absurd hm not_mem_nil) s.history
    have hrecord' : ((s.addTurn t.fullContent).stream events).finish.record
        = s.record ++ s.userEntry t :: [] := by
      rw [hrecord, hsavedRecord, hsavedNil, append_nil]
      rfl
    have hlc' : ((s.addTurn t.fullContent).stream events).finish.lcMessages
        = s.lcMessages ++ s.humanMessage t :: [] := by
      rw [hlc, htracks.lc, hwhole.sanitize]
      rfl
    exact h.kept (hprompt.trans htracks.session.systemPrompt) hrecord' rfl
      (nofun) hlc' rfl ⟨hempty.right, hempty.left⟩

lemma tracks_undone (h : s.InStep) (htracks : st.Tracks (s.addTurn t.fullContent) [] final)
    (hprompt : s₁.systemPrompt = st.session.systemPrompt) (hrecord : s₁.record = st.session.record)
    (hlc : s₁.lcMessages = st.session.lcMessages) (hcontext : s₁.context = st.session.context)
    (sanitizePairs sync : Bool) : s.Undone (s₁.rollbackOnError true sanitizePairs sync) := by
  obtain ⟨saved, hsavedRecord, hsaved⟩ := htracks.session.record
  have hsavedNil : saved = [] := hsaved.nil_iff.2 rfl
  refine rollback_undone (t := t) h.whole (hprompt.trans htracks.session.systemPrompt) ?_
    (hlc.trans htracks.lc) (Or.inl (hcontext.trans (htracks.context rfl)))
  rw [hrecord, hsavedRecord, hsavedNil, append_nil]
  rfl

lemma fail_settled (h : s.InStep) (sync : Bool)
    (hkeeps : s.supportsRecovery = true ∨ savedReplies events = []) : Settled s False
      (.raised, ((s.addTurn t.fullContent).stream events).session.fail sync) := by
  have htracks := tracks_turn s t events
  have hrecovery : ((s.addTurn t.fullContent).stream events).session.supportsRecovery
      = s.supportsRecovery := htracks.session.recovery
  by_cases hrec : s.supportsRecovery = true
  · exact Or.inr (Or.inl ⟨hrec, rfl, id⟩)
  have hnil : savedReplies events = [] := hkeeps.resolve_left hrec
  rw [hnil] at htracks
  refine Or.inr (Or.inr (Or.inr ⟨?_, id⟩))
  show s.Undone (Session.fail _ sync)
  unfold Session.fail
  rw [if_neg (by rw [hrecovery]; exact hrec)]
  refine tracks_undone (t := t) h htracks ?_ ?_ ?_ ?_ true sync <;> rfl

lemma close_settled (h : s.InStep) (ending : Ending)
    (hkeeps : ending.Keeps s.supportsRecovery s.history (s.turns + 1) (savedReplies events)
      (finalReplies events)) : Settled s (ending.Stays s.supportsRecovery (savedReplies events))
      (((s.addTurn t.fullContent).stream events).close ending) := by
  have htracks := tracks_turn s t events
  cases ending with
  | done => exact Or.inr (Or.inr (Or.inl ⟨synchronised_kept h hkeeps, fun hraised => (nomatch hraised)⟩))
  | lateFailure =>
    by_cases hrec : s.supportsRecovery = true
    · refine Or.inr (Or.inl ⟨hrec, rfl, fun hstays => ?_⟩)
      have hfalse : s.supportsRecovery = false := hstays
      rw [hrec] at hfalse
      cases hfalse
    exact Or.inr (Or.inr (Or.inl ⟨synchronised_kept h (hkeeps.resolve_left hrec),
      fun _ => Bool.eq_false_of_not_eq_true hrec⟩))
  | aborted =>
    obtain ⟨hempty, hsaved⟩ := hkeeps
    by_cases hnil : savedReplies events = []
    · -- nothing was recorded: the message is taken back from both histories
      have hfinal := hempty hnil
      rw [hnil, hfinal] at htracks
      have hundone : s.Undone
          (((s.addTurn t.fullContent).stream events).session.rollbackOnError true false true) :=
        tracks_undone (t := t) h htracks rfl rfl rfl rfl false true
      have hnone : ({ (s.addTurn t.fullContent).stream events with
          session := ((s.addTurn t.fullContent).stream events).session.rollbackOnError true false
            true } : Stream).finalMessages = none := htracks.final
      obtain ⟨hprompt, hrecord, hcontext, hlc⟩ := finish_none hnone
      refine Or.inr (Or.inr (Or.inr ⟨⟨hprompt.trans hundone.systemPrompt,
        hrecord.trans hundone.record, ?_, ?_⟩, fun hstays => hstays hnil⟩))
      · refine hlc.trans ?_
        rw [show _ = s.lcMessages from hundone.lc]
        exact h.whole.sanitize
      rcases hundone.context with hc | hc
      · exact Or.inl (hcontext.trans hc)
      exact Or.inr (hcontext.trans hc)
    -- the replies stay in the record, and the final state brings them to the context
    obtain ⟨_, hfinal, hrepro⟩ := hsaved hnil
    have hfinal' := final_of_tracks htracks hfinal
    refine Or.inr (Or.inr (Or.inl ⟨finish_kept h (t := t) ?_ htracks.count hfinal' hrepro,
      fun hraised => (nomatch hraised)⟩))
    obtain ⟨entries, hrecord, hentries⟩ := htracks.session.record
    have hpop : popIf Entry.isUser ((s.addTurn t.fullContent).record ++ entries)
        = (s.addTurn t.fullContent).record ++ entries :=
      popIf_saved (fun _ he => hentries.isUser he) (fun hentriesNil =>
        hnil (hentries.nil_iff.1 hentriesNil))
    rw [← hrecord] at hpop
    exact htracks.session.rollback hpop false true
  | badRequest => exact fail_settled h false hkeeps
  | failed => exact fail_settled h true hkeeps
  | cancelled => exact Or.inl rfl
  | _ => exact absurd hkeeps id

lemma invokeGraphOnce_settled (h : s.InStep) (huntouched : s.Untouched t) (hkeeps : t.Keeps s) :
    Settled s (t.Stays s.supportsRecovery) (s.invokeGraphOnce t) := by
  have hstopped : s.Undone ((s.addTurn t.fullContent).finishPreStreamAbort) :=
    rollback_undone (t := t) h.whole rfl rfl rfl (Or.inl rfl)
  unfold Session.Untouched at huntouched
  unfold Turn.Keeps at hkeeps
  unfold Turn.Stays Session.invokeGraphOnce
  cases hcourse : t.course with
  | unprepared => exact Or.inr (Or.inr (Or.inr ⟨⟨rfl, rfl, rfl, Or.inl rfl⟩, id⟩))
  | stopped phase =>
    simp only [hcourse] at huntouched
    cases phase with
    | preparation => exact Or.inr (Or.inr (Or.inr ⟨hstopped, id⟩))
    | compression =>
      dsimp only
      rw [check_eq huntouched]
      exact Or.inr (Or.inr (Or.inr ⟨hstopped, id⟩))
    | beforeStream =>
      dsimp only
      rw [prepare_eq h.whole huntouched.1 huntouched.2]
      exact Or.inr (Or.inr (Or.inr ⟨hstopped, id⟩))
  | cancelledEarly => exact Or.inl rfl
  | streamed events ending =>
    simp only [hcourse] at huntouched hkeeps
    dsimp only
    rw [prepare_eq h.whole huntouched.1 huntouched.2]
    exact close_settled h ending hkeeps

/-! ## Invocations -/

@[simp] theorem appendToRecord_systemPrompt (s : Session) (m : Message) :
    (s.appendToRecord m).systemPrompt = s.systemPrompt := by
  unfold Session.appendToRecord
  cases entryOf (s.msgCounter + 1) m <;> rfl

@[simp] lemma syncContextSnapshot_systemPrompt (s : Session) (force : Bool) :
    (s.syncContextSnapshot force).systemPrompt = s.systemPrompt :=
  (syncContextSnapshot_frame s force).1

@[simp] lemma rollbackOnError_systemPrompt (s : Session) (rollbackRecord sanitizePairs sync : Bool) :
    (s.rollbackOnError rollbackRecord sanitizePairs sync).systemPrompt = s.systemPrompt := by
  unfold Session.rollbackOnError
  dsimp only
  split
  · rw [syncContextSnapshot_systemPrompt]
  rfl

@[simp] lemma finishPreStreamAbort_systemPrompt (s : Session) :
    s.finishPreStreamAbort.systemPrompt = s.systemPrompt := rollbackOnError_systemPrompt _ _ _ _

@[simp] lemma checkAndCompressMessages_systemPrompt (s : Session) (c : Compression)
    (forceFull : Bool) : (s.checkAndCompressMessages c forceFull).systemPrompt = s.systemPrompt := by
  unfold Session.checkAndCompressMessages
  dsimp only
  split
  · exact syncContextSnapshot_systemPrompt _ _
  rfl

@[simp] lemma prepare_systemPrompt (s : Session) (t : Turn) :
    (s.prepare t).systemPrompt = s.systemPrompt := by
  unfold Session.prepare Session.trimContext
  split <;> exact checkAndCompressMessages_systemPrompt _ _ _

lemma finish_systemPrompt (st : Stream) : st.finish.systemPrompt = st.session.systemPrompt := by
  have happended : ∀ (messages : List Message) (s : Session),
      (messages.foldl Session.appendToRecord s).systemPrompt = s.systemPrompt := by
    intro messages
    induction messages with
    | nil => exact fun s => rfl
    | cons m rest ih => exact fun s => (ih _).trans (appendToRecord_systemPrompt s m)
  unfold Stream.finish
  dsimp only
  cases st.finalMessages with
  | none => rfl
  | some =>
    show (st.session.syncMessages _ _).systemPrompt = _
    unfold Session.syncMessages
    rw [syncContextSnapshot_systemPrompt, happended]

lemma close_systemPrompt (st : Stream) (ending : Ending) :
    (st.close ending).2.systemPrompt = st.session.systemPrompt := by
  have hwarn : ∀ kind rollbackRecord,
      (st.session.warn kind rollbackRecord).systemPrompt = st.session.systemPrompt :=
    fun kind rollbackRecord => rollbackOnError_systemPrompt _ _ _ _
  have hfail : ∀ sync, (st.session.fail sync).systemPrompt = st.session.systemPrompt := by
    intro sync
    unfold Session.fail
    split
    · rfl
    exact rollbackOnError_systemPrompt _ _ _ _
  cases ending with
  | done => exact finish_systemPrompt st
  | lateFailure => exact finish_systemPrompt st
  | aborted => exact (finish_systemPrompt _).trans (rollbackOnError_systemPrompt _ _ _ _)
  | badRequest => exact hfail _
  | failed => exact hfail _
  | cancelled => rfl
  | _ => exact hwarn _ _

lemma invokeGraphOnce_systemPrompt (s : Session) (t : Turn) :
    (s.invokeGraphOnce t).2.systemPrompt = s.systemPrompt := by
  unfold Session.invokeGraphOnce
  split
  · rfl
  · exact finishPreStreamAbort_systemPrompt _
  · exact (finishPreStreamAbort_systemPrompt _).trans (checkAndCompressMessages_systemPrompt _ _ _)
  · exact (finishPreStreamAbort_systemPrompt _).trans (prepare_systemPrompt s t)
  · exact prepare_systemPrompt s t
  exact (close_systemPrompt _ _).trans
    ((tracks_stream _ _).session.systemPrompt.trans (prepare_systemPrompt s t))

lemma Session.Undone.congr (h : s.Undone s₁) (hprompt : s'.systemPrompt = s₁.systemPrompt)
    (hrecord : s'.record = s₁.record) (hlc : s'.lcMessages = s₁.lcMessages)
    (hcontext : s'.context = s₁.context) : s.Undone s' :=
  ⟨hprompt.trans h.systemPrompt, hrecord.trans h.record, hlc.trans h.lc, hcontext ▸ h.context⟩

lemma Session.Kept.congr (h : s.Kept s₁) (hprompt : s'.systemPrompt = s₁.systemPrompt)
    (hrecord : s'.record = s₁.record) (hlc : s'.lcMessages = s₁.lcMessages) : s.Kept s' := by
  have hhistory : s'.history = s₁.history := by
    unfold Session.history
    rw [hprompt, hrecord]
  obtain ⟨⟨hstep, hturned⟩, hne⟩ := h
  refine ⟨⟨?_, ?_⟩, ?_⟩
  · rw [hlc, hhistory]
    exact hstep
  · rw [hhistory]
    exact hturned
  rw [hrecord]
  exact hne

lemma invokeGraph_inStep (h : s.InStep) (huntouched : s.Untouched t) (hkeeps : t.Keeps s) :
    (s.invokeGraph t).2.systemPrompt = s.systemPrompt ∧
      ((s.invokeGraph t).1 = .cancelled ∨ s.Kept (s.invokeGraph t).2 ∨
        (s.Undone (s.invokeGraph t).2 ∧ ¬ t.Stays s.supportsRecovery)) := by
  by_cases hrecovery : s.supportsRecovery = true
  · generalize hstart : ({ s with failedTurn := none, activeTurnToolStarted := false } : Session)
      = start
    have hsettled : Settled s (t.Stays s.supportsRecovery) (start.invokeGraphOnce t) := by
      subst hstart
      have hstep : ({ s with failedTurn := none, activeTurnToolStarted := false } : Session).InStep :=
        h.undone ⟨rfl, rfl, rfl, Or.inl rfl⟩
      rcases invokeGraphOnce_settled hstep huntouched hkeeps with
        hc | ⟨hr, hraised, hstays⟩ | ⟨hkept, hraised⟩ | ⟨hundone, hstays⟩
      · exact Or.inl hc
      · exact Or.inr (Or.inl ⟨hr, hraised, hstays⟩)
      · exact Or.inr (Or.inr (Or.inl ⟨hkept, hraised⟩))
      exact Or.inr (Or.inr (Or.inr ⟨⟨hundone.systemPrompt, hundone.record, hundone.lc,
        hundone.context⟩, hstays⟩))
    have hprompt : (start.invokeGraphOnce t).2.systemPrompt = s.systemPrompt :=
      (invokeGraphOnce_systemPrompt start t).trans (by rw [← hstart])
    unfold Session.invokeGraph
    rw [if_pos hrecovery]
    dsimp only
    rw [hstart]
    generalize start.invokeGraphOnce t = result at hsettled hprompt
    obtain ⟨outcome, s'⟩ := result
    cases outcome with
    | cancelled => exact ⟨hprompt, Or.inl rfl⟩
    | raised =>
      refine ⟨hprompt, ?_⟩
      -- the checkpoint takes the turn back, whatever it has done
      have hundone : s.Undone ((s'.restore s).keepFailedTurn t) :=
        ⟨hprompt, rfl, rfl, Or.inl rfl⟩
      rcases hsettled with hc | ⟨-, -, hstays⟩ | ⟨-, hraised⟩ | ⟨-, hstays⟩
      · cases hc
      · exact Or.inr (Or.inr ⟨hundone, hstays⟩)
      · exact absurd ((hraised rfl).symm.trans hrecovery) (by decide)
      exact Or.inr (Or.inr ⟨hundone, hstays⟩)
    | returned =>
      refine ⟨hprompt, ?_⟩
      rcases hsettled with hc | ⟨-, hraised, -⟩ | ⟨hkept, -⟩ | ⟨hundone, hstays⟩
      · cases hc
      · cases hraised
      · exact Or.inr (Or.inl (hkept.congr rfl rfl rfl))
      exact Or.inr (Or.inr ⟨hundone.congr rfl rfl rfl rfl, hstays⟩)
  have hsettled := invokeGraphOnce_settled h huntouched hkeeps
  have hprompt := invokeGraphOnce_systemPrompt s t
  unfold Session.invokeGraph
  rw [if_neg hrecovery]
  refine ⟨hprompt, ?_⟩
  rcases hsettled with hc | ⟨hr, -, -⟩ | ⟨hkept, -⟩ | ⟨hundone, hstays⟩
  · exact Or.inl hc
  · exact absurd hr hrecovery
  · exact Or.inr (Or.inl hkept)
  exact Or.inr (Or.inr ⟨hundone, hstays⟩)

lemma scoped_inStep {start : Session} (h : s.InStep) (hidle : s.Idle)
    (hprompt : start.systemPrompt = s.systemPrompt) (hstart : start.InStep)
    (huntouched : start.Untouched t) (hkeeps : t.Keeps start)
    (hidle' : ¬ t.Stays start.supportsRecovery → start.Idle) :
    (s.scoped (start.invokeGraph t)).2.InStep ∧ (s.scoped (start.invokeGraph t)).2.Idle := by
  obtain ⟨hprompt', hsettled⟩ := invokeGraph_inStep hstart huntouched hkeeps
  generalize start.invokeGraph t = result at *
  obtain ⟨outcome, s'⟩ := result
  have hrest : s.Kept s' ∨ (start.Undone s' ∧ ¬ t.Stays start.supportsRecovery) →
      s'.InStep ∧ s'.Idle := by
    rintro (⟨hstep, hne⟩ | ⟨hundone, hstays⟩)
    · exact ⟨hstep, fun hempty => absurd hempty hne⟩
    exact ⟨hstart.undone hundone, (hidle' hstays).undone hstart hundone⟩
  cases outcome with
  | cancelled =>
    have hundone : s.Undone (s'.restore s) := ⟨hprompt'.trans hprompt, rfl, rfl, Or.inl rfl⟩
    exact ⟨h.undone hundone, hidle.undone h hundone⟩
  | _ => exact hrest (hsettled.resolve_left (nofun))

/-! ## Edits -/

theorem restoreEntry_user (h : e.isUser = true) :
    ∃ m, restoreEntry e = some m ∧ m.role = .human := by
  have htype : e.type = .user := by simpa [Entry.isUser] using h
  refine ⟨{ role := .human, content := e.restoredContent, origin := .turn e.turn }, ?_, rfl⟩
  unfold restoreEntry
  rw [htype]

lemma countHuman_recordMessages (record : List Entry) :
    (recordMessages record).countP (fun m => m.role = .human) = record.countP Entry.isUser := by
  induction record with
  | nil => rfl
  | cons e rest ih =>
    unfold recordMessages at *
    rw [countP_cons, filterMap_cons]
    cases he : restoreEntry e with
    | none =>
      have huser : ¬ e.isUser = true := fun huser => by
        obtain ⟨m, hm, -⟩ := restoreEntry_user huser
        rw [he] at hm
        cases hm
      rw [if_neg huser]
      exact ih
    | some m =>
      obtain ⟨-, -, hhuman⟩ := restoreEntry_eq_some he
      show (m :: rest.filterMap restoreEntry).countP _ = _
      rw [countP_cons, ih]
      simp only [decide_eq_true_eq, hhuman]

lemma countHuman_history (s : Session) (record : List Entry) :
    (promptMessages s.systemPrompt ++ recordMessages record).countP (fun m => m.role = .human)
      = record.countP Entry.isUser := by
  have hprompt : (promptMessages s.systemPrompt).countP (fun m => m.role = .human) = 0 :=
    countP_eq_zero.2 (fun m hm hrole => by
      rw [promptMessages_system hm] at hrole
      exact absurd hrole (by decide))
  rw [countP_append, hprompt, countHuman_recordMessages, Nat.zero_add]

lemma truncate_frame (s : Session) (target cut : Nat) :
    (s.truncate target cut).systemPrompt = s.systemPrompt ∧
      (s.truncate target cut).record = s.record.take target ∧
      (s.truncate target cut).supportsRecovery = s.supportsRecovery ∧
      ((s.truncate target cut).context = s.context ∨
        (s.truncate target cut).context = s.lcMessages.take cut) := by
  obtain ⟨hprompt, hrecovery, hrecord, -, hcontext⟩ := syncContextSnapshot_frame
    { s with record := s.record.take target, lcMessages := s.lcMessages.take cut } false
  exact ⟨hprompt, hrecord, hrecovery, hcontext⟩

lemma Session.InStep.truncate (h : s.InStep) {target cut : Nat}
    (hpoint : s.editPoint messageId = .ok (target, cut)) : (s.truncate target cut).InStep := by
  obtain ⟨⟨e, he, -, huser⟩, ⟨m, hm, hrole⟩, hcount⟩ := editPoint_eq_ok hpoint
  obtain ⟨m', hm', hrole'⟩ := restoreEntry_user huser
  obtain ⟨hprompt, hrecord, -, -⟩ := truncate_frame s target cut
  have hlt : target < s.record.length := (List.getElem?_eq_some_iff.1 he).1
  have hget : s.record[target] = e := (List.getElem?_eq_some_iff.1 he).2
  have hparts : s.record = s.record.take target ++ e :: s.record.drop (target + 1) := by
    rw [← hget, ← drop_eq_getElem_cons hlt, take_append_drop]
  have hsplit : s.history = (promptMessages s.systemPrompt ++ recordMessages (s.record.take target))
      ++ m' :: recordMessages (s.record.drop (target + 1)) := by
    unfold Session.history
    rw [append_assoc]
    congr 1
    conv_lhs => rw [hparts]
    rw [recordMessages_append]
    congr 1
    exact filterMap_cons_some hm'
  obtain ⟨hturned, hapart⟩ := h.turned.cut hsplit hrole'
  have hlc : s.lcMessages
      = sanitizeToolPairs (promptMessages s.systemPrompt ++ recordMessages (s.record.take target))
        ++ m' :: sanitizeToolPairs (recordMessages (s.record.drop (target + 1))) := by
    rw [h.lc, hsplit, sanitizeToolPairs_append hapart, sanitizeToolPairs_cons_human hrole']
  generalize hbefore : sanitizeToolPairs (promptMessages s.systemPrompt
    ++ recordMessages (s.record.take target)) = before at hlc
  -- the cut is the place after what is left of the record, since the numbers agree
  have hplace : nthIndex (fun m : Message => m.role = .human)
      ((s.record.take target).countP Entry.isUser + 1) s.lcMessages = some before.length := by
    refine nthIndex_eq_some.2 ⟨⟨m', ?_, decide_eq_true hrole'⟩, ?_⟩
    · rw [hlc, getElem?_append_right le_rfl, Nat.sub_self]
      rfl
    rw [hlc, take_left, ← hbefore, countHuman_sanitizeToolPairs, countHuman_history]
  have hcut : nthIndex (fun m : Message => m.role = .human)
      ((s.record.take target).countP Entry.isUser + 1) s.lcMessages = some cut :=
    nthIndex_eq_some.2 ⟨⟨m, hm, decide_eq_true hrole⟩, by rw [hcount]⟩
  have heq : before.length = cut := some.inj (hplace.symm.trans hcut)
  have hhistory : (s.truncate target cut).history
      = promptMessages s.systemPrompt ++ recordMessages (s.record.take target) := by
    unfold Session.history
    rw [hprompt, hrecord]
  refine ⟨?_, ?_⟩
  · rw [truncate_lcMessages, hhistory, hbefore, ← heq, hlc, take_left]
  rw [hhistory]
  exact hturned

/-! ## Runs -/

def Session.Accepts (s : Session) : Prop := s.graphReady = true ∧ s.terminated = false

def Turn.retried (t : Turn) (failed : FailedTurn) : Turn :=
  { t with content := failed.content, fromUser := true }

def Session.CanRetry (s : Session) (failed : FailedTurn) : Prop :=
  s.supportsRecovery = true ∧ s.Accepts ∧ s.failedTurn = some failed ∧ failed.retryable = true ∧
    stripChars failed.content ≠ []

/-- **A step that neither compresses nor trims the history.** -/
def SessionStep.Untouched : SessionStep → Session → Prop
  | .send t, s => s.Accepts → s.Untouched t
  | .retry t, s => ∀ failed, s.CanRetry failed → s.Untouched (t.retried failed)
  | .edit messageId t, s => ∀ target cut, s.editPoint messageId = .ok (target, cut) →
      (s.truncate target cut).Untouched t
  | .compress _, _ => False
  | .notice _, _ => True
  | .terminate, _ => True
  | .reload, _ => True

/-- **The condition on a step**: its turn keeps the histories in step, and an
edit of the first message does not leave an empty record beside an old
snapshot. -/
def SessionStep.Keeps : SessionStep → Session → Prop
  | .send t, s => s.Accepts → t.Keeps s
  | .retry t, s => ∀ failed, s.CanRetry failed → (t.retried failed).Keeps s
  | .edit messageId t, s => ∀ target cut, s.editPoint messageId = .ok (target, cut) →
      t.Keeps (s.truncate target cut) ∧
        (target = 0 → s.context = [] ∨ s.context = promptMessages s.systemPrompt ∨
          t.Stays s.supportsRecovery)
  | _, _ => True

def AllSteps (P : SessionStep → Session → Prop) : Session → List SessionStep → Prop
  | _, [] => True
  | s, step :: rest => P step s ∧ AllSteps P (step.apply s) rest

def seen (m : Message) : Role × Content × List ToolCall × String :=
  (m.role, m.content, m.toolCalls, m.toolCallId)

/-- **A restart does not change what the model sees.** -/
def SurvivesReload (s : Session) : Prop := s.reload.lcMessages.map seen = s.lcMessages.map seen

lemma edit_inStep (h : s.InStep) (hidle : s.Idle)
    (huntouched : (SessionStep.edit messageId t).Untouched s)
    (hkeeps : (SessionStep.edit messageId t).Keeps s) :
    (s.editMessageAndResend messageId t).2.InStep ∧ (s.editMessageAndResend messageId t).2.Idle := by
  unfold Session.editMessageAndResend
  cases hpoint : s.editPoint messageId with
  | error => exact ⟨h, hidle⟩
  | ok place =>
    obtain ⟨target, cut⟩ := place
    obtain ⟨hkeeps', hfirst⟩ := hkeeps target cut hpoint
    obtain ⟨⟨_, he, -, -⟩, -, -⟩ := editPoint_eq_ok hpoint
    obtain ⟨hprompt, hrecord, hrecovery, hcontext⟩ := truncate_frame s target cut
    have hstep := h.truncate hpoint
    refine scoped_inStep h hidle hprompt hstep (huntouched target cut hpoint) hkeeps'
      (fun hstays hempty => ?_)
    rw [hrecovery] at hstays
    rw [hrecord] at hempty
    -- only an edit of the first entry leaves an empty record
    have hzero : target = 0 := by
      have hlt : target < s.record.length := (List.getElem?_eq_some_iff.1 he).1
      have hlength := congrArg List.length hempty
      rw [length_take, length_nil] at hlength
      omega
    rw [hprompt]
    rcases hcontext with hcontext | hcontext
    · rw [hcontext]
      rcases hfirst hzero with hnil | hold | hstays'
      · exact Or.inl hnil
      · exact Or.inr hold
      exact absurd hstays' hstays
    rw [hcontext, ← truncate_lcMessages s target cut, hstep.lc_of_empty (hrecord.trans hempty),
      hprompt]
    exact Or.inr rfl

lemma step_inStep (h : s.InStep) (hidle : s.Idle) {step : SessionStep}
    (huntouched : step.Untouched s) (hkeeps : step.Keeps s) :
    (step.apply s).InStep ∧ (step.apply s).Idle := by
  cases step with
  | send t =>
    show (s.sendMessage t).2.InStep ∧ (s.sendMessage t).2.Idle
    unfold Session.sendMessage
    split
    · exact ⟨h, hidle⟩
    rename_i haccepts
    rw [not_or, Bool.not_eq_false, Bool.not_eq_true] at haccepts
    exact scoped_inStep h hidle rfl h (huntouched haccepts) (hkeeps haccepts) (fun _ => hidle)
  | retry t =>
    show (s.retryFailedTurn t).2.InStep ∧ (s.retryFailedTurn t).2.Idle
    unfold Session.retryFailedTurn
    split
    · exact ⟨h, hidle⟩
    rename_i haccepts
    rw [not_or, not_or, Bool.not_eq_false, Bool.not_eq_false, Bool.not_eq_true] at haccepts
    split
    · exact ⟨h, hidle⟩
    rename_i failed hfailed
    split
    · exact ⟨h, hidle⟩
    rename_i hretry
    rw [not_or, Bool.not_eq_false] at hretry
    have hcan : s.CanRetry failed := ⟨haccepts.1, haccepts.2, hfailed, hretry.1, hretry.2⟩
    have hstart : ({ s with
        failedTurn := some { failed with retryable := false } } : Session).InStep :=
      h.undone ⟨rfl, rfl, rfl, Or.inl rfl⟩
    exact scoped_inStep h hidle rfl hstart (huntouched failed hcan) (hkeeps failed hcan)
      (fun _ => hidle)
  | edit => exact edit_inStep h hidle huntouched hkeeps
  | compress => exact absurd huntouched id
  | notice kind =>
    -- the reload passes over what only the user sees
    have hhistory : (s.addDisplayMessage kind).history = s.history := by
      show promptMessages s.systemPrompt ++ recordMessages (s.record ++ [_]) = _
      rw [recordMessages_append]
      exact congrArg _ (append_nil _)
    refine ⟨⟨?_, ?_⟩, fun hempty => ?_⟩
    · show s.lcMessages = sanitizeToolPairs (s.addDisplayMessage kind).history
      rw [hhistory]
      exact h.lc
    · show Turned (s.addDisplayMessage kind).history
      rw [hhistory]
      exact h.turned
    exact absurd hempty (append_ne_nil_of_right_ne_nil _ (cons_ne_nil _ _))
  | terminate =>
    have hundone : s.Undone (SessionStep.terminate.apply s) := ⟨rfl, rfl, rfl, Or.inl rfl⟩
    exact ⟨h.undone hundone, hidle.undone h hundone⟩
  | reload =>
    show s.reload.InStep ∧ s.reload.Idle
    refine ⟨⟨(reload_of_inStep h hidle).trans h.lc, h.turned⟩, fun hempty => ?_⟩
    have hempty' : s.record = [] := hempty
    have hcontext : s.reload.context = s.context := if_neg (not_not.2 hempty')
    rw [hcontext]
    exact hidle hempty'

lemma newSession_inStep (systemPrompt : String) (main interactive compressor : Bool) :
    (newSession systemPrompt main interactive compressor).InStep ∧
      (newSession systemPrompt main interactive compressor).Idle := by
  have hhistory : (newSession systemPrompt main interactive compressor).history
      = promptMessages systemPrompt := append_nil _
  refine ⟨⟨?_, ?_⟩, fun _ => Or.inr rfl⟩
  · rw [hhistory, sanitizeToolPairs_prompt]
    rfl
  rw [hhistory]
  exact .start (fun _ hm => promptMessages_system hm)

lemma inStep_run (steps : List SessionStep) : ∀ (s : Session), s.InStep → s.Idle →
    AllSteps SessionStep.Untouched s steps → AllSteps SessionStep.Keeps s steps → ∀ n,
    (runSession s (steps.take n)).InStep ∧ (runSession s (steps.take n)).Idle := by
  induction steps with
  | nil =>
    intro s h hidle _ _ n
    rw [take_nil]
    exact ⟨h, hidle⟩
  | cons step rest ih =>
    intro s h hidle huntouched hkeeps n
    cases n with
    | zero => exact ⟨h, hidle⟩
    | succ n =>
      obtain ⟨hstep, hidle'⟩ := step_inStep h hidle huntouched.1 hkeeps.1
      exact ih _ hstep hidle' huntouched.2 hkeeps.2 n

/-- **A run of turns that keep the histories in step survives a restart at
any time**: in every session reached, the model sees after a restart what it
saw before. -/
theorem reload_run (systemPrompt : String) (main interactive compressor : Bool)
    (steps : List SessionStep)
    (huntouched : AllSteps SessionStep.Untouched (newSession systemPrompt main interactive compressor)
      steps)
    (hkeeps : AllSteps SessionStep.Keeps (newSession systemPrompt main interactive compressor) steps)
    (n : Nat) : SurvivesReload
      (runSession (newSession systemPrompt main interactive compressor) (steps.take n)) := by
  obtain ⟨hnew, hnewIdle⟩ := newSession_inStep systemPrompt main interactive compressor
  obtain ⟨hstep, hidle⟩ := inStep_run steps _ hnew hnewIdle huntouched hkeeps n
  unfold SurvivesReload
  rw [reload_of_inStep hstep hidle]

/-- A completed turn survives a restart. -/
theorem reload_run_answered : SurvivesReload (runSession (newSession "prompt" true true false)
      ([.send (answered "a" "1")].take 1)) := by
  refine reload_run "prompt" true true false [.send (answered "a" "1")]
    ⟨fun _ => ?_, trivial⟩ ⟨fun _ => ?_, trivial⟩ 1
  · refine ⟨?_, fun _ => by decide +kernel⟩
    unfold Session.Uncompressed
    decide +kernel
  refine ⟨by decide +kernel, ⟨?_, ?_⟩⟩ <;> decide +kernel

/-- **A restart brings an aborted turn back**: it was taken from the context
only. -/
theorem aborted_turn_comes_back : ¬ SurvivesReload (runSession (newSession "prompt" true true false)
      [.send (abortedTurn "a" "1")]) ∧
      AllSteps SessionStep.Untouched (newSession "prompt" true true false)
        [.send (abortedTurn "a" "1")] := by
  refine ⟨?_, fun _ => ⟨?_, fun _ => by decide +kernel⟩, trivial⟩
  · unfold SurvivesReload
    decide +kernel
  unfold Session.Uncompressed
  decide +kernel

end DeterminFlow.Chat
