/-
  Chat.TurnOrder
  **THE ORDER OF THE TURNS.**

  In every history of a session, the user message of a turn comes after all
  messages of earlier turns, and before all of its own.  A compaction drops
  and moves messages, but what is left of the turns stays in this order; a
  reload makes it from the record again.
-/
import DeterminFlow.Chat.Session

namespace DeterminFlow.Chat

open Context List Option

/-! ## What is left of the turns -/

def turnMark (m : Message) : Option (Bool × Nat) :=
  (turnOf m).map (fun number => (decide (m.role = .human), number))

def turnMarks (messages : List Message) : List (Bool × Nat) := messages.filterMap turnMark

/-- **No more is left of the turns, and in the same order.** -/
def Shorter (messages result : List Message) : Prop :=
  (turnMarks result).Sublist (turnMarks messages)

@[simp] lemma turnMarks_append (l l' : List Message) :
    turnMarks (l ++ l') = turnMarks l ++ turnMarks l' := filterMap_append

theorem Shorter.refl (messages : List Message) : Shorter messages messages := List.Sublist.refl _

lemma Shorter.trans {l l' l'' : List Message} (h : Shorter l l') (h' : Shorter l' l'') :
    Shorter l l'' := List.Sublist.trans h' h

variable {m : Message} {turns : Nat} {s' : Session} {st : Stream}

lemma turnMark_kin {m' : Message} (h : Kin m m') : turnMark m' = turnMark m := by
  unfold turnMark turnOf
  rw [h.role, h.origin]

lemma turnMark_system (hrole : m.role = .system) : turnMark m = none := by
  unfold turnMark turnOf
  rw [if_pos hrole, map_none]

lemma shorter_of_thinned {messages result : List Message} (h : Thinned messages result) :
    Shorter messages result := by
  unfold Thinned at h
  unfold Shorter turnMarks
  induction h with
  | nil => exact nil_sublist _
  | @cons m' m _ _ hkin _ ih =>
    rw [filterMap_cons, filterMap_cons, turnMark_kin hkin]
    cases turnMark m with
    | none => exact ih
    | some mark => exact ih.cons_cons mark
  | @cons_right m _ _ _ ih =>
    rw [filterMap_cons]
    cases turnMark m with
    | none => exact ih
    | some mark => exact ih.cons mark

lemma shorter_of_sublist {messages result : List Message} (h : result.Sublist messages) :
    Shorter messages result := shorter_of_thinned (thinned_of_sublist h)

lemma turnMarks_eq_nil {messages : List Message} (h : ∀ m ∈ messages, turnMark m = none) :
    turnMarks messages = [] := filterMap_eq_nil_iff.2 h

lemma turnMarks_system (messages : List Message) :
    turnMarks (messages.filter (·.role = .system)) = [] :=
  turnMarks_eq_nil (fun _ hm => turnMark_system (by simpa using (mem_filter.1 hm).2))

lemma shorter_parts {messages others : List Message} (h : others.Sublist messages) :
    Shorter messages (messages.filter (·.role = .system) ++ others) := by
  show (turnMarks _).Sublist _
  rw [turnMarks_append, turnMarks_system, nil_append]
  exact shorter_of_sublist h

lemma checkpoint_part_sublist {messages kept : List Message} {c : Nat}
    (h : kept.Sublist (messages.drop (c + 1))) : ((messages[c]?).toList ++ kept).Sublist messages :=
  ((List.Sublist.refl _).append h).trans (checkpoint_sublist messages c)

lemma shorter_fromCheckpoint (messages : List Message) :
    Shorter messages (fromCheckpoint messages) := by
  unfold fromCheckpoint
  split
  · exact .refl messages
  rw [append_assoc]
  exact shorter_parts (checkpoint_part_sublist filter_sublist)

lemma shorter_discardOldestRound (messages : List Message) :
    Shorter messages (discardOldestRound messages) := by
  refine (shorter_fromCheckpoint messages).trans (shorter_of_sublist ?_)
  unfold discardOldestRound
  dsimp only
  split
  · exact List.Sublist.refl _
  rename_i start _
  exact take_drop_sublist _ (by omega)

lemma shorter_trimMessages (maxTokens : Nat) (messages : List Message) :
    Shorter messages (trimMessages maxTokens messages) := by
  unfold trimMessages
  split
  · exact .refl messages
  split
  · exact shorter_of_thinned (thinned_sanitizeToolPairs messages)
  dsimp only
  refine Shorter.trans ?_ (shorter_of_thinned (thinned_sanitizeToolPairs _))
  rw [append_assoc]
  refine shorter_parts ?_
  -- what fits is a part of the messages after the checkpoint
  have hkept : ∀ (spent : Nat) (l : List Message),
      ((fitting maxTokens spent l.reverse).reverse).Sublist l := fun spent l => by
    have h := (fitting_sublist maxTokens spent l.reverse).reverse
    rwa [reverse_reverse] at h
  cases hc : findLatestCheckpointIndex messages with
  | none =>
    rw [bind_none, toList_none, nil_append]
    exact (hkept _ _).trans (filter_sublist.trans (drop_sublist _ _))
  | some =>
    exact checkpoint_part_sublist ((hkept _ _).trans filter_sublist)

lemma shorter_postProcess (files : List (String × String)) (messages : List Message) :
    Shorter messages (postProcess files messages) := by
  have hinserted : turnMarks (insertedMessages files) = [] := by
    refine turnMarks_eq_nil (fun _ hm => turnMark_system ?_)
    unfold insertedMessages at hm
    rcases mem_cons.1 hm with rfl | hm
    · rfl
    split at hm
    · cases hm
    rw [mem_singleton.1 hm]
    rfl
  show (turnMarks _).Sublist _
  unfold postProcess
  rw [turnMarks_append, turnMarks_append, hinserted, append_nil, ← turnMarks_append,
    take_append_drop]

lemma shorter_executeFull (cfg : CompressionConfig) (compressor : Compressor)
    (messages : List Message) : Shorter messages (executeFull cfg compressor messages) := by
  by_cases hraises : Raises cfg compressor messages
  · unfold executeFull
    rw [executeWithSnapshots_eq_none_iff.2 hraises]
    exact .refl messages
  rcases executeFull_cases hraises with hfailed | ⟨summary, -, hdone⟩
  · rw [hfailed]
    exact shorter_postProcess _ _
  rw [hdone]
  refine Shorter.trans ?_ (shorter_postProcess _ _)
  have hsummary : turnMarks [summaryMessage summary] = [] := rfl
  show (turnMarks _).Sublist _
  unfold buildNewMessages
  rw [turnMarks_append, turnMarks_append, turnMarks_system, hsummary, nil_append, nil_append]
  exact shorter_of_sublist (filter_sublist.trans (drop_sublist _ _))

variable (c : Compression) (isCompressor : Bool) (systemPrompt : String)

lemma shorter_execute (strategy : Strategy) (messages : List Message) :
    Shorter messages (c.execute strategy messages) := by
  cases strategy with
  | none => exact .refl messages
  | micro => exact shorter_of_thinned (thinned_microCompact _ _ _ _)
  | full => exact shorter_executeFull _ _ _
  | reactive => exact shorter_discardOldestRound _

lemma shorter_become {p : Progress} {after : List Message} (h : Shorter p.messages after) :
    Shorter p.messages (p.become after).messages := by
  unfold Progress.become
  split
  · exact .refl _
  exact h

lemma shorter_apply (p : Progress) (c : Compression) (strategy : Strategy) :
    Shorter p.messages (p.apply c strategy).messages := shorter_become (shorter_execute _ _ _)

lemma shorter_react (retries : Nat) (p : Progress) :
    Shorter p.messages (Progress.react c retries p).messages := by
  induction retries generalizing p with
  | zero => exact .refl _
  | succ retries ih =>
    unfold Progress.react
    split
    · split
      · exact .refl _
      exact (shorter_apply p c .reactive).trans (ih _)
    exact .refl _

lemma shorter_checked (p : Progress) :
    Shorter p.messages (p.checked c isCompressor).messages := by
  have hcleared : Shorter p.messages
      (if c.preCheck p.messages = .micro then p.apply c .micro else p).messages := by
    split
    · exact shorter_apply _ _ _
    exact .refl _
  unfold Progress.checked
  dsimp only
  refine hcleared.trans ?_
  -- what is left is one more strategy, whatever the second check has decided
  generalize (if c.preCheck p.messages = .micro then p.apply c .micro else p) = cleared
  generalize (if c.preCheck p.messages = .micro ∧ isCompressor = false then
    c.fullCheck cleared.messages else c.preCheck p.messages) = decision
  split
  · exact shorter_apply _ _ _
  exact .refl _

lemma shorter_hardLimited (p : Progress) :
    Shorter p.messages (p.hardLimited c isCompressor).messages := by
  unfold Progress.hardLimited
  split
  · have hclipped : Shorter p.messages (p.become (compactForRequest c.cfg p.messages)).messages :=
      shorter_become (shorter_of_thinned (thinned_compactForRequest _ _))
    dsimp only
    split
    · exact hclipped
    exact hclipped.trans (shorter_react _ _ _)
  exact .refl _

lemma shorter_run (forceFull isCompressor : Bool) (messages : List Message) :
    Shorter messages (c.run forceFull isCompressor messages).messages := by
  unfold Compression.run
  refine Shorter.trans ?_ (shorter_hardLimited c isCompressor _)
  cases forceFull with
  | false => exact shorter_checked c isCompressor { messages := messages }
  | true =>
    cases isCompressor with
    | true => exact .refl _
    | false => exact shorter_apply { messages := messages } c .full

/-! ## Histories in order -/

/-- **A history of the first `turns` turns, in order**: a user message comes
after all messages of earlier turns. -/
structure Sound (turns : Nat) (messages : List Message) : Prop where
  order : (turnMarks messages).Pairwise (fun a b => b.1 = true → a.2 < b.2)
  bound : ∀ mark ∈ turnMarks messages, mark.2 ≤ turns

lemma Sound.shorter {messages result : List Message} (h : Sound turns messages)
    (hshorter : Shorter messages result) : Sound turns result :=
  ⟨h.order.sublist hshorter, fun mark hmark => h.bound mark (hshorter.mem hmark)⟩

lemma Sound.mono {turns' : Nat} {messages : List Message} (h : Sound turns messages)
    (hle : turns ≤ turns') : Sound turns' messages :=
  ⟨h.order, fun mark hmark => (h.bound mark hmark).trans hle⟩

lemma sound_of_no_turns {messages : List Message} (h : turnMarks messages = []) (turns : Nat) :
    Sound turns messages := by
  refine ⟨?_, fun _ hmark => ?_⟩
  · rw [h]
    exact List.Pairwise.nil
  rw [h] at hmark
  cases hmark

lemma Sound.append {messages later : List Message} (h : Sound turns messages)
    (hlater : ∀ m ∈ later, m.role ≠ .human ∧ ∀ k, turnOf m = some k → k ≤ turns) :
    Sound turns (messages ++ later) := by
  have hmarks : ∀ mark ∈ turnMarks later, mark.1 = false ∧ mark.2 ≤ turns := by
    intro mark hmark
    obtain ⟨m, hm, hmark⟩ := mem_filterMap.1 hmark
    obtain ⟨k, hk, rfl⟩ := map_eq_some_iff.1 hmark
    exact ⟨decide_eq_false (hlater m hm).1, (hlater m hm).2 k hk⟩
  refine ⟨?_, fun mark hmark => ?_⟩
  · rw [turnMarks_append, pairwise_append]
    refine ⟨h.order, List.Pairwise.imp_of_mem (R := fun _ _ => True) ?_ ?_, ?_⟩
    · intro a b _ hb _ htrue
      rw [(hmarks b hb).1] at htrue
      cases htrue
    · exact pairwise_of_forall (fun _ _ => trivial)
    intro a _ b hb htrue
    rw [(hmarks b hb).1] at htrue
    cases htrue
  rw [turnMarks_append] at hmark
  rcases mem_append.1 hmark with hmark | hmark
  · exact h.bound mark hmark
  exact (hmarks mark hmark).2

lemma Sound.add_human {messages : List Message} (h : Sound turns messages) (content : Content) :
    Sound (turns + 1) (messages ++ [{ role :=.human, content := content, origin := .turn (turns + 1) }]) := by
  refine ⟨?_, fun mark hmark => ?_⟩
  · rw [turnMarks_append, pairwise_append]
    refine ⟨h.order, pairwise_singleton _ _, fun a ha b hb _ => ?_⟩
    have hb' : b = (true, turns + 1) := mem_singleton.1 hb
    have ha' := h.bound a ha
    rw [hb']
    show a.2 < turns + 1
    omega
  rw [turnMarks_append] at hmark
  rcases mem_append.1 hmark with hmark | hmark
  · have hle := h.bound mark hmark
    omega
  have hmark' : mark = (true, turns + 1) := mem_singleton.1 hmark
  rw [hmark']

/-! ## Sessions in order -/

/-- What a session had when something began: the record's length, the
counter of ids and the number of turns. -/
structure Floor where
  target : Nat
  counter : Nat
  turns : Nat

/-- **A session in order**: its three histories are, and the record's ids
come from the counter, those after `target` newly. -/
structure Session.InOrder (floor : Floor) (s : Session) : Prop where
  lc : Sound s.turns s.lcMessages
  record : Sound s.turns (recordMessages s.record)
  context : Sound s.turns s.context
  ids : ∀ e ∈ s.record, e.id ≤ s.msgCounter
  counter : floor.counter ≤ s.msgCounter
  turns : floor.turns ≤ s.turns
  fresh : ∀ e ∈ s.record.drop floor.target, floor.counter < e.id

def Session.floor (s : Session) : Floor :=
  { target := s.record.length, counter := s.msgCounter, turns := s.turns }

variable {floor : Floor} {s : Session}

lemma Session.InOrder.rebase (h : s.InOrder floor) : s.InOrder s.floor := by
  refine ⟨h.lc, h.record, h.context, h.ids, le_rfl, le_rfl, fun _ he => ?_⟩
  have hnil : s.record.drop s.record.length = [] := drop_length
  rw [show s.floor.target = s.record.length from rfl, hnil] at he
  cases he

lemma recordMessages_append (l l' : List Entry) :
    recordMessages (l ++ l') = recordMessages l ++ recordMessages l' := filterMap_append

lemma Session.InOrder.withLc (h : s.InOrder floor) {messages : List Message}
    (hshorter : Shorter s.lcMessages messages) : ({ s with lcMessages :=messages }).InOrder floor :=
  ⟨h.lc.shorter hshorter, h.record, h.context, h.ids, h.counter, h.turns, h.fresh⟩

lemma Session.InOrder.append_ids (h : s.InOrder floor) {entry : Entry}
    (hid : entry.id = s.msgCounter + 1) : (∀ e ∈ s.record ++ [entry], e.id ≤ s.msgCounter + 1) ∧
      ∀ e ∈ (s.record ++ [entry]).drop floor.target, floor.counter < e.id := by
  have hcounter := h.counter
  refine ⟨fun e he => ?_, fun e he => ?_⟩
  · rcases mem_append.1 he with he | he
    · exact Nat.le_succ_of_le (h.ids e he)
    rw [mem_singleton.1 he, hid]
  -- the new entry is newly numbered, wherever the record is cut
  rw [drop_append] at he
  rcases mem_append.1 he with he | he
  · exact h.fresh e he
  rw [mem_singleton.1 (mem_of_mem_drop he), hid]
  omega

lemma Session.InOrder.append (h : s.InOrder floor) (entry : Nat → Entry)
    (hid : (entry (s.msgCounter + 1)).id = s.msgCounter + 1)
    (hentry : ∀ m, restoreEntry (entry (s.msgCounter + 1)) = some m →
      m.role ≠ .human ∧ ∀ k, turnOf m = some k → k ≤ s.turns) : (s.append entry).InOrder floor := by
  have hnew : ∀ m ∈ recordMessages [entry (s.msgCounter + 1)],
      m.role ≠ .human ∧ ∀ k, turnOf m = some k → k ≤ s.turns := by
    intro m hm
    obtain ⟨_, he, hm⟩ := mem_filterMap.1 hm
    rw [mem_singleton.1 he] at hm
    exact hentry m hm
  obtain ⟨hids, hfresh⟩ := h.append_ids hid
  refine ⟨h.lc, ?_, h.context, hids, Nat.le_succ_of_le h.counter, h.turns, hfresh⟩
  show Sound s.turns (recordMessages (s.record ++ [entry (s.msgCounter + 1)]))
  rw [recordMessages_append]
  exact h.record.append hnew

lemma Session.InOrder.addDisplayMessage (h : s.InOrder floor) (kind : Display) :
    (s.addDisplayMessage kind).InOrder floor :=
  h.append _ rfl (nofun)

lemma Session.InOrder.appendToRecord (h : s.InOrder floor) (hrole : m.role ≠ .human)
    (hturn : ∀ k, turnOf m = some k → k ≤ s.turns) : (s.appendToRecord m).InOrder floor := by
  have hle : (turnOf m).getD 0 ≤ s.turns := by
    cases hm : turnOf m with
    | none => exact Nat.zero_le _
    | some k => exact hturn k hm
  unfold Session.appendToRecord
  cases hentry : entryOf (s.msgCounter + 1) m with
  | none => exact h
  | some entry =>
    obtain ⟨hid, _, huser⟩ := entryOf_eq_some hentry
    refine h.append (fun _ => entry) hid (fun _ hm' => ?_)
    obtain ⟨hturn', -, hhuman⟩ := restoreEntry_eq_some hm'
    refine ⟨fun hrole' => hrole (huser (hhuman.1 hrole')), fun k hk => ?_⟩
    have hk' : entry.turn = k := some.inj (hturn'.symm.trans hk)
    omega

lemma Session.InOrder.syncContextSnapshot (h : s.InOrder floor) (force : Bool) :
    (s.syncContextSnapshot force).InOrder floor := by
  have hsynced : ({ s with context := s.lcMessages }).InOrder floor :=
    ⟨h.lc, h.record, h.lc, h.ids, h.counter, h.turns, h.fresh⟩
  unfold Session.syncContextSnapshot
  split
  · exact hsynced
  split
  · exact hsynced
  exact h

lemma popIf_isInitial {α : Type} (p : α → Bool) (l : List α) : popIf p l <+: l := by
  unfold popIf
  split
  · exact dropLast_prefix l
  exact prefix_refl l

lemma Session.InOrder.withRecord (h : s.InOrder floor) {record : List Entry}
    (hpre : record <+: s.record) : ({ s with record := record }).InOrder floor := by
  refine ⟨h.lc, ?_, h.context, fun e he => h.ids e (hpre.subset he), h.counter, h.turns,
    fun e he => h.fresh e ?_⟩
  · exact h.record.shorter (shorter_of_sublist (hpre.sublist.filterMap restoreEntry))
  obtain ⟨_, hlater⟩ := hpre
  rw [← hlater, drop_append]
  exact mem_append_left _ he

lemma Session.InOrder.rollbackOnError (h : s.InOrder floor)
    (rollbackRecord sanitizePairs syncSnapshot : Bool) :
    (s.rollbackOnError rollbackRecord sanitizePairs syncSnapshot).InOrder floor := by
  have hlc : Shorter s.lcMessages (popIf (fun m => m.role = .human) s.lcMessages) :=
    shorter_of_sublist (popIf_isInitial _ _).sublist
  have hlc' : Shorter s.lcMessages
      (if sanitizePairs then sanitizeToolPairs (popIf (fun m => m.role = .human) s.lcMessages)
        else popIf (fun m => m.role = .human) s.lcMessages) := by
    split
    · exact hlc.trans (shorter_of_thinned (thinned_sanitizeToolPairs _))
    exact hlc
  have hrecord : (if rollbackRecord then popIf Entry.isUser s.record else s.record) <+: s.record := by
    split
    · exact popIf_isInitial _ _
    exact prefix_refl _
  unfold Session.rollbackOnError
  dsimp only
  split
  · exact ((h.withLc hlc').withRecord hrecord).syncContextSnapshot false
  exact (h.withLc hlc').withRecord hrecord

lemma Session.InOrder.checkAndCompressMessages (h : s.InOrder floor) (c : Compression)
    (forceFull : Bool) : (s.checkAndCompressMessages c forceFull).InOrder floor := by
  unfold Session.checkAndCompressMessages
  dsimp only
  split
  · exact ((h.withLc (shorter_run _ _ _ _)).syncContextSnapshot true).addDisplayMessage _
  exact h

lemma Session.InOrder.trimContext (h : s.InOrder floor) (c : Compression) :
    (s.trimContext c).InOrder floor := by
  unfold Session.trimContext
  split
  · exact h
  exact h.withLc (shorter_trimMessages _ _)

lemma Session.InOrder.congr (h : s.InOrder floor) (hlc : s'.lcMessages = s.lcMessages)
    (hrecord : s'.record = s.record) (hcontext : s'.context = s.context)
    (hcounter : s'.msgCounter = s.msgCounter) (hturns : s'.turns = s.turns) : s'.InOrder floor := by
  obtain ⟨_, _, _, _, _, _, _⟩ := h
  refine ⟨?_, ?_, ?_, ?_, ?_, ?_, ?_⟩ <;> simp only [hlc, hrecord, hcontext, hcounter, hturns] <;>
    assumption

/-! ## Turns keep the order -/

@[simp] theorem appendToRecord_turns (s : Session) (m : Message) :
    (s.appendToRecord m).turns = s.turns := by
  unfold Session.appendToRecord
  cases entryOf (s.msgCounter + 1) m <;> rfl

@[simp] lemma syncContextSnapshot_turns (s : Session) (force : Bool) :
    (s.syncContextSnapshot force).turns = s.turns := by
  unfold Session.syncContextSnapshot
  split
  · rfl
  split <;> rfl

lemma Session.InOrder.addTurn (h : s.InOrder floor) (content : String) :
    (s.addTurn content).InOrder floor := by
  obtain ⟨hids, hfresh⟩ := h.append_ids
    (show (({ id := s.msgCounter + 1, type := .user, content := content,
               turn := s.turns + 1 } : Entry)).id = s.msgCounter + 1 from rfl)
  refine ⟨h.lc.add_human _, ?_, h.context.mono (Nat.le_succ _), hids, Nat.le_succ_of_le h.counter,
    Nat.le_succ_of_le h.turns, hfresh⟩
  show Sound (s.turns + 1) (recordMessages (s.record ++ [_]))
  rw [recordMessages_append]
  exact h.record.add_human (.text content)

lemma Session.InOrder.finishPreStreamAbort (h : s.InOrder floor) :
    s.finishPreStreamAbort.InOrder floor := by
  have hstatus : ({ s with status := s.restStatus }).InOrder floor := h.congr rfl rfl rfl rfl rfl
  exact hstatus.rollbackOnError true false true

lemma Session.InOrder.prepare (h : s.InOrder floor) (t : Turn) : (s.prepare t).InOrder floor :=
  ((h.addTurn _).checkAndCompressMessages _ _).trimContext _

/-- A stream in order: its session is, and the final state of the graph. -/
structure Stream.InOrder (floor : Floor) (st : Stream) : Prop where
  session : st.session.InOrder floor
  final : ∀ messages, st.finalMessages = some messages → Sound st.session.turns messages

lemma message_of_reply (turn : Nat) (r : Reply) :
    (r.message turn).role ≠ .human ∧ ∀ k, turnOf (r.message turn) = some k → k ≤ turn := by
  cases r with
  | _ => exact ⟨by simp [Reply.message], fun k hk =>
    (some.inj hk) ▸ le_rfl⟩

lemma Stream.InOrder.save (h : st.InOrder floor) (r : Reply) : (st.save r).InOrder floor := by
  obtain ⟨hrole, hturn⟩ := message_of_reply st.session.turns r
  refine ⟨(h.session.appendToRecord hrole hturn).syncContextSnapshot false, fun messages hm => ?_⟩
  show Sound ((st.session.appendToRecord _).syncContextSnapshot false).turns messages
  rw [syncContextSnapshot_turns, appendToRecord_turns]
  exact h.final messages hm

lemma Stream.InOrder.feed (h : st.InOrder floor) (event : StreamEvent) :
    (st.feed event).InOrder floor := by
  cases event with
  | toolStart => exact ⟨h.session.congr rfl rfl rfl rfl rfl, h.final⟩
  | rootEnd =>
    refine ⟨h.session, fun _ hm => ?_⟩
    rw [← some.inj hm]
    refine h.session.lc.append (fun _ hm => ?_)
    obtain ⟨r, -, rfl⟩ := mem_map.1 hm
    exact message_of_reply _ r
  | _ => exact h.save _

lemma Session.InOrder.stream (h : s.InOrder floor) (events : List StreamEvent) :
    (s.stream events).InOrder floor := by
  have hfeed : ∀ st : Stream, st.InOrder floor → (events.foldl Stream.feed st).InOrder floor := by
    induction events with
    | nil => exact fun st hst => hst
    | cons event rest ih => exact fun st hst => ih _ (hst.feed event)
  exact hfeed _ ⟨h.congr rfl rfl rfl rfl rfl, nofun⟩

lemma Session.InOrder.appendAll (h : s.InOrder floor) {messages : List Message}
    (hmessages : ∀ m ∈ messages, m.role ≠ .human ∧ ∀ k, turnOf m = some k → k ≤ s.turns) :
    (messages.foldl Session.appendToRecord s).InOrder floor := by
  induction messages generalizing s with
  | nil => exact h
  | cons m rest ih =>
    obtain ⟨hrole, hturn⟩ := hmessages m mem_cons_self
    refine ih (h.appendToRecord hrole hturn) (fun m' hm' => ?_)
    rw [appendToRecord_turns]
    exact hmessages m' (mem_cons_of_mem _ hm')

lemma mem_turnMessages {messages : List Message} (hm : m ∈ turnMessages messages) :
    m ∈ messages ∧ m.role ≠ .human := by
  unfold turnMessages at hm
  split at hm
  · have hm' := mem_reverse.1 hm
    exact ⟨mem_reverse.1 ((takeWhile_sublist _).mem hm'),
      by simpa using all_eq_true.1 all_takeWhile m hm'⟩
  cases hm

lemma Sound.turnOf_le {k : Nat} {messages : List Message} (h : Sound turns messages)
    (hm : m ∈ messages) (hk : turnOf m = some k) : k ≤ turns := by
  refine h.bound (decide (m.role = .human), k) (mem_filterMap.2 ⟨m, hm, ?_⟩)
  unfold turnMark
  rw [hk, map_some]

lemma Session.InOrder.syncMessages (h : s.InOrder floor) {final : List Message}
    (hfinal : Sound s.turns final) (skipCount : Nat) :
    (s.syncMessages final skipCount).InOrder floor := by
  have hlc : ({ s with lcMessages := final }).InOrder floor :=
    ⟨hfinal, h.record, h.context, h.ids, h.counter, h.turns, h.fresh⟩
  refine (hlc.appendAll (fun _ hm => ?_)).syncContextSnapshot false
  obtain ⟨hmem, hrole⟩ := mem_turnMessages (mem_of_mem_drop hm)
  exact ⟨hrole, fun _ hk => hfinal.turnOf_le hmem hk⟩

lemma Stream.InOrder.finish (h : st.InOrder floor) : st.finish.InOrder floor := by
  have hclean : ∀ {s : Session} (status : Status), s.InOrder floor →
      ({ s with lcMessages := sanitizeToolPairs s.lcMessages, status := status }).InOrder floor := by
    intro s status hs
    exact (hs.withLc (shorter_of_thinned (thinned_sanitizeToolPairs _))).congr rfl rfl rfl rfl rfl
  unfold Stream.finish
  cases hfinal : st.finalMessages with
  | none => exact hclean _ h.session
  | some final =>
    exact hclean _ (h.session.syncMessages
      ((h.final final hfinal).shorter (shorter_of_thinned (thinned_sanitizeToolPairs _))) _)

lemma Session.InOrder.warn (h : s.InOrder floor) (kind : Display) (rollbackRecord : Bool) :
    (s.warn kind rollbackRecord).InOrder floor := by
  have hstatus : ({ s.addDisplayMessage kind with status := .running }).InOrder floor :=
    (h.addDisplayMessage kind).congr rfl rfl rfl rfl rfl
  exact hstatus.rollbackOnError rollbackRecord false true

lemma Session.InOrder.fail (h : s.InOrder floor) (syncSnapshot : Bool) :
    (s.fail syncSnapshot).InOrder floor := by
  have hstatus : ({ s with status := .error }).InOrder floor := h.congr rfl rfl rfl rfl rfl
  unfold Session.fail
  split
  · exact h
  exact hstatus.rollbackOnError true true syncSnapshot

@[simp] lemma rollbackOnError_turns (s : Session) (rollbackRecord sanitizePairs sync : Bool) :
    (s.rollbackOnError rollbackRecord sanitizePairs sync).turns = s.turns := by
  unfold Session.rollbackOnError
  dsimp only
  split
  · rw [syncContextSnapshot_turns]
  rfl

lemma Stream.InOrder.close (h : st.InOrder floor) (ending : Ending) :
    (st.close ending).2.InOrder floor := by
  cases ending with
  | done => exact h.finish
  | lateFailure => exact h.finish
  | aborted =>
    refine Stream.InOrder.finish ⟨h.session.rollbackOnError true false true, fun messages hm => ?_⟩
    rw [rollbackOnError_turns]
    exact h.final messages hm
  | badRequest => exact h.session.fail _
  | failed => exact h.session.fail _
  | cancelled => exact h.session
  | _ => exact h.session.warn _ _

lemma Session.InOrder.invokeGraphOnce (h : s.InOrder floor) (t : Turn) :
    (s.invokeGraphOnce t).2.InOrder floor := by
  unfold Session.invokeGraphOnce
  split
  · exact h
  · exact (h.addTurn _).finishPreStreamAbort
  · exact ((h.addTurn _).checkAndCompressMessages _ _).finishPreStreamAbort
  · exact (h.prepare t).finishPreStreamAbort
  · exact h.prepare t
  exact ((h.prepare t).stream _).close _

lemma Session.InOrder.restore (h : s.InOrder floor) (hturns : s.turns ≤ s'.turns)
    (hcounter : s.msgCounter ≤ s'.msgCounter) : (s'.restore s).InOrder floor :=
  ⟨h.lc.mono hturns, h.record.mono hturns, h.context.mono hturns,
    fun e he => (h.ids e he).trans hcounter, h.counter.trans hcounter, h.turns.trans hturns, h.fresh⟩

lemma Session.InOrder.invokeGraph (h : s.InOrder floor) (t : Turn) :
    (s.invokeGraph t).2.InOrder floor := by
  unfold Session.invokeGraph
  split
  · have hstart : ({ s with failedTurn := none, activeTurnToolStarted := false }).InOrder floor :=
      h.congr rfl rfl rfl rfl rfl
    have hbody := hstart.invokeGraphOnce t
    have hbase := hstart.rebase.invokeGraphOnce t
    dsimp only
    split <;> rename_i s' heq
    · rw [heq] at hbase
      exact (h.restore hbase.turns hbase.counter).congr rfl rfl rfl rfl rfl
    all_goals
      rw [heq] at hbody
      exact hbody.congr rfl rfl rfl rfl rfl
  exact h.invokeGraphOnce t

/-! ## Steps and runs -/

lemma Session.InOrder.scoped {result : Outcome × Session} {floor' : Floor} (h : s.InOrder floor)
    (hresult : result.2.InOrder floor') (hturns : s.turns ≤ result.2.turns)
    (hcounter : s.msgCounter ≤ result.2.msgCounter) : ∃ floor, (s.scoped result).2.InOrder floor := by
  obtain ⟨outcome, _⟩ := result
  cases outcome with
  | cancelled => exact ⟨floor, h.restore hturns hcounter⟩
  | _ => exact ⟨floor', hresult⟩

lemma Session.InOrder.truncate (h : s.InOrder floor) (target cut : Nat) :
    (s.truncate target cut).InOrder
      { target := target, counter := s.msgCounter, turns := s.turns } := by
  have hcut : ({ s with record := s.record.take target, lcMessages := s.lcMessages.take cut }).InOrder
      { target := target, counter := s.msgCounter, turns := s.turns } := by
    refine ⟨h.lc.shorter (shorter_of_sublist (take_sublist _ _)), ?_, h.context,
      fun e he => h.ids e (mem_of_mem_take he), le_rfl, le_rfl, fun e he => ?_⟩
    · exact h.record.shorter (shorter_of_sublist ((take_sublist _ _).filterMap restoreEntry))
    have hnil : (s.record.take target).drop target = [] :=
      drop_eq_nil_of_le (length_take_le _ _)
    rw [hnil] at he
    cases he
  exact hcut.syncContextSnapshot false

lemma turnMarks_prompt : turnMarks (promptMessages systemPrompt) = [] := by
  unfold promptMessages setPrompt
  split <;> rfl

lemma le_maxId {record : List Entry} {e : Entry} (he : e ∈ record) : e.id ≤ maxId record := by
  induction record with
  | nil => cases he
  | cons e' rest ih =>
    rcases mem_cons.1 he with rfl | he
    · exact Nat.le_max_left _ _
    exact (ih he).trans (Nat.le_max_right _ _)

lemma Sound.restored {messages : List Message} (h : Sound turns messages) {before : List Message}
    (hbefore : turnMarks before = []) : Sound turns (sanitizeToolPairs (before ++ messages)) := by
  have hsound : Sound turns (before ++ messages) := by
    refine ⟨?_, ?_⟩ <;> rw [turnMarks_append, hbefore, nil_append]
    · exact h.order
    exact h.bound
  exact hsound.shorter (shorter_of_thinned (thinned_sanitizeToolPairs _))

lemma Session.InOrder.reload (h : s.InOrder floor) : s.reload.InOrder { target :=s.record.length, counter := 0, turns := s.turns } := by
  refine ⟨?_, h.record, ?_, fun e he => le_maxId he, Nat.zero_le _, le_rfl, fun e he => ?_⟩
  · show Sound s.turns (if s.record ≠ [] then _ else if s.context ≠ [] then _ else _)
    split
    · exact h.record.restored (turnMarks_prompt _)
    split
    · refine h.context.restored ?_
      split
      · rfl
      exact turnMarks_prompt _
    exact sound_of_no_turns (turnMarks_prompt _) _
  · show Sound s.turns (if s.record ≠ [] then [] else s.context)
    split
    · exact sound_of_no_turns rfl _
    exact h.context
  rw [show s.reload.record.drop s.record.length = [] from drop_length] at he
  cases he

lemma Session.InOrder.step (h : s.InOrder floor) (step : SessionStep) :
    ∃ floor', (step.apply s).InOrder floor' := by
  cases step with
  | send t =>
    show ∃ floor', (s.sendMessage t).2.InOrder floor'
    have hbase := h.rebase.invokeGraph t
    unfold Session.sendMessage
    split
    · exact ⟨floor, h⟩
    exact h.scoped (h.invokeGraph t) hbase.turns hbase.counter
  | retry t =>
    show ∃ floor', (s.retryFailedTurn t).2.InOrder floor'
    unfold Session.retryFailedTurn
    split
    · exact ⟨floor, h⟩
    split
    · exact ⟨floor, h⟩
    split
    · exact ⟨floor, h⟩
    rename_i failed _ _
    have hstart : ({ s with
        failedTurn := some { failed with retryable := false } }).InOrder s.floor :=
      h.rebase.congr rfl rfl rfl rfl rfl
    have hbase := hstart.invokeGraph { t with content := failed.content, fromUser := true }
    exact h.scoped hbase hbase.turns hbase.counter
  | edit messageId t =>
    show ∃ floor', (s.editMessageAndResend messageId t).2.InOrder floor'
    unfold Session.editMessageAndResend
    split
    · exact ⟨floor, h⟩
    rename_i target cut _
    have hbase := (h.truncate target cut).invokeGraph t
    exact h.scoped hbase hbase.turns hbase.counter
  | compress c =>
    show ∃ floor', (s.compress c).InOrder floor'
    unfold Session.compress
    split
    · exact ⟨floor, h⟩
    exact ⟨floor, h.checkAndCompressMessages c true⟩
  | notice kind => exact ⟨floor, h.addDisplayMessage kind⟩
  | terminate => exact ⟨floor, h.congr rfl rfl rfl rfl rfl⟩
  | reload => exact ⟨_, h.reload⟩

lemma inOrder_run (main interactive compressor : Bool) (steps : List SessionStep) :
    ∃ floor, (runSession (newSession systemPrompt main interactive compressor) steps).InOrder
      floor := by
  have hnew : (newSession systemPrompt main interactive compressor).InOrder ⟨0, 0, 0⟩ :=
    ⟨sound_of_no_turns (turnMarks_prompt _) _, sound_of_no_turns rfl _,
      sound_of_no_turns (turnMarks_prompt _) _, nofun,
      le_rfl, le_rfl, nofun⟩
  have hrun : ∀ s : Session, (∃ floor, s.InOrder floor) →
      ∃ floor, (runSession s steps).InOrder floor := by
    induction steps with
    | nil => exact fun s hs => hs
    | cons step rest ih => exact fun s ⟨_, hs⟩ => ih _ (hs.step step)
  exact hrun _ ⟨_, hnew⟩

end DeterminFlow.Chat
