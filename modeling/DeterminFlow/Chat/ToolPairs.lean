/-
  Chat.ToolPairs
  **CLEANING TOOL PAIRS, PART BY PART.**

  A model accepts no call without a result and no result without a call, so
  every history is cleaned before it is used.  The cleaning looks for ids in
  the whole list: a later message can complete an earlier pair.  Where no id
  that the cleaning removes from one part occurs in the other, two parts are
  cleaned on their own.
-/
import DeterminFlow.Chat.Session

namespace DeterminFlow.Chat

open Context List

/-! ## Whole lists -/

/-- Every call has a result, and every result a call. -/
structure Whole (messages : List Message) : Prop where
  answered : ∀ m ∈ messages, m.callsTools = true → ∀ tc ∈ m.toolCalls,
    tc.id ∈ toolMessageIds messages
  called : ∀ m ∈ messages, m.role = .tool → m.toolCallId ∈ toolCallIds messages

lemma mem_toolMessageIds {messages : List Message} {id : String} :
    id ∈ toolMessageIds messages ↔ ∃ m ∈ messages, m.role = .tool ∧ m.toolCallId = id := by
  simp [toolMessageIds, and_assoc]

lemma mem_toolCallIds {messages : List Message} {id : String} : id ∈ toolCallIds messages ↔
      ∃ m ∈ messages, m.callsTools = true ∧ ∃ tc ∈ m.toolCalls, tc.id = id := by
  simp [toolCallIds, and_assoc]

@[simp] lemma toolMessageIds_append (l l' : List Message) :
    toolMessageIds (l ++ l') = toolMessageIds l ++ toolMessageIds l' := by
  simp [toolMessageIds]

@[simp] lemma toolCallIds_append (l l' : List Message) :
    toolCallIds (l ++ l') = toolCallIds l ++ toolCallIds l' := by
  simp [toolCallIds]

variable {m : Message} {l l' : List Message}

lemma sanitizeCalls_eq_some {answered : List String} {m' : Message}
    (h : sanitizeCalls answered m = some m') :
    (m' = m ∧ (m.callsTools = true → ∀ tc ∈ m.toolCalls, tc.id ∈ answered)) ∨
      m'.callsTools = false ∧ m.role = .ai ∧ m'.role = .ai := by
  unfold sanitizeCalls at h
  split at h
  · rename_i hlost
    have hai : m.role = .ai := by
      rw [Bool.and_eq_true] at hlost
      have hcalls := hlost.1
      unfold Message.callsTools at hcalls
      rw [Bool.and_eq_true, beq_iff_eq] at hcalls
      exact hcalls.1
    split at h
    · rw [← Option.some.inj h]
      exact .inr ⟨by simp [Message.callsTools], hai, hai⟩
    cases h
  rename_i hkept
  rw [← Option.some.inj h]
  refine .inl ⟨rfl, fun hcalls tc htc => ?_⟩
  by_contra hmissing
  refine hkept ?_
  rw [Bool.and_eq_true]
  exact ⟨hcalls, any_eq_true.2 ⟨tc, htc, by simpa using hmissing⟩⟩

lemma sanitizeCalls_self {answered : List String}
    (h : m.callsTools = true → ∀ tc ∈ m.toolCalls, tc.id ∈ answered) :
    sanitizeCalls answered m = some m := by
  unfold sanitizeCalls
  refine if_neg (fun hlost => ?_)
  rw [Bool.and_eq_true] at hlost
  obtain ⟨tc, htc, hmissing⟩ := any_eq_true.1 hlost.2
  have hmem := h hlost.1 tc htc
  simp [hmem] at hmissing

def stripCalls (messages : List Message) : List Message :=
  messages.filterMap (sanitizeCalls (toolMessageIds messages))

lemma mem_sanitizeToolPairs {messages : List Message} : m ∈ sanitizeToolPairs messages ↔
      m ∈ stripCalls messages ∧ (m.role = .tool → m.toolCallId ∈ toolCallIds (stripCalls messages)) := by
  unfold sanitizeToolPairs stripCalls
  simp only [mem_filter, decide_eq_true_eq, imp_iff_not_or, ne_eq]

lemma mem_stripCalls {messages : List Message} (hm : m ∈ stripCalls messages) :
    (m ∈ messages ∧ (m.callsTools = true → ∀ tc ∈ m.toolCalls, tc.id ∈ toolMessageIds messages)) ∨
      m.callsTools = false ∧ m.role = .ai := by
  obtain ⟨_, hm₀, hsome⟩ := mem_filterMap.1 hm
  rcases sanitizeCalls_eq_some hsome with ⟨rfl, hanswered⟩ | ⟨hnone, -, hrole⟩
  · exact .inl ⟨hm₀, hanswered⟩
  exact .inr ⟨hnone, hrole⟩

lemma mem_stripCalls_self {messages : List Message} (hm : m ∈ messages)
    (h : m.callsTools = true → ∀ tc ∈ m.toolCalls, tc.id ∈ toolMessageIds messages) :
    m ∈ stripCalls messages := mem_filterMap.2 ⟨m, hm, sanitizeCalls_self h⟩

lemma whole_sanitizeToolPairs (messages : List Message) : Whole (sanitizeToolPairs messages) := by
  refine ⟨fun m hm hcalls tc htc => ?_, fun m hm hrole => ?_⟩
  · have hstrip := (mem_sanitizeToolPairs.1 hm).1
    rcases mem_stripCalls hstrip with ⟨-, hanswered⟩ | ⟨hnone, -⟩
    · -- the result that answers the call is kept, since the call is
      obtain ⟨result, hresult, hrole, hid⟩ := mem_toolMessageIds.1 (hanswered hcalls tc htc)
      have hkept : result ∈ stripCalls messages := mem_stripCalls_self hresult (fun hc => by
        rw [role_of_callsTools hc] at hrole
        exact absurd hrole (by decide))
      refine mem_toolMessageIds.2 ⟨result, mem_sanitizeToolPairs.2 ⟨hkept, fun _ => ?_⟩, hrole, hid⟩
      rw [hid]
      exact mem_toolCallIds.2 ⟨m, hstrip, hcalls, tc, htc, rfl⟩
    rw [hcalls] at hnone
    cases hnone
  obtain ⟨caller, hcaller, hcalls, tc, htc, hid⟩ :=
    mem_toolCallIds.1 ((mem_sanitizeToolPairs.1 hm).2 hrole)
  refine mem_toolCallIds.2 ⟨caller, mem_sanitizeToolPairs.2 ⟨hcaller, fun htool => ?_⟩, hcalls, tc,
    htc, hid⟩
  rw [role_of_callsTools hcalls] at htool
  cases htool

lemma Whole.sanitize {messages : List Message} (h : Whole messages) :
    sanitizeToolPairs messages = messages := by
  have hstrip : stripCalls messages = messages := by
    unfold stripCalls
    rw [filterMap_congr (fun m hm => sanitizeCalls_self (h.answered m hm)),
      filterMap_some]
  refine filter_eq_self.2 (fun m hm => ?_) |>.trans hstrip
  have hm' : m ∈ messages := hstrip ▸ hm
  show decide (m.role ≠ .tool ∨ m.toolCallId ∈ toolCallIds (stripCalls messages)) = true
  rw [hstrip, decide_eq_true_eq]
  by_cases hrole : m.role = .tool
  · exact .inr (h.called m hm' hrole)
  exact .inl hrole

lemma Whole.append (h : Whole l) (h' : Whole l') : Whole (l ++ l') := by
  refine ⟨fun m hm hcalls tc htc => ?_, fun m hm hrole => ?_⟩
  · rw [toolMessageIds_append]
    rcases mem_append.1 hm with hm | hm
    · exact mem_append_left _ (h.answered m hm hcalls tc htc)
    exact mem_append_right _ (h'.answered m hm hcalls tc htc)
  rw [toolCallIds_append]
  rcases mem_append.1 hm with hm | hm
  · exact mem_append_left _ (h.called m hm hrole)
  exact mem_append_right _ (h'.called m hm hrole)

lemma whole_of_plain {messages : List Message}
    (h : ∀ m ∈ messages, m.callsTools = false ∧ m.role ≠ .tool) : Whole messages :=
  ⟨fun m hm hcalls => absurd ((h m hm).1.symm.trans hcalls) (by decide),
    fun m hm hrole => absurd hrole (h m hm).2⟩

/-! ## Parts that are apart -/

def pairIds (messages : List Message) : List String :=
  toolCallIds messages ++ toolMessageIds messages

/-- **The broken ids**: those that the cleaning removes. -/
def brokenIds (messages : List Message) : List String :=
  (pairIds messages).filter (fun id => !(pairIds (sanitizeToolPairs messages)).contains id)

/-- **Two parts are apart**: no broken id of one occurs in the other. -/
structure Apart (l l' : List Message) : Prop where
  left : ∀ id ∈ brokenIds l, id ∉ pairIds l'
  right : ∀ id ∈ brokenIds l', id ∉ pairIds l

lemma mem_pairIds {messages : List Message} {id : String} :
    id ∈ pairIds messages ↔ id ∈ toolCallIds messages ∨ id ∈ toolMessageIds messages :=
  mem_append

lemma mem_brokenIds {messages : List Message} {id : String} :
    id ∈ brokenIds messages ↔ id ∈ pairIds messages ∧ id ∉ pairIds (sanitizeToolPairs messages) := by
  simp [brokenIds]

lemma pairIds_append {id : String} :
    id ∈ pairIds (l ++ l') ↔ id ∈ pairIds l ∨ id ∈ pairIds l' := by
  simp only [mem_pairIds, toolCallIds_append, toolMessageIds_append, mem_append]
  tauto

lemma toolCallIds_stripCalls {messages : List Message} {id : String}
    (h : id ∈ toolCallIds (stripCalls messages)) :
    id ∈ toolCallIds messages ∧ id ∈ toolMessageIds messages := by
  obtain ⟨m, hm, hcalls, tc, htc, rfl⟩ := mem_toolCallIds.1 h
  rcases mem_stripCalls hm with ⟨hmem, hanswered⟩ | ⟨hnone, -⟩
  · exact ⟨mem_toolCallIds.2 ⟨m, hmem, hcalls, tc, htc, rfl⟩, hanswered hcalls tc htc⟩
  rw [hcalls] at hnone
  cases hnone

lemma pairIds_sanitizeToolPairs {messages : List Message} {id : String}
    (h : id ∈ pairIds (sanitizeToolPairs messages)) : id ∈ toolCallIds (stripCalls messages) := by
  rcases mem_pairIds.1 h with h | h
  · obtain ⟨m, hm, hcalls, tc, htc, rfl⟩ := mem_toolCallIds.1 h
    exact mem_toolCallIds.2 ⟨m, (mem_sanitizeToolPairs.1 hm).1, hcalls, tc, htc, rfl⟩
  obtain ⟨m, hm, hrole, rfl⟩ := mem_toolMessageIds.1 h
  exact (mem_sanitizeToolPairs.1 hm).2 hrole

lemma pairIds_sanitize_subset {messages : List Message} {id : String}
    (h : id ∈ pairIds (sanitizeToolPairs messages)) : id ∈ pairIds messages :=
  mem_pairIds.2 (.inl (toolCallIds_stripCalls (pairIds_sanitizeToolPairs h)).1)

lemma broken_of_missing {messages : List Message} {id : String} (hcall : id ∈ toolCallIds messages)
    (hmissing : id ∉ toolMessageIds messages) : id ∈ brokenIds messages :=
  mem_brokenIds.2 ⟨mem_pairIds.2 (.inl hcall),
    fun h => hmissing (toolCallIds_stripCalls (pairIds_sanitizeToolPairs h)).2⟩

lemma broken_of_dropped {messages : List Message} {id : String}
    (hresult : id ∈ toolMessageIds messages) (hdropped : id ∉ toolCallIds (stripCalls messages)) :
    id ∈ brokenIds messages :=
  mem_brokenIds.2 ⟨mem_pairIds.2 (.inr hresult), fun h => hdropped (pairIds_sanitizeToolPairs h)⟩

lemma sanitizeCalls_widen {messages : List Message} (others : List String)
    (hothers : ∀ id ∈ brokenIds messages, id ∉ others) (hm : m ∈ messages) {answered : List String}
    (hanswered : ∀ id, id ∈ answered ↔ id ∈ toolMessageIds messages ∨ id ∈ others) :
    sanitizeCalls answered m = sanitizeCalls (toolMessageIds messages) m := by
  have hsame : (m.callsTools && m.toolCalls.any (fun tc => !answered.contains tc.id))
      = (m.callsTools && m.toolCalls.any (fun tc => !(toolMessageIds messages).contains tc.id)) := by
    cases hcalls : m.callsTools with
    | false => rfl
    | true =>
      rw [Bool.true_and, Bool.true_and, Bool.eq_iff_iff, any_eq_true, any_eq_true]
      refine exists_congr (fun tc => and_congr_right (fun htc => ?_))
      rw [Bool.not_eq_true', Bool.not_eq_true', contains_eq_mem, contains_eq_mem,
        decide_eq_false_iff_not, decide_eq_false_iff_not, hanswered]
      constructor
      · exact fun h hmem => h (.inl hmem)
      intro hmissing hmem
      have hcall : tc.id ∈ toolCallIds messages := mem_toolCallIds.2 ⟨m, hm, hcalls, tc, htc, rfl⟩
      rcases hmem with hmem | hmem
      · exact hmissing hmem
      exact hothers _ (broken_of_missing hcall hmissing) hmem
  unfold sanitizeCalls
  rw [hsame]

lemma stripCalls_append (h : Apart l l') :
    stripCalls (l ++ l') = stripCalls l ++ stripCalls l' := by
  unfold stripCalls
  rw [filterMap_append]
  congr 1
  · refine filterMap_congr (fun m hm => sanitizeCalls_widen (toolMessageIds l') ?_ hm ?_)
    · exact fun id hid hmem => h.left id hid (mem_pairIds.2 (.inr hmem))
    exact fun id => by rw [toolMessageIds_append, mem_append]
  refine filterMap_congr (fun m hm => sanitizeCalls_widen (toolMessageIds l) ?_ hm ?_)
  · exact fun id hid hmem => h.right id hid (mem_pairIds.2 (.inr hmem))
  exact fun id => by rw [toolMessageIds_append, mem_append, or_comm]

lemma keeps_iff {messages : List Message} {others : List String}
    (hothers : ∀ id ∈ brokenIds messages, id ∉ others) (hm : m ∈ stripCalls messages)
    {calls : List String}
    (hcalls : ∀ id, id ∈ calls ↔ id ∈ toolCallIds (stripCalls messages) ∨ id ∈ others) :
    (m.role ≠ .tool ∨ m.toolCallId ∈ calls) ↔
      (m.role ≠ .tool ∨ m.toolCallId ∈ toolCallIds (stripCalls messages)) := by
  by_cases hrole : m.role = .tool
  · have hresult : m.toolCallId ∈ toolMessageIds messages := by
      rcases mem_stripCalls hm with ⟨hmem, -⟩ | ⟨-, hai⟩
      · exact mem_toolMessageIds.2 ⟨m, hmem, hrole, rfl⟩
      rw [hai] at hrole
      cases hrole
    rw [hcalls]
    constructor
    · rintro (h | h | h)
      · exact .inl h
      · exact .inr h
      by_contra hnot
      rw [not_or] at hnot
      exact hothers _ (broken_of_dropped hresult hnot.2) h
    rintro (h | h)
    · exact .inl h
    exact .inr (.inl h)
  exact ⟨fun _ => .inl hrole, fun _ => .inl hrole⟩

lemma sanitizeToolPairs_append (h : Apart l l') :
    sanitizeToolPairs (l ++ l') = sanitizeToolPairs l ++ sanitizeToolPairs l' := by
  show (stripCalls (l ++ l')).filter
      (fun m => m.role ≠ .tool ∨ m.toolCallId ∈ toolCallIds (stripCalls (l ++ l'))) = _
  rw [stripCalls_append h, filter_append]
  have hcallsLeft : ∀ id ∈ brokenIds l, id ∉ toolCallIds (stripCalls l') := fun id hid hmem =>
    h.left id hid (mem_pairIds.2 (.inl (toolCallIds_stripCalls hmem).1))
  have hcallsRight : ∀ id ∈ brokenIds l', id ∉ toolCallIds (stripCalls l) := fun id hid hmem =>
    h.right id hid (mem_pairIds.2 (.inl (toolCallIds_stripCalls hmem).1))
  congr 1
  · refine filter_congr (fun m hm => decide_eq_decide.2 (keeps_iff hcallsLeft hm ?_))
    exact fun id => by rw [toolCallIds_append, mem_append]
  refine filter_congr (fun m hm => decide_eq_decide.2 (keeps_iff hcallsRight hm ?_))
  exact fun id => by rw [toolCallIds_append, mem_append, or_comm]

lemma brokenIds_append (h : Apart l l') {id : String} (hid : id ∈ brokenIds (l ++ l')) :
    id ∈ brokenIds l ∨ id ∈ brokenIds l' := by
  obtain ⟨hmem, hlost⟩ := mem_brokenIds.1 hid
  rw [sanitizeToolPairs_append h, pairIds_append, not_or] at hlost
  rcases pairIds_append.1 hmem with hmem | hmem
  · exact .inl (mem_brokenIds.2 ⟨hmem, hlost.1⟩)
  exact .inr (mem_brokenIds.2 ⟨hmem, hlost.2⟩)

lemma brokenIds_part (h : Apart l l') {id : String} (hid : id ∈ brokenIds l ∨ id ∈ brokenIds l') :
    id ∈ brokenIds (l ++ l') := by
  rw [mem_brokenIds, sanitizeToolPairs_append h, pairIds_append, pairIds_append, not_or]
  rcases hid with hid | hid
  · exact ⟨.inl (mem_brokenIds.1 hid).1, (mem_brokenIds.1 hid).2,
      fun hmem => h.left id hid (pairIds_sanitize_subset hmem)⟩
  exact ⟨.inr (mem_brokenIds.1 hid).1,
    fun hmem => h.right id hid (pairIds_sanitize_subset hmem), (mem_brokenIds.1 hid).2⟩

lemma Apart.extend {l'' : List Message} (h : Apart l l') (h' : Apart (l ++ l') l'') :
    Apart l (l' ++ l'') := by
  have hright : Apart l' l'' :=
    ⟨fun id hid => h'.left id (brokenIds_part h (.inr hid)),
      fun id hid hmem => h'.right id hid (pairIds_append.2 (.inr hmem))⟩
  refine ⟨fun id hid hmem => ?_, fun id hid hmem => ?_⟩
  · rcases pairIds_append.1 hmem with hmem | hmem
    · exact h.left id hid hmem
    exact h'.left id (brokenIds_part h (.inl hid)) hmem
  rcases brokenIds_append hright hid with hid | hid
  · exact h.right id hid hmem
  exact h'.right id hid (pairIds_append.2 (.inl hmem))

lemma apart_of_plain {before : List Message} (hbefore : ∀ m ∈ before,
    m.callsTools = false ∧ m.role ≠ .tool) (l : List Message) : Apart before l := by
  have hnone : ∀ id, id ∉ pairIds before := by
    intro id hid
    rcases mem_pairIds.1 hid with hid | hid
    · obtain ⟨m, hm, hcalls, -⟩ := mem_toolCallIds.1 hid
      exact absurd ((hbefore m hm).1.symm.trans hcalls) (by decide)
    obtain ⟨m, hm, hrole, -⟩ := mem_toolMessageIds.1 hid
    exact absurd hrole (hbefore m hm).2
  exact ⟨fun id hid => absurd (mem_brokenIds.1 hid).1 (hnone id), fun id _ => hnone id⟩

lemma countHuman_sanitizeCalls (ids : List String) (l : List Message) :
    (l.filterMap (sanitizeCalls ids)).countP (fun m => m.role = .human)
      = l.countP (fun m => m.role = .human) := by
  induction l with
  | nil => rfl
  | cons m rest ih =>
    rw [countP_cons]
    cases hm : sanitizeCalls ids m with
    | none =>
      -- only a message of the model is dropped
      have hrole : m.role = .ai := by
        unfold sanitizeCalls at hm
        split at hm
        · rename_i hlost
          rw [Bool.and_eq_true] at hlost
          exact role_of_callsTools hlost.1
        cases hm
      rw [filterMap_cons_none hm, ih, hrole]
      rfl
    | some => rw [filterMap_cons_some hm, countP_cons, ih, (sanitizeCalls_kin hm).role]

lemma countHuman_sanitizeToolPairs (messages : List Message) :
    (sanitizeToolPairs messages).countP (fun m => m.role = .human)
      = messages.countP (fun m => m.role = .human) := by
  show ((stripCalls messages).filter _).countP _ = _
  rw [countP_filter]
  refine Eq.trans (countP_congr (fun m _ => ?_)) (countHuman_sanitizeCalls _ messages)
  rw [Bool.and_eq_true, decide_eq_true_eq, decide_eq_true_eq]
  exact ⟨fun h => h.1, fun h => ⟨h, .inl (by rw [h]; decide)⟩⟩

end DeterminFlow.Chat
