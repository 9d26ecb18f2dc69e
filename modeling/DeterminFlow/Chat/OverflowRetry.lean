/-
  Chat.OverflowRetry
  **RETRYING A REQUEST THAT IS TOO LONG.**

  `llm_node` cleans the messages of the graph, and sends them; when the
  provider says that they are too many, it clips tool results, and when there
  is nothing to clip it discards a round and sends the rest.  The question of
  the turn stays in every request as long as the model has not answered it:
  inside a tool loop the turn that is going on is discarded like any other.
-/
import DeterminFlow.Chat.RoundDiscard
import DeterminFlow.Library.Pointwise

namespace DeterminFlow.Chat

open Library Context List Option Pointwise

variable {messages result : List Message} {m : Message}

/-! ## The messages of a request -/

def SystemsLead (messages : List Message) : Prop :=
  (checkpointOf messages).isSome = true ∨ ∃ systems rest, messages = systems ++ rest
    ∧ (∀ m ∈ systems, m.role = .system) ∧ ∀ m ∈ rest, m.role ≠ .system

/-- The messages that `llm_node` can hold. -/
structure Tidy (messages : List Message) : Prop where
  pairs : Blocks Answers messages
  systems : SystemsLead messages

/-- The list cut to its checkpoint. -/
structure Cut (messages front body : List Message) : Prop where
  parted : Parted front body (fromCheckpoint messages)
  pairs : Blocks Answers (fromCheckpoint messages)
  systems : front.filter (·.role = .system) = systemMessages messages
  checkpoint : ∀ m, checkpointOf messages = some m → ∃ systems, front = systems ++ [m]
  conversation : ∃ before, conversation messages = before ++ (conversation front ++ body)
    ∧ (before = [] ∨ ∃ c ∈ conversation front, c.role = .ai)

variable {P : List ToolCall → List Message → Prop} {l l' front body request : List Message}
  {m' : Message}

lemma blocks_at {before after : List Message} (hm : m.role ≠ .tool)
    (h : Blocks P (before ++ m :: after)) : Blocks P before ∧ Blocks P (m :: after) := by
  generalize hlist : before ++ m :: after = whole at h
  induction h generalizing before with
  | nil => exact absurd hlist (by simp)
  | @plain m' rest hrole hcalls hrest ih =>
    cases before with
    | nil =>
      rw [nil_append] at hlist
      rw [hlist]
      exact ⟨.nil, .plain hrole hcalls hrest⟩
    | cons =>
      obtain ⟨rfl, htail⟩ := cons.inj hlist
      exact ⟨.plain hrole hcalls (ih htail).1, (ih htail).2⟩
  | @block m' run rest hcalls hrun hP hrest ih =>
    cases before with
    | nil =>
      rw [nil_append] at hlist
      rw [hlist]
      exact ⟨.nil, .block hcalls hrun hP hrest⟩
    | cons =>
      obtain ⟨rfl, htail⟩ := cons.inj hlist
      -- the message is no result, so it stands behind the block
      rcases append_eq_append_iff.1 htail with ⟨between, hrun', hrest'⟩ | ⟨between, hbefore, hrest'⟩
      · cases between with
        | nil =>
          rw [append_nil] at hrun'
          subst hrun'
          have hparts := @ih [] hrest'
          exact ⟨by simpa using Blocks.block hcalls hrun hP Blocks.nil, hparts.2⟩
        | cons =>
          obtain ⟨rfl, -⟩ := cons.inj hrest'
          exact absurd (hrun m (by rw [hrun']; exact mem_append_right _ mem_cons_self)) hm
      have hparts := ih hrest'.symm
      rw [hbefore]
      exact ⟨.block hcalls hrun hP hparts.1, hparts.2⟩

lemma blocks_join (h : Blocks P l) (h' : Blocks P l') : Blocks P (l ++ l') := by
  induction h with
  | nil => exact h'
  | plain hrole hcalls _ ih => exact .plain hrole hcalls ih
  | block hcalls hrun hP _ ih =>
    rw [cons_append, append_assoc]
    exact .block hcalls hrun hP ih

lemma not_checkpoint_of_none (h : findLatestCheckpointIndex messages = none) :
    ∀ m ∈ messages, isCheckpoint m = false := by
  intro m hm
  obtain ⟨i, hi⟩ := mem_iff_getElem?.1 hm
  have hp := scanDown_eq_none.1 h i (Nat.zero_le _) (List.getElem?_eq_some_iff.1 hi).1
  rw [hi] at hp
  exact hp

lemma Tidy.cut (h : Tidy messages) : ∃ front body, Cut messages front body := by
  cases hc : findLatestCheckpointIndex messages with
  | none =>
    have hnone : checkpointOf messages = none := by
      unfold checkpointOf
      rw [hc]
      rfl
    have hfrom : fromCheckpoint messages = messages := by
      unfold fromCheckpoint
      rw [hc]
    rcases h.systems with hsome | ⟨systems, rest, hparts, hsystems, hrest⟩
    · rw [hnone] at hsome
      cases hsome
    have hparted : Parted systems rest messages := ⟨hparts, .prompt hsystems, fun m hm =>
      ⟨hrest m hm, not_checkpoint_of_none hc m (by rw [hparts]; exact mem_append_right _ hm)⟩⟩
    refine ⟨systems, rest, by rw [hfrom]; exact hparted, by rw [hfrom]; exact h.pairs, ?_, ?_, ?_⟩
    · unfold systemMessages
      rw [hparts, filter_append, hparted.systems_body, append_nil]
    · intro m hm
      rw [hnone] at hm
      cases hm
    refine ⟨[], ?_, .inl rfl⟩
    rw [hparts, nil_append]
    exact (filter_append systems rest).trans (congrArg _ hparted.conversation_body)
  | some c =>
    obtain ⟨m, hm, hcheck⟩ := checkpoint_found hc
    have hlt := (List.getElem?_eq_some_iff.1 hm).1
    have hsplit : messages = messages.take c ++ m :: messages.drop (c + 1) := by
      rw [← (List.getElem?_eq_some_iff.1 hm).2, ← drop_eq_getElem_cons hlt, take_append_drop]
    have hafter : ∀ a ∈ messages.drop (c + 1), isCheckpoint a = false := by
      intro a ha
      obtain ⟨j, hj⟩ := mem_iff_getElem?.1 ha
      rw [getElem?_drop] at hj
      have hp := (scanDown_eq_some.1 hc).2 (c + 1 + j) (by omega) (List.getElem?_eq_some_iff.1 hj).1
      rw [hj] at hp
      exact hp
    have hrole := isCheckpoint_role hcheck
    have hfrom : fromCheckpoint messages
        = systemMessages messages ++ [m] ++ conversation (messages.drop (c + 1)) := by
      unfold fromCheckpoint
      rw [hc]
      show _ ++ (messages[c]?).toList ++ _ = _
      rw [hm]
      rfl
    have hsystems : ∀ s ∈ systemMessages messages, s.role = .system := fun s hs => systemMessages_role hs
    have hkeep : conversation (m :: messages.drop (c + 1)) = m :: conversation (messages.drop (c + 1)) :=
      filter_cons_of_pos (by rw [hrole]; decide)
    refine ⟨systemMessages messages ++ [m], conversation (messages.drop (c + 1)), ⟨hfrom,
      .checkpoint hsystems hcheck, fun a ha => ?_⟩, ?_, ?_, ?_, ?_⟩
    · obtain ⟨hmem, hrole'⟩ := mem_filter.1 ha
      exact ⟨of_decide_eq_true hrole', hafter a hmem⟩
    · rw [hfrom, append_assoc, singleton_append, ← hkeep]
      have hpairs := h.pairs
      rw [hsplit] at hpairs
      refine (blocks_append (fun s hs => ?_)).2 (blocks_filter (blocks_at (by rw [hrole]; decide) hpairs).2)
      rw [hsystems s hs]
      exact ⟨by decide, callsTools_false (by rw [hsystems s hs]; decide)⟩
    · rw [filter_append, (systems_filter hsystems).1,
        filter_cons_of_neg (by rw [hrole]; decide), filter_nil, append_nil]
    · intro _ hm'
      unfold checkpointOf at hm'
      rw [hc, bind_some, hm] at hm'
      exact ⟨systemMessages messages, by rw [some.inj hm']⟩
    have hfront : conversation (systemMessages messages ++ [m]) = [m] := by
      unfold conversation
      rw [filter_append, filter_cons_of_pos (by rw [hrole]; decide)]
      exact congrArg (· ++ [m]) (systems_filter hsystems).2
    rw [hfront]
    refine ⟨conversation (messages.take c), ?_, .inr ⟨m, mem_singleton.2 rfl, hrole⟩⟩
    conv_lhs => rw [hsplit]
    unfold conversation at hkeep ⊢
    rw [filter_append, hkeep]
    rfl

/-! ## One discard -/

/-- **What a discard keeps.** -/
structure Discarded (messages result : List Message) : Prop where
  systems : systemMessages result = systemMessages messages
  checkpoint : ∀ m, checkpointOf messages = some m → checkpointOf result = some m
  /-- The rest stays in its order. -/
  order : (conversation result).Sublist (conversation messages)
  /-- Behind the checkpoint at most one complete round is missing. -/
  oneRound : ∃ front round back, fromCheckpoint messages = front ++ (round ++ back)
    ∧ result = front ++ back ∧ (round = [] ∨ Round round)
  /-- No call is separated from its results. -/
  pairs : Blocks Answers result
  /-- The last user message stays, and everything after it. -/
  question : question result = question messages

lemma discard_fromCheckpoint (h : Cut messages front body) :
    discardOldestRound (fromCheckpoint messages) = discardOldestRound messages := by
  have hsame := h.parted.fromCheckpoint
  unfold discardOldestRound
  rw [hsame]

lemma checkpointOf_parted {systems : List Message} (h : Parted (systems ++ [m]) body messages)
    (hm : isCheckpoint m = true) : checkpointOf messages = some m := by
  have hlist : messages = systems ++ m :: body := by
    rw [h.parts, append_assoc]
    rfl
  unfold checkpointOf
  rw [hlist, latest_some hm (fun a ha => (h.body a ha).2), bind_some,
    getElem?_append_right le_rfl, Nat.sub_self]
  rfl

lemma Cut.discard (h : Cut messages front body) :
    ∃ body', Parted front body' (discardOldestRound messages) ∧ body'.Sublist body
      ∧ Blocks Answers (discardOldestRound messages)
      ∧ ∃ front' round back, fromCheckpoint messages = front' ++ (round ++ back)
        ∧ discardOldestRound messages = front' ++ back ∧ (round = [] ∨ Round round) := by
  rw [← discard_fromCheckpoint h]
  rcases h.parted.discard with ⟨hsame, -⟩ | ⟨earlier, round, back, hbody, hround, hback, hnext⟩
  · rw [hsame]
    exact ⟨body, h.parted, List.Sublist.refl _, h.pairs, fromCheckpoint messages, [], [],
      by simp, by simp, .inl rfl⟩
  rw [hnext]
  have hlist : fromCheckpoint messages = front ++ earlier ++ (round ++ back) := by
    rw [h.parted.parts, hbody, append_assoc]
  have hsub : (earlier ++ back).Sublist body := by
    rw [hbody]
    exact (List.Sublist.refl _).append (sublist_append_right _ _)
  refine ⟨earlier ++ back, h.parted.after hbody, hsub, ?_, front ++ earlier, round, back,
    hlist, by rw [append_assoc], .inr hround⟩
  -- the round begins with a user message, and so does what follows it
  have hpairs := h.pairs
  obtain ⟨_, _, hparts, hm, -, -⟩ := hround.parts
  rw [hlist, hparts, cons_append] at hpairs
  have hfirst := blocks_at (by rw [hm]; decide) hpairs
  rw [← append_assoc]
  refine blocks_join hfirst.1 ?_
  cases hback' : back with
  | nil => exact .nil
  | cons b =>
    rw [hback'] at hfirst hback
    have hb : b.role ≠ .tool := by
      rw [hback b rfl]
      decide
    rw [← cons_append] at hfirst
    exact (blocks_at hb hfirst.2).2

lemma Tidy.discard (h : Tidy messages) : Tidy (discardOldestRound messages) := by
  obtain ⟨front, body, hcut⟩ := h.cut
  obtain ⟨body', hparted, -, hpairs, -⟩ := hcut.discard
  refine ⟨hpairs, ?_⟩
  cases hparted.front with
  | prompt hsystems => exact .inr ⟨front, body', hparted.parts, hsystems, fun m hm => (hparted.body m hm).1⟩
  | checkpoint hsystems hcheck =>
    exact .inl (by rw [checkpointOf_parted hparted hcheck]; rfl)

lemma question_cut (h : Cut messages front body) (hopen : ∀ m ∈ question messages, m.role ≠ .ai) :
    question (fromCheckpoint messages) = question messages := by
  rw [h.parted.question_eq]
  obtain ⟨before, hbefore, hend⟩ := h.conversation
  unfold question at hopen ⊢
  rw [hbefore] at hopen ⊢
  have hfront : ∀ m ∈ conversation front, m.role ≠ .human := fun m hm =>
    front_not_human h.parted.front (mem_of_mem_filter hm)
  by_cases hhuman : ∃ m ∈ body, m.role = .human
  · rw [lastTurn_append_of_human before (hhuman.imp fun _ hm => ⟨mem_append_right _ hm.1, hm.2⟩),
      lastTurn_append_of_human _ hhuman]
  have htail : ∀ a ∈ conversation front ++ body, a.role ≠ .human := by
    intro a ha
    rcases mem_append.1 ha with ha | ha
    · exact hfront a ha
    exact fun hrole => hhuman ⟨a, ha, hrole⟩
  by_cases hpre : ∃ m ∈ before, m.role = .human
  · -- the checkpoint follows the last user message
    rcases hend with rfl | ⟨c, hc, hai⟩
    · obtain ⟨m, hm, -⟩ := hpre
      cases hm
    exact absurd hai (hopen c (mem_lastTurn hpre htail c (mem_append_left body hc)))
  rw [lastTurn_append (fun m hm hrole => hpre ⟨m, hm, hrole⟩), lastTurn_append hfront]

lemma Tidy.discarded (h : Tidy messages) (hopen : ∀ m ∈ question messages, m.role ≠ .ai) :
    Discarded messages (discardOldestRound messages) := by
  obtain ⟨front, _, hcut⟩ := h.cut
  obtain ⟨body', hparted, hsub, hpairs, hround⟩ := hcut.discard
  have hquestion := question_cut hcut hopen
  refine ⟨?_, ?_, ?_, hround, hpairs, ?_⟩
  · rw [← hcut.systems, systemMessages, hparted.parts, filter_append, hparted.systems_body,
      append_nil]
  · intro m hm
    obtain ⟨systems, rfl⟩ := hcut.checkpoint m hm
    have hcheck : isCheckpoint m = true := by
      rcases checkpointOf_cases messages with ⟨hnone, -⟩ | ⟨_, before, hsome, hcheck, -⟩
      · rw [hnone] at hm
        cases hm
      rwa [some.inj (hm.symm.trans hsome)]
    exact checkpointOf_parted hparted hcheck
  · obtain ⟨before, hbefore, -⟩ := hcut.conversation
    have hresult : conversation (discardOldestRound messages) = conversation front ++ body' := by
      rw [hparted.parts]
      exact (filter_append front body').trans (congrArg _ hparted.conversation_body)
    rw [hbefore, hresult]
    exact ((List.Sublist.refl _).append hsub).trans (sublist_append_right before _)
  rw [← hquestion, ← discard_fromCheckpoint hcut]
  exact hcut.parted.question (by rw [hquestion]; exact hopen)

/-! ## Clipped requests -/

/-- The same message, but for the content of a tool result. -/
structure Clipped (m m' : Message) : Prop where
  same : m.role ≠ .tool → m' = m
  content : ∃ content : Content, m' = { m with content := content }

lemma Clipped.refl (m : Message) : Clipped m m := ⟨fun _ => rfl, m.content, rfl⟩

lemma Clipped.trans {m'' : Message} (h : Clipped m m') (h' : Clipped m' m'') : Clipped m m'' := by
  obtain ⟨content, rfl⟩ := h.content
  obtain ⟨content', rfl⟩ := h'.content
  exact ⟨fun hrole => (h'.same hrole).trans (h.same hrole), content', rfl⟩

lemma Clipped.role (h : Clipped m m') : m'.role = m.role := by
  obtain ⟨content, rfl⟩ := h.content
  rfl

lemma Clipped.isCheckpoint {m m' : Message} (h : Clipped m m') : isCheckpoint m' = isCheckpoint m := by
  by_cases hrole : m.role = .tool
  · rw [not_checkpoint_of_role (by rw [h.role, hrole]; decide),
      not_checkpoint_of_role (by rw [hrole]; decide)]
  rw [h.same hrole]

lemma forall₂_refl (l : List Message) : List.Forall₂ Clipped l l := by
  induction l with
  | nil => exact .nil
  | cons m l ih => exact .cons (.refl m) ih

lemma forall₂_trans {l'' : List Message} (h : List.Forall₂ Clipped l l')
    (h' : List.Forall₂ Clipped l' l'') : List.Forall₂ Clipped l l'' := by
  induction h generalizing l'' with
  | nil => exact h'
  | cons hm _ ih =>
    cases h' with
    | cons hm' hrest' => exact .cons (hm.trans hm') (ih hrest')

lemma clipped_set {i : Nat} (h : List.Forall₂ Clipped messages l) (hm : messages[i]? = some m)
    (hrole : m.role = .tool) (hm' : l[i]? = some m') (content : Content) :
    List.Forall₂ Clipped messages (l.set i { m' with content := content }) := by
  obtain ⟨_, ha, hclipped⟩ := partner_left h hm'
  obtain rfl := some.inj (hm.symm.trans ha)
  have hnew : Clipped m { m' with content := content } :=
    hclipped.trans ⟨fun hne => absurd (hclipped.role.trans hrole) hne, content, rfl⟩
  have hset := Pointwise.set h hnew i
  rwa [← (List.getElem?_eq_some_iff.1 hm).2, set_getElem_self] at hset

lemma clipped_candidates {indices : List Nat} {state : List Message × Int}
    (hindices : ∀ i ∈ indices, hasRole messages .tool i = true)
    (h : List.Forall₂ Clipped messages state.1) :
    List.Forall₂ Clipped messages (indices.foldl clipCandidate state).1 := by
  induction indices generalizing state with
  | nil => exact h
  | cons i indices ih =>
    rw [foldl_cons]
    refine ih (fun j hj => hindices j (mem_cons_of_mem i hj)) ?_
    obtain ⟨_, hm, hrole⟩ := hasRole_iff.1 (hindices i mem_cons_self)
    obtain ⟨_, hm', _⟩ := Pointwise.partner h hm
    unfold clipCandidate
    rw [hm']
    simp only
    split
    · exact h
    split
    · exact h
    exact clipped_set h hm hrole hm' _

lemma clipped_compactForRequest (cfg : CompressionConfig) (messages : List Message) :
    List.Forall₂ Clipped messages (compactForRequest cfg messages) := by
  unfold compactForRequest
  exact clipped_candidates (fun _ hi => (mem_filter.1 hi).2) (forall₂_refl messages)

lemma blocks_clipped {calls : List Message} (h : Blocks Answers messages)
    (hclipped : List.Forall₂ Clipped messages calls) : Blocks Answers calls := by
  induction h generalizing calls with
  | nil =>
    cases hclipped
    exact .nil
  | plain hrole hcalls _ ih =>
    cases hclipped with
    | cons hm hrest =>
      obtain rfl := hm.same hrole
      exact .plain hrole hcalls (ih hrest)
  | @block m run rest hcalls hrun hP _ ih =>
    cases hclipped with
    | @cons _ m' _ tail hm hrest =>
      obtain rfl := hm.same (by rw [role_of_callsTools hcalls]; decide)
      have hrun' := forall₂_take run.length hrest
      have hrest' := forall₂_drop run.length hrest
      rw [take_left] at hrun'
      rw [drop_left] at hrest'
      rw [← take_append_drop run.length tail]
      refine .block hcalls (fun r hr => ?_) ⟨fun tc htc => ?_, fun r hr => ?_⟩ (ih hrest')
      · obtain ⟨i, hi⟩ := mem_iff_getElem?.1 hr
        obtain ⟨r', hr', hclip⟩ := partner_left hrun' hi
        rw [hclip.role]
        exact hrun r' (mem_of_getElem? hr')
      · obtain ⟨r, hr, hid⟩ := hP.answered tc htc
        obtain ⟨i, hi⟩ := mem_iff_getElem?.1 hr
        obtain ⟨r', hr', hclip⟩ := Pointwise.partner hrun' hi
        obtain ⟨content, rfl⟩ := hclip.content
        exact ⟨_, mem_of_getElem? hr', hid⟩
      obtain ⟨i, hi⟩ := mem_iff_getElem?.1 hr
      obtain ⟨r', hr', hclip⟩ := partner_left hrun' hi
      obtain ⟨tc, htc, hid⟩ := hP.called r' (mem_of_getElem? hr')
      obtain ⟨content, rfl⟩ := hclip.content
      exact ⟨tc, htc, hid⟩

lemma latest_clipped (h : List.Forall₂ Clipped l l') :
    findLatestCheckpointIndex l' = findLatestCheckpointIndex l := by
  unfold findLatestCheckpointIndex
  rw [h.length_eq]
  congr 1
  funext i
  cases hl : l[i]? with
  | some =>
    obtain ⟨_, hm', hclip⟩ := Pointwise.partner h hl
    rw [hm', any_some, any_some, hclip.isCheckpoint]
  | none =>
    rw [getElem?_eq_none_iff] at hl
    rw [getElem?_eq_none_iff.2 (by rw [← h.length_eq]; exact hl)]

lemma roles_clipped (h : List.Forall₂ Clipped l l') {P : Role → Prop} (hl : ∀ m ∈ l, P m.role) :
    ∀ m ∈ l', P m.role := by
  intro m hm
  obtain ⟨_, hi⟩ := mem_iff_getElem?.1 hm
  obtain ⟨m', hm', hclip⟩ := partner_left h hi
  rw [hclip.role]
  exact hl m' (mem_of_getElem? hm')

lemma Tidy.clipped (h : Tidy messages) (hclipped : List.Forall₂ Clipped messages result) :
    Tidy result := by
  refine ⟨blocks_clipped h.pairs hclipped, ?_⟩
  rcases h.systems with hsome | ⟨systems, rest, rfl, hsystems, hrest⟩
  · left
    unfold checkpointOf at hsome ⊢
    rw [latest_clipped hclipped]
    cases hc : findLatestCheckpointIndex messages with
    | none =>
      rw [hc] at hsome
      cases hsome
    | some =>
      obtain ⟨_, hm, -⟩ := checkpoint_found hc
      obtain ⟨_, hm', -⟩ := Pointwise.partner hclipped hm
      rw [bind_some, hm']
      rfl
  have hfirst := forall₂_take systems.length hclipped
  have hsecond := forall₂_drop systems.length hclipped
  rw [take_left] at hfirst
  rw [drop_left] at hsecond
  exact .inr ⟨_, _, (take_append_drop systems.length result).symm,
    roles_clipped hfirst (P := (· = .system)) hsystems,
    roles_clipped hsecond (P := (· ≠ .system)) hrest⟩

lemma conversation_clipped (h : List.Forall₂ Clipped l l') :
    List.Forall₂ Clipped (conversation l) (conversation l') := by
  induction h with
  | nil => exact .nil
  | @cons m m' l l' hm _ ih =>
    unfold conversation at ih ⊢
    by_cases hrole : m.role = .system
    · rw [filter_cons_of_neg (by simpa using hrole),
        filter_cons_of_neg (by simpa using hm.role.trans hrole)]
      exact ih
    rw [filter_cons_of_pos (by simpa using hrole),
      filter_cons_of_pos (by simpa using fun heq => hrole (hm.role.symm.trans heq))]
    exact .cons hm ih

lemma lastTurn_clipped (h : List.Forall₂ Clipped l l') :
    List.Forall₂ Clipped (lastTurn l) (lastTurn l') := by
  induction h with
  | nil => exact .nil
  | @cons m m' l l' hm hrest ih =>
    have hany : l'.any (·.role = .human) = l.any (·.role = .human) := by
      clear ih hm
      induction hrest with
      | nil => rfl
      | cons hhead _ ih => rw [any_cons, any_cons, ih, hhead.role]
    unfold lastTurn
    rw [hany, hm.role]
    split
    · exact ih
    split
    · exact .cons hm hrest
    exact .nil

lemma question_clipped (h : List.Forall₂ Clipped l l') :
    List.Forall₂ Clipped (question l) (question l') := lastTurn_clipped (conversation_clipped h)

/-! ## The loop of `llm_node` -/

/-- What the provider makes of a request. -/
inductive ModelAnswer where
  | reply
  /-- `LLMEmptyOrMalformedResponse`. -/
  | malformed
  /-- An error for which the checker decides on the reactive strategy. -/
  | overflow
  | failure
  deriving DecidableEq

section
variable (cfg : CompressionConfig)

/-- The request after an answer; `none` when the error is raised or the reply
is there. -/
def nextRequest (answer : ModelAnswer) (request : List Message) : Option (List Message) :=
  match answer with
  | .malformed =>
    let next := discardOldestRound request
    if next = request then none else some next
  | .overflow =>
    let clipped := compactForRequest cfg request
    let next := if clipped = request then discardOldestRound request else clipped
    if next = request then none else some next
  | .reply | .failure => none

def requestsSent (isCompressor : Bool) (answer : Nat → List Message → ModelAnswer) :
    (left attempt : Nat) → List Message → List (List Message)
  | 0, _, request => [request]
  | left + 1, attempt, request =>
    request :: (if isCompressor then [] else
      match nextRequest cfg (answer attempt request) request with
      | none => []
      | some next => requestsSent isCompressor answer left (attempt + 1) next)

def firstRequest (messages : List Message) : List Message :=
  if cfg.maxContextTokens < estimateMessagesTokens messages then compactForRequest cfg messages
  else messages

lemma length_requestsSent (isCompressor : Bool) (answer : Nat → List Message → ModelAnswer)
    (left attempt : Nat) (request : List Message) :
    (requestsSent cfg isCompressor answer left attempt request).length ≤ left + 1 := by
  induction left generalizing attempt request with
  | zero => exact le_rfl
  | succ left ih =>
    rw [requestsSent, length_cons]
    split
    · exact Nat.le_add_left _ _
    split
    · exact Nat.le_add_left _ _
    exact Nat.succ_le_succ (ih _ _)

end

/-- A request that goes back to these messages, and whose question is open. -/
structure Asks (messages request : List Message) : Prop where
  tidy : Tidy request
  asked : List.Forall₂ Clipped (question messages) (question request)
  isOpen : ∀ m ∈ question request, m.role ≠ .ai

lemma Asks.clip (h : Asks messages request) (cfg : CompressionConfig) :
    Asks messages (compactForRequest cfg request) := by
  have hclipped := clipped_compactForRequest cfg request
  exact ⟨h.tidy.clipped hclipped, forall₂_trans h.asked (question_clipped hclipped),
    roles_clipped (question_clipped hclipped) (P := (· ≠ .ai)) h.isOpen⟩

lemma Asks.discard (h : Asks messages request) : Asks messages (discardOldestRound request) := by
  have hsame := (h.tidy.discarded h.isOpen).question
  refine ⟨h.tidy.discard, ?_, ?_⟩
  · rw [hsame]
    exact h.asked
  rw [hsame]
  exact h.isOpen

section
variable {I : List Message → Prop} {cfg : CompressionConfig}
  (hclip : ∀ l, I l → I (compactForRequest cfg l)) (hdiscard : ∀ l, I l → I (discardOldestRound l))
include hclip hdiscard

lemma nextRequest_keeps {request next : List Message} (h : I request) {answer : ModelAnswer}
    (hnext : nextRequest cfg answer request = some next) : I next := by
  cases answer with
  | malformed =>
    simp only [nextRequest] at hnext
    split at hnext
    · cases hnext
    rw [← some.inj hnext]
    exact hdiscard _ h
  | overflow =>
    simp only [nextRequest] at hnext
    generalize hchoice : (if compactForRequest cfg request = request then discardOldestRound request
      else compactForRequest cfg request) = choice at hnext
    split at hnext
    · cases hnext
    rw [← some.inj hnext, ← hchoice]
    split
    · exact hdiscard _ h
    exact hclip _ h
  | _ => cases hnext

lemma requests_keep (isCompressor : Bool) (answer : Nat → List Message → ModelAnswer)
    (left attempt : Nat) (h : I request) :
    ∀ sent ∈ requestsSent cfg isCompressor answer left attempt request, I sent := by
  induction left generalizing attempt request with
  | zero =>
    intro sent hsent
    rw [mem_singleton.1 hsent]
    exact h
  | succ left ih =>
    intro sent hsent
    rw [requestsSent] at hsent
    rcases mem_cons.1 hsent with rfl | hsent
    · exact h
    split at hsent
    · cases hsent
    split at hsent
    · cases hsent
    · next next hnext => exact ih _ (nextRequest_keeps hclip hdiscard h hnext) sent hsent

end

/-! ## Every request is well formed -/

lemma strict_systems {systems rest : List Message} (hsystems : ∀ m ∈ systems, m.role = .system) :
    sanitizeToolPairsStrict (systems ++ rest) = systems ++ sanitizeToolPairsStrict rest := by
  induction systems with
  | nil => rfl
  | cons m systems ih =>
    have hrole := hsystems m mem_cons_self
    have hcalls : m.callsTools = false := by
      refine eq_false_of_ne_true fun h => ?_
      rw [role_of_callsTools h] at hrole
      cases hrole
    exact (strictFrom_plain (by rw [hrole]; decide) hcalls).trans
      (congrArg (m :: ·) (ih fun m' hm' => hsystems m' (mem_cons_of_mem m hm')))

lemma role_of_strict {rest : List Message} (hm : m ∈ sanitizeToolPairsStrict rest) :
    ∃ m' ∈ rest, m'.role = m.role := by
  obtain ⟨⟨m', mark⟩, hmem, hrebuilt⟩ := mem_filterMap.1 hm
  refine ⟨m', (of_mem_zip hmem).1, ?_⟩
  cases mark with
  | keep => exact congrArg _ (some.inj hrebuilt)
  | drop => cases hrebuilt
  | strip =>
    simp only [rebuilt, strippedCalls] at hrebuilt
    split at hrebuilt
    · rw [← some.inj hrebuilt]
    cases hrebuilt

section
variable (cfg : CompressionConfig) (isCompressor : Bool) (answer : Nat → List Message → ModelAnswer)

lemma Asks.requests (h : Asks messages request) (left attempt : Nat) :
    ∀ sent ∈ requestsSent cfg isCompressor answer left attempt request, Asks messages sent :=
  requests_keep (fun _ h => h.clip cfg) (fun _ h => h.discard) isCompressor answer left attempt h

/-- The requests of one call of `llm_node`. -/
def llmNodeRequests (maxRetries : Nat) (messages : List Message) : List (List Message) :=
  requestsSent cfg isCompressor answer maxRetries 0
    (firstRequest cfg (sanitizeToolPairsStrict messages))

end

/-! ## All discards and all retries -/

/-- **What the discards and the retries of a request keep to.** -/
structure Lawful (messages : List Message) : Prop where
  steps : ∀ n, Discarded (discardOldestRound^[n] messages) (discardOldestRound^[n + 1] messages)
  /-- After as many discards as rounds, and one more, nothing goes any more. -/
  fixpoint : discardOldestRound (discardOldestRound^[rounds messages + 1] messages)
    = discardOldestRound^[rounds messages + 1] messages
  ends : ∀ (cfg : CompressionConfig) (isCompressor : Bool)
    (answer : Nat → List Message → ModelAnswer) (maxRetries : Nat),
    (requestsSent cfg isCompressor answer maxRetries 0 (firstRequest cfg messages)).length
      ≤ maxRetries + 1
  /-- Every request that is sent has the question, with tool results clipped. -/
  asks : ∀ (cfg : CompressionConfig) (isCompressor : Bool)
    (answer : Nat → List Message → ModelAnswer) (maxRetries : Nat),
    ∀ request ∈ requestsSent cfg isCompressor answer maxRetries 0 (firstRequest cfg messages),
      List.Forall₂ Clipped (question messages) (question request)

lemma Cut.rounds_le (h : Cut messages front body) : rounds body ≤ rounds messages := by
  obtain ⟨before, hbefore, -⟩ := h.conversation
  rw [← rounds_conversation messages, hbefore]
  exact rounds_suffix ((suffix_append _ body).trans (suffix_append before _))

lemma Tidy.iterate (h : Tidy messages) (n : Nat) : Tidy (discardOldestRound^[n] messages) := by
  induction n with
  | zero => exact h
  | succ n ih =>
    rw [Function.iterate_succ_apply']
    exact ih.discard

lemma Tidy.fixpoint (h : Tidy messages) :
    discardOldestRound (discardOldestRound^[rounds messages + 1] messages)
      = discardOldestRound^[rounds messages + 1] messages := by
  obtain ⟨_, _, hcut⟩ := h.cut
  have hstart : discardOldestRound^[rounds messages + 1] messages
      = discardOldestRound^[rounds messages + 1] (fromCheckpoint messages) := by
    rw [Function.iterate_succ_apply, Function.iterate_succ_apply, discard_fromCheckpoint hcut]
  rw [hstart]
  exact hcut.parted.fixpoint _ (Nat.le_succ_of_le hcut.rounds_le)

lemma Lawful.isOpen (hlawful : Lawful messages) (h : Tidy messages) :
    ∀ m ∈ question messages, m.role ≠ .ai := by
  -- the question stays through all discards, and none is left answered at the end
  have hsame : ∀ n, question (discardOldestRound^[n] messages) = question messages := by
    intro n
    induction n with
    | zero => rfl
    | succ n ih => rw [(hlawful.steps n).question, ih]
  obtain ⟨_, _, hcut⟩ := (h.iterate (rounds messages)).cut
  obtain ⟨_, hparted, -, -, -⟩ := hcut.discard
  have hfixed := hlawful.fixpoint
  rw [Function.iterate_succ_apply'] at hfixed
  have hopen := hparted.question_of_fixed hfixed
  rw [← Function.iterate_succ_apply' discardOldestRound, hsame] at hopen
  exact hopen

lemma Tidy.lawful (h : Tidy messages) (hopen : ∀ m ∈ question messages, m.role ≠ .ai) :
    Lawful messages := by
  have hsteps : ∀ n, (∀ m ∈ question (discardOldestRound^[n] messages), m.role ≠ .ai)
      ∧ Discarded (discardOldestRound^[n] messages) (discardOldestRound^[n + 1] messages) := by
    intro n
    have hone : ∀ l, Tidy l → (∀ m ∈ question l, m.role ≠ .ai) → Discarded l (discardOldestRound l) :=
      fun l hl hl' => hl.discarded hl'
    induction n with
    | zero => exact ⟨hopen, hone _ h hopen⟩
    | succ n ih =>
      have hnext : ∀ m ∈ question (discardOldestRound^[n + 1] messages), m.role ≠ .ai := by
        rw [ih.2.question]
        exact ih.1
      rw [Function.iterate_succ_apply' discardOldestRound (n + 1)]
      exact ⟨hnext, hone _ (h.iterate (n + 1)) hnext⟩
  refine ⟨fun n => (hsteps n).2, h.fixpoint, fun cfg isCompressor answer maxRetries =>
    length_requestsSent cfg isCompressor answer maxRetries 0 _,
    fun cfg isCompressor answer maxRetries request hrequest => ?_⟩
  have hstart : Asks messages messages := ⟨h, forall₂_refl _, hopen⟩
  have hfirst : Asks messages (firstRequest cfg messages) := by
    unfold firstRequest
    split
    · exact hstart.clip cfg
    exact hstart
  exact (hfirst.requests cfg isCompressor answer maxRetries 0 request hrequest).asked

def promptMessage : Message where
  role := .system
  content := .text "You help."

def spoken (role : Role) (text : String) : Message where
  role := role
  content := .text text

def openQuestion : List Message :=
  [promptMessage, spoken .human "What is there?", spoken .ai "A file.", spoken .human "Read it."]

def toolLoop : List Message := [promptMessage, spoken .human "What is there?", oneCall "a", Context.result "a"]

end DeterminFlow.Chat
