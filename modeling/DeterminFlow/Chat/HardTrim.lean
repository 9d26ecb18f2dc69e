/-
  Chat.HardTrim
  **THE HARD TRIM OF A HISTORY OF BLOCKS.**

  When a history is too long, the hard trim keeps the system messages, the
  latest checkpoint, and of what follows it the newest messages that fit.  The
  cut may fall into a block: results stay whose call is gone.  The cleaning
  that follows removes them by their ids, which it looks for in the whole list.

  So a result without its call survives exactly when a call that is kept uses
  its id again, and then it stands where no provider accepts it.
-/
import DeterminFlow.Context.SplitRegions
import DeterminFlow.Context.StrictPairs
import DeterminFlow.Chat.ToolPairs

namespace DeterminFlow.Chat

open Library Context List Option

/-! ## The parts of a cut -/

section
variable (maxTokens : Nat) (messages : List Message)

def systemMessages : List Message := messages.filter (·.role = .system)

/-- `checkpoint` -/
def checkpointOf : Option Message :=
  (findLatestCheckpointIndex messages).bind (fun c => messages[c]?)

/-- `messages[candidate_start:]` -/
def behindCheckpoint : List Message :=
  messages.drop (((findLatestCheckpointIndex messages).map (· + 1)).getD 0)

/-- `non_system` -/
def candidates : List Message := (behindCheckpoint messages).filter (·.role ≠ .system)

def baseTokens : Nat :=
  contentsTokens (systemMessages messages) + contentsTokens (checkpointOf messages).toList

/-- `kept` -/
def keptMessages : List Message :=
  (fitting maxTokens (baseTokens messages) (candidates messages).reverse).reverse

def leftResults : List Message := toolRun (keptMessages maxTokens messages)

def keptBlocks : List Message := (keptMessages maxTokens messages).dropWhile (·.role = .tool)

/-- The checkpoint as the cleaning leaves it: with its calls if each of their
ids is an id of a kept result. -/
def keptCheckpoint : Option Message :=
  (checkpointOf messages).bind (sanitizeCalls (toolMessageIds (keptMessages maxTokens messages)))

/-- The results that are not removed although their call may be gone: a kept
call has their id. -/
def survivors : List Message :=
  (leftResults maxTokens messages).filter (fun r =>
    r.toolCallId ∈ toolCallIds (keptCheckpoint maxTokens messages).toList
      ∨ r.toolCallId ∈ toolCallIds (keptBlocks maxTokens messages))

lemma trimMessages_eq (hlong : maxTokens < contentsTokens messages) :
    trimMessages maxTokens messages = sanitizeToolPairs
      (systemMessages messages ++ (checkpointOf messages).toList ++ keptMessages maxTokens messages) := by
  unfold trimMessages
  rw [if_neg (fun h => by rw [h] at hlong; exact Nat.not_lt_zero _ hlong), if_neg (Nat.not_le.2 hlong)]
  rfl

end

variable {maxTokens : Nat} {messages l : List Message} {P : List ToolCall → List Message → Prop}

/-! ## Lists of blocks -/

lemma whole_of_blocks (h : Blocks Answers l) : Whole l := by
  induction h with
  | nil => exact ⟨fun _ hm => (nomatch hm), fun _ hm => (nomatch hm)⟩
  | @plain m rest hrole hcalls _ ih =>
    have hone : Whole [m] := by
      constructor
      · intro m' hm' hcalls'
        rw [mem_singleton.1 hm', hcalls] at hcalls'
        cases hcalls'
      intro m' hm' hrole'
      rw [mem_singleton.1 hm'] at hrole'
      exact absurd hrole' hrole
    exact hone.append ih
  | @block m run rest hcalls hrun hanswers _ ih =>
    have hblock : Whole (m :: run) := by
      constructor
      · intro m' hm' hcalls' tc htc
        rcases mem_cons.1 hm' with rfl | hm'
        · obtain ⟨r, hr, hid⟩ := hanswers.answered tc htc
          exact mem_toolMessageIds.2 ⟨r, mem_cons_of_mem _ hr, hrun r hr, hid⟩
        have htool := hrun m' hm'
        rw [role_of_callsTools hcalls'] at htool
        cases htool
      intro m' hm' hrole'
      rcases mem_cons.1 hm' with rfl | hm'
      · rw [role_of_callsTools hcalls] at hrole'
        cases hrole'
      obtain ⟨tc, htc, hid⟩ := hanswers.called m' hm'
      exact mem_toolCallIds.2 ⟨m, mem_cons_self, hcalls, tc, htc, hid⟩
    exact hblock.append ih

lemma blocks_append (hl : ∀ m ∈ l, m.role ≠ .tool ∧ m.callsTools = false) {rest : List Message} :
    Blocks P (l ++ rest) ↔ Blocks P rest := by
  induction l with
  | nil => exact Iff.rfl
  | cons m l ih =>
    have hm := hl m mem_cons_self
    rw [cons_append, ← ih (fun m' hm' => hl m' (mem_cons_of_mem m hm'))]
    constructor
    · intro h
      generalize hlist : m :: (l ++ rest) = whole at h
      cases h with
      | nil => cases hlist
      | plain _ _ hrest =>
        rw [(cons.inj hlist).2]
        exact hrest
      | block hcalls =>
        rw [← (cons.inj hlist).1, hm.2] at hcalls
        cases hcalls
    exact .plain hm.1 hm.2

lemma blocks_filter (h : Blocks P l) : Blocks P (l.filter (·.role ≠ .system)) := by
  induction h with
  | nil => exact .nil
  | @plain m rest hrole hcalls _ ih =>
    rw [filter_cons]
    split
    · exact .plain hrole hcalls ih
    exact ih
  | @block m run rest hcalls hrun hP _ ih =>
    have hm : m.role ≠ .system := by
      rw [role_of_callsTools hcalls]
      decide
    have hstay : run.filter (·.role ≠ .system) = run := by
      refine filter_eq_self.2 (fun r hr => ?_)
      rw [hrun r hr]
      decide
    rw [filter_cons, if_pos (decide_eq_true hm), filter_append, hstay]
    exact .block hcalls hrun hP ih

variable {m : Message}

lemma blocks_behind {before after : List Message} (hrole : m.role ≠ .tool)
    (h : Blocks P (before ++ m :: after)) : ∃ run rest, after = run ++ rest
      ∧ (∀ r ∈ run, r.role = .tool) ∧ Blocks P rest := by
  generalize hlist : before ++ m :: after = whole at h
  induction h generalizing before with
  | nil => exact absurd hlist (by simp)
  | @plain m' rest' _ _ hrest ih =>
    cases before with
    | nil => exact ⟨[], rest', (cons.inj hlist).2, fun _ hr => (nomatch hr), hrest⟩
    | cons => exact ih (cons.inj hlist).2
  | @block m' run' rest' _ hrun _ hrest ih =>
    cases before with
    | nil => exact ⟨run', rest', (cons.inj hlist).2, hrun, hrest⟩
    | cons =>
      -- the message stands behind the results of the block
      have hbehind := (cons.inj hlist).2
      rcases append_eq_append_iff.1 hbehind with ⟨between, hrun', hrest'⟩ | ⟨between, _, hrest'⟩
      · cases between with
        | nil => exact @ih [] hrest'
        | cons c =>
          have hc : m = c := (cons.inj hrest').1
          have htool := hrun c (by rw [hrun']; exact mem_append_right _ mem_cons_self)
          rw [← hc] at htool
          exact absurd htool hrole
      exact ih hrest'.symm

lemma blocks_suffix {run rest tail : List Message} (hrun : ∀ r ∈ run, r.role = .tool)
    (hrest : Blocks P rest) (h : tail <:+ run ++ rest) : ∃ run' rest', tail = run' ++ rest'
      ∧ (∀ r ∈ run', r.role = .tool) ∧ Blocks P rest' := by
  obtain ⟨_, hfront⟩ := h
  rcases append_eq_append_iff.1 hfront with ⟨between, hbetween, htail⟩ | ⟨between, hbetween, hrest'⟩
  · exact ⟨between, rest, htail, fun r hr => hrun r (by rw [hbetween]; exact mem_append_right _ hr),
      hrest⟩
  -- the suffix begins in the blocks
  subst hrest'
  clear hbetween hfront hrun
  generalize hlist : between ++ tail = whole at hrest
  induction hrest generalizing between with
  | nil =>
    obtain ⟨-, rfl⟩ := append_eq_nil_iff.1 hlist
    exact ⟨[], [], rfl, fun _ hr => (nomatch hr), .nil⟩
  | @plain m rest hrole hcalls hrest ih =>
    cases between with
    | nil => exact ⟨[], tail, rfl, fun _ hr => (nomatch hr), by
        rw [nil_append] at hlist
        rw [hlist]
        exact .plain hrole hcalls hrest⟩
    | cons b between => exact ih between (cons.inj hlist).2
  | @block m run' rest' hcalls hrun hP hrest ih =>
    cases between with
    | nil => exact ⟨[], tail, rfl, fun _ hr => (nomatch hr), by
        rw [nil_append] at hlist
        rw [hlist]
        exact .block hcalls hrun hP hrest⟩
    | cons =>
      rcases append_eq_append_iff.1 (cons.inj hlist).2 with
        ⟨inner, hinner, htail⟩ | ⟨inner, hinner, hrest'⟩
      · exact ⟨inner, rest', htail, fun r hr => hrun r (by rw [hinner]; exact mem_append_right _ hr),
          hrest⟩
      exact ih inner hrest'.symm

lemma run_unique {run rest : List Message} (hrun : ∀ r ∈ run, r.role = .tool)
    (hrest : Blocks P rest) : toolRun (run ++ rest) = run
      ∧ (run ++ rest).dropWhile (·.role = .tool) = rest := by
  have hfirst := toolRun_append hrun hrest.beginsPlain
  refine ⟨hfirst, @append_cancel_left _ run _ _ ?_⟩
  have hsplit := @takeWhile_append_dropWhile _ (fun m : Message => decide (m.role = .tool))
    (run ++ rest)
  unfold toolRun at hfirst
  rw [hfirst] at hsplit
  exact hsplit

/-! ## What is kept -/

lemma fitting_isPrefix (maxTokens spent : Nat) (l : List Message) :
    fitting maxTokens spent l <+: l := by
  induction l generalizing spent with
  | nil => exact prefix_refl _
  | cons m rest ih =>
    unfold fitting
    split
    · exact nil_prefix
    exact cons_prefix_cons.2 ⟨rfl, ih _⟩

lemma contentsTokens_append (l l' : List Message) :
    contentsTokens (l ++ l') = contentsTokens l + contentsTokens l' := by
  unfold contentsTokens
  rw [map_append, sum_append]

lemma fitting_tokens {spent : Nat} (hspent : spent ≤ maxTokens) (l : List Message) :
    spent + contentsTokens (fitting maxTokens spent l) ≤ maxTokens := by
  induction l generalizing spent with
  | nil => exact hspent
  | cons m rest ih =>
    unfold fitting
    split
    · exact hspent
    next hfits =>
    have hrest := ih (Nat.not_lt.1 hfits)
    have hcons : contentsTokens (m :: fitting maxTokens (spent + contentTokens m) rest) =
        contentTokens m + contentsTokens (fitting maxTokens (spent + contentTokens m) rest) :=
      contentsTokens_append [m] _
    omega

lemma contentsTokens_reverse (l : List Message) : contentsTokens l.reverse = contentsTokens l := by
  unfold contentsTokens
  rw [map_reverse, sum_reverse]

lemma keptMessages_suffix (maxTokens : Nat) (messages : List Message) :
    keptMessages maxTokens messages <:+ candidates messages := by
  have h := reverse_suffix.2 (fitting_isPrefix maxTokens (baseTokens messages)
    (candidates messages).reverse)
  rwa [reverse_reverse] at h

lemma checkpointOf_cases (messages : List Message) :
    (checkpointOf messages = none ∧ behindCheckpoint messages = messages)
      ∨ ∃ m before, checkpointOf messages = some m ∧ isCheckpoint m = true
        ∧ messages = before ++ m :: behindCheckpoint messages := by
  unfold checkpointOf behindCheckpoint
  cases hc : findLatestCheckpointIndex messages with
  | none => exact .inl ⟨rfl, rfl⟩
  | some c =>
    obtain ⟨m, hm, hcheck⟩ := checkpoint_found hc
    obtain ⟨hlt, hget⟩ := List.getElem?_eq_some_iff.1 hm
    refine .inr ⟨m, messages.take c, hm, hcheck, ?_⟩
    show messages = messages.take c ++ m :: messages.drop (c + 1)
    rw [← hget, ← drop_eq_getElem_cons hlt, take_append_drop]

lemma kept_parts (maxTokens : Nat) (hpaired : Blocks Answers messages) :
    keptMessages maxTokens messages = leftResults maxTokens messages ++ keptBlocks maxTokens messages
      ∧ (∀ r ∈ leftResults maxTokens messages, r.role = .tool)
      ∧ Blocks Answers (keptBlocks maxTokens messages) := by
  have hcandidates : ∃ run rest, candidates messages = run ++ rest
      ∧ (∀ r ∈ run, r.role = .tool) ∧ Blocks Answers rest := by
    rcases checkpointOf_cases messages with ⟨-, hall⟩ | ⟨m, _, -, hcheck, hsplit⟩
    · refine ⟨[], candidates messages, rfl, fun _ hr => (nomatch hr), ?_⟩
      unfold candidates
      rw [hall]
      exact blocks_filter hpaired
    rw [hsplit] at hpaired
    have hrole : m.role ≠ .tool := by
      rw [isCheckpoint_role hcheck]
      decide
    obtain ⟨run, rest, hbehind, hrun, hrest⟩ := blocks_behind hrole hpaired
    refine ⟨run, rest.filter (·.role ≠ .system), ?_, hrun, blocks_filter hrest⟩
    unfold candidates
    rw [hbehind, filter_append, filter_eq_self.2]
    intro r hr
    rw [hrun r hr]
    decide
  obtain ⟨run, rest, hcandidates, hrun, hrest⟩ := hcandidates
  have hsuffix := keptMessages_suffix maxTokens messages
  rw [hcandidates] at hsuffix
  obtain ⟨_, _, hkept, hrun', hrest'⟩ := blocks_suffix hrun hrest hsuffix
  have hunique := run_unique hrun' hrest'
  unfold leftResults keptBlocks
  rw [hkept, hunique.1, hunique.2]
  exact ⟨rfl, hrun', hrest'⟩

lemma checkpoint_nonempty (h : isCheckpoint m = true) : m.content.nonempty = true := by
  unfold isCheckpoint at h
  rw [Bool.and_eq_true] at h
  cases hcontent : m.content with
  | text value =>
    by_contra hempty
    have hvalue : value = "" := by simpa [Content.nonempty] using hempty
    rw [hcontent, hvalue] at h
    exact absurd h.2 (by decide)
  | blocks value =>
    cases value with
    | nil =>
      rw [hcontent] at h
      exact absurd h.2 (by decide)
    | cons => rfl

lemma keptCheckpoint_cases (maxTokens : Nat) (messages : List Message) :
    (checkpointOf messages = none ∧ keptCheckpoint maxTokens messages = none)
      ∨ ∃ m m', checkpointOf messages = some m ∧ keptCheckpoint maxTokens messages = some m'
        ∧ Lessened m' m ∧ m'.role = .ai := by
  rcases checkpointOf_cases messages with ⟨hnone, -⟩ | ⟨m, -, hsome, hcheck, -⟩
  · refine .inl ⟨hnone, ?_⟩
    unfold keptCheckpoint
    rw [hnone]
    rfl
  refine .inr ⟨m, ?_⟩
  unfold keptCheckpoint
  rw [hsome, bind_some]
  unfold sanitizeCalls
  split
  · next hlost =>
    rw [Bool.and_eq_true] at hlost
    rw [if_pos (checkpoint_nonempty hcheck)]
    exact ⟨_, rfl, rfl, .inr ⟨hlost.1, rfl⟩, isCheckpoint_role hcheck⟩
  exact ⟨m, rfl, rfl, .inl rfl, isCheckpoint_role hcheck⟩

/-! ## What a cut history consists of -/

lemma toolMessageIds_eq_nil (h : ∀ m ∈ l, m.role ≠ .tool) : toolMessageIds l = [] := by
  unfold toolMessageIds
  rw [filter_eq_nil_iff.2 (fun m hm => by simpa using h m hm), map_nil]

lemma toolCallIds_eq_nil (h : ∀ m ∈ l, m.callsTools = false) : toolCallIds l = [] := by
  unfold toolCallIds
  rw [filter_eq_nil_iff.2 (fun m hm => by rw [h m hm]; decide), flatMap_nil]

lemma callsTools_false (h : m.role ≠ .ai) : m.callsTools = false := by
  cases hcalls : m.callsTools with
  | false => rfl
  | true => exact absurd (role_of_callsTools hcalls) h

lemma systemMessages_role (h : m ∈ systemMessages messages) : m.role = .system :=
  of_decide_eq_true (mem_filter.1 h).2

lemma filterMap_self {f : Message → Option Message} (h : ∀ m ∈ l, f m = some m) :
    l.filterMap f = l := by
  rw [filterMap_congr h, filterMap_some]

lemma checkpoint_role (h : m ∈ (checkpointOf messages).toList) : m.role = .ai := by
  rcases checkpointOf_cases messages with ⟨hnone, -⟩ | ⟨_, -, hsome, hcheck, -⟩
  · rw [hnone] at h
    cases h
  rw [hsome] at h
  rw [mem_singleton.1 h]
  exact isCheckpoint_role hcheck

lemma keptCheckpoint_role (h : m ∈ (keptCheckpoint maxTokens messages).toList) :
    m.role = .ai := by
  rcases keptCheckpoint_cases maxTokens messages with ⟨-, hnone⟩ | ⟨-, _, -, hsome, -, hrole⟩
  · rw [hnone] at h
    cases h
  rw [hsome] at h
  rw [mem_singleton.1 h]
  exact hrole

lemma trimMessages_cut (hpaired : Blocks Answers messages)
    (hlong : maxTokens < contentsTokens messages) :
    trimMessages maxTokens messages = systemMessages messages
      ++ (keptCheckpoint maxTokens messages).toList
      ++ (survivors maxTokens messages ++ keptBlocks maxTokens messages) := by
  obtain ⟨hkept, hleft, hblocks⟩ := kept_parts maxTokens hpaired
  have hwhole := whole_of_blocks hblocks
  have hids : toolMessageIds (systemMessages messages ++ (checkpointOf messages).toList
      ++ keptMessages maxTokens messages) = toolMessageIds (keptMessages maxTokens messages) := by
    rw [toolMessageIds_append, toolMessageIds_append,
      toolMessageIds_eq_nil (fun m hm => by rw [systemMessages_role hm]; decide),
      toolMessageIds_eq_nil (fun m hm => by rw [checkpoint_role hm]; decide), nil_append,
      nil_append]
  -- the first pass keeps everything but calls of the checkpoint
  have hstrip : (systemMessages messages ++ (checkpointOf messages).toList
      ++ keptMessages maxTokens messages).filterMap
        (sanitizeCalls (toolMessageIds (keptMessages maxTokens messages))) =
      systemMessages messages ++ (keptCheckpoint maxTokens messages).toList
        ++ keptMessages maxTokens messages := by
    rw [filterMap_append, filterMap_append]
    congr 1
    · congr 1
      · refine filterMap_self (fun m hm => sanitizeCalls_self (fun hcalls => ?_))
        rw [callsTools_false (by rw [systemMessages_role hm]; decide)] at hcalls
        cases hcalls
      unfold keptCheckpoint
      cases checkpointOf messages with
      | none => rfl
      | some m =>
        rw [toList_some, bind_some]
        cases hm : sanitizeCalls (toolMessageIds (keptMessages maxTokens messages)) m with
        | none => exact filterMap_cons_none hm
        | some => exact filterMap_cons_some hm
    refine filterMap_self (fun m hm => sanitizeCalls_self (fun hcalls tc htc => ?_))
    rw [hkept] at hm
    rw [hkept, toolMessageIds_append]
    rcases mem_append.1 hm with hm | hm
    · rw [callsTools_false (by rw [hleft m hm]; decide)] at hcalls
      cases hcalls
    exact mem_append_right _ (hwhole.answered m hm hcalls tc htc)
  -- the second pass looks for the ids of the calls that are kept
  have hcalls : ∀ id, id ∈ toolCallIds (systemMessages messages
      ++ (keptCheckpoint maxTokens messages).toList ++ keptMessages maxTokens messages) ↔
      id ∈ toolCallIds (keptCheckpoint maxTokens messages).toList
        ∨ id ∈ toolCallIds (keptBlocks maxTokens messages) := by
    intro id
    rw [toolCallIds_append, toolCallIds_append, hkept, toolCallIds_append,
      toolCallIds_eq_nil (l := systemMessages messages)
        (fun m hm => callsTools_false (by rw [systemMessages_role hm]; decide)),
      toolCallIds_eq_nil (l := leftResults maxTokens messages)
        (fun m hm => callsTools_false (by rw [hleft m hm]; decide)),
      nil_append, nil_append, mem_append]
  rw [trimMessages_eq maxTokens messages hlong]
  unfold sanitizeToolPairs
  rw [hids, hstrip]
  simp only [hcalls]
  rw [hkept, filter_append, filter_append, filter_append]
  congr 1
  · congr 1
    · exact filter_eq_self.2 (fun m hm => by rw [systemMessages_role hm]; rfl)
    exact filter_eq_self.2 (fun m hm => by rw [keptCheckpoint_role hm]; rfl)
  congr 1
  · refine filter_congr (fun r hr => ?_)
    simp [hleft r hr]
  refine filter_eq_self.2 (fun m hm => decide_eq_true ?_)
  by_cases hrole : m.role = .tool
  · exact .inr (.inr (hwhole.called m hm hrole))
  exact .inl hrole

/-! ## When it consists of blocks -/

def KeepsCalls (maxTokens : Nat) (messages : List Message) (m : Message) : Prop :=
  m.callsTools = true ∧ ∀ tc ∈ m.toolCalls, tc.id ∈ toolMessageIds (keptMessages maxTokens messages)

/-- **No id is used again over the cut**: no result that is kept without its
call has the id of a kept call.  Behind a checkpoint that keeps its calls
those that have are its results. -/
def CutCleanly (maxTokens : Nat) (messages : List Message) : Prop :=
  maxTokens < contentsTokens messages →
    ((∀ m ∈ checkpointOf messages, ¬ KeepsCalls maxTokens messages m) →
      ∀ r ∈ leftResults maxTokens messages,
        r.toolCallId ∉ toolCallIds (keptBlocks maxTokens messages))
    ∧ ∀ m ∈ checkpointOf messages, KeepsCalls maxTokens messages m →
        Answers m.toolCalls ((leftResults maxTokens messages).filter (fun r =>
          r.toolCallId ∈ idsNeeded m ∨ r.toolCallId ∈ toolCallIds (keptBlocks maxTokens messages)))

/-- **What the hard trim should give.** -/
structure Trimmed (maxTokens : Nat) (messages result : List Message) : Prop where
  paired : Blocks Answers result
  systems : systemMessages result = systemMessages messages
  /-- The system messages, the checkpoint with its text, and the newest of the
  messages behind it: of those only results may be missing. -/
  cut : maxTokens < contentsTokens messages → ∃ checkpoint tail newest,
    result = systemMessages messages ++ checkpoint.toList ++ tail
      ∧ Option.Rel Lessened checkpoint (checkpointOf messages)
      ∧ newest <:+ behindCheckpoint messages ∧ tail.Sublist newest
      ∧ tail.filter (·.role ≠ .tool) = (newest.filter (·.role ≠ .system)).filter (·.role ≠ .tool)
  tokens : baseTokens messages ≤ maxTokens → contentsTokens result ≤ maxTokens

lemma keptCheckpoint_keeps (hm : checkpointOf messages = some m)
    (hkeeps : KeepsCalls maxTokens messages m) : keptCheckpoint maxTokens messages = some m := by
  unfold keptCheckpoint
  rw [hm, bind_some]
  exact sanitizeCalls_self (fun _ => hkeeps.2)

lemma keptCheckpoint_plain (hkeeps : ∀ m ∈ checkpointOf messages, ¬ KeepsCalls maxTokens messages m) :
    ∀ m ∈ (keptCheckpoint maxTokens messages).toList, m.callsTools = false := by
  intro m' hm'
  rcases keptCheckpoint_cases maxTokens messages with ⟨-, hnone⟩ | ⟨m, _, hm, hsome, -, -⟩
  · rw [hnone] at hm'
    cases hm'
  rw [hsome] at hm'
  obtain rfl := mem_singleton.1 hm'
  unfold keptCheckpoint at hsome
  rw [hm, bind_some] at hsome
  rcases sanitizeCalls_eq_some hsome with ⟨rfl, hanswered⟩ | ⟨hplain, -, -⟩
  · by_contra hcalls
    rw [Bool.not_eq_false] at hcalls
    exact hkeeps m' hm ⟨hcalls, hanswered hcalls⟩
  exact hplain

lemma blocks_left {run rest : List Message} (hrun : ∀ r ∈ run, r.role = .tool)
    (hrest : Blocks P rest) : Blocks P (run ++ rest) ↔ run = [] := by
  constructor
  · intro h
    cases run with
    | nil => rfl
    | cons r => exact absurd (hrun r mem_cons_self) (h.beginsPlain r rfl)
  rintro rfl
  exact hrest

lemma blocks_call {run rest : List Message} (hcalls : m.callsTools = true)
    (hrun : ∀ r ∈ run, r.role = .tool) (hrest : Blocks P rest) :
    Blocks P (m :: (run ++ rest)) ↔ P m.toolCalls run := by
  constructor
  · intro h
    have hfirst := blocks_once_head hcalls h
    rwa [toolRun_append hrun hrest.beginsPlain] at hfirst
  intro hP
  exact .block hcalls hrun hP hrest

lemma survivors_role (maxTokens : Nat) (hpaired : Blocks Answers messages) :
    ∀ r ∈ survivors maxTokens messages, r.role = .tool := fun r hr =>
  (kept_parts maxTokens hpaired).2.1 r (mem_of_mem_filter hr)

lemma mem_toolCallIds_one (hcalls : m.callsTools = true) {id : String} :
    id ∈ toolCallIds [m] ↔ id ∈ idsNeeded m := by
  rw [mem_toolCallIds, mem_idsNeeded]
  constructor
  · rintro ⟨_, hm', -, h⟩
    rwa [mem_singleton.1 hm'] at h
  exact fun h => ⟨m, mem_singleton_self m, hcalls, h⟩

lemma blocks_cut_iff (hpaired : Blocks Answers messages)
    (hlong : maxTokens < contentsTokens messages) :
    Blocks Answers (trimMessages maxTokens messages) ↔ CutCleanly maxTokens messages := by
  have hblocks := (kept_parts maxTokens hpaired).2.2
  have hrun := survivors_role maxTokens hpaired
  have hsystem : ∀ m ∈ systemMessages messages, m.role ≠ .tool ∧ m.callsTools = false := by
    intro m hm
    rw [systemMessages_role hm]
    exact ⟨by decide, callsTools_false (by rw [systemMessages_role hm]; decide)⟩
  rw [trimMessages_cut hpaired hlong, append_assoc, blocks_append hsystem]
  by_cases hkeeps : ∃ m ∈ checkpointOf messages, KeepsCalls maxTokens messages m
  · obtain ⟨m, hm, hm'⟩ := hkeeps
    have hsurvivors : survivors maxTokens messages =
        (leftResults maxTokens messages).filter (fun r => r.toolCallId ∈ idsNeeded m
          ∨ r.toolCallId ∈ toolCallIds (keptBlocks maxTokens messages)) := by
      unfold survivors
      rw [keptCheckpoint_keeps hm hm', toList_some]
      simp only [mem_toolCallIds_one hm'.1]
    rw [keptCheckpoint_keeps hm hm', toList_some, singleton_append,
      blocks_call hm'.1 hrun hblocks, hsurvivors]
    constructor
    · refine fun h _ => ⟨fun hnone => absurd hm' (hnone m hm), fun m'' hm'' _ => ?_⟩
      obtain rfl : m = m'' := some.inj ((mem_def.1 hm).symm.trans hm'')
      exact h
    exact fun h => (h hlong).2 m hm hm'
  have hnone : ∀ m ∈ checkpointOf messages, ¬ KeepsCalls maxTokens messages m := fun m hm hm' =>
    hkeeps ⟨m, hm, hm'⟩
  have hplain := keptCheckpoint_plain hnone
  have hcheckpoint : ∀ m ∈ (keptCheckpoint maxTokens messages).toList,
      m.role ≠ .tool ∧ m.callsTools = false := fun m hm =>
    ⟨by rw [keptCheckpoint_role hm]; decide, hplain m hm⟩
  rw [blocks_append hcheckpoint, blocks_left hrun hblocks]
  unfold survivors
  rw [toolCallIds_eq_nil hplain, filter_eq_nil_iff]
  constructor
  · refine fun h _ => ⟨fun _ r hr hid => h r hr (decide_eq_true (.inr hid)), fun m hm hm' => ?_⟩
    exact absurd hm' (hnone m hm)
  intro h r hr hfound
  rcases of_decide_eq_true hfound with hid | hid
  · cases hid
  exact (h hlong).1 hnone r hr hid

lemma exists_suffix_filter {p : Message → Bool} {tail : List Message} (h : tail <:+ l.filter p) :
    ∃ newest, newest <:+ l ∧ newest.filter p = tail := by
  obtain ⟨_, hfront⟩ := h
  obtain ⟨l₁, l₂, hl, -, hl₂⟩ := filter_eq_append_iff.1 hfront.symm
  exact ⟨l₂, ⟨l₁, hl.symm⟩, hl₂⟩

lemma contentsTokens_sublist {l' : List Message} (h : l'.Sublist l) :
    contentsTokens l' ≤ contentsTokens l := by
  induction h with
  | slnil => exact le_rfl
  | @cons l₁ l₂ m _ ih =>
    have hcons : contentsTokens (m :: l₂) = contentTokens m + contentsTokens l₂ :=
      contentsTokens_append [m] l₂
    omega
  | @cons_cons l₁ l₂ m _ ih =>
    have hcons : contentsTokens (m :: l₂) = contentTokens m + contentsTokens l₂ :=
      contentsTokens_append [m] l₂
    have hcons' : contentsTokens (m :: l₁) = contentTokens m + contentsTokens l₁ :=
      contentsTokens_append [m] l₁
    omega

lemma trimMessages_uncut (hpaired : Blocks Answers messages)
    (hshort : contentsTokens messages ≤ maxTokens) : trimMessages maxTokens messages = messages := by
  unfold trimMessages
  split
  · rfl
  exact (whole_of_blocks hpaired).sanitize

lemma candidates_role (h : m ∈ candidates messages) : m.role ≠ .system :=
  of_decide_eq_true (mem_filter.1 h).2

lemma systemMessages_cut (hpaired : Blocks Answers messages) :
    systemMessages (systemMessages messages ++ (keptCheckpoint maxTokens messages).toList
      ++ (survivors maxTokens messages ++ keptBlocks maxTokens messages)) = systemMessages messages := by
  have hkept : ∀ m ∈ keptMessages maxTokens messages, m.role ≠ .system := fun m hm =>
    candidates_role ((keptMessages_suffix maxTokens messages).subset hm)
  rw [(kept_parts maxTokens hpaired).1] at hkept
  have hnone : ∀ {part : List Message}, (∀ m ∈ part, m.role ≠ .system) → systemMessages part = [] := by
    intro part hpart
    exact filter_eq_nil_iff.2 (fun m hm => by simpa using hpart m hm)
  have happend : ∀ part part' : List Message, systemMessages (part ++ part') =
      systemMessages part ++ systemMessages part' := fun part part' => filter_append part part'
  have hcheckpoint : systemMessages (keptCheckpoint maxTokens messages).toList = [] :=
    hnone (fun m hm => by rw [keptCheckpoint_role hm]; decide)
  have hsurvivors : systemMessages (survivors maxTokens messages) = [] :=
    hnone (fun m hm => by rw [survivors_role maxTokens hpaired m hm]; decide)
  have hblocks : systemMessages (keptBlocks maxTokens messages) = [] :=
    hnone (fun m hm => hkept m (mem_append_right _ hm))
  rw [happend, happend, happend, hcheckpoint, hsurvivors, hblocks, append_nil, append_nil,
    append_nil]
  exact filter_eq_self.2 (fun m hm => decide_eq_true (systemMessages_role hm))

lemma keptCheckpoint_tokens (maxTokens : Nat) (messages : List Message) :
    contentsTokens (keptCheckpoint maxTokens messages).toList =
      contentsTokens (checkpointOf messages).toList := by
  rcases keptCheckpoint_cases maxTokens messages with ⟨hnone, hnone'⟩ | ⟨_, _, hm, hm', hless, -⟩
  · rw [hnone, hnone']
  rw [hm, hm']
  rcases hless with rfl | ⟨-, rfl⟩
  all_goals rfl

lemma tokens_cut (hpaired : Blocks Answers messages) (hbase : baseTokens messages ≤ maxTokens) :
    contentsTokens (systemMessages messages ++ (keptCheckpoint maxTokens messages).toList
      ++ (survivors maxTokens messages ++ keptBlocks maxTokens messages)) ≤ maxTokens := by
  have hfits := fitting_tokens hbase (candidates messages).reverse
  rw [← contentsTokens_reverse] at hfits
  change baseTokens messages + contentsTokens (keptMessages maxTokens messages) ≤ maxTokens at hfits
  rw [(kept_parts maxTokens hpaired).1, contentsTokens_append] at hfits
  have hsurvivors : contentsTokens (survivors maxTokens messages) ≤
      contentsTokens (leftResults maxTokens messages) := contentsTokens_sublist filter_sublist
  rw [contentsTokens_append, contentsTokens_append, contentsTokens_append, keptCheckpoint_tokens]
  unfold baseTokens at hfits
  omega

lemma trimmed_of_blocks (hpaired : Blocks Answers messages)
    (hblocks : Blocks Answers (trimMessages maxTokens messages)) :
    Trimmed maxTokens messages (trimMessages maxTokens messages) := by
  by_cases hlong : maxTokens < contentsTokens messages
  · obtain ⟨hkept, hleft, -⟩ := kept_parts maxTokens hpaired
    rw [trimMessages_cut hpaired hlong] at hblocks ⊢
    refine ⟨hblocks, systemMessages_cut hpaired, fun _ => ?_, tokens_cut hpaired⟩
    have hrel : Option.Rel Lessened (keptCheckpoint maxTokens messages) (checkpointOf messages) := by
      rcases keptCheckpoint_cases maxTokens messages with ⟨hnone, hnone'⟩ | ⟨_, _, hm, hm', hless, -⟩
      · rw [hnone, hnone']
        exact .none
      rw [hm, hm']
      exact .some hless
    have htail : (survivors maxTokens messages ++ keptBlocks maxTokens messages).Sublist
        (keptMessages maxTokens messages) := by
      rw [hkept]
      exact filter_sublist.append (.refl _)
    obtain ⟨newest, hnewest, hfilter⟩ := exists_suffix_filter (keptMessages_suffix maxTokens messages)
    refine ⟨_, _, newest, rfl, hrel, hnewest, ?_, ?_⟩
    · rw [← hfilter] at htail
      exact htail.trans filter_sublist
    -- only results are removed
    have hresults : ∀ {part : List Message}, (∀ r ∈ part, r.role = .tool) →
        part.filter (·.role ≠ .tool) = [] := fun hpart =>
      filter_eq_nil_iff.2 (fun r hr => by simpa using hpart r hr)
    rw [hfilter, hkept, filter_append, filter_append, hresults hleft,
      hresults (survivors_role maxTokens hpaired)]
  have huncut := trimMessages_uncut hpaired (Nat.not_lt.1 hlong)
  rw [huncut]
  exact ⟨hpaired, rfl, fun h => absurd h hlong, fun _ => Nat.not_lt.1 hlong⟩

/-- **The hard trim does all it should exactly when no id is used again over
the cut.** -/
theorem trim_lawful_iff (hpaired : Blocks Answers messages) :
    Trimmed maxTokens messages (trimMessages maxTokens messages) ↔ CutCleanly maxTokens messages := by
  by_cases hlong : maxTokens < contentsTokens messages
  · rw [← blocks_cut_iff hpaired hlong]
    exact ⟨fun h => h.paired, trimmed_of_blocks hpaired⟩
  constructor
  · exact fun _ h => absurd h hlong
  intro _
  apply trimmed_of_blocks hpaired
  rw [trimMessages_uncut hpaired (Nat.not_lt.1 hlong)]
  exact hpaired

/-! ## An id that is used again -/

def spokenCall : Message := { oneCall "a" with content := .text "let me look" }

def twoTurns : List Message :=
  [{ role := .human, content := .text "first" }, spokenCall, result "a",
    { role := .human, content := .text "second" }, spokenCall, result "a"]

lemma twoTurns_blocks : Blocks Answers twoTurns := by
  have hturn : ∀ {text : String} {rest : List Message}, Blocks Answers rest →
      Blocks Answers ({ role := .human, content := .text text } :: spokenCall :: ([result "a"] ++ rest)) := by
    intro text rest hrest
    refine .plain (by simp) (callsTools_false (by simp)) (.block rfl ?_ ?_ hrest)
    · exact fun r hr => by rw [mem_singleton.1 hr]; rfl
    refine ⟨fun _ htc => ?_, fun r hr => ?_⟩
    · rw [mem_singleton.1 htc]
      exact ⟨result "a", mem_singleton_self _, rfl⟩
    rw [mem_singleton.1 hr]
    exact ⟨_, mem_singleton_self _, rfl⟩
  exact hturn (hturn .nil)

/-- With room for both turns nothing is cut. -/
theorem trim_twoTurns_roomy : Trimmed 12 twoTurns (trimMessages 12 twoTurns) :=
  (trim_lawful_iff twoTurns_blocks).2 (nofun)

/-- **The first result survives without its call**: the cut falls behind the
first call, and the second has its id. -/
theorem reused_id_survives : Blocks Answers twoTurns ∧ ¬ Trimmed 8 twoTurns (trimMessages 8 twoTurns) := by
  refine ⟨twoTurns_blocks, fun h => ?_⟩
  have hfirst := h.paired.beginsPlain (result "a") (by decide)
  exact absurd hfirst (by decide)

end DeterminFlow.Chat
