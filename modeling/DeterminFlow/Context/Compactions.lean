/-
  Context.Compactions
  **COMPACTIONS THAT FAIL, AND COMPACTIONS THAT FOLLOW EACH OTHER.**

  The scheduler runs the post-processor on whatever the strategy returns, so
  a compaction whose summary fails still inserts a boundary message; only an
  exception leaves the context alone.  The strategy keeps every system
  message, so the boundary messages of earlier compactions stay.
-/
import DeterminFlow.Context.Trimming

namespace DeterminFlow.Context

open Library List Option

/-! ## Failures -/

section
variable (cfg : CompressionConfig) (compressor : Compressor) (messages : List Message)

def SomethingToSummarise : Prop :=
  (splitMessages cfg messages).1 ≠ [] ∧ onlyCheckpoint (splitMessages cfg messages).1 = false

/-- An exception escapes: a snapshot cannot be written, or the compressor's
prompt cannot be built when it is needed. -/
def Raises : Prop :=
  compressor.preSnapshot = false ∨ compressor.postSnapshot = false ∨
    compressor.systemPrompt = none ∧ SomethingToSummarise cfg messages

variable {cfg compressor messages}

lemma fullSummary_eq_none_iff : fullSummary cfg compressor messages = none ↔
    compressor.systemPrompt = none ∧ SomethingToSummarise cfg messages := by
  unfold fullSummary SomethingToSummarise generateSummary
  dsimp only
  by_cases hnothing : (splitMessages cfg messages).1 = [] ∨
      onlyCheckpoint (splitMessages cfg messages).1 = true
  · rw [if_pos hnothing]
    constructor
    · exact nofun
    rintro ⟨-, hregion, hcheckpoint⟩
    rcases hnothing with h | h
    · exact absurd h hregion
    rw [hcheckpoint] at h
    cases h
  rw [if_neg hnothing, map_eq_none_iff]
  rw [not_or, Bool.not_eq_true] at hnothing
  exact ⟨fun h => ⟨h, hnothing⟩, fun h => h.1⟩

lemma executeWithSnapshots_eq_none_iff :
    executeWithSnapshots cfg compressor messages = none ↔ Raises cfg compressor messages := by
  unfold executeWithSnapshots Raises
  rw [← fullSummary_eq_none_iff]
  by_cases hpre : compressor.preSnapshot = false
  · simp [hpre]
  rw [if_neg hpre]
  unfold fullCompact
  cases hsummary : fullSummary cfg compressor messages with
  | none => simp
  | some =>
    by_cases hpost : compressor.postSnapshot = false
    · simp [hpost]
    simp [hpre, hpost]

lemma length_postProcess (files : List (String × String)) (messages : List Message) :
    messages.length < (postProcess files messages).length := by
  have hlength := congrArg List.length (take_append_drop (boundaryIndex messages) messages)
  unfold postProcess insertedMessages
  simp only [length_append, length_cons] at hlength ⊢
  omega

/-- **A compaction whose summary fails leaves the context unchanged exactly
when an exception escapes.** -/
theorem failed_unchanged_iff (cfg : CompressionConfig) (compressor : Compressor)
    (messages : List Message)
    (hfailed : ∀ summary, fullSummary cfg compressor messages ≠ some (some summary)) :
    executeFull cfg compressor messages = messages ↔ Raises cfg compressor messages := by
  unfold executeFull
  constructor
  · -- without an exception there is a result, and it is longer
    intro hunchanged
    by_contra hraises
    rw [← executeWithSnapshots_eq_none_iff] at hraises
    obtain ⟨result, hresult⟩ := ne_none_iff_exists'.1 hraises
    have hprocessed : result = postProcess compressor.files messages := by
      unfold executeWithSnapshots at hresult
      split at hresult
      · cases hresult
      obtain ⟨_, hcompressed, hpost⟩ := bind_eq_some_iff.1 hresult
      unfold fullCompact at hcompressed
      obtain ⟨summary, hsummary, hkept⟩ := map_eq_some_iff.1 hcompressed
      cases summary with
      | some text => exact absurd hsummary (hfailed text)
      | none =>
        dsimp only at hkept
        subst hkept
        split at hpost
        · cases hpost
        exact (some.inj hpost).symm
    rw [hresult, getD_some, hprocessed] at hunchanged
    -- the boundary alone makes the context longer
    have hlength := length_postProcess compressor.files messages
    rw [hunchanged] at hlength
    exact lt_irrefl _ hlength
  intro hraises
  rw [executeWithSnapshots_eq_none_iff.2 hraises]
  rfl

end

def toolRound : List Message :=
  [{ role := .system, content := .text "system" },
    { role := .human, content := .text "read it" },
    { role := .ai, content := .text "", toolCalls := [⟨"c1", "read", "path: src/a.md"⟩] },
    { role := .tool, content := .text "the file", toolCallId := "c1" }]

/-- **A failed compaction changes the context**: nothing can be summarised,
and the boundary message comes between the call and its result. -/
theorem toolRound_changed : fullSummary {} {} toolRound = some none ∧
      executeFull {} {} toolRound
        = toolRound.take 3 ++ [boundaryMessage 0] ++ toolRound.drop 3 ∧
      executeFull {} {} toolRound ≠ toolRound := by
  have hresult : executeFull {} {} toolRound
      = toolRound.take 3 ++ [boundaryMessage 0] ++ toolRound.drop 3 := by decide +kernel
  refine ⟨by decide +kernel, hresult, fun hunchanged => ?_⟩
  have hlength := congrArg List.length (hunchanged.symm.trans hresult)
  cases hlength

/-- When the first snapshot cannot be written, nothing changes. -/
theorem toolRound_unchanged : executeFull {} { preSnapshot :=false } toolRound = toolRound := by
  refine (failed_unchanged_iff {} { preSnapshot := false } toolRound ?_).2 (.inl rfl)
  intro _
  have hfailed : fullSummary {} { preSnapshot := false } toolRound = some none := by decide +kernel
  rw [hfailed]
  exact nofun

/-! ## What a compaction leaves -/

def countOrigin (origin : Origin) (messages : List Message) : Nat :=
  messages.countP (fun m => m.origin = origin)

/-- Summaries count as checkpoints; boundaries and attachments are system
messages. -/
def Marked (m : Message) : Prop :=
  (m.origin = .summary → isCheckpoint m = true) ∧
    (m.origin = .boundary ∨ m.origin = .attachment → m.role = .system)

instance (m : Message) : Decidable (Marked m) := by unfold Marked; infer_instance

variable {m : Message}

lemma Kin.marked {m' : Message} (h : Kin m m') (hm : Marked m) : Marked m' := by
  unfold Marked
  rw [h.origin, h.role, h.isCheckpoint]
  exact hm

lemma Derived.countOrigin_le {messages result : List Message} (h : Derived messages result)
    (origin : Origin) : countOrigin origin result ≤ countOrigin origin messages := by
  refine h _ (fun _ _ hkin hm' => ?_)
  rw [decide_eq_true_eq] at hm' ⊢
  rw [← hkin.origin, hm']

lemma Derived.marked {messages result : List Message} (h : Derived messages result)
    (hmarked : ∀ m ∈ messages, Marked m) : ∀ m ∈ result, Marked m := by
  have hle := h (fun m => decide (¬ Marked m)) (fun m _ hkin hm' => by
    rw [decide_eq_true_eq] at hm' ⊢
    exact fun hm => hm' (hkin.marked hm))
  have hzero : messages.countP (fun m => decide (¬ Marked m)) = 0 :=
    countP_eq_zero.2 (fun m hm => by simpa using hmarked m hm)
  have hresult := countP_eq_zero.1 (Nat.le_zero.1 (hzero ▸ hle))
  intro m hm
  have hnot := hresult m hm
  simpa using hnot

lemma countOrigin_append (origin : Origin) (l l' : List Message) :
    countOrigin origin (l ++ l') = countOrigin origin l + countOrigin origin l' :=
  countP_append

lemma countOrigin_eq_zero {origin : Origin} {messages : List Message}
    (h : ∀ m ∈ messages, m.origin ≠ origin) : countOrigin origin messages = 0 :=
  countP_eq_zero.2 (fun m hm => by simpa using h m hm)

lemma countOrigin_postProcess (origin : Origin) (files : List (String × String))
    (messages : List Message) : countOrigin origin (postProcess files messages)
      = countOrigin origin messages + countOrigin origin (insertedMessages files) := by
  have hparts : countOrigin origin messages
      = countOrigin origin (messages.take (boundaryIndex messages))
        + countOrigin origin (messages.drop (boundaryIndex messages)) := by
    rw [← countOrigin_append, take_append_drop]
  unfold postProcess
  rw [countOrigin_append, countOrigin_append, hparts]
  omega

lemma marked_insertedMessages (files : List (String × String)) :
    ∀ m ∈ insertedMessages files, Marked m := by
  intro m hm
  unfold insertedMessages at hm
  rcases mem_cons.1 hm with rfl | hm
  · exact ⟨fun h => (nomatch h), fun _ => rfl⟩
  split at hm
  · cases hm
  rw [mem_singleton.1 hm]
  exact ⟨fun h => (nomatch h), fun _ => rfl⟩

lemma isCheckpoint_summaryMessage (summary : String) :
    isCheckpoint (summaryMessage summary) = true := by
  have hopen : "<summary>\n".toList = openTag ++ ['\n'] := by decide
  have hclose : "\n</summary>".toList = ['\n'] ++ closeTag := by decide
  have htext : ("<summary>\n" ++ summary ++ "\n</summary>").toList
      = [] ++ openTag ++ ((['\n'] ++ summary.toList ++ ['\n']) ++ closeTag ++ []) := by
    rw [String.toList_append, String.toList_append, hopen, hclose]
    simp only [append_assoc, nil_append, append_nil]
  have hgroup := summaryGroup?_isSome [] (['\n'] ++ summary.toList ++ ['\n']) []
  rw [← htext] at hgroup
  unfold isCheckpoint
  rw [Bool.and_eq_true]
  exact ⟨rfl, hgroup⟩

/-! ## A compaction that takes place -/

section
variable {cfg : CompressionConfig} {compressor : Compressor} {messages : List Message}

lemma not_checkpoint_of_late {c i : Nat} {m : Message}
    (hc : findLatestCheckpointIndex messages = some c) (hci : c < i)
    (hm : messages[i]? = some m) : isCheckpoint m = false := by
  have hi : i < messages.length := (List.getElem?_eq_some_iff.1 hm).1
  have hnot := (scanDown_eq_some.1 hc).2 i hci hi
  rw [hm] at hnot
  exact hnot

lemma recent_no_checkpoint (hregion : (splitMessages cfg messages).1 ≠ []) :
    ∀ m ∈ (splitMessages cfg messages).2, isCheckpoint m = false := by
  have hlt : startIndex messages < splitIndex cfg messages := by
    by_contra hle
    refine hregion ?_
    unfold splitMessages
    refine drop_eq_nil_of_le ?_
    rw [length_take]
    omega
  intro m hm
  obtain ⟨k, hk⟩ := mem_iff_getElem?.1 hm
  unfold splitMessages at hk
  rw [getElem?_drop] at hk
  cases hc : findLatestCheckpointIndex messages with
  | none =>
    have hi := (List.getElem?_eq_some_iff.1 hk).1
    have hnot := scanDown_eq_none.1 hc (splitIndex cfg messages + k) (Nat.zero_le _) hi
    rw [hk] at hnot
    exact hnot
  | some c =>
    have hstart : c ≤ startIndex messages := by
      unfold startIndex
      rw [hc]
      exact le_max_right _ _
    exact not_checkpoint_of_late hc (by omega) hk

lemma executeFull_cases (hraises : ¬ Raises cfg compressor messages) :
    executeFull cfg compressor messages = postProcess compressor.files messages ∨
      ∃ summary, (splitMessages cfg messages).1 ≠ [] ∧
        executeFull cfg compressor messages = postProcess compressor.files
          (buildNewMessages messages summary (splitMessages cfg messages).2) := by
  rw [← executeWithSnapshots_eq_none_iff] at hraises
  obtain ⟨result, hresult⟩ := ne_none_iff_exists'.1 hraises
  have hexecute : executeFull cfg compressor messages = result := by
    unfold executeFull
    rw [hresult]
    rfl
  rw [hexecute]
  unfold executeWithSnapshots at hresult
  split at hresult
  · cases hresult
  obtain ⟨_, hcompressed, hpost⟩ := bind_eq_some_iff.1 hresult
  split at hpost
  · cases hpost
  obtain rfl := some.inj hpost
  unfold fullCompact at hcompressed
  obtain ⟨summary, hsummary, rfl⟩ := map_eq_some_iff.1 hcompressed
  cases summary with
  | none => exact .inl rfl
  | some text =>
    refine .inr ⟨text, fun hempty => ?_, rfl⟩
    unfold fullSummary at hsummary
    simp [hempty] at hsummary

variable {origin : Origin}

lemma countOrigin_system (messages : List Message)
    (hsystem : ∀ m ∈ messages, m.origin = origin → m.role = .system) :
    countOrigin origin (messages.filter (·.role = .system)) = countOrigin origin messages := by
  unfold countOrigin
  rw [countP_filter]
  refine countP_congr (fun m hm => ?_)
  simp only [Bool.and_eq_true, decide_eq_true_eq]
  exact ⟨fun h => h.1, fun h => ⟨h, hsystem m hm h⟩⟩

lemma countOrigin_executeFull (hmarked : ∀ m ∈ messages, Marked m)
    (horigin : origin = .boundary ∨ origin = .attachment)
    (hraises : ¬ Raises cfg compressor messages) :
    countOrigin origin (executeFull cfg compressor messages)
      = countOrigin origin messages + countOrigin origin (insertedMessages compressor.files) := by
  have hsystem : ∀ m ∈ messages, m.origin = origin → m.role = .system := by
    intro m hm heq
    refine (hmarked m hm).2 ?_
    rw [heq]
    exact horigin
  rcases executeFull_cases hraises with hfailed | ⟨summary, -, hdone⟩
  · rw [hfailed, countOrigin_postProcess]
  have hsummary : countOrigin origin [summaryMessage summary] = 0 := by
    refine countOrigin_eq_zero (fun m hm => ?_)
    rw [mem_singleton.1 hm]
    rcases horigin with rfl | rfl <;> exact nofun
  have hrecent : countOrigin origin
      ((splitMessages cfg messages).2.filter (·.role ≠ .system)) = 0 := by
    refine countOrigin_eq_zero (fun m hm heq => ?_)
    obtain ⟨hmem, hrole⟩ := mem_filter.1 hm
    have hmem' : m ∈ messages := mem_of_mem_drop hmem
    exact absurd (hsystem m hmem' heq) (by simpa using hrole)
  rw [hdone, countOrigin_postProcess]
  unfold buildNewMessages
  rw [countOrigin_append, countOrigin_append, countOrigin_system messages hsystem, hsummary,
    hrecent]
  omega

lemma countSummary_executeFull (hmarked : ∀ m ∈ messages, Marked m)
    (hone : countOrigin .summary messages ≤ 1) (hraises : ¬ Raises cfg compressor messages) :
    countOrigin .summary (executeFull cfg compressor messages) ≤ 1 := by
  -- what is inserted after a compaction is no summary
  have hinserted : countOrigin .summary (insertedMessages compressor.files) = 0 := by
    refine countOrigin_eq_zero (fun m hm heq => ?_)
    have hcheck := (marked_insertedMessages compressor.files m hm).1 heq
    unfold insertedMessages at hm
    rcases mem_cons.1 hm with rfl | hm
    · cases heq
    split at hm
    · cases hm
    rw [mem_singleton.1 hm] at heq
    cases heq
  rcases executeFull_cases hraises with hfailed | ⟨summary, hregion, hdone⟩
  · rw [hfailed, countOrigin_postProcess, hinserted]
    exact hone
  have hsystem : countOrigin .summary (messages.filter (·.role = .system)) = 0 := by
    refine countOrigin_eq_zero (fun m hm heq => ?_)
    obtain ⟨hmem, hrole⟩ := mem_filter.1 hm
    have hcheck := (hmarked m hmem).1 heq
    unfold isCheckpoint at hcheck
    rw [Bool.and_eq_true, beq_iff_eq] at hcheck
    rw [decide_eq_true_eq, hcheck.1] at hrole
    cases hrole
  -- the recent messages begin after the last checkpoint
  have hrecent : countOrigin .summary
      ((splitMessages cfg messages).2.filter (·.role ≠ .system)) = 0 := by
    refine countOrigin_eq_zero (fun m hm heq => ?_)
    have hmem := (mem_filter.1 hm).1
    have hcheck := (hmarked m (mem_of_mem_drop hmem)).1 heq
    rw [recent_no_checkpoint hregion m hmem] at hcheck
    cases hcheck
  rw [hdone, countOrigin_postProcess, hinserted]
  unfold buildNewMessages
  have hnew : countOrigin .summary [summaryMessage summary] = 1 := rfl
  rw [countOrigin_append, countOrigin_append, hsystem, hrecent, hnew]

lemma marked_executeFull (hmarked : ∀ m ∈ messages, Marked m) :
    ∀ m ∈ executeFull cfg compressor messages, Marked m := by
  have hprocess : ∀ l : List Message, (∀ m ∈ l, Marked m) →
      ∀ m ∈ postProcess compressor.files l, Marked m := by
    intro l hl m hm
    unfold postProcess at hm
    rcases mem_append.1 hm with hm | hm
    · rcases mem_append.1 hm with hm | hm
      · exact hl m (mem_of_mem_take hm)
      exact marked_insertedMessages _ m hm
    exact hl m (mem_of_mem_drop hm)
  by_cases hraises : Raises cfg compressor messages
  · unfold executeFull
    rw [executeWithSnapshots_eq_none_iff.2 hraises]
    exact hmarked
  rcases executeFull_cases hraises with hfailed | ⟨summary, -, hdone⟩
  · rw [hfailed]
    exact hprocess messages hmarked
  rw [hdone]
  refine hprocess _ (fun m hm => ?_)
  unfold buildNewMessages at hm
  rcases mem_append.1 hm with hm | hm
  · rcases mem_append.1 hm with hm | hm
    · exact hmarked m (mem_filter.1 hm).1
    rw [mem_singleton.1 hm]
    refine ⟨fun _ => isCheckpoint_summaryMessage summary, fun h => ?_⟩
    rcases h with h | h <;> cases h
  exact hmarked m (mem_of_mem_drop (mem_filter.1 hm).1)

end

/-! ## Runs -/

/-- The context of a session, and the copies that an invocation may restore. -/
structure ContextState where
  messages : List Message
  saved : List (List Message) := []

/-- What happens to a context.  A reload is a cut to nothing, after which the
messages of the record are added. -/
inductive ContextStep where
  /-- A message of a turn. -/
  | add (role : Role) (content : Content) (toolCalls : List ToolCall) (toolCallId : String)
      (turn : Nat)
  /-- The system prompt is set. -/
  | prompt (text : String)
  /-- A turn is rolled back, or a message is edited. -/
  | cut (length : Nat)
  | sanitize
  | clip (cfg : CompressionConfig)
  | micro (cfg : CompressionConfig) (maxToolResults : Nat) (placeholder : String)
  | discard
  | trim (maxTokens : Nat)
  /-- An invocation begins. -/
  | save
  /-- An invocation is cancelled or fails. -/
  | restore (copy : Nat)
  | compact (cfg : CompressionConfig) (compressor : Compressor)

/-- `_sync_system_prompt_to_messages`. -/
def setPrompt (text : String) (messages : List Message) : List Message :=
  if text = "" then messages
  else
    match messages with
    | [] => [{ role := .system, content := .text text }]
    | m :: rest =>
      if m.role = .system then { role := .system, content := .text text } :: rest
      else { role := .system, content := .text text } :: m :: rest

def ContextStep.apply : ContextStep → ContextState → ContextState
  | .add role content toolCalls toolCallId turn, s =>
    { s with messages := s.messages
        ++ [{ role := role, content := content, toolCalls := toolCalls,
              toolCallId := toolCallId, origin := .turn turn }] }
  | .prompt text, s => { s with messages := setPrompt text s.messages }
  | .cut length, s => { s with messages := s.messages.take length }
  | .sanitize, s => { s with messages := sanitizeToolPairs s.messages }
  | .clip cfg, s => { s with messages := compactForRequest cfg s.messages }
  | .micro cfg maxToolResults placeholder, s =>
    { s with messages := microCompact cfg maxToolResults placeholder s.messages }
  | .discard, s => { s with messages := discardOldestRound s.messages }
  | .trim maxTokens, s => { s with messages := trimMessages maxTokens s.messages }
  | .save, s => { s with saved := s.messages :: s.saved }
  | .restore copy, s => { s with messages := (s.saved[copy]?).getD s.messages }
  | .compact cfg compressor, s =>
    { s with messages := executeFull cfg compressor s.messages }

/-- **At most one summary, one boundary and one attachment.** -/
def AtMostOne (messages : List Message) : Prop :=
  countOrigin .summary messages ≤ 1 ∧ countOrigin .boundary messages ≤ 1 ∧
    countOrigin .attachment messages ≤ 1

/-- **The condition on a step**: a compaction that takes place finds no
boundary of an earlier one, and no attachment when it attaches files. -/
def ContextStep.Fresh : ContextStep → ContextState → Prop
  | .compact cfg compressor, s => Raises cfg compressor s.messages ∨
      countOrigin .boundary s.messages = 0 ∧
        (compressor.files = [] ∨ countOrigin .attachment s.messages = 0)
  | _, _ => True

def Always (P : ContextState → Prop) : ContextState → List ContextStep → Prop
  | s, [] => P s
  | s, step :: rest => P s ∧ Always P (step.apply s) rest

def AllFresh : ContextState → List ContextStep → Prop
  | _, [] => True
  | s, step :: rest => step.Fresh s ∧ AllFresh (step.apply s) rest

/-- The invariant of a run. -/
structure ContextState.Sound (s : ContextState) : Prop where
  marked : ∀ m ∈ s.messages, Marked m
  one : AtMostOne s.messages
  saved : ∀ l ∈ s.saved, (∀ m ∈ l, Marked m) ∧ AtMostOne l

lemma AtMostOne.derived {messages result : List Message} (h : AtMostOne messages)
    (hderived : Derived messages result) : AtMostOne result :=
  ⟨(hderived.countOrigin_le _).trans h.1, (hderived.countOrigin_le _).trans h.2.1,
    (hderived.countOrigin_le _).trans h.2.2⟩

variable {s : ContextState}

lemma ContextState.Sound.derived (h : s.Sound) {result : List Message}
    (hderived : Derived s.messages result) : ({ s with messages :=result } : ContextState).Sound :=
  ⟨hderived.marked h.marked, h.one.derived hderived, h.saved⟩

lemma countOrigin_plain (horigin : m.origin = .prompt ∨ ∃ n, m.origin = .turn n) :
    Marked m ∧ countOrigin .summary [m] = 0 ∧ countOrigin .boundary [m] = 0 ∧
      countOrigin .attachment [m] = 0 := by
  rcases horigin with h | ⟨n, h⟩ <;> simp [Marked, countOrigin, h]

lemma ContextState.Sound.add (h : s.Sound) (m : Message) (before after : List Message)
    (horigin : m.origin = .prompt ∨ ∃ n, m.origin = .turn n)
    (hderived : Derived s.messages (before ++ after)) : ({ s with messages :=before ++ [m] ++ after } : ContextState).Sound := by
  obtain ⟨hmarked, hsummary, hboundary, hattachment⟩ := countOrigin_plain horigin
  have hparts := h.derived hderived
  obtain ⟨h₁, h₂, h₃⟩ := hparts.one
  rw [countOrigin_append] at h₁ h₂ h₃
  refine ⟨fun m' hm' => ?_, ⟨?_, ?_, ?_⟩, h.saved⟩
  · rcases mem_append.1 hm' with hm' | hm'
    · rcases mem_append.1 hm' with hm' | hm'
      · exact hparts.marked m' (mem_append_left _ hm')
      rw [mem_singleton.1 hm']
      exact hmarked
    exact hparts.marked m' (mem_append_right _ hm')
  · rw [countOrigin_append, countOrigin_append, hsummary]
    exact h₁
  · rw [countOrigin_append, countOrigin_append, hboundary]
    exact h₂
  rw [countOrigin_append, countOrigin_append, hattachment]
  exact h₃

lemma ContextState.Sound.step {s : ContextState} (h : s.Sound) {step : ContextStep}
    (hstep : ∀ cfg compressor, step ≠ .compact cfg compressor) : (step.apply s).Sound := by
  cases step with
  | add role content toolCalls toolCallId turn =>
    -- a message of a turn is neither summary nor boundary
    have hadd := h.add ⟨role, content, toolCalls, toolCallId, .turn turn⟩ s.messages []
      (.inr ⟨turn, rfl⟩) (by rw [append_nil]; exact .refl _)
    rwa [append_nil] at hadd
  | prompt =>
    unfold ContextStep.apply setPrompt
    dsimp only
    split
    · exact h
    cases hm : s.messages with
    | nil => exact h.add _ [] [] (.inl rfl) (by rw [hm]; exact .refl _)
    | cons m rest =>
      dsimp only
      split
      · refine h.add _ [] rest (.inl rfl) ?_
        rw [hm]
        exact derived_of_sublist (sublist_cons_self m rest)
      exact h.add _ [] (m :: rest) (.inl rfl) (by rw [hm]; exact .refl _)
  | cut => exact h.derived (derived_of_sublist (take_sublist _ _))
  | sanitize => exact h.derived (derived_sanitizeToolPairs _)
  | clip cfg => exact h.derived (derived_compactForRequest cfg _)
  | micro cfg maxToolResults placeholder =>
    exact h.derived (derived_microCompact cfg maxToolResults placeholder _)
  | discard => exact h.derived (derived_discardOldestRound _)
  | trim maxTokens => exact h.derived (derived_trimMessages maxTokens _)
  | save =>
    -- the copy that is kept is the context itself
    refine ⟨h.marked, h.one, fun l hl => ?_⟩
    rcases mem_cons.1 hl with rfl | hl
    · exact ⟨h.marked, h.one⟩
    exact h.saved l hl
  | restore copy =>
    change ({ s with messages := (s.saved[copy]?).getD s.messages } : ContextState).Sound
    cases hcopy : s.saved[copy]? with
    | none => exact h
    | some l =>
      obtain ⟨hmarked, hone⟩ := h.saved l (mem_of_getElem? hcopy)
      exact ⟨hmarked, hone, h.saved⟩
  | compact cfg compressor => exact absurd rfl (hstep cfg compressor)

lemma countOrigin_inserted (files : List (String × String)) :
    countOrigin .boundary (insertedMessages files) = 1 ∧
      (countOrigin .attachment (insertedMessages files) = 0 ↔ files = []) ∧
      countOrigin .attachment (insertedMessages files) ≤ 1 := by
  unfold insertedMessages
  by_cases hfiles : files = []
  · simp [hfiles, countOrigin, boundaryMessage]
  simp [hfiles, countOrigin, boundaryMessage, fileMessage]

lemma atMostOne_compact_iff (h : s.Sound) (cfg : CompressionConfig) (compressor : Compressor) :
    AtMostOne (executeFull cfg compressor s.messages) ↔
      (ContextStep.compact cfg compressor).Fresh s := by
  unfold ContextStep.Fresh
  by_cases hraises : Raises cfg compressor s.messages
  · have hsame : executeFull cfg compressor s.messages = s.messages := by
      unfold executeFull
      rw [executeWithSnapshots_eq_none_iff.2 hraises]
      rfl
    rw [hsame]
    exact ⟨fun _ => .inl hraises, fun _ => h.one⟩
  obtain ⟨hsummary, _, _⟩ := h.one
  obtain ⟨hinserted, hfiles, _⟩ := countOrigin_inserted compressor.files
  have hsum := countSummary_executeFull h.marked hsummary hraises
  have hbound := countOrigin_executeFull h.marked (.inl rfl) hraises
  have hattach := countOrigin_executeFull h.marked (.inr rfl) hraises
  unfold AtMostOne
  -- boundaries and attachments are only added to, never removed
  rw [hbound, hattach, hinserted]
  constructor
  · rintro ⟨-, _, _⟩
    refine .inr ⟨by omega, ?_⟩
    by_cases hempty : compressor.files = []
    · exact .inl hempty
    have hne : countOrigin .attachment (insertedMessages compressor.files) ≠ 0 :=
      fun hzero => hempty (hfiles.1 hzero)
    exact .inr (by omega)
  rintro (hfalse | ⟨hzero, hclean⟩)
  · exact absurd hfalse hraises
  refine ⟨hsum, by omega, ?_⟩
  rcases hclean with hempty | hnone
  · rw [hfiles.2 hempty]
    omega
  omega

lemma sound_step_iff (h : s.Sound) (step : ContextStep) :
    (step.apply s).Sound ↔ step.Fresh s := by
  cases step with
  | compact =>
    rw [← atMostOne_compact_iff h]
    exact ⟨fun hnext => hnext.one, fun hone => ⟨marked_executeFull h.marked, hone, h.saved⟩⟩
  | _ => exact ⟨fun _ => trivial, fun _ => h.step (nofun)⟩

lemma sound_of_atMostOne (h : s.Sound) {step : ContextStep}
    (hone : AtMostOne (step.apply s).messages) : (step.apply s).Sound := by
  cases step with
  | compact => exact ⟨marked_executeFull h.marked, hone, h.saved⟩
  | _ => exact h.step (nofun)

lemma always_iff_of_sound (h : s.Sound) (steps : List ContextStep) :
    Always (fun s => AtMostOne s.messages) s steps ↔ AllFresh s steps := by
  induction steps generalizing s with
  | nil => exact ⟨fun _ => trivial, fun _ => h.one⟩
  | cons step rest ih =>
    unfold Always AllFresh
    constructor
    · rintro ⟨-, hrest⟩
      have hone : AtMostOne (step.apply s).messages := by
        cases rest with
        | nil => exact hrest
        | cons => exact hrest.1
      have hnext := sound_of_atMostOne h hone
      exact ⟨(sound_step_iff h step).1 hnext, (ih hnext).1 hrest⟩
    rintro ⟨hfresh, hrest⟩
    have hnext := (sound_step_iff h step).2 hfresh
    exact ⟨h.one, (ih hnext).2 hrest⟩

def newContext (systemPrompt : String) : ContextState where
  messages := setPrompt systemPrompt []

/-- **A run of turns and compactions keeps at most one summary, one boundary
and one attachment in every state exactly when each compaction that takes
place finds none of an earlier one.** -/
theorem run_atMostOne_iff (systemPrompt : String) (steps : List ContextStep) :
    Always (fun s => AtMostOne s.messages) (newContext systemPrompt) steps ↔
      AllFresh (newContext systemPrompt) steps := by
  refine always_iff_of_sound ?_ steps
  have hempty : (ContextState.mk [] []).Sound :=
    ⟨fun _ hm => (nomatch hm), ⟨Nat.zero_le _, Nat.zero_le _, Nat.zero_le _⟩,
      fun _ hl => (nomatch hl)⟩
  have hprompt : ∀ cfg compressor, ContextStep.prompt systemPrompt ≠ .compact cfg compressor :=
    nofun
  exact hempty.step hprompt

def talk (turn : Nat) : List ContextStep :=
  [.add .human (.text "question") [] "" turn, .add .ai (.text "a long answer") [] "" turn]

def summarising : ContextStep :=
  .compact { keepRecentTokens := 4 } { llm := fun _ => .reply (.text "<summary>so far</summary>") }

/-- **Two compactions leave two boundaries.** -/
theorem two_boundaries : ¬ Always (fun s => AtMostOne s.messages) (newContext "system")
      (talk 0 ++ [summarising] ++ talk 1 ++ [summarising]) := by
  intro halways
  have hlast : ∀ (steps : List ContextStep) (s : ContextState),
      Always (fun s => AtMostOne s.messages) s steps →
      AtMostOne (steps.foldl (fun s step => step.apply s) s).messages := by
    intro steps
    induction steps with
    | nil => exact fun s h => h
    | cons step rest ih => exact fun s h => ih _ h.2
  have hcount : countOrigin .boundary ((talk 0 ++ [summarising] ++ talk 1 ++ [summarising]).foldl
      (fun s step => step.apply s) (newContext "system")).messages = 2 := by decide +kernel
  have hone := (hlast _ _ halways).2.1
  rw [hcount] at hone
  exact absurd hone (by decide)

end DeterminFlow.Context
