/-
  Context.SplitRegions
  **WHERE A COMPACTION CUTS THE CONTEXT.**

  The split cuts through a tool call and its results exactly when the token
  budget runs out inside a block that stands before the protected rounds.
  What it leaves out of both regions is what stands before its start: before
  the system prompt, or before the latest assistant message that contains
  `<summary>…</summary>`, whether a compaction wrote it or the assistant.
-/
import DeterminFlow.Context.FullCompact
import Mathlib.Tactic.IntervalCases

namespace DeterminFlow.Context

open Library List Option

variable {cfg : CompressionConfig} {messages : List Message}

/-! ## Blocks of tool calls -/

/-- The message at `i` calls tools, and the messages that follow it directly
are the results of its calls. -/
structure ToolBlock (messages : List Message) (i : Nat) (m : Message) : Prop where
  caller : messages[i]? = some m
  calls : m.callsTools = true
  results : ∀ j, i < j → j ≤ i + m.toolCalls.length → ∃ r, messages[j]? = some r ∧ r.role = .tool
  answered : (((messages.drop (i + 1)).take m.toolCalls.length).map (·.toolCallId)).Perm
    (m.toolCalls.map (·.id))

/-- Every assistant message with tool calls is directly followed by the tool
messages that answer them. -/
def WellPaired (messages : List Message) : Prop :=
  ∀ i m, messages[i]? = some m → m.callsTools = true → ToolBlock messages i m

/-- No block is cut at `split`: it lies before it or after it. -/
def Uncut (messages : List Message) (split : Nat) : Prop :=
  ∀ i m, messages[i]? = some m → m.callsTools = true →
    i + m.toolCalls.length < split ∨ split ≤ i

variable {i j p : Nat} {m r : Message} {keepRecent : Int}

lemma hasRole_iff {role : Role} :
    hasRole messages role i = true ↔ ∃ m, messages[i]? = some m ∧ m.role = role := by
  unfold hasRole
  cases h : messages[i]? with
  | _ => simp

lemma ToolBlock.role_ai (h : ToolBlock messages i m) : m.role = .ai := by
  have hcalls := h.calls
  unfold Message.callsTools at hcalls
  rw [Bool.and_eq_true, beq_iff_eq] at hcalls
  exact hcalls.1

lemma ToolBlock.answers (h : ToolBlock messages i m) (hij : i < j)
    (hj : j ≤ i + m.toolCalls.length) (hr : messages[j]? = some r) :
    m.toolCalls.any (fun tc => tc.id = r.toolCallId) = true := by
  have hmem : r.toolCallId ∈ m.toolCalls.map (·.id) := by
    refine h.answered.mem_iff.1 (mem_map.2 ⟨r, ?_, rfl⟩)
    refine mem_iff_getElem?.2 ⟨j - (i + 1), ?_⟩
    rw [getElem?_take_of_lt (by omega), getElem?_drop]
    have hpos : i + 1 + (j - (i + 1)) = j := by omega
    rw [hpos, hr]
  obtain ⟨tc, htc, hid⟩ := mem_map.1 hmem
  exact any_eq_true.2 ⟨tc, htc, by simpa using hid⟩

lemma ToolBlock.tool_of_inside (h : ToolBlock messages i m) (hij : i < j)
    (hj : j ≤ i + m.toolCalls.length) (hr : messages[j]? = some r) : r.role = .tool := by
  obtain ⟨_, hr', hrole⟩ := h.results j hij hj
  rw [hr] at hr'
  rw [some.inj hr', hrole]

/-! ## The start -/

lemma systemStart_cases (messages : List Message) : systemStart messages = 0 ∨
      ∃ s m, systemStart messages = s + 1 ∧ messages[s]? = some m ∧ m.role = .system := by
  unfold systemStart
  cases h : messages.findIdx? (·.role = .system) with
  | none => exact .inl rfl
  | some i =>
    obtain ⟨hi, hrole, -⟩ := findIdx?_eq_some_iff_getElem.1 h
    exact .inr ⟨i, messages[i], rfl, getElem?_eq_getElem hi, by simpa using hrole⟩

lemma checkpoint_found {c : Nat} (h : findLatestCheckpointIndex messages = some c) :
    ∃ m, messages[c]? = some m ∧ isCheckpoint m = true := by
  have hp := (scanDown_eq_some.1 h).1.2.2
  cases hm : messages[c]? with
  | none => rw [hm] at hp; cases hp
  | some m =>
    rw [hm] at hp
    exact ⟨m, rfl, hp⟩

lemma isCheckpoint_role (h : isCheckpoint m = true) : m.role = .ai := by
  unfold isCheckpoint at h
  rw [Bool.and_eq_true, beq_iff_eq] at h
  exact h.1

lemma startIndex_cases (messages : List Message) : startIndex messages = 0 ∨
      (∃ s m, startIndex messages = s + 1 ∧ messages[s]? = some m ∧ m.role = .system) ∨
      ∃ m, messages[startIndex messages]? = some m ∧ m.role = .ai := by
  unfold startIndex
  cases h : findLatestCheckpointIndex messages with
  | none =>
    rw [getD_none, Nat.max_zero]
    rcases systemStart_cases messages with hzero | hfound
    · exact .inl hzero
    exact .inr (.inl hfound)
  | some c =>
    rw [getD_some]
    rcases max_choice (systemStart messages) c with hmax | hmax
    · rw [hmax]
      rcases systemStart_cases messages with hzero | hfound
      · exact .inl hzero
      exact .inr (.inl hfound)
    obtain ⟨m, hm, hcheck⟩ := checkpoint_found h
    rw [hmax]
    exact .inr (.inr ⟨m, hm, isCheckpoint_role hcheck⟩)

lemma startIndex_le : startIndex messages ≤ messages.length := by
  rcases startIndex_cases messages with hzero | ⟨s, m, hs, hm, -⟩ | ⟨m, hm, -⟩
  · omega
  · have hlt : s < messages.length := (List.getElem?_eq_some_iff.1 hm).1
    omega
  exact (List.getElem?_eq_some_iff.1 hm).1.le

lemma startIndex_uncut (hpaired : WellPaired messages) :
    Uncut messages (startIndex messages) := by
  intro i m hm hcalls
  have hblock := hpaired i m hm hcalls
  by_contra hcut
  have hlt : i < startIndex messages := by omega
  have hle : startIndex messages ≤ i + m.toolCalls.length := by omega
  rcases startIndex_cases messages with hzero | ⟨s, r, hs, hr, hrole⟩ | ⟨r, hr, hrole⟩
  · omega
  · by_cases his : s = i
    · subst his
      rw [hm] at hr
      rw [← some.inj hr, hblock.role_ai] at hrole
      cases hrole
    have htool := hblock.tool_of_inside (show i < s by omega) (by omega) hr
    rw [hrole] at htool
    cases htool
  have htool := hblock.tool_of_inside hlt hle hr
  rw [hrole] at htool
  cases htool

/-! ## The protected rounds -/

lemma protectedStart_eq {start : Nat}
    (h : findProtectedToolRoundStart keepRecent messages start = some p) :
    ∃ first ids, start ≤ first ∧ p = roundStart messages start first ids ∧
      ∀ r, messages[first]? = some r → r.toolCallId ∈ ids := by
  unfold findProtectedToolRoundStart at h
  dsimp only at h
  split at h
  · cases h
  obtain ⟨first, hhead, rfl⟩ := map_eq_some_iff.1 h
  have hmem : first ∈ protectedTools keepRecent messages start := mem_of_head? hhead
  refine ⟨first, _, ?_, rfl, fun r hr => ?_⟩
  · have hmem' := mem_of_mem_drop hmem
    simp only [mem_filter, Bool.and_eq_true, decide_eq_true_eq] at hmem'
    exact hmem'.2.1
  exact mem_filterMap.2 ⟨first, hmem, by rw [hr]; rfl⟩

lemma roundStart_cases (start first : Nat) (ids : List String) :
    (∃ q, roundStart messages start first ids = q ∧ start ≤ q ∧ hasRole messages .human q = true) ∨
      (∃ q, roundStart messages start first ids = q ∧ start ≤ q ∧
        callsOneOf messages ids q = true) ∨
      (roundStart messages start first ids = first ∧
        ∀ j, start ≤ j → j < first → callsOneOf messages ids j = false) := by
  unfold roundStart
  cases hhuman : scanDown (hasRole messages .human) start (first + 1) with
  | some q =>
    have hq := (scanDown_eq_some.1 hhuman).1
    exact .inl ⟨q, rfl, hq.1, hq.2.2⟩
  | none =>
    cases hcall : scanDown (callsOneOf messages ids) start first with
    | some q =>
      have hq := (scanDown_eq_some.1 hcall).1
      exact .inr (.inl ⟨q, rfl, hq.1, hq.2.2⟩)
    | none => exact .inr (.inr ⟨rfl, scanDown_eq_none.1 hcall⟩)

lemma protectedStart_uncut (hpaired : WellPaired messages)
    (h : findProtectedToolRoundStart keepRecent messages (startIndex messages) = some p) :
    startIndex messages ≤ p ∧ Uncut messages p := by
  obtain ⟨first, ids, hfirst, rfl, hids⟩ := protectedStart_eq h
  have hstart : startIndex messages ≤ roundStart messages (startIndex messages) first ids := by
    rcases roundStart_cases (startIndex messages) first ids
      with ⟨q, hq, hge, -⟩ | ⟨q, hq, hge, -⟩ | ⟨hq, -⟩
    · rw [hq]; exact hge
    · rw [hq]; exact hge
    rw [hq]; exact hfirst
  refine ⟨hstart, fun i m hm hcalls => ?_⟩
  have hblock := hpaired i m hm hcalls
  by_contra hcut
  have hbefore : startIndex messages ≤ i := by
    rcases startIndex_uncut hpaired i m hm hcalls with h' | h' <;> omega
  obtain ⟨r, hr, hrole⟩ := hblock.results (roundStart messages (startIndex messages) first ids)
    (by omega) (by omega)
  rcases roundStart_cases (startIndex messages) first ids
    with ⟨q, hq, -, hhuman⟩ | ⟨q, hq, -, hcall⟩ | ⟨hq, hnone⟩
  · -- the round begins with a user message
    obtain ⟨_, hr', hrole'⟩ := hasRole_iff.1 hhuman
    rw [hq, hr'] at hr
    rw [some.inj hr, hrole] at hrole'
    cases hrole'
  · -- it begins with the message that calls the protected tools
    unfold callsOneOf Message.callsTools at hcall
    rw [← hq, hr] at hcall
    simp [hrole] at hcall
  -- it begins with a result without a call, but the block has the call
  rw [hq] at hr
  have hfalse := hnone i hbefore (by omega)
  have hany := hblock.answers (show i < first by omega) (by omega) hr
  have htrue : callsOneOf messages ids i = true := by
    obtain ⟨tc, htc, hid⟩ := any_eq_true.1 hany
    rw [decide_eq_true_eq] at hid
    unfold callsOneOf
    rw [hm]
    simp only [any_some, hcalls, Bool.true_and]
    refine any_eq_true.2 ⟨tc, htc, ?_⟩
    rw [hid, contains_eq_mem, decide_eq_true_eq]
    exact hids r hr
  rw [htrue] at hfalse
  cases hfalse

/-! ## The cut -/

lemma recentIndex_spec (messages : List Message) (keep : Int) {start : Nat} (hstart : start ≤ messages.length) :
    start ≤ recentIndex keep messages start ∧ recentIndex keep messages start ≤ messages.length ∧
      (recentIndex keep messages start < messages.length →
        (tailCost (tokensAt messages) messages.length (recentIndex keep messages start) : Int)
          ≤ keep) ∧
      (start < recentIndex keep messages start → keep < tailCost (tokensAt messages) messages.length
          (recentIndex keep messages start - 1)) := by
  have hspec := budgetScan_spec (tokensAt messages) keep start
    messages.length hstart le_rfl (fun h => absurd h (lt_irrefl _))
  rw [tailCost_len] at hspec
  exact hspec

/-- **The condition**: the recent tokens do not run out among the results of
a block that stands before the protected rounds. -/
def BudgetEndsOutside (cfg : CompressionConfig) (messages : List Message) : Prop :=
  ∀ i m, messages[i]? = some m → m.callsTools = true → startIndex messages ≤ i →
    ∀ j, i < j → j ≤ i + m.toolCalls.length →
      (∀ p, findProtectedToolRoundStart cfg.keepRecentToolResults messages (startIndex messages)
        = some p → j < p) →
      ¬ ((tailCost (tokensAt messages) messages.length j : Int) ≤ cfg.keepRecentTokens ∧
        cfg.keepRecentTokens < tailCost (tokensAt messages) messages.length (j - 1))

lemma splitIndex_eq (messages : List Message) (cfg : CompressionConfig) :
    splitIndex cfg messages = recentIndex cfg.keepRecentTokens messages (startIndex messages) ∧
        (∀ p, findProtectedToolRoundStart cfg.keepRecentToolResults messages
          (startIndex messages) = some p →
            recentIndex cfg.keepRecentTokens messages (startIndex messages) ≤ p) ∨
      ∃ p, findProtectedToolRoundStart cfg.keepRecentToolResults messages (startIndex messages)
          = some p ∧ splitIndex cfg messages = p ∧
            p < recentIndex cfg.keepRecentTokens messages (startIndex messages) := by
  have hle := (recentIndex_spec messages cfg.keepRecentTokens startIndex_le).1
  unfold splitIndex
  dsimp only
  rw [max_eq_right hle]
  cases hp : findProtectedToolRoundStart cfg.keepRecentToolResults messages
      (startIndex messages) with
  | none => exact .inl ⟨rfl, nofun⟩
  | some p =>
    by_cases hcase : recentIndex cfg.keepRecentTokens messages (startIndex messages) ≤ p
    · refine .inl ⟨min_eq_left hcase, fun _ hq => ?_⟩
      rwa [← some.inj hq]
    exact .inr ⟨p, rfl, min_eq_right (by omega), by omega⟩

/-- **A compaction cuts no block of a tool call and its results exactly when
the recent tokens do not run out inside one before the protected rounds.** -/
theorem split_uncut_iff (cfg : CompressionConfig) (messages : List Message)
    (hpaired : WellPaired messages) :
    Uncut messages (splitIndex cfg messages) ↔ BudgetEndsOutside cfg messages := by
  obtain ⟨hge, hlen, hfits, hover⟩ :=
    recentIndex_spec messages cfg.keepRecentTokens startIndex_le
  constructor
  · intro huncut i m hm hcalls hstart j hij hj hprotected hends
    have hblock := hpaired i m hm hcalls
    obtain ⟨r, hr, -⟩ := hblock.results j hij hj
    have hjlen : j < messages.length := (List.getElem?_eq_some_iff.1 hr).1
    have hrecent : recentIndex cfg.keepRecentTokens messages (startIndex messages) = j :=
      budgetEnd_unique (by omega) hjlen hge hlen hends.1 hends.2 hfits hover
    have hsplit : splitIndex cfg messages = j := by
      rcases splitIndex_eq messages cfg with ⟨heq, -⟩ | ⟨p, hp, -, hlt⟩
      · rw [heq, hrecent]
      have hjp := hprotected p hp
      omega
    have hcut := huncut i m hm hcalls
    omega
  intro hends i m hm hcalls
  have hblock := hpaired i m hm hcalls
  rcases splitIndex_eq messages cfg with ⟨heq, hbound⟩ | ⟨p, hp, heq, -⟩
  · by_contra hcut
    rw [heq] at hcut
    have hstart : startIndex messages ≤ i := by
      rcases startIndex_uncut hpaired i m hm hcalls with h' | h' <;> omega
    obtain ⟨r, hr, -⟩ := hblock.results
      (recentIndex cfg.keepRecentTokens messages (startIndex messages)) (by omega) (by omega)
    have hlt := (List.getElem?_eq_some_iff.1 hr).1
    refine hends i m hm hcalls hstart _ (by omega) (by omega) (fun p hp => ?_)
      ⟨hfits hlt, hover (by omega)⟩
    -- the protected rounds begin later: they do not begin inside a block
    have hne : recentIndex cfg.keepRecentTokens messages (startIndex messages) ≠ p := by
      rintro rfl
      have huncut := (protectedStart_uncut hpaired hp).2 i m hm hcalls
      omega
    have hle := hbound p hp
    omega
  rw [heq]
  exact (protectedStart_uncut hpaired hp).2 i m hm hcalls

/-! ## A block that is cut -/

def wellPairedCheck (messages : List Message) : Bool :=
  (List.range messages.length).all (fun i => (messages[i]?).all (fun m => !m.callsTools ||
    (((List.range m.toolCalls.length).all (fun k => hasRole messages .tool (i + 1 + k)))
      && ((((messages.drop (i + 1)).take m.toolCalls.length).map (·.toolCallId)).isPerm
        (m.toolCalls.map (·.id))))))

lemma wellPaired_of_check (h : wellPairedCheck messages = true) : WellPaired messages := by
  intro i _ hm hcalls
  have hi : i < messages.length := (List.getElem?_eq_some_iff.1 hm).1
  have hall := all_eq_true.1 h i (mem_range.2 hi)
  rw [hm] at hall
  simp only [all_some, hcalls, Bool.not_true, Bool.false_or, Bool.and_eq_true] at hall
  refine ⟨hm, hcalls, fun j _ _ => ?_, isPerm_iff.1 hall.2⟩
  have hrole := all_eq_true.1 hall.1 (j - (i + 1)) (mem_range.2 (by omega))
  have hpos : i + 1 + (j - (i + 1)) = j := by omega
  rw [hpos] at hrole
  exact hasRole_iff.1 hrole

def twoRounds : List Message :=
  [{ role := .system, content := .text "system" },
    { role := .human, content := .text "read both" },
    { role := .ai, content := .text "", toolCalls := [⟨"c1", "read", "path: src/a.md"⟩] },
    { role := .tool, content := .text "the first file", toolCallId := "c1" },
    { role := .human, content := .text "again" },
    { role := .ai, content := .text "", toolCalls := [⟨"c2", "read", "path: src/a.md"⟩] },
    { role := .tool, content := .text "the second file", toolCallId := "c2" }]

def smallBudget : CompressionConfig where
  keepRecentTokens := 16
  keepRecentToolResults := 1

/-- **A block is cut**: the first call is summarised, its result is kept. -/
theorem twoRounds_cut :
    WellPaired twoRounds ∧ ¬ Uncut twoRounds (splitIndex smallBudget twoRounds) := by
  refine ⟨wellPaired_of_check (by decide +kernel), fun huncut => ?_⟩
  have hsplit : splitIndex smallBudget twoRounds = 3 := by decide +kernel
  have hcut := huncut 2 _ rfl rfl
  rw [hsplit] at hcut
  change 2 + 1 < 3 ∨ 3 ≤ 2 at hcut
  omega

/-- With room for two messages less, the split comes after the first round. -/
theorem twoRounds_uncut : BudgetEndsOutside { smallBudget with keepRecentTokens := 11 } twoRounds := by
  refine (split_uncut_iff _ twoRounds (wellPaired_of_check (by decide +kernel))).1 ?_
  have hsplit : splitIndex { smallBudget with keepRecentTokens := 11 } twoRounds = 4 := by
    decide +kernel
  rw [hsplit]
  intro i _ hm hcalls
  have hi : i < 7 := (List.getElem?_eq_some_iff.1 hm).1
  interval_cases i <;> obtain rfl := some.inj hm <;>
    first
    | exact absurd hcalls (by decide)
    | exact .inl (by decide)
    | exact .inr (by decide)

/-! ## What is lost -/

/-- The message at `i` stands before the first system message, or before the
latest message that counts as a checkpoint. -/
def BeforeStart (messages : List Message) (i : Nat) : Prop :=
  i < systemStart messages ∨ ∃ c, findLatestCheckpointIndex messages = some c ∧ i < c

lemma beforeStart_iff : BeforeStart messages i ↔ i < startIndex messages := by
  unfold BeforeStart startIndex
  cases h : findLatestCheckpointIndex messages with
  | _ => simp

/-- **Nothing is lost**: every message but the system messages is given to
the compressor, is kept in the result, or has been summarised earlier. -/
def NothingLost (cfg : CompressionConfig) (messages result : List Message)
    (earlier : Nat → Prop) : Prop :=
  ∀ i m, messages[i]? = some m → m.role ≠ .system →
    (∃ k, (splitMessages cfg messages).1[k]? = some m ∧ i = startIndex messages + k) ∨
    (∃ k, (splitMessages cfg messages).2[k]? = some m ∧ i = splitIndex cfg messages + k ∧
      m ∈ result) ∨
    earlier i

lemma splitMessages_regions (hm : messages[i]? = some m) (hstart : startIndex messages ≤ i) :
    (∃ k, (splitMessages cfg messages).1[k]? = some m ∧ i = startIndex messages + k) ∨
      ∃ k, (splitMessages cfg messages).2[k]? = some m ∧ i = splitIndex cfg messages + k := by
  by_cases hsplit : i < splitIndex cfg messages
  · refine .inl ⟨i - startIndex messages, ?_, by omega⟩
    unfold splitMessages
    rw [getElem?_drop, Nat.add_sub_cancel' hstart, getElem?_take_of_lt hsplit]
    exact hm
  refine .inr ⟨i - splitIndex cfg messages, ?_, by omega⟩
  unfold splitMessages
  rw [getElem?_drop, Nat.add_sub_cancel' (by omega)]
  exact hm

/-- **A compaction that succeeds loses nothing exactly when whatever stands
before its start has been summarised earlier.** -/
theorem nothing_lost_iff (cfg : CompressionConfig) (compressor : Compressor)
    (messages : List Message) (earlier : Nat → Prop) {summary : String} {result : List Message}
    (hsummary : fullSummary cfg compressor messages = some (some summary))
    (hresult : fullCompact cfg compressor messages = some result) :
    NothingLost cfg messages result earlier ↔
      ∀ i m, messages[i]? = some m → m.role ≠ .system → BeforeStart messages i → earlier i := by
  have hbuilt : result = buildNewMessages messages summary (splitMessages cfg messages).2 := by
    unfold fullCompact at hresult
    rw [hsummary] at hresult
    exact (some.inj hresult).symm
  constructor
  · intro hkept i m hm hrole hbefore
    rw [beforeStart_iff] at hbefore
    rcases hkept i m hm hrole with ⟨k, -, hk⟩ | ⟨k, hget, hk, -⟩ | hearlier
    · omega
    · -- a split before the start leaves an empty region, which has no summary
      exfalso
      have hempty : (splitMessages cfg messages).1 = [] := by
        unfold splitMessages
        refine drop_eq_nil_of_le ?_
        rw [length_take]
        omega
      unfold fullSummary at hsummary
      simp [hempty] at hsummary
    exact hearlier
  intro hearlier i m hm hrole
  by_cases hbefore : i < startIndex messages
  · exact .inr (.inr (hearlier i m hm hrole (beforeStart_iff.2 hbefore)))
  rcases splitMessages_regions hm (show startIndex messages ≤ i by omega) with hgiven | hrecent
  · exact .inl hgiven
  obtain ⟨k, hget, hk⟩ := hrecent
  refine .inr (.inl ⟨k, hget, hk, ?_⟩)
  rw [hbuilt]
  unfold buildNewMessages
  exact mem_append_right _
    (mem_filter.2 ⟨mem_of_getElem? hget, by simpa using hrole⟩)

def taggedReply : List Message :=
  [{ role := .system, content := .text "system" },
    { role := .human, content := .text "how do I mark a summary?" },
    { role := .ai, content := .text "write <summary>your text</summary>" },
    { role := .human, content := .text "thanks" },
    { role := .ai, content := .text "you are welcome" }]

def summarises : Compressor where
  llm _ := .reply (.text "<summary>the talk so far</summary>")

def lastOnly : CompressionConfig where
  keepRecentTokens := 4

/-- **A message is lost**: the reply counts as a checkpoint, so the question
before it is neither summarised nor kept. -/
theorem taggedReply_lost :
    ∃ summary result, fullSummary lastOnly summarises taggedReply = some (some summary) ∧
      fullCompact lastOnly summarises taggedReply = some result ∧
      ¬ NothingLost lastOnly taggedReply result (fun _ => False) := by
  have hsummary : fullSummary lastOnly summarises taggedReply
      = some (some "the talk so far") := by decide +kernel
  refine ⟨_, _, hsummary, by unfold fullCompact; rw [hsummary]; rfl, fun hkept => ?_⟩
  have hstart : startIndex taggedReply = 2 := by decide +kernel
  have hsplit : splitIndex lastOnly taggedReply = 4 := by decide +kernel
  rcases hkept 1 _ rfl (by decide) with ⟨k, -, hk⟩ | ⟨k, -, hk, -⟩ | hfalse
  · omega
  · omega
  exact hfalse

/-- The same talk without the tags loses nothing. -/
theorem plainReply_kept : NothingLost lastOnly (taggedReply.eraseIdx 2)
      (buildNewMessages (taggedReply.eraseIdx 2) "the talk so far"
        (splitMessages lastOnly (taggedReply.eraseIdx 2)).2) (fun _ => False) := by
  have hsummary : fullSummary lastOnly summarises (taggedReply.eraseIdx 2)
      = some (some "the talk so far") := by decide +kernel
  refine (nothing_lost_iff lastOnly summarises (taggedReply.eraseIdx 2) (fun _ => False) hsummary
    (by unfold fullCompact; rw [hsummary]; rfl)).2 ?_
  intro i _ hm hrole hbefore
  have hstart : startIndex (taggedReply.eraseIdx 2) = 1 := by decide +kernel
  rw [beforeStart_iff, hstart] at hbefore
  obtain rfl : i = 0 := by omega
  obtain rfl := some.inj hm
  exact absurd rfl hrole

end DeterminFlow.Context
