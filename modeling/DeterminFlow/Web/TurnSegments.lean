/-
  Web.TurnSegments
  **THE TOOL SEGMENTS OF A TURN.**

  The indices of tool calls begin again at 0 in every model response, while a
  draft spans the turn.  A delta for an index whose tool is not being built any
  more begins a new segment; a start takes the segment of its index whatever
  its state, on the server and in the browser.  So a call that was not streamed
  takes the segment of an earlier one.
-/
import DeterminFlow.Web.DraftSteps
import DeterminFlow.Web.Revisions

namespace DeterminFlow.Web.TurnSegments

open Library List Option ConversationState
open ConversationState (finishSegment)

/-! ## What an event may do to the tools of a draft -/

section
variable {τ : Type} (status : τ → ToolStatus) (result : τ → Option String)

def Sound (segments : List (Segment τ)) : Prop :=
  ∀ (q : Nat) (t : τ), segments[q]? = some (.tool t) → result t ≠ none → status t ≠ .building

def Unchanged (old new : List (Segment τ)) : Prop :=
  ∀ (q : Nat) (t : τ), old[q]? = some (.tool t) → result t ≠ none → new[q]? = some (Segment.tool t)

/-- A tool that is not being built stays so, with its result; a start takes a
place where none stands. -/
structure Moves (old new : List (Segment τ)) (start : Option Nat) : Prop where
  kept : ∀ (q : Nat) (t : τ), old[q]? = some (.tool t) → status t ≠ .building →
    ∃ t', new[q]? = some (Segment.tool t') ∧ status t' ≠ .building ∧ (result t ≠ none → t' = t)
  sound : Sound status result new
  placed : ∀ p, start = some p → (∃ t, new[p]? = some (Segment.tool t) ∧ status t ≠ .building)
    ∧ ∀ t, old[p]? = some (Segment.tool t) → status t = .building

/-- Every start has a segment of its own. -/
structure Kept (segments : List (Segment τ)) (starts : List Nat) : Prop where
  apart : starts.Nodup
  taken : ∀ p ∈ starts, ∃ t, segments[p]? = some (Segment.tool t) ∧ status t ≠ .building
  sound : Sound status result segments

variable {status result} {old new : List (Segment τ)}

/-- A tool that is being built has no result. -/
lemma Sound.free (h : Sound status result old) {p : Nat} {t : τ} (hp : old[p]? = some (.tool t))
    (hbuilding : status t = .building) : result t = none := by
  by_contra hresult
  exact h p t hp hresult hbuilding

lemma Moves.unchanged {start : Option Nat} (hsound : Sound status result old)
    (h : Moves status result old new start) : Unchanged result old new := by
  intro q t hq hresult
  obtain ⟨_, hnew, -, hsame⟩ := h.kept q t hq (hsound q t hq hresult)
  rw [hnew, hsame hresult]

lemma Kept.move {starts : List Nat} {start : Option Nat} (h : Kept status result old starts)
    (hmove : Moves status result old new start) : Kept status result new (start.toList ++ starts) := by
  have hold : ∀ p ∈ starts, ∃ t, new[p]? = some (Segment.tool t) ∧ status t ≠ .building := by
    intro p hp
    obtain ⟨t, hget, hstatus⟩ := h.taken p hp
    obtain ⟨t', hnew, hstatus', -⟩ := hmove.kept p t hget hstatus
    exact ⟨t', hnew, hstatus'⟩
  cases start with
  | none => exact ⟨h.apart, hold, hmove.sound⟩
  | some p =>
    obtain ⟨hnew, hfree⟩ := hmove.placed p rfl
    refine ⟨nodup_cons.2 ⟨fun hp => ?_, h.apart⟩, fun q hq => ?_, hmove.sound⟩
    · obtain ⟨t, hget, hstatus⟩ := h.taken p hp
      exact hstatus (hfree t hget)
    rcases mem_cons.1 hq with rfl | hq
    · exact hnew
    exact hold q hq

lemma Moves.same (hsound : Sound status result old)
    (h : ∀ (q : Nat) (t : τ), new[q]? = some (Segment.tool t) ↔ old[q]? = some (Segment.tool t)) : Moves status result old new none where
  kept q t hq hstatus := ⟨t, (h q t).2 hq, hstatus, fun _ => rfl⟩
  sound q t hq := hsound q t ((h q t).1 hq)
  placed p hp := absurd hp (by simp)

lemma Moves.set (hsound : Sound status result old) {p : Nat} {t t' : τ} {start : Option Nat}
    (hp : old[p]? = some (Segment.tool t)) (hfree : result t = none)
    (hstatus : status t' = .building → status t = .building) (hresult : result t' ≠ none → status t' ≠ .building)
    (hstart : ∀ q, start = some q → q = p ∧ status t = .building ∧ status t' ≠ .building) :
    Moves status result old (old.set p (.tool t')) start := by
  have hlt := (List.getElem?_eq_some_iff.1 hp).1
  have hself : (old.set p (.tool t'))[p]? = some (.tool t') := getElem?_set_self hlt
  refine { kept := fun q u hq hu => ?_, sound := fun q u hq hu => ?_, placed := fun q hq => ?_ }
  · by_cases hpq : p = q
    · subst hpq
      obtain rfl := Segment.tool.inj (some.inj (hp.symm.trans hq))
      exact ⟨t', hself, fun h => hu (hstatus h), fun h => absurd hfree h⟩
    exact ⟨u, by rw [getElem?_set_ne hpq, hq], hu, fun _ => rfl⟩
  · by_cases hpq : p = q
    · subst hpq
      obtain rfl := Segment.tool.inj (some.inj (hself.symm.trans hq))
      exact hresult hu
    rw [getElem?_set_ne hpq] at hq
    exact hsound q u hq hu
  obtain ⟨rfl, hbuilding, hrunning⟩ := hstart q hq
  refine ⟨⟨t', hself, hrunning⟩, fun u hu => ?_⟩
  obtain rfl := Segment.tool.inj (some.inj (hp.symm.trans hu))
  exact hbuilding

lemma Moves.push (hsound : Sound status result old) {t : τ} {start : Option Nat} (hresult : result t = none)
    (hstart : ∀ q, start = some q → q = old.length ∧ status t ≠ .building) :
    Moves status result old (old ++ [.tool t]) start := by
  have hself : (old ++ [Segment.tool t])[old.length]? = some (.tool t) := by simp
  have hbefore : ∀ (q : Nat) (u : τ), old[q]? = some (.tool u) →
      (old ++ [Segment.tool t])[q]? = some (.tool u) := by
    intro q u hq
    rw [getElem?_append_left (List.getElem?_eq_some_iff.1 hq).1, hq]
  refine { kept := fun q u hq hu => ⟨u, hbefore q u hq, hu, fun _ => rfl⟩, sound := fun q u hq hu => ?_
           placed := fun q hq => ?_ }
  · rcases Nat.lt_trichotomy q old.length with hlt | rfl | hgt
    · rw [getElem?_append_left hlt] at hq
      exact hsound q u hq hu
    · obtain rfl := Segment.tool.inj (some.inj (hself.symm.trans hq))
      exact absurd hresult hu
    have hlength := (List.getElem?_eq_some_iff.1 hq).1
    rw [length_append, length_singleton] at hlength
    omega
  obtain ⟨rfl, hrunning⟩ := hstart q hq
  exact ⟨⟨t, hself, hrunning⟩, fun u hu => absurd (List.getElem?_eq_some_iff.1 hu).1 (Nat.lt_irrefl _)⟩

end

/-! ## The two drafts -/

/-- A draft, and the positions of the segments that its tool starts took. -/
structure Drafted (σ : Type) where
  draft : σ
  starts : List Nat := []

variable {P : Payloads}

def serverStart (d : Stream) : ChatEvent P → Option Nat
  | .toolStart index _ _ _ => some (((d.slot index).map (·.1)).getD d.segments.length)
  | _ => none

def serverStep (w : Drafted Stream) (e : ChatEvent P) : Option (Drafted Stream) :=
  some { draft := w.draft.update e, starts := (serverStart w.draft e).toList ++ w.starts }

/-- A tool that starts finds no tool at its index, or one that is still being
built; a tool that ends has no result. -/
def ServerMeets (w : Drafted Stream) : ChatEvent P → Prop
  | .toolStart index _ _ _ => ∀ p t, w.draft.slot index = some (p, t) → t.status = .building
  | .toolEnd runId _ _ _ => ∀ p t, lastIndexWith (Stream.hasRunId runId) w.draft.segments = some p →
      w.draft.segments[p]? = some (Segment.tool t) → t.result = none
  | _ => True

def browserStart (s : ConversationState P) (e : ConversationServerEvent P) : Option Nat :=
  match e.kind with
  | .toolStart index _ name _ => some (((s.startTarget index name).filter
      (fun p => (toolAt s.streamingSegments p).isSome)).getD s.streamingSegments.length)
  | _ => none

def browserStep (w : Drafted (ConversationState P)) (e : ConversationServerEvent P) :
    Option (Drafted (ConversationState P)) :=
  some { draft := w.draft.applyKind e, starts := (browserStart w.draft e).toList ++ w.starts }

/-- The same for the browser, which ends every tool with the run id; the
generation goes on. -/
def BrowserMeets (w : Drafted (ConversationState P)) (e : ConversationServerEvent P) : Prop :=
  match e.kind with
  | .toolStart index _ name _ => ∀ p u, w.draft.startTarget index name = some p →
      toolAt w.draft.streamingSegments p = some u → u.status = .building
  | .toolEnd runId _ _ _ => ∀ (q : Nat) (u : ToolCallState),
      w.draft.streamingSegments[q]? = some (.tool u) → u.runId = runId → u.result = none
  | .streamStart => False
  | .error _ terminal _ _ _ => terminal = false
  | _ => True

/-! ## One event -/

abbrev ServerMoves := Moves ToolDraft.status ToolDraft.result

abbrev BrowserMoves := Moves ToolCallState.status ToolCallState.result

lemma running_ne_building : ToolStatus.running ≠ .building := by decide

lemma status_ne_building (outcome : ToolOutcome) : outcome.status ≠ .building := by
  cases outcome <;> decide

lemma server_moves {w : Drafted Stream} {e : ChatEvent P}
    (hsound : Sound ToolDraft.status ToolDraft.result w.draft.segments) (hmeets : ServerMeets w e) :
    ServerMoves w.draft.segments (w.draft.update e).segments (serverStart w.draft e) := by
  have hcontent : ∀ reasoning content,
      ServerMoves w.draft.segments (w.draft.onContent reasoning content).segments none := by
    intro reasoning content
    unfold Stream.onContent
    split
    · exact Moves.same hsound (fun _ _ => Iff.rfl)
    exact Moves.same hsound (appendContent_tool reasoning _ _)
  cases e with
  | token content => exact hcontent false content
  | reasoningToken content => exact hcontent true content
  | toolCallDelta index id name argsDelta =>
    show ServerMoves _ (w.draft.onDelta index id name argsDelta).segments none
    rw [Stream.onDelta_eq]
    cases hgoes : w.draft.continues index id with
    | none => exact Moves.push hsound rfl (by simp)
    | some =>
      obtain ⟨hslot, hbuilding, -⟩ := Stream.continues_some hgoes
      have hp := (slot_eq_some.1 hslot).2
      have hfree := hsound.free hp hbuilding
      exact Moves.set hsound hp hfree (fun _ => hbuilding) (fun h => absurd hfree h) (by simp)
  | toolStart index runId name args =>
    show ServerMoves _ (w.draft.onStart index runId name (P.dumps args)).segments
      (some (((w.draft.slot index).map (·.1)).getD w.draft.segments.length))
    unfold Stream.onStart
    cases hslot : w.draft.slot index with
    | none => exact Moves.push hsound rfl (fun q hq => ⟨(some.inj hq).symm, running_ne_building⟩)
    | some slot =>
      have hbuilding := hmeets slot.1 slot.2 hslot
      have hp := (slot_eq_some.1 hslot).2
      have hfree := hsound.free hp hbuilding
      exact Moves.set hsound hp hfree (fun _ => hbuilding) (fun h => absurd rfl h)
        (fun q hq => ⟨(some.inj hq).symm, hbuilding, running_ne_building⟩)
  | toolEnd runId name result outcome =>
    show ServerMoves _ (w.draft.onEnd runId result outcome).segments none
    unfold Stream.onEnd
    cases hlast : lastIndexWith (Stream.hasRunId runId) w.draft.segments with
    | none => exact Moves.same hsound (fun _ _ => Iff.rfl)
    | some p =>
      obtain ⟨segment, hp, -⟩ := lastIndexWith_has hlast
      dsimp only
      rw [hp]
      cases segment with
      | tool t =>
        exact Moves.set hsound hp (hmeets p t hlast hp) (fun h => absurd h (status_ne_building outcome))
          (fun _ => status_ne_building outcome) (by simp)
      | _ => exact Moves.same hsound (fun _ _ => Iff.rfl)
  | _ => exact Moves.same hsound (fun _ _ => Iff.rfl)

lemma browser_moves {w : Drafted (ConversationState P)} {e : ConversationServerEvent P}
    (hsound : Sound ToolCallState.status ToolCallState.result w.draft.streamingSegments)
    (hmeets : BrowserMeets w e) :
    BrowserMoves w.draft.streamingSegments (w.draft.applyKind e).streamingSegments (browserStart w.draft e) := by
  obtain ⟨_, generationId, revision, kind⟩ := e
  cases kind with
  | textDelta => exact Moves.same hsound (appendContent_tool false _ _)
  | reasoningDelta => exact Moves.same hsound (appendContent_tool true _ _)
  | toolDelta index callId name argumentsDelta =>
    show BrowserMoves _ (reduceToolDelta generationId revision index callId name argumentsDelta
      { w.draft with phase := .streaming, isStreaming := true }).streamingSegments none
    cases hgoes : ({ w.draft with phase := .streaming, isStreaming := true } :
        ConversationState P).continues index callId name with
    | none =>
      rw [reduceToolDelta_of_new hgoes]
      exact Moves.push hsound rfl (by simp)
    | some slot =>
      obtain ⟨hat, heq⟩ := reduceToolDelta_of_continues hgoes revision argumentsDelta
      rw [heq]
      have hold := (filter_eq_some_iff.1 hgoes).2
      simp only [startsNewCall, ne_eq, decide_not, Bool.not_or, Bool.not_not, Bool.and_eq_true,
        decide_eq_true_eq] at hold
      have hp := toolAt_eq_some.1 hat
      have hfree := hsound.free hp hold.2
      exact Moves.set hsound hp hfree (fun _ => hold.2) (fun h => absurd rfl h) (by simp)
  | toolStart index runId name arguments =>
    show BrowserMoves _ (reduceToolStart index runId name arguments
        { w.draft with phase := .streaming, isStreaming := true }).streamingSegments
      (some (((w.draft.startTarget index name).filter
        (fun p => (toolAt w.draft.streamingSegments p).isSome)).getD w.draft.streamingSegments.length))
    have hsame : ({ w.draft with phase := .streaming, isStreaming := true } :
        ConversationState P).startTarget index name = w.draft.startTarget index name := rfl
    unfold reduceToolStart
    rw [hsame]
    cases htarget : w.draft.startTarget index name with
    | none => exact Moves.push hsound rfl (fun q hq => ⟨(some.inj hq).symm, running_ne_building⟩)
    | some p =>
      cases hat : toolAt w.draft.streamingSegments p with
      | none =>
        simp only [bind_some, hat, map_none, filter_some, isSome_none]
        exact Moves.push hsound rfl (fun q hq => ⟨(some.inj hq).symm, running_ne_building⟩)
      | some u =>
        have hbuilding := hmeets p u htarget hat
        have hp := toolAt_eq_some.1 hat
        have hfree := hsound.free hp hbuilding
        simp only [bind_some, hat, map_some, filter_some, isSome_some, if_true]
        exact Moves.set hsound hp hfree (fun _ => hbuilding) (fun h => absurd rfl h)
          (fun q hq => ⟨(some.inj hq).symm, hbuilding, running_ne_building⟩)
  | toolEnd runId name result outcome =>
    show BrowserMoves _ (w.draft.streamingSegments.map (finishSegment runId result outcome)) none
    refine { kept := fun q u hq hu => ?_, sound := fun q u hq hu => ?_, placed := by simp }
    · refine ⟨_, by rw [getElem?_map, hq, map_some, finishSegment_tool], ?_, ?_⟩
      · split
        · exact status_ne_building outcome
        exact hu
      intro hresult
      rw [if_neg (fun hrun => hresult (hmeets q u hq hrun))]
    rw [getElem?_map] at hq
    obtain ⟨segment, hold, heq⟩ := map_eq_some_iff.1 hq
    cases segment with
    | tool v =>
      rw [finishSegment_tool] at heq
      obtain rfl := Segment.tool.inj heq
      by_cases hrun : v.runId = runId
      · rw [if_pos hrun]
        exact status_ne_building outcome
      rw [if_neg hrun] at hu ⊢
      exact hsound q v hold hu
    | _ => cases heq
  | streamStart => exact absurd hmeets id
  | error message terminal =>
    have hterminal : terminal = false := hmeets
    subst hterminal
    exact Moves.same hsound (fun _ _ => Iff.rfl)
  | _ => exact Moves.same hsound (fun _ _ => Iff.rfl)

/-! ## A whole turn -/

section
variable {σ ε τ : Type} {step : Drafted σ → ε → Option (Drafted σ)} {meets : Drafted σ → ε → Prop}
  {segments : σ → List (Segment τ)} {status : τ → ToolStatus} {result : τ → Option String}

lemma turn_keeps (hstep : ∀ w e w', Sound status result (segments w.draft) → meets w e → step w e = some w' →
      ∃ start, w'.starts = start.toList ++ w.starts
        ∧ Moves status result (segments w.draft) (segments w'.draft) start)
    {w w' : Drafted σ} {events : List ε} (h : Kept status result (segments w.draft) w.starts)
    (halong : Runs.Along step meets w events) (hrun : Runs.run step w events = some w') :
    Kept status result (segments w'.draft) w'.starts
      ∧ Unchanged result (segments w.draft) (segments w'.draft) := by
  induction events generalizing w with
  | nil =>
    obtain rfl := some.inj hrun
    exact ⟨h, fun _ _ hq _ => hq⟩
  | cons e rest ih =>
    obtain ⟨m, hm, hrest⟩ := (Runs.run_cons_eq_some step).1 hrun
    obtain ⟨start, hstarts, hmove⟩ := hstep w e m h.sound halong.1 hm
    have hkept : Kept status result (segments m.draft) m.starts := by
      rw [hstarts]
      exact h.move hmove
    obtain ⟨hend, hlater⟩ := ih hkept (halong.2 m hm) hrest
    exact ⟨hend, fun q t hq hresult => hlater q t (hmove.unchanged h.sound q t hq hresult) hresult⟩

end

def serverBegin (generationId : String) (revision : Nat) (baseline : Option Nat) : Drafted Stream where
  draft := { generationId := generationId, revision := revision, baselineRecordLength := baseline }

def browserBegin (sessionId : String) (generationId : Option String) (revision : Option Nat)
    (s : ConversationState P) : Drafted (ConversationState P) where
  draft := s.applyKind
    { sessionId := sessionId, generationId := generationId, revision := revision, kind := .streamStart }

/-- The segments with a result stay as they are from `front` on, and every
tool start so far has a segment of its own. -/
def Keeps {σ ε τ : Type} (step : Drafted σ → ε → Option (Drafted σ)) (segments : σ → List (Segment τ))
    (result : τ → Option String) (begun : Drafted σ) (front back : List ε) : Prop :=
  ∀ m w, Runs.run step begun front = some m → Runs.run step m back = some w →
    Unchanged result (segments m.draft) (segments w.draft) ∧ w.starts.Nodup
      ∧ ∀ p ∈ w.starts, ∃ t, (segments w.draft)[p]? = some (Segment.tool t)

lemma keeps_of_kept {σ ε τ : Type} {step : Drafted σ → ε → Option (Drafted σ)} {meets : Drafted σ → ε → Prop}
    {segments : σ → List (Segment τ)} (status : τ → ToolStatus) {result : τ → Option String}
    (hstep : ∀ w e w', Sound status result (segments w.draft) → meets w e → step w e = some w' →
      ∃ start, w'.starts = start.toList ++ w.starts
        ∧ Moves status result (segments w.draft) (segments w'.draft) start)
    {begun : Drafted σ} (h : Kept status result (segments begun.draft) begun.starts) {front back : List ε}
    (halong : Runs.Along step meets begun (front ++ back)) : Keeps step segments result begun front back := by
  intro _ w hfront hback
  have hm := (turn_keeps hstep h (halong.isPrefix (prefix_append _ _)) hfront).1
  obtain ⟨hw, hunchanged⟩ := turn_keeps hstep hm (halong.rest hfront) hback
  exact ⟨hunchanged, hw.apart, fun p hp => (hw.taken p hp).imp (fun _ h => h.1)⟩

/-- An empty draft. -/
lemma kept_nil {τ : Type} {status : τ → ToolStatus} {result : τ → Option String} : Kept status result [] [] where
  apart := nodup_nil
  taken _ hp := absurd hp not_mem_nil
  sound _ _ hq := absurd hq (by simp)

/-- **Where every tool start finds at its index no tool or one that is still
being built, and every tool end a tool without a result, no later event changes
a segment that has a result, and every tool start has a segment of its own: in
the server's draft, and in the browser's.** -/
theorem segments_kept :
    (∀ (generationId : String) (revision : Nat) (baseline : Option Nat) (front back : List (ChatEvent P)),
      Runs.Along serverStep ServerMeets (serverBegin generationId revision baseline) (front ++ back) →
        Keeps serverStep Stream.segments ToolDraft.result (serverBegin generationId revision baseline) front back)
    ∧ ∀ (sessionId : String) (generationId : Option String) (revision : Option Nat) (s : ConversationState P)
      (front back : List (ConversationServerEvent P)),
      Runs.Along browserStep BrowserMeets (browserBegin sessionId generationId revision s) (front ++ back) →
        Keeps browserStep ConversationState.streamingSegments ToolCallState.result
          (browserBegin sessionId generationId revision s) front back := by
  constructor
  · intro generationId revision baseline front back halong
    refine keeps_of_kept ToolDraft.status (fun w e w' hsound hmeets heq => ?_) kept_nil halong
    obtain rfl := some.inj heq
    exact ⟨_, rfl, server_moves hsound hmeets⟩
  intro sessionId generationId revision s front back halong
  refine keeps_of_kept ToolCallState.status (fun w e w' hsound hmeets heq => ?_) kept_nil halong
  obtain rfl := some.inj heq
  exact ⟨_, rfl, browser_moves hsound hmeets⟩

/-- A call of the tool `t`, as a response streams it, and its run. -/
def streamedCall (id : String) : List (ChatEvent textPayloads) :=
  [.toolCallDelta 0 (some id) (some "t") (some ""), .toolStart 0 id "t" (), .toolEnd id "t" "ok" .completed]

theorem segments_kept_streamed :
    Keeps serverStep Stream.segments ToolDraft.result (serverBegin "g" 1 none) (streamedCall "A")
      (streamedCall "B") := by
  have hfound : ∀ {d : Stream} {q : Nat} {u : ToolDraft}, d.slot 0 = some (q, u) → u.status = .building →
      ∀ p t, d.slot 0 = some (p, t) → t.status = .building := by
    intro d q u hslot hbuilding p t h
    rw [hslot] at h
    obtain ⟨rfl, rfl⟩ := Prod.mk.inj (some.inj h)
    exact hbuilding
  refine segments_kept.1 "g" 1 none (streamedCall "A") (streamedCall "B") ?_
  refine ⟨trivial, fun _ h => ?_⟩
  obtain rfl := some.inj h
  refine ⟨hfound rfl rfl, fun _ h => ?_⟩
  obtain rfl := some.inj h
  refine ⟨fun p t hlast hget => ?_, fun _ h => ?_⟩
  · obtain rfl := some.inj hlast
    obtain rfl := Segment.tool.inj (some.inj hget)
    rfl
  obtain rfl := some.inj h
  refine ⟨trivial, fun _ h => ?_⟩
  obtain rfl := some.inj h
  refine ⟨hfound rfl rfl, fun _ h => ?_⟩
  obtain rfl := some.inj h
  refine ⟨fun p t hlast hget => ?_, fun _ _ => trivial⟩
  obtain rfl := some.inj hlast
  obtain rfl := Segment.tool.inj (some.inj hget)
  rfl

def browserEvent (kind : EventKind textPayloads) : ConversationServerEvent textPayloads where
  sessionId := "s"
  generationId := some "g"
  revision := none
  kind := kind

/-- Two responses with a call each, not streamed: the second start takes the
segment with the result of the first, on both sides. -/
theorem notStreamed_taken : ¬ Keeps (serverStep (P :=textPayloads))  Stream.segments ToolDraft.result (serverBegin "g" 1 none)
        [.toolStart 0 "A" "t" (), .toolEnd "A" "t" "ok" .completed] [.toolStart 0 "B" "t" ()]
      ∧ ¬ Keeps browserStep streamingSegments ToolCallState.result
        (browserBegin "s" (some "g") none (createConversationState textPayloads "s"))
        [browserEvent (.toolStart (some 0) "A" "t" ()), browserEvent (.toolEnd "A" "t" "ok" .completed)]
        [browserEvent (.toolStart (some 0) "B" "t" ())] := by
  constructor
  all_goals
    intro h
    have hkept := (h _ _ rfl rfl).1 0 _ rfl (by decide +kernel)
    exact absurd hkept (by decide +kernel)

end DeterminFlow.Web.TurnSegments
