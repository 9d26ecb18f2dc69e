/-
  Web.DraftSteps
  **ONE EVENT, TWO DRAFTS.**

  The bus and a browser fold the same event into drafts that mirror each
  other.  When both take it to the same segment, or both to a new one, the
  drafts mirror each other afterwards.
-/
import DeterminFlow.Web.DraftMirror

namespace DeterminFlow.Web

open Library List Option Web.Stream ConversationState
open ConversationState (finishSegment)

/-! ## Where the two rules agree -/

def Stream.continues (index : Int) (id : Option String) (d : Stream) : Option (Nat × ToolDraft) :=
  (d.slot index).filter (fun slot => !Stream.startsNewTool id slot.2)

section
variable {P : Payloads}

def ConversationState.continues (index : Nat) (callId name : Option String)
    (s : ConversationState P) : Option (Nat × ToolCallState) :=
  ((s.deltaTarget index callId name).bind (fun position =>
    (toolAt s.streamingSegments position).map (fun tool => (position, tool)))).filter
      (fun slot => !startsNewCall callId name slot.2)

def endsAs {τ : Type} (reasoning : Bool) (segments : List (Segment τ)) : Bool :=
  match segments.getLast? with
  | some (.text _) => !reasoning
  | some (.reasoning _) => reasoning
  | _ => false

/-- A text that both sides append; an empty one is nothing new to either only
after text of its kind. -/
def ContentAgrees (reasoning : Bool) (content : Option String) (d : Stream) : Prop :=
  ∃ text, content = some text ∧ (text = "" → endsAs reasoning d.segments = true)

/-- The browser that has just got the draft goes on with the segment the bus
goes on with. -/
def DeltaAgrees (P : Payloads) (index : Int) (id name argsDelta : Option String) (d : Stream) :
    Prop :=
  argsDelta.isSome ∧ (∀ text, truthy id = some text → isRealKey text = true) ∧
    ∃ i, asIndex index = some i ∧
      ((seen P d).continues i id name).map (·.1) = (d.continues index id).map (·.1)

/-- It has the tool run in the segment that the index stands for, and does not
keep an earlier name. -/
def StartAgrees (P : Payloads) (index : Int) (runId name : String) (d : Stream) : Prop :=
  isRealKey runId = true ∧
    (seen P d).startTarget (asIndex index) name = (d.slot index).map (·.1) ∧
    (name = "" → ∀ slot, d.slot index = some slot → slot.2.name = "")

def EndAgrees (runId result : String) (outcome : ToolOutcome) (d : Stream) : Prop :=
  isRealKey runId = true ∧ ∀ (q : Nat) (t : ToolDraft), d.segments[q]? = some (.tool t) →
    t.runId = runId → lastIndexWith (Stream.hasRunId runId) d.segments = some q ∨
      (t.result = some result ∧ t.status = outcome.status)

/-- **The rules of the bus and of the browser agree on the event.** -/
def Agrees (d : Stream) : ChatEvent P → Prop
  | .token content => ContentAgrees false content d
  | .reasoningToken content => ContentAgrees true content d
  | .toolCallDelta index id name argsDelta => DeltaAgrees P index id name argsDelta d
  | .toolStart index runId name _ => StartAgrees P index runId name d
  | .toolEnd runId _ result outcome => EndAgrees runId result outcome d
  | _ => True

/-! ## Drafts that change in one place -/

variable {g : Option String} {d : Stream} {s s' : ConversationState P}

lemma Mirror.of_keys
    (hsegments : List.Forall₂ (SegmentMirror P g) d.segments s.streamingSegments)
    (hnone : ∀ i : Nat, i ≤ maxSafeInteger → d.slot i = none → s.slotKey i = none)
    (hsome : ∀ (i p : Nat) (t : ToolDraft) (u : ToolCallState), i ≤ maxSafeInteger →
      d.slot i = some (p, t) → s.streamingSegments[p]? = some (.tool u) →
      s.slotKey i = some u.runId) : Mirror P g d s where
  segments := hsegments
  keys := by
    intro i hi
    cases hslot : d.slot i with
    | none => exact hnone i hi hslot
    | some slot =>
      obtain ⟨p, t⟩ := slot
      obtain ⟨_, hb, hmirror⟩ := Pointwise.partner hsegments (slot_eq_some.1 hslot).2
      cases hmirror with
      | tool =>
        rw [hsome i p t _ hi hslot hb, bind_some, toolAt_eq_some.2 hb]
        rfl

variable {t t' : ToolDraft} {p q i : Nat} {u' u : ToolCallState} {index : Int} {d' : Stream}
  {runId : String} {outcome : ToolOutcome}

lemma slot_set {t' : ToolDraft} (ht : d.segments[p]? = some (.tool t)) (i : Int) :
    ({ d with segments := d.segments.set p (.tool t') } : Stream).slot i =
      (d.slot i).map (fun slot => if slot.1 = p then (p, t') else slot) := by
  have hlt : p < d.segments.length := (List.getElem?_eq_some_iff.1 ht).1
  unfold Stream.slot
  dsimp only
  cases d.toolIndices.get? i with
  | none => rfl
  | some q =>
    dsimp only [bind_some]
    by_cases hq : q = p
    · subst hq
      rw [getElem?_set_self hlt, ht]
      simp [Segment.tool?]
    rw [getElem?_set_ne (Ne.symm hq)]
    cases d.segments[q]?.bind Segment.tool? with
    | none => rfl
    | some =>
      dsimp only [map_some]
      rw [if_neg hq]

lemma Mirror.set (h : Mirror P g d s) (ht : d.segments[p]? = some (.tool t))
    (hmirror : ToolMirror P g t' u')
    (hsegments : s'.streamingSegments = s.streamingSegments.set p (.tool u'))
    (hkeys : ∀ i : Nat, i ≤ maxSafeInteger →
      s'.slotKey i = if d.toolIndices.get? i = some p then some u'.runId else s.slotKey i) :
    Mirror P g { d with segments := d.segments.set p (.tool t') } s' := by
  obtain ⟨_, hu, -⟩ := h.shownTool ht
  have hlt : p < s.streamingSegments.length := (List.getElem?_eq_some_iff.1 hu).1
  have hpairs : List.Forall₂ (SegmentMirror P g) (d.segments.set p (.tool t'))
      s'.streamingSegments := by
    rw [hsegments]
    exact Pointwise.set h.segments (.tool hmirror) p
  -- an index that stands for the place has the new key, every other one keeps its key
  refine Mirror.of_keys hpairs (fun i hi hslot => ?_) (fun i _ tool _ hi hslot hshown => ?_)
  · rw [slot_set ht, map_eq_none_iff] at hslot
    rw [hkeys i hi, if_neg, h.slotKey_none hi hslot]
    intro hplace
    rw [slot_eq_some.2 ⟨hplace, ht⟩] at hslot
    cases hslot
  rw [slot_set ht] at hslot
  obtain ⟨⟨q', _⟩, hold, heq⟩ := map_eq_some_iff.1 hslot
  dsimp only at heq
  obtain ⟨hplace, -⟩ := slot_eq_some.1 hold
  rw [hkeys i hi]
  by_cases hq : q' = p
  · rw [if_pos hq] at heq
    cases heq
    rw [hsegments, getElem?_set_self hlt] at hshown
    cases hshown
    rw [if_pos (hq ▸ hplace)]
  rw [if_neg hq] at heq
  cases heq
  rw [hsegments, getElem?_set_ne (Ne.symm hq)] at hshown
  obtain ⟨_, hv, -, hkey⟩ := h.slotKey_some hi hold
  rw [hv] at hshown
  cases hshown
  rw [if_neg (by rw [hplace]; simpa using hq), hkey]

lemma slot_push (horderly : d.Orderly) (index : Int) (t : ToolDraft) (i : Int) :
    (d.pushTool index t).slot i =
      if index = i then some (d.segments.length, t) else d.slot i := by
  unfold Stream.slot pushTool
  dsimp only
  rw [Dict.get?_set]
  by_cases hi : index = i
  · rw [if_pos hi, if_pos hi]
    simp [Segment.tool?]
  rw [if_neg hi, if_neg hi]
  cases hplace : d.toolIndices.get? i with
  | none => rfl
  | some q =>
    obtain ⟨_, htool, -⟩ := horderly.slots i q hplace
    have hlt : q < d.segments.length := (List.getElem?_eq_some_iff.1 htool).1
    dsimp only [bind_some]
    rw [getElem?_append_left hlt]

lemma Mirror.push (horderly : d.Orderly) (h : Mirror P g d s) (hmirror : ToolMirror P g t u)
    (hsegments : s'.streamingSegments = s.streamingSegments ++ [.tool u])
    (hkeys : ∀ i : Nat, i ≤ maxSafeInteger →
      s'.slotKey i = if index = i then some u.runId else s.slotKey i) :
    Mirror P g (d.pushTool index t) s' := by
  have hlength := h.segments.length_eq
  have hpairs : List.Forall₂ (SegmentMirror P g) (d.pushTool index t).segments
      s'.streamingSegments := by
    rw [hsegments]
    exact Pointwise.concat h.segments (.tool hmirror)
  refine Mirror.of_keys hpairs (fun i hi hslot => ?_) (fun i q tool shown hi hslot hshown => ?_)
  · rw [slot_push horderly] at hslot
    split at hslot
    · cases hslot
    rename_i hne
    rw [hkeys i hi, if_neg hne, h.slotKey_none hi hslot]
  rw [slot_push horderly] at hslot
  rw [hkeys i hi]
  split at hslot
  · rename_i heq
    cases hslot
    rw [hsegments, hlength, getElem?_append_right (Nat.le_refl _)] at hshown
    simp only [Nat.sub_self, getElem?_cons_zero, some.injEq, Segment.tool.injEq]
      at hshown
    rw [if_pos heq, hshown]
  rename_i hne
  obtain ⟨_, hv, -, hkey⟩ := h.slotKey_some hi hslot
  have hlt : q < s.streamingSegments.length := (List.getElem?_eq_some_iff.1 hv).1
  rw [hsegments, getElem?_append_left hlt, hv] at hshown
  cases hshown
  rw [if_neg hne, hkey]

/-- What an orderly draft asks of one of its tools. -/
structure GoodTool (d : Stream) (q : Nat) (t : ToolDraft) : Prop where
  key : isRealKey t.runId = true ∨
    (t.status = .building ∧ truthy t.id = none ∧ d.toolIndices.get? t.index = some q ∧
      ∃ i : Nat, i ≤ maxSafeInteger ∧ t.index = i ∧ t.runId = draftKey i)
  id : ∀ id, truthy t.id = some id → isRealKey id = true
  building : t.status = .building → t.result = none

lemma Stream.Orderly.good (h : d.Orderly) (ht : d.segments[q]? = some (.tool t)) :
    GoodTool d q t where
  key := h.keys q t ht
  id := h.ids q t ht
  building := h.building q t ht

lemma Stream.Orderly.set (h : d.Orderly) (ht : d.segments[p]? = some (.tool t))
    (hindex : t'.index = t.index) (hgood : GoodTool d p t') : ({ d with segments :=d.segments.set p (.tool t') } : Stream).Orderly := by
  have hlt : p < d.segments.length := (List.getElem?_eq_some_iff.1 ht).1
  -- a tool of the new draft is the new one or one of before
  have hcases : ∀ (q : Nat) (tool : ToolDraft), (d.segments.set p (.tool t'))[q]? = some (.tool tool) →
      (q = p ∧ tool = t') ∨ d.segments[q]? = some (.tool tool) := by
    intro q tool htool
    by_cases hq : q = p
    · subst hq
      rw [getElem?_set_self hlt] at htool
      cases htool
      exact .inl ⟨rfl, rfl⟩
    rw [getElem?_set_ne (Ne.symm hq)] at htool
    exact .inr htool
  constructor
  · -- an index stands for a tool that has it
    intro i q hplace
    obtain ⟨tool, htool, htoolIndex⟩ := h.slots i q hplace
    by_cases hq : q = p
    · subst hq
      rw [ht] at htool
      cases htool
      exact ⟨t', getElem?_set_self hlt, hindex.trans htoolIndex⟩
    exact ⟨tool, (getElem?_set_ne (Ne.symm hq)).trans htool, htoolIndex⟩
  · -- and for the last such tool
    intro q tool htool
    rcases hcases q tool htool with ⟨rfl, rfl⟩ | hold
    · rw [hindex]
      exact h.latest q t ht
    exact h.latest q tool hold
  · -- run ids
    intro q tool htool
    rcases hcases q tool htool with ⟨rfl, rfl⟩ | hold
    · exact hgood.key
    exact h.keys q tool hold
  · -- ids
    intro q tool htool
    rcases hcases q tool htool with ⟨rfl, rfl⟩ | hold
    · exact hgood.id
    exact h.ids q tool hold
  -- a call that is still built has no result
  intro q tool htool
  rcases hcases q tool htool with ⟨rfl, rfl⟩ | hold
  · exact hgood.building
  exact h.building q tool hold

lemma Stream.Orderly.push (h : d.Orderly) (hindex : t.index = index)
    (hfree : ∀ slot, d.slot index = some slot → isRealKey slot.2.runId = true)
    (hkey : isRealKey t.runId = true ∨ (t.status = .building ∧ truthy t.id = none ∧
      ∃ i : Nat, i ≤ maxSafeInteger ∧ t.index = i ∧ t.runId = draftKey i))
    (hid : ∀ id, truthy t.id = some id → isRealKey id = true)
    (hbuilding : t.status = .building → t.result = none) : (d.pushTool index t).Orderly := by
  have hplaced : (d.pushTool index t).toolIndices.get? index = some d.segments.length :=
    Dict.get?_set_self _ _ _
  have hother : ∀ i, index ≠ i → (d.pushTool index t).toolIndices.get? i = d.toolIndices.get? i :=
    fun i hne => Dict.get?_set_ne _ _ hne
  have hcases : ∀ (q : Nat) (tool : ToolDraft),
      (d.pushTool index t).segments[q]? = some (.tool tool) →
      (q = d.segments.length ∧ tool = t) ∨
        (q < d.segments.length ∧ d.segments[q]? = some (.tool tool)) := by
    intro q tool htool
    have happend : (d.segments ++ [.tool t])[q]? = some (.tool tool) := htool
    rcases Nat.lt_trichotomy q d.segments.length with hlt | rfl | hgt
    · rw [getElem?_append_left hlt] at happend
      exact .inr ⟨hlt, happend⟩
    · rw [getElem?_append_right (Nat.le_refl _)] at happend
      simp only [Nat.sub_self, getElem?_cons_zero, some.injEq, Segment.tool.injEq]
        at happend
      exact .inl ⟨rfl, happend.symm⟩
    rw [getElem?_eq_none (by simp; omega)] at happend
    cases happend
  constructor
  · -- an index stands for a tool that has it
    intro i q hplace
    by_cases hi : index = i
    · subst hi
      rw [hplaced] at hplace
      cases hplace
      exact ⟨t, by simp [pushTool], hindex⟩
    rw [hother i hi] at hplace
    obtain ⟨tool, htool, htoolIndex⟩ := h.slots i q hplace
    have hlt : q < d.segments.length := (List.getElem?_eq_some_iff.1 htool).1
    exact ⟨tool, (getElem?_append_left hlt).trans htool, htoolIndex⟩
  · -- and for the last such tool
    intro q tool htool
    rcases hcases q tool htool with ⟨rfl, rfl⟩ | ⟨hlt, hold⟩
    · exact ⟨_, Nat.le_refl _, hindex ▸ hplaced⟩
    by_cases hi : index = tool.index
    · exact ⟨_, Nat.le_of_lt hlt, hi ▸ hplaced⟩
    obtain ⟨p, hle, hplace⟩ := h.latest q tool hold
    exact ⟨p, hle, (hother _ hi).trans hplace⟩
  · -- run ids
    intro q tool htool
    rcases hcases q tool htool with ⟨rfl, rfl⟩ | ⟨hlt, hold⟩
    · rcases hkey with hreal | ⟨hstatus, hnone, hmade⟩
      · exact .inl hreal
      exact .inr ⟨hstatus, hnone, hindex ▸ hplaced, hmade⟩
    rcases h.keys q tool hold with hreal | ⟨hstatus, hnone, hplace, hmade⟩
    · exact .inl hreal
    -- an index whose segment has a made-up key keeps it
    by_cases hi : index = tool.index
    · exact .inl (hfree (q, tool) (slot_eq_some.2 ⟨hi ▸ hplace, hold⟩))
    exact .inr ⟨hstatus, hnone, (hother _ hi).trans hplace, hmade⟩
  · -- ids
    intro q tool htool
    rcases hcases q tool htool with ⟨rfl, rfl⟩ | ⟨-, hold⟩
    · exact hid
    exact h.ids q tool hold
  -- a call that is still built has no result
  intro q tool htool
  rcases hcases q tool htool with ⟨rfl, rfl⟩ | ⟨-, hold⟩
  · exact hbuilding
  exact h.building q tool hold

/-! ## Text -/

section
variable {τ τ' : Type}

lemma appendContent_cons_cons (reasoning : Bool) (text : String) (a b : Segment τ)
    (rest : List (Segment τ)) : appendContent reasoning text (a :: b :: rest) =
      a :: appendContent reasoning text (b :: rest) := by
  unfold appendContent
  rw [getLast?_cons_cons, dropLast_cons_cons]
  split <;> rfl

lemma appendContent_singleton (reasoning : Bool) (text : String) (a : Segment τ) :
    (∃ y, appendContent reasoning text [a] = [y] ∧ a.tool? = none ∧ y.tool? = none) ∨
      ∃ y, appendContent reasoning text [a] = [a, y] ∧ y.tool? = none := by
  cases a with
  | text =>
    cases reasoning with
    | false => exact .inl ⟨_, rfl, rfl, rfl⟩
    | true => exact .inr ⟨_, rfl, rfl⟩
  | reasoning =>
    cases reasoning with
    | false => exact .inr ⟨_, rfl, rfl⟩
    | true => exact .inl ⟨_, rfl, rfl, rfl⟩
  | tool => cases reasoning <;> exact .inr ⟨_, rfl, rfl⟩

lemma appendContent_tool (reasoning : Bool) (text : String) (segments : List (Segment τ))
    (q : Nat) (tool : τ) : (appendContent reasoning text segments)[q]? = some (.tool tool) ↔
      segments[q]? = some (.tool tool) := by
  -- only the last segment can change, so the induction is on those before it
  induction segments generalizing q with
  | nil =>
    cases reasoning <;> cases q <;> simp [appendContent]
  | cons a rest ih =>
    cases rest with
    | nil =>
      rcases appendContent_singleton reasoning text a with ⟨y, heq, ha, hy⟩ | ⟨y, heq, hy⟩
      · rw [heq]
        cases q with
        | zero =>
          constructor
          · intro hq
            cases hq
            cases hy
          intro hq
          cases hq
          cases ha
        | succ => simp
      rw [heq]
      cases q with
      | zero => rfl
      | succ q =>
        cases q with
        | zero =>
          constructor
          · intro hq
            cases hq
            cases hy
          intro hq
          cases hq
        | succ => simp
    | cons =>
      rw [appendContent_cons_cons]
      cases q with
      | zero => rfl
      | succ q => exact ih q

lemma appendContent_empty {reasoning : Bool} {segments : List (Segment τ)}
    (h : endsAs reasoning segments = true) : appendContent reasoning "" segments = segments := by
  induction segments with
  | nil => cases h
  | cons a rest ih =>
    cases rest with
    | nil =>
      cases a with
      | text =>
        cases reasoning with
        | false => simp [appendContent]
        | true => cases h
      | reasoning =>
        cases reasoning with
        | false => cases h
        | true => simp [appendContent]
      | tool => cases h
    | cons =>
      rw [appendContent_cons_cons, ih]
      unfold endsAs at h ⊢
      rw [getLast?_cons_cons] at h
      exact h

end

lemma appendContent_pairs (reasoning : Bool) (text : String) {l : List (Segment ToolDraft)}
    {m : List (Segment ToolCallState)} (h : List.Forall₂ (SegmentMirror P g) l m) :
    List.Forall₂ (SegmentMirror P g) (appendContent reasoning text l)
      (appendContent reasoning text m) := by
  induction h with
  | nil => cases reasoning <;> exact .cons (by constructor) .nil
  | @cons a b l' m' hhead htail ih =>
    cases htail with
    | nil =>
      cases hhead with
      | text =>
        cases reasoning with
        | false => exact .cons (.text _) .nil
        | true => exact .cons (.text _) (.cons (.reasoning _) .nil)
      | reasoning =>
        cases reasoning with
        | false => exact .cons (.reasoning _) (.cons (.text _) .nil)
        | true => exact .cons (.reasoning _) .nil
      | tool hmirror =>
        cases reasoning with
        | false => exact .cons (.tool hmirror) (.cons (.text _) .nil)
        | true => exact .cons (.tool hmirror) (.cons (.reasoning _) .nil)
    | cons =>
      rw [appendContent_cons_cons, appendContent_cons_cons]
      exact .cons hhead ih

lemma slot_congr (hindices : d'.toolIndices = d.toolIndices)
    (htools : ∀ (q : Nat) (t : ToolDraft), d'.segments[q]? = some (.tool t) ↔
      d.segments[q]? = some (.tool t)) (i : Int) : d'.slot i = d.slot i := by
  refine Option.ext fun slot => ?_
  obtain ⟨_, t⟩ := slot
  rw [slot_eq_some, slot_eq_some, hindices, htools]

lemma Stream.Orderly.onContent (h : d.Orderly) (reasoning : Bool) (content : Option String) :
    (d.onContent reasoning content).Orderly := by
  unfold Stream.onContent
  split
  · exact h
  have htools := appendContent_tool (τ := ToolDraft) reasoning (orEmpty content) d.segments
  constructor
  · intro i q hplace
    obtain ⟨t, ht, hindex⟩ := h.slots i q hplace
    exact ⟨t, (htools q t).2 ht, hindex⟩
  · exact fun q t ht => h.latest q t ((htools q t).1 ht)
  · exact fun q t ht => h.keys q t ((htools q t).1 ht)
  · exact fun q t ht => h.ids q t ((htools q t).1 ht)
  exact fun q t ht => h.building q t ((htools q t).1 ht)

lemma Mirror.onContent (h : Mirror P g d s) {reasoning : Bool} {text : String}
    (hempty : text = "" → endsAs reasoning d.segments = true)
    (hsegments : s'.streamingSegments = appendContent reasoning text s.streamingSegments)
    (hkeys : s'.toolCallKeysByIndex = s.toolCallKeysByIndex) :
    Mirror P g (d.onContent reasoning (some text)) s' := by
  have hpairs := appendContent_pairs reasoning text h.segments
  have hdraft : (d.onContent reasoning (some text)).segments =
      appendContent reasoning text d.segments := by
    unfold Stream.onContent
    show (if text = "" then d else { d with segments := _ } : Stream).segments = _
    split
    · rename_i htext
      rw [htext, appendContent_empty (hempty htext)]
    rfl
  have hindices : (d.onContent reasoning (some text)).toolIndices = d.toolIndices := by
    unfold Stream.onContent
    split <;> rfl
  have hslots : ∀ i, (d.onContent reasoning (some text)).slot i = d.slot i := by
    refine slot_congr hindices (fun q t => ?_)
    rw [hdraft]
    exact appendContent_tool reasoning text d.segments q t
  have hslotKey : ∀ i, s'.slotKey i = s.slotKey i := by
    intro i
    unfold slotKey
    rw [hkeys]
  refine Mirror.of_keys ?_ (fun i hi hslot => ?_) (fun i p t u hi hslot hu => ?_)
  · rw [hdraft, hsegments]
    exact hpairs
  · rw [hslots] at hslot
    rw [hslotKey, h.slotKey_none hi hslot]
  rw [hslots] at hslot
  rw [hsegments, appendContent_tool] at hu
  obtain ⟨_, hv, -, hkey⟩ := h.slotKey_some hi hslot
  rw [hv] at hu
  cases hu
  rw [hslotKey, hkey]

/-! ## Tool deltas -/

lemma Stream.onDelta_eq (index : Int) (id name argsDelta : Option String) (d : Stream) :
    d.onDelta index id name argsDelta =
      match d.continues index id with
      | some (p, t) => { d with
          segments := d.segments.set p (.tool (extendTool id name argsDelta t)) }
      | none => d.pushTool index (newTool index id name argsDelta) := by
  unfold Stream.onDelta Stream.continues
  cases d.slot index with
  | none => rfl
  | some slot =>
    obtain ⟨p, t⟩ := slot
    dsimp only
    by_cases hnew : startsNewTool id t = true
    · rw [if_pos hnew, filter_some, if_neg (by simp [hnew])]
    rw [if_neg hnew, filter_some, if_pos (by simpa using hnew)]

lemma Stream.continues_some {id : Option String} (h : d.continues index id = some (p, t)) :
    d.slot index = some (p, t) ∧ t.status = .building ∧ differ id t.id = false := by
  unfold Stream.continues at h
  obtain ⟨hslot, hgoes⟩ := filter_eq_some_iff.1 h
  unfold startsNewTool at hgoes
  simp only [ne_eq, decide_not, Bool.not_or, Bool.not_not, Bool.and_eq_true, decide_eq_true_eq,
    Bool.not_eq_eq_eq_not, Bool.not_true] at hgoes
  exact ⟨hslot, hgoes.1, hgoes.2⟩

lemma differ_congr {a b b' : Option String} (h : truthy b = truthy b') :
    differ a b = differ a b' := by
  unfold differ
  rw [h]

lemma startsNewCall_congr (h : ToolMirror P g t u) (h' : ToolMirror P g t u')
    (callId name : Option String) : startsNewCall callId name u = startsNewCall callId name u' := by
  unfold startsNewCall
  rw [differ_congr (h.id.trans h'.id.symm), h.name, h'.name, h.status, h'.status]

lemma Mirror.continues_eq (horderly : d.Orderly) (h : Mirror P g d s) (h' : Mirror P g d s')
    {index : Nat} (hindex : index ≤ maxSafeInteger) {callId : Option String}
    (hid : ∀ id, truthy callId = some id → isRealKey id = true) (name : Option String) :
    (s.continues index callId name).map (·.1) = (s'.continues index callId name).map (·.1) := by
  unfold ConversationState.continues
  rw [h.deltaTarget_eq horderly h' hindex hid]
  cases s'.deltaTarget index callId name with
  | none => rfl
  | some p =>
    dsimp only [bind_some]
    cases hu : toolAt s.streamingSegments p with
    | none =>
      cases hu' : toolAt s'.streamingSegments p with
      | none => rfl
      | some =>
        obtain ⟨t, ht, -⟩ := h'.ownTool (toolAt_eq_some.1 hu')
        obtain ⟨_, hsame, -⟩ := h.shownTool ht
        rw [toolAt_eq_some.2 hsame] at hu
        cases hu
    | some =>
      obtain ⟨t, ht, hmirror⟩ := h.ownTool (toolAt_eq_some.1 hu)
      obtain ⟨_, hu', hmirror'⟩ := h'.shownTool ht
      rw [toolAt_eq_some.2 hu']
      dsimp only [map_some]
      rw [filter_some, filter_some, startsNewCall_congr hmirror hmirror']
      split <;> rfl

lemma slotKey_set (i : Nat) {key : String} (hne : key ≠ "")
    (hkeys : s'.toolCallKeysByIndex = s.toolCallKeysByIndex.set i key) (j : Nat) :
    s'.slotKey j = if i = j then some key else s.slotKey j := by
  unfold slotKey
  rw [hkeys, Dict.get?_set]
  split
  · exact truthy_eq_some.2 ⟨rfl, hne⟩
  rfl

lemma firstDelta_mirror (hindex : asIndex index = some i) {id : Option String}
    (hreal : ∀ text, truthy id = some text → isRealKey text = true) (name : Option String)
    (delta : String) (revision : Option Nat) : ToolMirror P g (newTool index id name (some delta))
      (firstDelta g revision i id name delta) where
  index := hindex.symm
  id := truthy_truthy id
  name := rfl
  args := .inl rfl
  building := fun _ => rfl
  status := rfl
  result := rfl
  key := by
    unfold newTool firstDelta
    dsimp only
    cases hid : truthy id with
    | some text => exact .inl ⟨hreal text hid, rfl⟩
    | none =>
      obtain ⟨rfl, -⟩ := asIndex_eq_some.1 hindex
      exact .inr ⟨i, rfl, rfl, .inr ⟨revision, rfl⟩⟩

lemma nextDelta_mirror (h : ToolMirror P g t u) (hindex : asIndex t.index = some i)
    (hbuilding : t.status = .building) (hresult : t.result = none) {id : Option String}
    (hreal : ∀ text, truthy id = some text → isRealKey text = true) (name : Option String)
    (delta : String) (revision : Option Nat) : ToolMirror P g (extendTool id name (some delta) t)
      (nextDelta g revision i id name delta u) where
  index := hindex.symm
  id := by
    unfold extendTool nextDelta
    dsimp only
    cases hid : truthy id with
    | some => rfl
    | none =>
      show truthy (truthy u.id) = truthy t.id
      rw [truthy_truthy, h.id]
  name := by
    unfold extendTool nextDelta
    dsimp only
    rw [h.name]
  args := by
    show TextOf P (t.args ++ delta) (u.args ++ delta)
    rw [h.building hbuilding]
    exact .inl rfl
  building := by
    intro _
    show u.args ++ delta = t.args ++ delta
    rw [h.building hbuilding]
  status := hbuilding.symm
  result := hresult.symm
  key := by
    unfold extendTool nextDelta
    dsimp only
    cases hid : truthy id with
    | some text => exact .inl ⟨hreal text hid, rfl⟩
    | none =>
      have hkept : truthy (some u.runId) = some u.runId :=
        truthy_eq_some.2 ⟨rfl, h.runId_ne_empty⟩
      show (isRealKey t.runId = true ∧ (truthy (some u.runId)).getD _ = t.runId) ∨
        ∃ i : Nat, t.index = i ∧ t.runId = draftKey i ∧
          Provisional g i ((truthy (some u.runId)).getD _)
      rw [hkept]
      exact h.key

lemma Stream.Orderly.onDelta (h : d.Orderly) (hindex : asIndex index = some i)
    {id : Option String} (hreal : ∀ text, truthy id = some text → isRealKey text = true)
    (name argsDelta : Option String) : (d.onDelta index id name argsDelta).Orderly := by
  rw [onDelta_eq]
  cases hcontinues : d.continues index id with
  | some slot =>
    obtain ⟨p, t⟩ := slot
    obtain ⟨hslot, _, -⟩ := continues_some hcontinues
    have ht := (slot_eq_some.1 hslot).2
    have hgood := h.good ht
    refine h.set ht rfl ⟨?_, ?_, hgood.building⟩
    · unfold extendTool
      dsimp only
      cases hid : truthy id with
      | some text => exact .inl (hreal text hid)
      | none => exact hgood.key
    intro text htext
    unfold extendTool at htext
    dsimp only at htext
    cases hid : truthy id with
    | some =>
      rw [hid] at htext
      obtain ⟨heq, -⟩ := truthy_eq_some.1 htext
      cases heq
      exact hreal _ hid
    | none =>
      rw [hid] at htext
      exact hgood.id text htext
  | none =>
    refine h.push rfl ?_ ?_ hreal (fun _ => rfl)
    · -- a segment with a made-up key would have gone on
      rintro ⟨p, t⟩ hslot
      rcases h.keys p t (slot_eq_some.1 hslot).2 with hkey | ⟨hstatus, hnone, -, -⟩
      · exact hkey
      have hgoes : startsNewTool id t = false := by
        unfold startsNewTool differ
        rw [hnone, hstatus]
        cases truthy id <;> rfl
      unfold Stream.continues at hcontinues
      rw [hslot, filter_some, if_pos (by simp [hgoes])] at hcontinues
      cases hcontinues
    unfold newTool
    dsimp only
    cases hid : truthy id with
    | some text => exact .inl (hreal text hid)
    | none =>
      obtain ⟨rfl, hi⟩ := asIndex_eq_some.1 hindex
      exact .inr ⟨rfl, rfl, i, hi, rfl, rfl⟩

lemma reduceToolDelta_of_continues {id name : Option String}
    (h : s.continues i id name = some (p, u)) (revision : Option Nat) (delta : String) :
    toolAt s.streamingSegments p = some u ∧ s.reduceToolDelta g revision i id name delta =
      { s with
        streamingSegments := s.streamingSegments.set p
          (.tool (nextDelta g revision i id name delta u))
        toolCallKeysByIndex := s.toolCallKeysByIndex.set i
          (nextDelta g revision i id name delta u).runId } := by
  unfold ConversationState.continues at h
  obtain ⟨hfound, hnotNew⟩ := filter_eq_some_iff.1 h
  obtain ⟨_, htarget, hat⟩ := bind_eq_some_iff.1 hfound
  obtain ⟨_, hv, heq⟩ := map_eq_some_iff.1 hat
  cases heq
  refine ⟨hv, ?_⟩
  unfold reduceToolDelta
  dsimp only
  rw [htarget]
  dsimp only [bind_some]
  rw [hv]
  dsimp only [map_some]
  rw [if_neg (by simpa using hnotNew)]

lemma reduceToolDelta_of_new {id name : Option String} (h : s.continues i id name = none)
    (revision : Option Nat) (delta : String) : s.reduceToolDelta g revision i id name delta =
      { s with
        streamingSegments := s.streamingSegments ++
          [.tool (firstDelta g revision i id name delta)]
        toolCallKeysByIndex := s.toolCallKeysByIndex.set i
          (firstDelta g revision i id name delta).runId } := by
  unfold ConversationState.continues at h
  unfold reduceToolDelta
  dsimp only
  cases hfound : (s.deltaTarget i id name).bind (fun position =>
      (toolAt s.streamingSegments position).map (fun tool => (position, tool))) with
  | none => rfl
  | some slot =>
    obtain ⟨_, _⟩ := slot
    rw [hfound, filter_some] at h
    dsimp only
    rw [if_pos]
    by_contra hnew
    rw [if_pos (by simpa using hnew)] at h
    cases h

lemma Mirror.onDelta (horderly : d.Orderly) (h : Mirror P g d s) (hindex : asIndex index = some i)
    {id name : Option String} (hreal : ∀ text, truthy id = some text → isRealKey text = true)
    (hsame : ((seen P d).continues i id name).map (·.1) = (d.continues index id).map (·.1))
    (delta : String) (revision : Option Nat) : Mirror P g (d.onDelta index id name (some delta))
      (s.reduceToolDelta g revision i id name delta) := by
  obtain ⟨hint, hi⟩ := asIndex_eq_some.1 hindex
  have hagree : (s.continues i id name).map (·.1) = (d.continues index id).map (·.1) := by
    rw [h.continues_eq horderly (seen_mirror horderly) hi hreal]
    exact hsame
  rw [onDelta_eq]
  cases hcontinues : d.continues index id with
  | some slot =>
    obtain ⟨p, t⟩ := slot
    obtain ⟨hslot, hbuilding, -⟩ := continues_some hcontinues
    obtain ⟨hplace, ht⟩ := slot_eq_some.1 hslot
    obtain ⟨t', ht', htIndex⟩ := horderly.slots index p hplace
    rw [ht] at ht'
    cases ht'
    rw [hcontinues] at hagree
    obtain ⟨⟨_, u⟩, hgoes, hq⟩ := map_eq_some_iff.1 hagree
    cases hq
    -- the browser's rule, at the same position
    obtain ⟨hv, hreduced⟩ := reduceToolDelta_of_continues (g := g) hgoes revision delta
    obtain ⟨t', ht', hmirror⟩ := h.ownTool (toolAt_eq_some.1 hv)
    rw [ht] at ht'
    cases ht'
    have hnext : ToolMirror P g (extendTool id name (some delta) t)
        (nextDelta g revision i id name delta u) :=
      nextDelta_mirror hmirror (htIndex ▸ hindex) hbuilding (horderly.building _ t ht hbuilding)
        hreal name delta revision
    refine h.set ht hnext (by rw [hreduced]) (fun j _ => ?_)
    rw [slotKey_set i hnext.runId_ne_empty (by rw [hreduced]) j]
    by_cases hij : i = j
    · subst hij
      rw [if_pos rfl, ← hint, if_pos hplace]
    rw [if_neg hij, if_neg]
    intro hother
    obtain ⟨t', ht', _⟩ := horderly.slots j p hother
    rw [ht] at ht'
    cases ht'
    omega
  | none =>
    have hbegins : s.continues i id name = none := by
      rw [hcontinues] at hagree
      exact map_eq_none_iff.1 hagree
    have hfirst : ToolMirror P g (newTool index id name (some delta))
        (firstDelta g revision i id name delta) :=
      firstDelta_mirror hindex hreal name delta revision
    have hreduced := reduceToolDelta_of_new (g := g) hbegins revision delta
    refine h.push horderly hfirst (by rw [hreduced]) (fun j _ => ?_)
    rw [slotKey_set i hfirst.runId_ne_empty (by rw [hreduced]) j]
    by_cases hij : i = j
    · subst hij
      rw [if_pos rfl, if_pos hint]
    rw [if_neg hij, if_neg (by omega)]

/-! ## Tool starts -/

lemma Stream.Orderly.onStart (h : d.Orderly) (hreal : isRealKey runId = true) (index : Int)
    (name args : String) (hfree : ∀ slot, d.slot index = some slot → slot.2.index = index) :
    (d.onStart index runId name args).Orderly := by
  have hrun : (startedTool index runId name args).runId = runId :=
    if_neg (isRealKey_ne_empty hreal)
  unfold Stream.onStart
  cases hslot : d.slot index with
  | some slot =>
    obtain ⟨_, t⟩ := slot
    have ht := (slot_eq_some.1 hslot).2
    refine h.set ht (hfree _ hslot).symm ⟨.inl (hrun.symm ▸ hreal), ?_, ?_⟩
    · intro id hid
      have hkept : truthy t.id = some id := by
        rw [← truthy_truthy]
        exact hid
      exact (h.good ht).id id hkept
    intro hstatus
    cases hstatus
  | none =>
    refine h.push rfl ?_ (.inl (hrun.symm ▸ hreal)) ?_ ?_
    · intro slot hsome
      rw [hslot] at hsome
      cases hsome
    · intro id hid
      cases hid
    intro hstatus
    cases hstatus

lemma Stream.Orderly.slot_index (h : d.Orderly) {slot : Nat × ToolDraft}
    (hslot : d.slot index = some slot) : slot.2.index = index := by
  obtain ⟨p, _⟩ := slot
  obtain ⟨hplace, ht⟩ := slot_eq_some.1 hslot
  obtain ⟨_, ht', hindex⟩ := h.slots index p hplace
  rw [ht] at ht'
  cases ht'
  exact hindex

lemma slotKey_started (hne : runId ≠ "") (hkeys : s'.toolCallKeysByIndex =
      match asIndex index with
      | some i => s.toolCallKeysByIndex.set i runId
      | none => s.toolCallKeysByIndex) {j : Nat} (hj : j ≤ maxSafeInteger) :
    s'.slotKey j = if index = j then some runId else s.slotKey j := by
  cases hindex : asIndex index with
  | some i =>
    obtain ⟨rfl, -⟩ := asIndex_eq_some.1 hindex
    rw [hindex] at hkeys
    rw [slotKey_set i hne hkeys]
    by_cases hij : i = j
    · subst hij
      rw [if_pos rfl, if_pos rfl]
    rw [if_neg hij, if_neg (by omega)]
  | none =>
    rw [hindex] at hkeys
    have hne' : index ≠ j := by
      rintro rfl
      rw [asIndex_eq_some.2 ⟨rfl, hj⟩] at hindex
      cases hindex
    rw [if_neg hne']
    unfold slotKey
    rw [hkeys]

lemma Mirror.onStart (horderly : d.Orderly) (h : Mirror P g d s) {name : String}
    (hagrees : StartAgrees P index runId name d) (arguments : P.Arguments) :
    Mirror P g (d.onStart index runId name (P.dumps arguments))
      (s.reduceToolStart (asIndex index) runId name arguments) := by
  obtain ⟨hreal, hsame, hname⟩ := hagrees
  have hne := isRealKey_ne_empty hreal
  have hrun : (startedTool index runId name (P.dumps arguments)).runId = runId := if_neg hne
  have htarget : s.startTarget (asIndex index) name = (d.slot index).map (·.1) := by
    rw [h.startTarget_eq horderly (seen_mirror horderly) _ (fun i hi => (asIndex_eq_some.1 hi).2)]
    exact hsame
  unfold Stream.onStart
  cases hslot : d.slot index with
  | none =>
    rw [hslot] at htarget
    have hmirror : ToolMirror P g (startedTool index runId name (P.dumps arguments))
        (runningTool (asIndex index) runId name (P.stringify arguments) none) := by
      refine ⟨?_, rfl, ?_, .inr ⟨arguments, rfl, rfl⟩, ?_, rfl, rfl, .inl ⟨hrun.symm ▸ hreal, hrun.symm⟩⟩
      · show (asIndex index).orElse (fun _ => none) = asIndex index
        cases asIndex index <;> rfl
      · show (if name = "" then "" else name) = name
        split
        · rename_i hempty
          exact hempty.symm
        rfl
      intro hstatus
      cases hstatus
    refine h.push horderly hmirror ?_ (fun j hj => slotKey_started hne rfl hj)
    unfold reduceToolStart
    dsimp only
    rw [htarget]
    rfl
  | some slot =>
    obtain ⟨p, t⟩ := slot
    obtain ⟨hplace, ht⟩ := slot_eq_some.1 hslot
    have hindex : t.index = index := horderly.slot_index hslot
    obtain ⟨u, hu, hpair⟩ := h.shownTool ht
    rw [hslot] at htarget
    dsimp only
    have hmirror : ToolMirror P g
        { startedTool index runId name (P.dumps arguments) with id := truthy t.id }
        (runningTool (asIndex index) runId name (P.stringify arguments) (some u)) := by
      refine ⟨?_, ?_, ?_, .inr ⟨arguments, rfl, rfl⟩, ?_, rfl, rfl, .inl ⟨hrun.symm ▸ hreal, hrun.symm⟩⟩
      · show (asIndex index).orElse (fun _ => u.index) = asIndex index
        rw [hpair.index, hindex]
        cases asIndex index <;> rfl
      · show truthy (truthy u.id) = truthy (truthy t.id)
        rw [truthy_truthy, truthy_truthy, hpair.id]
      · show (if name = "" then u.name else name) = name
        split
        · rename_i hempty
          rw [hpair.name, hempty]
          exact hname hempty (p, t) hslot
        rfl
      intro hstatus
      cases hstatus
    refine h.set ht hmirror ?_ (fun j hj => ?_)
    · unfold reduceToolStart
      dsimp only
      rw [htarget]
      dsimp only [map_some, bind_some]
      rw [toolAt_eq_some.2 hu]
      rfl
    rw [slotKey_started hne rfl hj]
    by_cases hij : index = j
    · rw [if_pos hij, ← hij, if_pos hplace]
      rfl
    rw [if_neg hij, if_neg]
    intro hother
    exact hij (hindex.symm.trans (horderly.slot_index (slot_eq_some.2 ⟨hother, ht⟩)))

/-! ## Tool ends -/

lemma Stream.Orderly.onEnd (h : d.Orderly) (hreal : isRealKey runId = true) (result : String)
    (outcome : ToolOutcome) : (d.onEnd runId result outcome).Orderly := by
  unfold Stream.onEnd
  cases hlast : lastIndexWith (hasRunId runId) d.segments with
  | none => exact h
  | some =>
    obtain ⟨segment, hsegment, hhas⟩ := lastIndexWith_has hlast
    dsimp only
    rw [hsegment]
    cases segment with
    | tool t =>
      have hrun : t.runId = runId := by simpa [hasRunId, Segment.tool?] using hhas
      refine h.set hsegment rfl ⟨.inl ?_, (h.good hsegment).id, ?_⟩
      · show isRealKey t.runId = true
        rw [hrun]
        exact hreal
      intro hstatus
      cases outcome <;> cases hstatus
    | _ => cases hhas

lemma finishSegment_tool {result : String} : finishSegment runId result outcome (.tool u) =
      .tool (if u.runId = runId then { u with result := some result, status := outcome.status } else u) := by
  unfold finishSegment
  dsimp only
  split <;> rfl

lemma SegmentMirror.finish {result : String} (hagrees : EndAgrees runId result outcome d)
    {a : Segment ToolDraft} {b : Segment ToolCallState} (hab : SegmentMirror P g a b)
    (ha : d.segments[q]? = some a) (hq : lastIndexWith (hasRunId runId) d.segments ≠ some q) :
    SegmentMirror P g a (finishSegment runId result outcome b) := by
  obtain ⟨hreal, hothers⟩ := hagrees
  cases hab with
  | text content => exact .text content
  | reasoning content => exact .reasoning content
  | @tool t u hmirror =>
    rw [finishSegment_tool]
    split
    · rename_i hrun
      rcases hothers q t ha ((hmirror.runId_iff hreal).1 hrun) with hlast | ⟨hresult, hstatus⟩
      · exact absurd hlast hq
      have hunchanged : { u with result := some result, status := outcome.status } = u := by
        rw [← hresult, ← hstatus, ← hmirror.result, ← hmirror.status]
      rw [hunchanged]
      exact .tool hmirror
    exact .tool hmirror

lemma finishSegment_runId {result : String} {segments : List (Segment ToolCallState)}
    (hu : (segments.map (finishSegment runId result outcome))[q]? = some (.tool u)) :
    ∃ v, segments[q]? = some (.tool v) ∧ v.runId = u.runId := by
  rw [getElem?_map] at hu
  obtain ⟨b, hb, heq⟩ := map_eq_some_iff.1 hu
  cases b with
  | tool v =>
    rw [finishSegment_tool] at heq
    cases heq
    exact ⟨v, hb, by split <;> rfl⟩
  | _ => cases heq

lemma Mirror.of_sameSlots (h : Mirror P g d s)
    (hsegments : List.Forall₂ (SegmentMirror P g) d'.segments s'.streamingSegments)
    (hslots : ∀ i, (d'.slot i).map (·.1) = (d.slot i).map (·.1))
    (hkeys : s'.toolCallKeysByIndex = s.toolCallKeysByIndex)
    (hrunIds : ∀ (q : Nat) (u : ToolCallState), s'.streamingSegments[q]? = some (.tool u) →
      ∃ v, s.streamingSegments[q]? = some (.tool v) ∧ v.runId = u.runId) : Mirror P g d' s' := by
  have hslotKey : ∀ i, s'.slotKey i = s.slotKey i := by
    intro i
    unfold slotKey
    rw [hkeys]
  refine Mirror.of_keys hsegments (fun i hi hslot => ?_) (fun i _ _ u hi hslot hu => ?_)
  · have hnone := hslots i
    rw [hslot] at hnone
    rw [hslotKey, h.slotKey_none hi (map_eq_none_iff.1 hnone.symm)]
  have hsome := hslots i
  rw [hslot] at hsome
  obtain ⟨⟨_, _⟩, hold, hp⟩ := map_eq_some_iff.1 hsome.symm
  cases hp
  obtain ⟨v, hv, -, hkey⟩ := h.slotKey_some hi hold
  obtain ⟨_, hv', hrun⟩ := hrunIds _ u hu
  rw [hv] at hv'
  cases hv'
  rw [hslotKey, hkey, hrun]

lemma Mirror.onEnd (h : Mirror P g d s) {result : String}
    (hagrees : EndAgrees runId result outcome d) (hsegments : s'.streamingSegments =
      s.streamingSegments.map (finishSegment runId result outcome))
    (hkeys : s'.toolCallKeysByIndex = s.toolCallKeysByIndex) :
    Mirror P g (d.onEnd runId result outcome) s' := by
  have hrunIds : ∀ (q : Nat) (u : ToolCallState), s'.streamingSegments[q]? = some (.tool u) →
      ∃ v, s.streamingSegments[q]? = some (.tool v) ∧ v.runId = u.runId := by
    intro q u hu
    rw [hsegments] at hu
    exact finishSegment_runId hu
  unfold Stream.onEnd
  cases hlast : lastIndexWith (hasRunId runId) d.segments with
  | none =>
    refine h.of_sameSlots ?_ (fun _ => rfl) hkeys hrunIds
    rw [hsegments]
    exact Pointwise.map_right h.segments
      (fun q a b ha hab => hab.finish hagrees ha (by rw [hlast]; simp))
  | some p =>
    obtain ⟨segment, hsegment, hhas⟩ := lastIndexWith_has hlast
    dsimp only
    rw [hsegment]
    cases segment with
    | tool t =>
      have hrun : t.runId = runId := by simpa [hasRunId, Segment.tool?] using hhas
      refine h.of_sameSlots ?_ (fun i => ?_) hkeys hrunIds
      · rw [hsegments]
        refine Pointwise.set_map h.segments (fun a b ha hab => ?_) (fun q a b hq ha hab => ?_)
        · rw [hsegment] at ha
          cases ha
          cases hab with
          | @tool t u hmirror =>
            rw [finishSegment_tool, if_pos ((hmirror.runId_iff hagrees.1).2 hrun)]
            refine .tool ⟨hmirror.index, hmirror.id, hmirror.name, hmirror.args, ?_, rfl, rfl,
              hmirror.key⟩
            intro hstatus
            cases outcome <;> cases hstatus
        exact hab.finish hagrees ha (by rw [hlast]; simpa using Ne.symm hq)
      show (({ d with segments := d.segments.set p _ } : Stream).slot i).map _ = _
      rw [slot_set hsegment]
      cases d.slot i with
      | none => rfl
      | some slot =>
        dsimp only [map_some]
        split
        · rename_i hq
          rw [hq]
        rfl
    | _ => cases hhas

/-! ## Any event of the generation -/

def ChatEvent.inGeneration : ChatEvent P → Bool
  | .token _ => true
  | .reasoningToken _ => true
  | .toolCallDelta _ _ _ _ => true
  | .toolStart _ _ _ _ => true
  | .toolEnd _ _ _ _ => true
  | .streamEnd => true
  | .llmUsage _ => true
  | _ => false

lemma update_orderly (h : d.Orderly) {event : ChatEvent P} (hagrees : Agrees d event) :
    (d.update event).Orderly := by
  cases event with
  | token content => exact h.onContent false content
  | reasoningToken content => exact h.onContent true content
  | toolCallDelta index id name argsDelta =>
    obtain ⟨-, hreal, _, hindex, -⟩ := hagrees
    exact h.onDelta hindex hreal name argsDelta
  | toolStart index runId name args =>
    exact h.onStart hagrees.1 index name (P.dumps args) (fun _ hslot => h.slot_index hslot)
  | toolEnd runId name result outcome => exact h.onEnd hagrees.1 result outcome
  | _ => exact h

lemma update_mirror (horderly : d.Orderly) {event : ChatEvent P}
    (hin : event.inGeneration = true) (hagrees : Agrees d event) :
    ∃ kind, normalizeKind event = some kind ∧ ∀ (sessionId : String) (revision : Option Nat)
      (s : ConversationState P), Mirror P g d s →
        Mirror P g (d.update event) (applyKind
          { sessionId := sessionId, generationId := g, revision := revision, kind := kind } s) := by
  cases event with
  | token =>
    obtain ⟨text, rfl, hempty⟩ := hagrees
    exact ⟨.textDelta text, rfl, fun _ _ s h => h.onContent hempty rfl rfl⟩
  | reasoningToken =>
    obtain ⟨text, rfl, hempty⟩ := hagrees
    exact ⟨.reasoningDelta text, rfl, fun _ _ s h => h.onContent hempty rfl rfl⟩
  | toolCallDelta index id name =>
    obtain ⟨hargs, hreal, i, hindex, hsame⟩ := hagrees
    obtain ⟨delta, rfl⟩ := isSome_iff_exists.1 hargs
    refine ⟨.toolDelta i id name delta, ?_, fun _ revision s h => ?_⟩
    · simp only [normalizeKind, hindex]
    have hnext : Mirror P g d { s with phase := .streaming, isStreaming := true } :=
      h.congr rfl rfl
    exact hnext.onDelta horderly hindex hreal hsame delta revision
  | toolStart index runId name args =>
    refine ⟨.toolStart (asIndex index) runId name args, if_neg (isRealKey_ne_empty hagrees.1),
      fun _ _ s h => ?_⟩
    have hnext : Mirror P g d { s with phase := .streaming, isStreaming := true } := h.congr rfl rfl
    exact hnext.onStart horderly hagrees args
  | toolEnd runId name result outcome =>
    exact ⟨.toolEnd runId name result outcome, if_neg (isRealKey_ne_empty hagrees.1),
      fun _ _ s h => h.onEnd hagrees rfl rfl⟩
  | streamEnd => exact ⟨.streamEnd, rfl, fun _ _ s h => h⟩
  | llmUsage data => exact ⟨.usage data, rfl, fun _ _ s h => h.congr rfl rfl⟩
  | _ => cases hin

end
end DeterminFlow.Web
