/-
  Web.DraftMirror
  **TWO DRAFTS OF ONE GENERATION.**

  The bus and the browser keep a draft of the generation each, and find the
  segment of a tool event in different ways: the bus by the index, the browser
  by ids, run ids and names.  The drafts mirror each other when they have the
  same segments in the same places, up to the run ids that each side makes up
  for calls without an id.
-/
import DeterminFlow.Web.Conversation
import DeterminFlow.Library.Pointwise
import Std.Data.String.ToNat

namespace DeterminFlow.Web

open Library List Option ConversationState Pointwise
open ConversationState (keysOfSegments)

/-! ## Run ids that are made up -/

def draftKey (index : Nat) : String := s!"delta_{(index : Int)}"

def isRealKey (key : String) : Bool :=
  key ≠ "" && !"delta_".toList.isPrefixOf key.toList && !"pending:".toList.isPrefixOf key.toList

def Provisional (generationId : Option String) (index : Nat) (key : String) : Prop :=
  key = draftKey index ∨ ∃ revision, key = ConversationState.pendingKey generationId index revision

lemma draftKey_toList (index : Nat) :
    (draftKey index).toList = "delta_".toList ++ (Nat.repr index).toList := by
  unfold draftKey
  show (toString "delta_" ++ toString (index : Int)).toList = _
  rw [String.toList_append]
  rfl

lemma pendingKey_toList (generationId : Option String) (index : Nat) (revision : Option Nat) :
    ∃ rest, (pendingKey generationId index revision).toList =
      "pending:".toList ++ (((truthy generationId).getD "legacy").toList ++
        ':' :: ((Nat.repr index).toList ++ ':' :: rest)) := by
  refine ⟨((revision.map toString).getD "x").toList, ?_⟩
  unfold pendingKey
  simp [String.toList_append]
  rfl

lemma colon_not_mem_repr (n : Nat) : ':' ∉ (Nat.repr n).toList := by
  intro hmem
  rw [Nat.toList_repr] at hmem
  exact absurd (Nat.isDigit_of_mem_toDigits (by omega) (by omega) hmem) (by decide)

lemma takeWhile_colon {front : List Char} (h : ':' ∉ front) (back : List Char) :
    (front ++ ':' :: back).takeWhile (fun c => decide (c ≠ ':')) = front := by
  induction front with
  | nil => rfl
  | cons c rest ih =>
    have hc : c ≠ ':' := fun heq => h (heq ▸ mem_cons_self)
    have hrest : ':' ∉ rest := fun hmem => h (mem_cons_of_mem c hmem)
    rw [cons_append, takeWhile_cons_of_pos (by simpa using hc), ih hrest]

variable {index i p : Nat} {u : ToolCallState} {t : ToolDraft}
  {segments : List (Segment ToolCallState)} {callId : Option String}

lemma Provisional.not_real {g : Option String} {key : String} (h : Provisional g index key) :
    isRealKey key = false := by
  have hdraft : ∀ (pre rest : List Char), pre.isPrefixOf (pre ++ rest) = true :=
    fun pre rest => isPrefixOf_iff_prefix.2 (prefix_append pre rest)
  unfold isRealKey
  rcases h with rfl | ⟨revision, rfl⟩
  · rw [draftKey_toList, hdraft]
    simp
  obtain ⟨rest, hrest⟩ := pendingKey_toList g index revision
  rw [hrest, hdraft]
  simp

lemma Provisional.index_eq {g : Option String} {j : Nat} {key : String} (hi : Provisional g i key)
    (hj : Provisional g j key) : i = j := by
  -- the two forms begin with different letters
  have hne : ∀ (i j : Nat) revision, draftKey i ≠ pendingKey g j revision := by
    intro i j revision heq
    obtain ⟨rest, hrest⟩ := pendingKey_toList g j revision
    have hlists := congrArg String.toList heq
    rw [draftKey_toList, hrest] at hlists
    have hhead : some 'd' = some 'p' := congrArg List.head? hlists
    cases hhead
  rcases hi with rfl | ⟨revision, rfl⟩
  · rcases hj with heq | ⟨revision', heq⟩
    · have hlists := congrArg String.toList heq
      rw [draftKey_toList, draftKey_toList] at hlists
      exact Nat.repr_injective (String.toList_inj.1 (append_cancel_left hlists))
    exact absurd heq (hne i j revision')
  rcases hj with heq | ⟨revision', heq⟩
  · exact absurd heq.symm (hne j i revision)
  obtain ⟨rest, hrest⟩ := pendingKey_toList g i revision
  obtain ⟨_, hrest'⟩ := pendingKey_toList g j revision'
  have hlists := congrArg String.toList heq
  rw [hrest, hrest'] at hlists
  have htail := cons.inj (append_cancel_left (append_cancel_left hlists))
  have hindex := congrArg (List.takeWhile (fun c => decide (c ≠ ':'))) htail.2
  rw [takeWhile_colon (colon_not_mem_repr i), takeWhile_colon (colon_not_mem_repr j)] at hindex
  exact Nat.repr_injective (String.toList_inj.1 hindex)

lemma Provisional.ne_empty {g : Option String} {key : String} (h : Provisional g index key) :
    key ≠ "" := by
  rintro rfl
  rcases h with h | ⟨revision, h⟩
  · have hlists := congrArg String.toList h
    rw [draftKey_toList] at hlists
    cases hlists
  obtain ⟨_, hrest⟩ := pendingKey_toList g index revision
  have hlists := congrArg String.toList h
  rw [hrest] at hlists
  cases hlists

lemma isRealKey_ne_empty {key : String} (h : isRealKey key = true) : key ≠ "" := by
  rintro rfl
  cases h

/-! ## The mirror -/

def TextOf (P : Payloads) (own shown : String) : Prop :=
  shown = own ∨ ∃ a : P.Arguments, shown = P.stringify a ∧ own = P.dumps a

/-- The tool records of one segment on the two sides. -/
structure ToolMirror (P : Payloads) (g : Option String) (t : ToolDraft) (u : ToolCallState) :
    Prop where
  index : u.index = asIndex t.index
  id : truthy u.id = truthy t.id
  name : u.name = t.name
  args : TextOf P t.args u.args
  building : t.status = .building → u.args = t.args
  status : u.status = t.status
  result : u.result = t.result
  key : (isRealKey t.runId = true ∧ u.runId = t.runId) ∨
    ∃ i : Nat, t.index = i ∧ t.runId = draftKey i ∧ Provisional g i u.runId

inductive SegmentMirror (P : Payloads) (g : Option String) :
    Segment ToolDraft → Segment ToolCallState → Prop
  | text (content : String) : SegmentMirror P g (.text content) (.text content)
  | reasoning (content : String) : SegmentMirror P g (.reasoning content) (.reasoning content)
  | tool {t : ToolDraft} {u : ToolCallState} : ToolMirror P g t u →
      SegmentMirror P g (.tool t) (.tool u)

/-- **The browser's draft mirrors the bus's.** -/
structure Mirror (P : Payloads) (g : Option String) (d : Stream) (s : ConversationState P) :
    Prop where
  segments : List.Forall₂ (SegmentMirror P g) d.segments s.streamingSegments
  /-- The key of an index is the run id of the segment that the index stands for. -/
  keys : ∀ i, i ≤ maxSafeInteger → s.slotKey i =
    (d.slot i).bind (fun slot => (toolAt s.streamingSegments slot.1).map (·.runId))

/-- What holds of the bus's draft alone. -/
structure Stream.Orderly (d : Stream) : Prop where
  slots : ∀ (i : Int) (p : Nat), d.toolIndices.get? i = some p →
    ∃ t, d.segments[p]? = some (.tool t) ∧ t.index = i
  latest : ∀ (q : Nat) (t : ToolDraft), d.segments[q]? = some (.tool t) →
    ∃ p, q ≤ p ∧ d.toolIndices.get? t.index = some p
  keys : ∀ (q : Nat) (t : ToolDraft), d.segments[q]? = some (.tool t) → isRealKey t.runId = true ∨
    (t.status = .building ∧ truthy t.id = none ∧ d.toolIndices.get? t.index = some q ∧
      ∃ i : Nat, i ≤ maxSafeInteger ∧ t.index = i ∧ t.runId = draftKey i)
  ids : ∀ (q : Nat) (t : ToolDraft), d.segments[q]? = some (.tool t) → ∀ id, truthy t.id = some id → isRealKey id = true
  building : ∀ (q : Nat) (t : ToolDraft), d.segments[q]? = some (.tool t) → t.status = .building → t.result = none

/-! ## Texts and positions -/

lemma truthy_eq_some {t : Option String} {text : String} :
    truthy t = some text ↔ t = some text ∧ text ≠ "" := by
  unfold truthy
  split
  · simp only [reduceCtorEq, some.injEq, ne_eq, false_iff, not_and, not_not]
    intro h
    exact h.symm
  rename_i hne
  constructor
  · rintro rfl
    exact ⟨rfl, fun heq => hne (by rw [heq])⟩
  exact fun h => h.1

@[simp] lemma truthy_truthy (t : Option String) : truthy (truthy t) = truthy t := by
  cases h : truthy t with
  | none => rfl
  | some =>
    obtain ⟨-, hne⟩ := truthy_eq_some.1 h
    exact truthy_eq_some.2 ⟨rfl, hne⟩

section
variable {α β : Type} {p : α → Bool} {l : List α} {i : Nat}

lemma lastIndexWith_has (h : lastIndexWith p l = some i) : ∃ a, l[i]? = some a ∧ p a = true := by
  induction l generalizing i with
  | nil => cases h
  | cons a rest ih =>
    unfold lastIndexWith at h
    cases hrest : lastIndexWith p rest with
    | some =>
      rw [hrest] at h
      obtain rfl := some.inj h
      exact ih hrest
    | none =>
      rw [hrest] at h
      dsimp only at h
      split at h
      · rename_i hpa
        cases h
        exact ⟨a, rfl, hpa⟩
      cases h

lemma lastIndexWith_none :
    lastIndexWith p l = none ↔ ∀ (j : Nat) (a : α), l[j]? = some a → p a = false := by
  induction l with
  | nil =>
    constructor
    · intro _ j a ha
      cases ha
    exact fun _ => rfl
  | cons a rest ih =>
    unfold lastIndexWith
    cases hrest : lastIndexWith p rest with
    | some k =>
      obtain ⟨b, hb, hpb⟩ := lastIndexWith_has hrest
      constructor
      · intro h
        cases h
      intro h
      exact absurd hpb (by rw [h (k + 1) b hb]; simp)
    | none =>
      have htail := ih.1 hrest
      by_cases hpa : p a = true
      · rw [if_pos hpa]
        constructor
        · intro h
          cases h
        intro h
        exact absurd hpa (by rw [h 0 a rfl]; simp)
      rw [if_neg hpa]
      constructor
      · intro _ j b hb
        cases j with
        | zero =>
          cases hb
          simpa using hpa
        | succ j => exact htail j b hb
      exact fun _ => rfl

lemma lastIndexWith_later (h : lastIndexWith p l = some i) {j : Nat} {b : α} (hj : i < j)
    (hb : l[j]? = some b) : p b = false := by
  induction l generalizing i j with
  | nil => cases h
  | cons a rest ih =>
    obtain ⟨j, rfl⟩ : ∃ k, j = k + 1 := ⟨j - 1, by omega⟩
    unfold lastIndexWith at h
    cases hrest : lastIndexWith p rest with
    | some =>
      rw [hrest] at h
      obtain rfl := some.inj h
      exact ih hrest (by omega) hb
    | none => exact lastIndexWith_none.1 hrest j b hb

lemma lastIndexWith_eq {a : α} (hat : l[i]? = some a) (hp : p a = true)
    (hlater : ∀ (j : Nat) (b : α), i < j → l[j]? = some b → p b = false) : lastIndexWith p l = some i := by
  cases h : lastIndexWith p l with
  | none => exact absurd hp (by rw [lastIndexWith_none.1 h i a hat]; simp)
  | some k =>
    obtain ⟨b, hb, hpb⟩ := lastIndexWith_has h
    rcases Nat.lt_trichotomy i k with hlt | rfl | hgt
    · exact absurd hpb (by rw [hlater k b hlt hb]; simp)
    · rfl
    exact absurd hp (by rw [lastIndexWith_later h hgt hat]; simp)

lemma lastIndexWith_congr {R : α → β → Prop} {q : β → Bool} {m : List β}
    (h : List.Forall₂ R l m) (hpq : ∀ a b, R a b → p a = q b) :
    lastIndexWith p l = lastIndexWith q m := by
  induction h with
  | nil => rfl
  | cons hhead _ ih =>
    unfold lastIndexWith
    rw [ih, hpq _ _ hhead]

end

/-! ## What the browser finds -/

variable {P : Payloads} {g : Option String} {d : Stream} {s s' : ConversationState P}

/-- `tool["run_id"] == key` or `tool["id"] == key`. -/
def ToolDraft.hasKey (key : String) (tool : ToolDraft) : Bool :=
  tool.runId = key || truthy tool.id = some key

lemma ToolMirror.runId_iff (h : ToolMirror P g t u) {key : String}
    (hreal : isRealKey key = true) : u.runId = key ↔ t.runId = key := by
  rcases h.key with ⟨-, heq⟩ | ⟨i, -, hown, hshown⟩
  · rw [heq]
  -- neither side's own key is a real one
  constructor
  · rintro rfl
    rw [hshown.not_real] at hreal
    cases hreal
  rintro rfl
  rw [hown, (show Provisional g i (draftKey i) from .inl rfl).not_real] at hreal
  cases hreal

lemma ToolMirror.hasKey (h : ToolMirror P g t u) {key : String} (hreal : isRealKey key = true) :
    u.hasKey key = t.hasKey key := by
  have hid : u.id = some key ↔ truthy t.id = some key := by
    rw [← h.id, truthy_eq_some]
    exact ⟨fun heq => ⟨heq, isRealKey_ne_empty hreal⟩, fun heq => heq.1⟩
  unfold ToolCallState.hasKey ToolDraft.hasKey
  simp only [hid, h.runId_iff hreal]

lemma ToolMirror.runId_ne_empty (h : ToolMirror P g t u) : u.runId ≠ "" := by
  rcases h.key with ⟨hreal, heq⟩ | ⟨_, -, -, hshown⟩
  · rw [heq]
    exact isRealKey_ne_empty hreal
  exact hshown.ne_empty

lemma Mirror.shownTool (h : Mirror P g d s) (ht : d.segments[p]? = some (.tool t)) :
    ∃ u, s.streamingSegments[p]? = some (.tool u) ∧ ToolMirror P g t u := by
  obtain ⟨_, hb, hmirror⟩ := Pointwise.partner h.segments ht
  cases hmirror with
  | tool hmirror => exact ⟨_, hb, hmirror⟩

lemma Mirror.ownTool (h : Mirror P g d s) (hu : s.streamingSegments[p]? = some (.tool u)) :
    ∃ t, d.segments[p]? = some (.tool t) ∧ ToolMirror P g t u := by
  obtain ⟨_, ha, hmirror⟩ := partner_left h.segments hu
  cases hmirror with
  | tool hmirror => exact ⟨_, ha, hmirror⟩

lemma toolAt_eq_some : toolAt segments p = some u ↔ segments[p]? = some (.tool u) := by
  unfold toolAt
  constructor
  · intro h
    obtain ⟨segment, hsegment, htool⟩ := bind_eq_some_iff.1 h
    cases segment with
    | tool =>
      cases htool
      exact hsegment
    | _ => cases htool
  intro h
  rw [h]
  rfl

lemma slot_eq_some {index : Int} : d.slot index = some (p, t) ↔
      d.toolIndices.get? index = some p ∧ d.segments[p]? = some (.tool t) := by
  unfold Stream.slot
  constructor
  · intro h
    obtain ⟨_, hindex, hmap⟩ := bind_eq_some_iff.1 h
    obtain ⟨tool, htool, heq⟩ := map_eq_some_iff.1 hmap
    cases heq
    obtain ⟨segment, hsegment, htool⟩ := bind_eq_some_iff.1 htool
    cases segment with
    | tool =>
      cases htool
      exact ⟨hindex, hsegment⟩
    | _ => cases htool
  rintro ⟨hindex, hsegment⟩
  rw [hindex, bind_some, hsegment]
  rfl

lemma Mirror.find_real (h : Mirror P g d s) {key : String} (hreal : isRealKey key = true)
    (name : Option String) : findToolSegmentIndex s.streamingSegments (some key) name =
      lastIndexWith (fun segment => segment.tool?.any (·.hasKey key)) d.segments := by
  have hkey : truthy (some key) = some key := truthy_eq_some.2 ⟨rfl, isRealKey_ne_empty hreal⟩
  refine (lastIndexWith_congr h.segments ?_).symm
  intro _ _ hab
  unfold toolMatches
  rw [hkey]
  cases hab with
  | tool hmirror => exact (hmirror.hasKey hreal).symm
  | _ => rfl

lemma Mirror.find_building (h : Mirror P g d s) (name : Option String) :
    findToolSegmentIndex s.streamingSegments none name =
      lastIndexWith (fun segment => segment.tool?.any (fun tool =>
        tool.status = .building && (truthy name).all (fun n => tool.name = n))) d.segments := by
  refine (lastIndexWith_congr h.segments ?_).symm
  intro _ _ hab
  unfold toolMatches
  cases hab with
  | tool hmirror =>
    show _ = (_ && ToolCallState.nameFits name _)
    unfold ToolCallState.nameFits
    rw [hmirror.status, hmirror.name]
    rfl
  | _ => rfl

lemma Mirror.find_provisional (horderly : d.Orderly) (h : Mirror P g d s)
    (hslot : d.slot i = some (p, t)) (hu : s.streamingSegments[p]? = some (.tool u))
    (hshown : Provisional g i u.runId) (name : Option String) :
    findToolSegmentIndex s.streamingSegments (some u.runId) name = some p := by
  have hkey : truthy (some u.runId) = some u.runId := truthy_eq_some.2 ⟨rfl, hshown.ne_empty⟩
  refine lastIndexWith_eq hu ?_ ?_
  · unfold toolMatches ToolCallState.hasKey
    rw [hkey]
    simp [Segment.tool?]
  intro q b _ hb
  cases b with
  | tool v =>
    obtain ⟨t', ht', hmirror⟩ := h.ownTool hb
    have hid : v.id ≠ some u.runId := by
      intro heq
      have hown : truthy t'.id = some u.runId := by
        rw [← hmirror.id, truthy_eq_some]
        exact ⟨heq, hshown.ne_empty⟩
      have hreal := horderly.ids q t' ht' _ hown
      rw [hshown.not_real] at hreal
      cases hreal
    have hrun : v.runId ≠ u.runId := by
      intro heq
      rcases hmirror.key with ⟨hreal, hsame⟩ | ⟨_, hindex, hown, hshown'⟩
      · rw [← hsame, heq, hshown.not_real] at hreal
        cases hreal
      -- both stand for one index, which stands for one segment
      rw [heq] at hshown'
      obtain rfl := hshown.index_eq hshown'
      rcases horderly.keys q t' ht' with hreal | ⟨-, -, hplace, -⟩
      · rw [hown, (show Provisional g i (draftKey i) from .inl rfl).not_real] at hreal
        cases hreal
      rw [hindex, (slot_eq_some.1 hslot).1] at hplace
      cases hplace
      omega
    unfold toolMatches ToolCallState.hasKey
    rw [hkey]
    simp [Segment.tool?, hid, hrun]
  | _ => rfl

lemma Mirror.slotKey_some (h : Mirror P g d s) (hi : i ≤ maxSafeInteger)
    (hslot : d.slot i = some (p, t)) :
    ∃ u, s.streamingSegments[p]? = some (.tool u) ∧ ToolMirror P g t u ∧
      s.slotKey i = some u.runId := by
  obtain ⟨u, hu, hmirror⟩ := h.shownTool (slot_eq_some.1 hslot).2
  refine ⟨u, hu, hmirror, ?_⟩
  rw [h.keys i hi, hslot, bind_some, toolAt_eq_some.2 hu]
  rfl

lemma Mirror.slotKey_none (h : Mirror P g d s) (hi : i ≤ maxSafeInteger)
    (hslot : d.slot i = none) : s.slotKey i = none := by
  rw [h.keys i hi, hslot]
  rfl

lemma Mirror.find_slot (horderly : d.Orderly) (h : Mirror P g d s) (h' : Mirror P g d s')
    {u' : ToolCallState} (hslot : d.slot i = some (p, t))
    (hu : s.streamingSegments[p]? = some (.tool u))
    (hu' : s'.streamingSegments[p]? = some (.tool u')) (hmirror : ToolMirror P g t u)
    (hmirror' : ToolMirror P g t u') (name : Option String) :
    findToolSegmentIndex s.streamingSegments (some u.runId) name =
      findToolSegmentIndex s'.streamingSegments (some u'.runId) name := by
  obtain ⟨_, ht', _⟩ := horderly.slots i p (slot_eq_some.1 hslot).1
  rw [(slot_eq_some.1 hslot).2] at ht'
  cases ht'
  have hmadeUp : ∀ j : Nat, isRealKey (draftKey j) = false :=
    fun j => (show Provisional g j (draftKey j) from .inl rfl).not_real
  rcases hmirror.key with ⟨hreal, heq⟩ | ⟨j, _, hown, hshown⟩
  · rcases hmirror'.key with ⟨-, heq'⟩ | ⟨j', -, hown', -⟩
    · rw [heq, heq', h.find_real hreal, h'.find_real hreal]
    rw [hown', hmadeUp] at hreal
    cases hreal
  rcases hmirror'.key with ⟨hreal', -⟩ | ⟨j', _, -, hshown'⟩
  · rw [hown, hmadeUp] at hreal'
    cases hreal'
  obtain rfl : j = i := by omega
  obtain rfl : j' = j := by omega
  rw [h.find_provisional horderly hslot hu hshown, h'.find_provisional horderly hslot hu' hshown']

lemma deltaTarget_without_id {name : Option String} (h : truthy callId = none) :
    s.deltaTarget index callId name =
      (findToolSegmentIndex s.streamingSegments (s.slotKey index) none).or
        (findToolSegmentIndex s.streamingSegments none name) := by
  unfold deltaTarget
  rw [h]
  dsimp only [orElse_none]
  cases hfind : findToolSegmentIndex s.streamingSegments (s.slotKey index) none with
  | _ => rfl

lemma deltaTarget_with_id {name : Option String} {id : String} (h : truthy callId = some id) :
    s.deltaTarget index callId name =
      (findToolSegmentIndex s.streamingSegments (some id) none).or
        ((s.slotKey index).bind
          (fun key => findToolSegmentIndex s.streamingSegments (some key) none)) := by
  unfold deltaTarget
  rw [h]
  dsimp only [orElse_some]
  cases hid : findToolSegmentIndex s.streamingSegments (some id) none with
  | some => rfl
  | none =>
    cases hkey : s.slotKey index with
    | none => rfl
    | some key =>
      dsimp only [bind_some]
      cases findToolSegmentIndex s.streamingSegments (some key) none <;> rfl

lemma Mirror.deltaTarget_eq (horderly : d.Orderly) (h : Mirror P g d s) (h' : Mirror P g d s')
    (hindex : index ≤ maxSafeInteger) (hid : ∀ id, truthy callId = some id → isRealKey id = true)
    (name : Option String) :
    s.deltaTarget index callId name = s'.deltaTarget index callId name := by
  have hbuilding : findToolSegmentIndex s.streamingSegments none name =
      findToolSegmentIndex s'.streamingSegments none name := by
    rw [h.find_building, h'.find_building]
  have hany : findToolSegmentIndex s.streamingSegments none none =
      findToolSegmentIndex s'.streamingSegments none none := by
    rw [h.find_building, h'.find_building]
  cases hslot : d.slot index with
  | none =>
    have hkey := h.slotKey_none hindex hslot
    have hkey' := h'.slotKey_none hindex hslot
    cases hcall : truthy callId with
    | none => rw [deltaTarget_without_id hcall, deltaTarget_without_id hcall, hkey, hkey', hany, hbuilding]
    | some id =>
      have hreal := hid id hcall
      rw [deltaTarget_with_id hcall, deltaTarget_with_id hcall, hkey, hkey', h.find_real hreal,
        h'.find_real hreal]
      rfl
  | some slot =>
    obtain ⟨_, _⟩ := slot
    obtain ⟨_, hu, hmirror, hkey⟩ := h.slotKey_some hindex hslot
    obtain ⟨_, hu', hmirror', hkey'⟩ := h'.slotKey_some hindex hslot
    have hfind := h.find_slot horderly h' hslot hu hu' hmirror hmirror' none
    cases hcall : truthy callId with
    | none =>
      rw [deltaTarget_without_id hcall, deltaTarget_without_id hcall, hkey, hkey', hfind, hbuilding]
    | some id =>
      have hreal := hid id hcall
      rw [deltaTarget_with_id hcall, deltaTarget_with_id hcall, hkey, hkey', h.find_real hreal,
        h'.find_real hreal, bind_some, bind_some, hfind]

lemma Mirror.startTarget_eq (horderly : d.Orderly) (h : Mirror P g d s) (h' : Mirror P g d s')
    (index : Option Nat) (hindex : ∀ i, index = some i → i ≤ maxSafeInteger) (name : String) :
    s.startTarget index name = s'.startTarget index name := by
  have hbuilding : findToolSegmentIndex s.streamingSegments none (some name) =
      findToolSegmentIndex s'.streamingSegments none (some name) := by
    rw [h.find_building, h'.find_building]
  unfold startTarget
  cases index with
  | none =>
    dsimp only [bind_none]
    rw [hbuilding]
  | some i =>
    have hi := hindex i rfl
    dsimp only [bind_some]
    cases hslot : d.slot i with
    | none =>
      rw [h.slotKey_none hi hslot, h'.slotKey_none hi hslot, hbuilding]
    | some slot =>
      obtain ⟨_, _⟩ := slot
      obtain ⟨_, hu, hmirror, hkey⟩ := h.slotKey_some hi hslot
      obtain ⟨_, hu', hmirror', hkey'⟩ := h'.slotKey_some hi hslot
      rw [hkey, hkey', h.find_slot horderly h' hslot hu hu' hmirror hmirror', hbuilding]

/-! ## The browser that gets the draft -/

lemma asIndex_eq_some {index : Int} {n : Nat} :
    asIndex index = some n ↔ index = n ∧ n ≤ maxSafeInteger := by
  cases index with
  | ofNat k =>
    unfold asIndex
    dsimp only
    by_cases hk : k ≤ maxSafeInteger
    · rw [if_pos hk, some.injEq]
      constructor
      · rintro rfl
        exact ⟨rfl, hk⟩
      rintro ⟨heq, -⟩
      exact Int.ofNat.inj heq
    rw [if_neg hk]
    constructor
    · intro h
      cases h
    rintro ⟨heq, hn⟩
    obtain rfl := Int.ofNat.inj heq
    exact absurd hn hk
  | negSucc =>
    constructor
    · intro h
      cases h
    rintro ⟨heq, -⟩
    cases heq

def seen (P : Payloads) (d : Stream) : ConversationState P where
  sessionId := none
  phase := .streaming
  streamingSegments := normalizeSegments d.segments
  toolCallKeysByIndex := keysOfSegments (normalizeSegments d.segments)

lemma Mirror.congr (h : Mirror P g d s) (hsegments : s'.streamingSegments = s.streamingSegments)
    (hkeys : s'.toolCallKeysByIndex = s.toolCallKeysByIndex) : Mirror P g d s' where
  segments := hsegments ▸ h.segments
  keys := by
    intro i hi
    have hslot : s'.slotKey i = s.slotKey i := by
      unfold slotKey
      rw [hkeys]
    rw [hslot, hsegments]
    exact h.keys i hi

def shown : Segment ToolDraft → Segment ToolCallState
  | .text content => .text content
  | .reasoning content => .reasoning content
  | .tool tool => .tool
      { id := tool.id
        index := asIndex tool.index
        runId := tool.runId
        name := tool.name
        args := tool.args
        status := tool.status
        result := tool.result }

lemma normalizeSegments_eq {segments : List (Segment ToolDraft)}
    (h : ∀ t, .tool t ∈ segments → t.runId ≠ "") : normalizeSegments segments = segments.map shown := by
  unfold normalizeSegments
  induction segments with
  | nil => rfl
  | cons segment rest ih =>
    have hrest := ih (fun t ht => h t (mem_cons_of_mem _ ht))
    have hhead : normalizeSegment segment = some (shown segment) := by
      cases segment with
      | tool t =>
        unfold normalizeSegment normalizeToolState
        dsimp only
        rw [if_neg (h t mem_cons_self)]
        rfl
      | _ => rfl
    rw [filterMap_cons_some hhead, hrest, map_cons]

lemma lastIndexWith_concat {α : Type} (p : α → Bool) (l : List α) (a : α) :
    lastIndexWith p (l ++ [a]) = if p a then some l.length else lastIndexWith p l := by
  induction l with
  | nil =>
    show (if p a then some 0 else none) = _
    rfl
  | cons b rest ih =>
    rw [cons_append]
    unfold lastIndexWith
    rw [ih]
    by_cases ha : p a = true
    · rw [if_pos ha, if_pos ha]
      rfl
    rw [if_neg ha, if_neg ha]

lemma get?_keysOfSegments_concat (front : List (Segment ToolCallState))
    (segment : Segment ToolCallState) (i : Nat) : (keysOfSegments (front ++ [segment])).get? i =
      ((segment.tool?.filter (fun tool => tool.index = some i)).map (·.runId)).or
        ((keysOfSegments front).get? i) := by
  unfold keysOfSegments
  rw [filterMap_append, foldl_append]
  cases segment with
  | tool tool =>
    show _ = (((some tool).filter (fun tool => decide (tool.index = some i))).map (·.runId)).or _
    dsimp only [filterMap_cons, filterMap_nil, Segment.tool?, foldl_cons, foldl_nil]
    rw [filter_some]
    cases hindex : tool.index with
    | none => rfl
    | some j =>
      dsimp only
      by_cases hj : j = i
      · subst hj
        rw [Dict.get?_set_self, if_pos (by simp)]
        rfl
      rw [Dict.get?_set_ne _ _ hj, if_neg (by simpa using hj)]
      rfl
  | _ => rfl

lemma get?_keysOfSegments (segments : List (Segment ToolCallState)) (i : Nat) :
    (keysOfSegments segments).get? i =
      (lastIndexWith (fun segment => segment.tool?.any (fun tool => tool.index = some i))
        segments).bind (fun p => (toolAt segments p).map (·.runId)) := by
  induction segments using List.reverseRecOn with
  | nil => rfl
  | append_singleton front segment ih =>
    -- a position in the front part has the same tool
    have hfront : ((lastIndexWith (fun segment => segment.tool?.any (fun tool => tool.index = some i))
        front).bind (fun p => (toolAt front p).map (·.runId))) =
        (lastIndexWith (fun segment => segment.tool?.any (fun tool => tool.index = some i))
          front).bind (fun p => (toolAt (front ++ [segment]) p).map (·.runId)) := by
      cases hlast : lastIndexWith (fun segment : Segment ToolCallState =>
          segment.tool?.any (fun tool => tool.index = some i)) front with
      | none => rfl
      | some p =>
        obtain ⟨_, ha, -⟩ := lastIndexWith_has hlast
        have hlt : p < front.length := (List.getElem?_eq_some_iff.1 ha).1
        show (toolAt front p).map _ = (toolAt (front ++ [segment]) p).map _
        unfold toolAt
        rw [getElem?_append_left hlt]
    rw [get?_keysOfSegments_concat, lastIndexWith_concat, ih, hfront]
    cases htool : segment.tool? with
    | none => rfl
    | some tool =>
      have hat : toolAt (front ++ [segment]) front.length = some tool := by
        cases segment with
        | tool =>
          cases htool
          exact toolAt_eq_some.2 (by simp)
        | _ => cases htool
      rw [filter_some, any_some]
      by_cases hi : tool.index = some i
      · rw [if_pos (by simpa using hi), if_pos (by simpa using hi), bind_some, hat]
        rfl
      rw [if_neg (by simpa using hi), if_neg (by simpa using hi)]
      rfl

lemma Stream.Orderly.runId_ne_empty (h : d.Orderly) {q : Nat}
    (ht : d.segments[q]? = some (.tool t)) : t.runId ≠ "" := by
  rcases h.keys q t ht with hreal | ⟨-, -, -, i, -, -, hkey⟩
  · exact isRealKey_ne_empty hreal
  rw [hkey]
  exact (show Provisional none i (draftKey i) from .inl rfl).ne_empty

lemma Stream.Orderly.last_shown (h : d.Orderly)
    (hsegments : List.Forall₂ (SegmentMirror P g) d.segments segments) (hi : i ≤ maxSafeInteger) :
    lastIndexWith (fun segment => segment.tool?.any (fun tool => tool.index = some i)) segments =
      (d.slot i).map (·.1) := by
  cases hslot : d.slot i with
  | none =>
    rw [map_none, lastIndexWith_none]
    intro q b hb
    obtain ⟨a, ha, hmirror⟩ := partner_left hsegments hb
    cases hmirror with
    | @tool t u hmirror =>
      have hne : u.index ≠ some i := by
        intro heq
        rw [hmirror.index] at heq
        obtain ⟨hindex, -⟩ := asIndex_eq_some.1 heq
        obtain ⟨p, -, hplace⟩ := h.latest q t ha
        rw [hindex] at hplace
        obtain ⟨t', ht', -⟩ := h.slots i p hplace
        rw [slot_eq_some.2 ⟨hplace, ht'⟩] at hslot
        cases hslot
      simpa [Segment.tool?] using hne
    | _ => rfl
  | some slot =>
    obtain ⟨p, t⟩ := slot
    obtain ⟨hplace, ht⟩ := slot_eq_some.1 hslot
    obtain ⟨t', ht', hindex⟩ := h.slots i p hplace
    rw [ht] at ht'
    cases ht'
    obtain ⟨b, hb, hmirror⟩ := Pointwise.partner hsegments ht
    cases hmirror with
    | @tool t u hmirror =>
      refine lastIndexWith_eq hb ?_ ?_
      · have hshown : u.index = some i := by
          rw [hmirror.index]
          exact asIndex_eq_some.2 ⟨hindex, hi⟩
        simpa [Segment.tool?] using hshown
      intro q _ hq hc
      obtain ⟨a, ha, hmirror'⟩ := partner_left hsegments hc
      cases hmirror' with
      | @tool t' u' hmirror' =>
        -- a later one would be the index's own
        have hlater : p < q := hq
        have hne : u'.index ≠ some i := by
          intro heq
          rw [hmirror'.index] at heq
          obtain ⟨hindex', -⟩ := asIndex_eq_some.1 heq
          obtain ⟨_, _, hplace'⟩ := h.latest q t' ha
          rw [hindex', hplace] at hplace'
          cases hplace'
          omega
        simpa [Segment.tool?] using hne
      | _ => rfl

lemma seen_mirror (h : d.Orderly) : Mirror P g d (seen P d) := by
  have hmap : (seen P d).streamingSegments = d.segments.map shown := by
    refine normalizeSegments_eq (fun t ht => ?_)
    obtain ⟨q, hq⟩ := mem_iff_getElem?.1 ht
    exact h.runId_ne_empty hq
  have hsegments : List.Forall₂ (SegmentMirror P g) d.segments (seen P d).streamingSegments := by
    rw [hmap]
    refine of_map (fun q segment hq => ?_)
    cases segment with
    | text content => exact .text content
    | reasoning content => exact .reasoning content
    | tool t =>
      refine .tool ⟨rfl, rfl, rfl, .inl rfl, fun _ => rfl, rfl, rfl, ?_⟩
      rcases h.keys q t hq with hreal | ⟨-, -, -, i, -, hindex, hkey⟩
      · exact .inl ⟨hreal, rfl⟩
      exact .inr ⟨i, hindex, hkey, .inl hkey⟩
  refine ⟨hsegments, fun i hi => ?_⟩
  have hget : (seen P d).slotKey i = truthy ((lastIndexWith (fun segment : Segment ToolCallState =>
      segment.tool?.any (fun tool => tool.index = some i)) (seen P d).streamingSegments).bind
        (fun p => (toolAt (seen P d).streamingSegments p).map (·.runId))) :=
    congrArg truthy (get?_keysOfSegments _ i)
  rw [hget, h.last_shown hsegments hi]
  cases hslot : d.slot i with
  | none => rfl
  | some slot =>
    obtain ⟨p, t⟩ := slot
    have ht := (slot_eq_some.1 hslot).2
    have hshown : (seen P d).streamingSegments[p]? = some (shown (.tool t)) := by
      rw [hmap, getElem?_map, ht]
      rfl
    rw [map_some, bind_some, bind_some, toolAt_eq_some.2 hshown]
    exact truthy_eq_some.2 ⟨rfl, h.runId_ne_empty ht⟩

end DeterminFlow.Web
