/-
  Chat.ToolSlots
  **THE SLOTS OF PARALLEL TOOL CALLS.**

  A model response gives one slot for each tool call.  The callback of a tool
  that starts claims a slot: the one with its id, with its index, with its tool
  and arguments, with its tool, or the first that is free.  The callback of its
  end looks for the run of that start by call id, then by its own run id, then
  by name.

  Calls of one tool with equal arguments are told apart by nothing else than
  ids, and the callback of a start need not carry one.
-/
import DeterminFlow.Library.JsonLoad
import DeterminFlow.Library.Runs
import Mathlib.Data.List.Nodup

namespace DeterminFlow.Chat.ToolSlots

open Library JsonText JsonCodec List Dict
open Option (getD_some map_some none_or some.inj some_or)

variable {F : Type}

/-! ## Arguments -/

def insertEntry {α : Type} (entry : String × α) : List (String × α) → List (String × α)
  | [] => [entry]
  | other :: rest => if other.1 < entry.1 then other :: insertEntry entry rest else entry :: other :: rest

mutual

/-- `sort_keys=True`: the entries of every dict in the order of their keys. -/
def sortKeys : PyJson F → PyJson F
  | .list items => .list (sortItems items)
  | .dict entries => .dict (sortEntries entries)
  | .null => .null
  | .bool b => .bool b
  | .int i => .int i
  | .float f => .float f
  | .str s => .str s

def sortItems : List (PyJson F) → List (PyJson F)
  | [] => []
  | x :: rest => sortKeys x :: sortItems rest

def sortEntries : List (String × PyJson F) → List (String × PyJson F)
  | [] => []
  | (key, x) :: rest => insertEntry (key, sortKeys x) (sortEntries rest)

end

def canonicalToolArgs (floats : FloatCodec F) : PyJson F → Text
  | .str s =>
    match loads floats s.toList with
    | some value => dumps floats (sortKeys value)
    | none => s.toList
  | value => dumps floats (sortKeys value)

/-! ## The slots of a response -/

/-- A tool call of the response; a text that is missing is empty. -/
structure OutputCall (F : Type) where
  /-- What `int()` makes of the field `index`, when there is one. -/
  index : Option Int := none
  id : String
  name : String
  args : Option (PyJson F)

/-- A tool call as it was streamed. -/
structure StreamedCall (F : Type) where
  id : String
  name : String
  args : PyJson F

structure Slot (F : Type) where
  index : Int
  id : String
  name : String
  args : PyJson F

/-- `a or b or ""`. -/
def textOr (text : String) (fallback : Option String) : String :=
  if text = "" then fallback.getD "" else text

def buildToolCallSlots (toolCalls : List (OutputCall F)) (streamedCalls : Dict Int (StreamedCall F)) :
    List (Slot F) :=
  let slots := toolCalls.zipIdx.map (fun (call, position) =>
    let index := call.index.getD position
    let streamed := streamedCalls.get? index
    { index := index
      id := textOr call.id (streamed.map (·.id))
      name := textOr call.name (streamed.map (·.name))
      args := call.args.getD ((streamed.map (·.args)).getD (.dict [])) })
  slots ++ (streamedCalls.filter (fun entry => entry.1 ∉ slots.map (·.index))).map (fun entry =>
    { index := entry.1, id := entry.2.id, name := entry.2.name, args := entry.2.args })

/-! ## The callbacks -/

/-- `on_tool_start`. -/
structure ToolStart (F : Type) where
  /-- `tool_call_id` and `call_id` of the event, its data and its metadata. -/
  callIds : List String := []
  /-- What `int()` makes of `tool_call_index` and `index` there. -/
  indices : List (Option Int) := []
  name : String := "unknown"
  input : PyJson F := .dict []
  runId : String := ""

/-- `on_tool_end` and `on_tool_error`. -/
structure ToolEnd where
  toolCallId : String := ""
  name : String := "unknown"
  runId : String := ""

def inputCallId : PyJson F → String
  | .dict entries =>
    match Dict.get? entries "type", Dict.get? entries "id" with
    | some (.str type), some (.str id) => if type = "tool_call" then id else ""
    | _, _ => ""
  | _ => ""

def ToolStart.explicitCallId (e : ToolStart F) : String :=
  (e.callIds.find? (· ≠ "")).getD (inputCallId e.input)

def ToolStart.explicitIndex (e : ToolStart F) : Option Int := e.indices.findSome? id

def ToolStart.toolName (e : ToolStart F) : String := if e.name = "" then "unknown" else e.name

def exactMatch (floats : FloatCodec F) (e : ToolStart F) (slot : Slot F) : Bool :=
  slot.name = e.toolName ∧ canonicalToolArgs floats slot.args = canonicalToolArgs floats e.input

def resolveToolStartSlot (floats : FloatCodec F) (e : ToolStart F) (slots : List (Slot F))
    (claimedIndices : List Int) : Slot F :=
  let candidates := slots.filter (fun slot => slot.index ∉ claimedIndices)
  let byId := if e.explicitCallId = "" then none
    else candidates.find? (fun slot => slot.id = e.explicitCallId)
  let byIndex := e.explicitIndex.bind (fun i => candidates.find? (fun slot => slot.index = i))
  let named := candidates.find? (fun slot => slot.name = e.toolName)
  (byId.or (byIndex.or ((candidates.find? (exactMatch floats e)).or (named.or candidates.head?)))).getD
    { index := claimedIndices.length, id := "", name := e.toolName, args := e.input }

/-- `mapping.pop(key, None)`. -/
def pop {κ ν : Type} [DecidableEq κ] (d : Dict κ ν) (key : κ) : Dict κ ν :=
  d.filter (fun entry => entry.1 ≠ key)

def dropValue (d : Dict String String) (value : String) : Dict String String :=
  d.filter (fun entry => entry.2 ≠ value)

/-- `_resolve_pending_tool_run_id`: the run, and the two mappings after it. -/
def resolvePendingToolRunId (e : ToolEnd) (byCallId byNodeRunId pendingCalls : Dict String String) :
    String × Dict String String × Dict String String :=
  let first := (byCallId.get? e.toolCallId).getD ""
  let second := if first = "" then (byNodeRunId.get? e.runId).getD "" else first
  let byNodeRunId := if first = "" then pop byNodeRunId e.runId else byNodeRunId
  let runId := if second = "" then
      ((pendingCalls.find? (fun entry => entry.2 = e.name)).map (·.1)).getD e.runId
    else second
  (runId, dropValue (pop byCallId e.toolCallId) runId, dropValue byNodeRunId runId)

/-- Ghost: a start of a call, the slot it claimed, and its run. -/
structure Started where
  call : Nat
  slot : Int
  nodeRunId : String
  runId : String
  deriving DecidableEq

structure World (F : Type) where
  slots : List (Slot F)
  claimed : List Int := []
  byCallId : Dict String String := []
  byNodeRunId : Dict String String := []
  /-- `tool_calls_pending`, the name of each run. -/
  pending : Dict String String := []
  started : List Started := []
  /-- Ghost: the calls that ended, and the runs found for them. -/
  ended : List (Nat × String) := []

inductive Event (F : Type) where
  /-- A tool starts for the call of a position; the suffix is the `uuid4`. -/
  | start (call : Nat) (e : ToolStart F) (suffix : String)
  | finish (call : Nat) (e : ToolEnd)

def onToolStart (floats : FloatCodec F) (w : World F) (call : Nat) (e : ToolStart F) (suffix : String) :
    World F :=
  let slot := resolveToolStartSlot floats e w.slots w.claimed
  let runId := if slot.id = "" then e.runId ++ "_" ++ suffix else slot.id
  { w with
    claimed := w.claimed.insert slot.index
    byCallId := if slot.id = "" then w.byCallId else w.byCallId.set slot.id runId
    byNodeRunId := if e.runId = "" then w.byNodeRunId else w.byNodeRunId.set e.runId runId
    pending := w.pending.set runId e.name
    started := { call := call, slot := slot.index, nodeRunId := e.runId, runId := runId } :: w.started }

def onToolEnd (w : World F) (call : Nat) (e : ToolEnd) : World F :=
  let (runId, byCallId, byNodeRunId) :=
    resolvePendingToolRunId e w.byCallId w.byNodeRunId w.pending
  { w with
    byCallId := byCallId
    byNodeRunId := byNodeRunId
    pending := pop w.pending runId
    ended := (call, runId) :: w.ended }

def step (floats : FloatCodec F) (w : World F) : Event F → Option (World F)
  | .start call e suffix =>
    if call < w.slots.length ∧ call ∉ w.started.map (·.call) then
      some (onToolStart floats w call e suffix)
    else none
  | .finish call e =>
    if call ∈ w.started.map (·.call) ∧ call ∉ w.ended.map (·.1) then some (onToolEnd w call e)
    else none

def answered (toolCalls : List (OutputCall F)) (streamedCalls : Dict Int (StreamedCall F)) : World F where
  slots := buildToolCallSlots toolCalls streamedCalls

/-- No slot is claimed twice, every start has the slot of its call, whatever
the order, and every end is matched to its own start. -/
structure Matched (w : World F) : Prop where
  apart : (w.started.map (·.slot)).Nodup
  own : ∀ s ∈ w.started, (w.slots[s.call]?).map (·.index) = some s.slot
  ends : ∀ call runId, (call, runId) ∈ w.ended →
    ∀ s ∈ w.started, s.runId = runId ↔ s.call = call

/-- The start names its call by id or index; or names none and is of the first
call not started yet with its tool and arguments.  The run ids are new. -/
def Names (floats : FloatCodec F) (w : World F) (call : Nat) (own : Slot F) (e : ToolStart F) : Prop :=
  (own.id ≠ "" ∧ e.explicitCallId = own.id)
    ∨ (e.explicitCallId = "" ∧ e.explicitIndex = some own.index)
    ∨ (e.explicitCallId = "" ∧ e.explicitIndex = none ∧ exactMatch floats e own = true
        ∧ ∀ (j : Nat) (other : Slot F), j < call → w.slots[j]? = some other →
            j ∉ w.started.map (·.call) → exactMatch floats e other = false)

/-- The start names its call, the end the call or the run of its start, and
the ids of runs are new. -/
def Meets (floats : FloatCodec F) (w : World F) : Event F → Prop
  | .start call e suffix => ∀ own, w.slots[call]? = some own →
      Names floats w call own e
        ∧ (own.id = "" → e.runId ++ "_" ++ suffix ∉ w.slots.map (·.id)
            ∧ e.runId ++ "_" ++ suffix ∉ w.started.map (·.runId))
        ∧ (e.runId = "" ∨ e.runId ∉ w.started.map (·.nodeRunId))
  | .finish call e => ∀ own, w.slots[call]? = some own →
      (own.id ≠ "" ∧ e.toolCallId = own.id)
        ∨ (e.toolCallId = "" ∧ e.runId ≠ "" ∧ ∃ s ∈ w.started, s.call = call ∧ s.nodeRunId = e.runId)

/-! ## The slot of a start -/

variable {j i call : Nat} {a b : Slot F} {slots : List (Slot F)} {w : World F}
  {floats : FloatCodec F} {e : ToolStart F} {k v r : String} {d : Dict String String}

lemma pos_inj {α β : Type} {l : List α} {f : α → β} (h : (l.map f).Nodup) {a b : α}
    (ha : l[i]? = some a) (hb : l[j]? = some b) (heq : f a = f b) : i = j := by
  have hlt : i < (l.map f).length := by
    rw [length_map]
    exact (List.getElem?_eq_some_iff.1 ha).1
  refine (getElem?_inj hlt h).1 ?_
  rw [getElem?_map, getElem?_map, ha, hb, map_some, map_some, heq]

def DistinctIds (slots : List (Slot F)) : Prop :=
  slots.Pairwise (fun a b => b.id = "" ∨ a.id ≠ b.id)

lemma DistinctIds.earlier (h : DistinctIds slots) (ha : slots[i]? = some a)
    (hb : slots[j]? = some b) (hij : i < j) (hid : b.id ≠ "") : a.id ≠ b.id := by
  obtain ⟨hi, rfl⟩ := List.getElem?_eq_some_iff.1 ha
  obtain ⟨hj, rfl⟩ := List.getElem?_eq_some_iff.1 hb
  exact (pairwise_iff_getElem.1 h i j hi hj hij).resolve_left hid

lemma DistinctIds.pos_inj (h : DistinctIds slots) (ha : slots[i]? = some a)
    (hb : slots[j]? = some b) (hid : b.id ≠ "") (heq : a.id = b.id) : i = j := by
  rcases Nat.lt_trichotomy i j with hlt | hsame | hgt
  · exact absurd heq (h.earlier ha hb hlt hid)
  · exact hsame
  exact absurd heq.symm (h.earlier hb ha hgt (by rw [heq]; exact hid))

lemma find?_candidates {claimed : List Int} {p : Slot F → Bool} {own : Slot F}
    (hown : slots[call]? = some own) (hfree : own.index ∉ claimed) (hp : p own = true)
    (hearlier : ∀ (j : Nat) (other : Slot F), j < call → slots[j]? = some other →
      other.index ∉ claimed → p other = false) :
    (slots.filter (fun slot => slot.index ∉ claimed)).find? p = some own := by
  obtain ⟨hlt, rfl⟩ := List.getElem?_eq_some_iff.1 hown
  rw [find?_filter, find?_eq_some_iff_getElem]
  refine ⟨by simp [hfree, hp], call, hlt, rfl, fun j hj => ?_⟩
  have hget := getElem?_eq_getElem (Nat.lt_trans hj hlt)
  by_cases hclaimed : slots[j].index ∈ claimed
  · simp [hclaimed]
  simp [hearlier j _ hj hget hclaimed]

/-- What holds of the callbacks so far. -/
structure Kept (w : World F) : Prop where
  indices : (w.slots.map (·.index)).Nodup
  ids : DistinctIds w.slots
  claimed : ∀ i, i ∈ w.claimed ↔ i ∈ w.started.map (·.slot)
  own : ∀ s ∈ w.started, ∃ slot, w.slots[s.call]? = some slot ∧ s.slot = slot.index
    ∧ (slot.id ≠ "" → s.runId = slot.id) ∧ (slot.id = "" → s.runId ∉ w.slots.map (·.id))
  once : (w.started.map (·.call)).Nodup
  runs : (w.started.map (·.runId)).Nodup
  filled : ∀ s ∈ w.started, s.runId ≠ ""
  noEmpty : w.byCallId.get? "" = none
  byCall : ∀ s ∈ w.started, s.call ∉ w.ended.map (·.1) → ∀ slot, w.slots[s.call]? = some slot →
    slot.id ≠ "" → w.byCallId.get? slot.id = some s.runId
  byNode : ∀ s ∈ w.started, s.call ∉ w.ended.map (·.1) → s.nodeRunId ≠ "" →
    w.byNodeRunId.get? s.nodeRunId = some s.runId
  ends : ∀ call runId, (call, runId) ∈ w.ended → ∃ s ∈ w.started, s.call = call ∧ s.runId = runId

lemma Kept.free (h : Kept w) {own : Slot F} (hown : w.slots[call]? = some own)
    (hnew : call ∉ w.started.map (·.call)) : own.index ∉ w.claimed := by
  intro hclaimed
  obtain ⟨s, hs, hslot⟩ := mem_map.1 ((h.claimed _).1 hclaimed)
  obtain ⟨_, hget, hindex, -⟩ := h.own s hs
  refine hnew (mem_map.2 ⟨s, hs, ?_⟩)
  exact pos_inj h.indices hget hown (hindex.symm.trans hslot)

lemma resolve_own (h : Kept w) {own : Slot F} (hown : w.slots[call]? = some own)
    (hnew : call ∉ w.started.map (·.call)) (hnames : Names floats w call own e) :
    resolveToolStartSlot floats e w.slots w.claimed = own := by
  have hfree := h.free hown hnew
  unfold resolveToolStartSlot
  rcases hnames with ⟨hid, hcall⟩ | ⟨hcall, hindex⟩ | ⟨hcall, hindex, hexact, hfirst⟩
  · have hfind := find?_candidates (p := fun slot => slot.id = e.explicitCallId) hown hfree (by simp [hcall])
      (fun j other hj hget _ => by simpa [hcall] using h.ids.earlier hget hown hj hid)
    have hne : e.explicitCallId ≠ "" := by rw [hcall]; exact hid
    simp only [if_neg hne, hfind, some_or, getD_some]
  · have hfind := find?_candidates (p := fun slot => slot.index = own.index) hown hfree (by simp)
      (fun j other hj hget _ => by
        have hne : other.index ≠ own.index := fun heq => by
          have := pos_inj h.indices hget hown heq
          omega
        simp [hne])
    simp only [if_pos hcall, hindex, Option.bind_some, hfind, none_or, some_or, getD_some]
  have hfind := find?_candidates (p := exactMatch floats e) hown hfree hexact
    (fun j other hj hget hunclaimed => by
      refine hfirst j other hj hget (fun hstarted => hunclaimed ?_)
      obtain ⟨s, hs, hsj⟩ := mem_map.1 hstarted
      obtain ⟨slot, hslot, hsindex, -⟩ := h.own s hs
      rw [show s.call = j from hsj, hget] at hslot
      obtain rfl := some.inj hslot
      exact (h.claimed _).2 (mem_map.2 ⟨s, hs, hsindex⟩))
  simp only [if_pos hcall, hindex, Option.bind_none, hfind, none_or, some_or, getD_some]

/-! ## The run of an end -/

lemma get?_pop (d : Dict String String) (key k : String) :
    Dict.get? (pop d key) k = if k = key then none else d.get? k := by
  have h := get?_filter_keys d (fun other => decide (other ≠ key)) k
  simp only [ne_eq, decide_not, Bool.not_eq_true', decide_eq_false_iff_not, ite_not] at h
  unfold pop
  simpa using h

lemma get?_dropValue {found : Option String} (h : d.get? k = found) (hne : found ≠ some v) :
    Dict.get? (dropValue d v) k = found := by
  subst h
  induction d with
  | nil => rfl
  | cons entry rest ih =>
    rw [get?_cons] at hne ⊢
    by_cases hkeep : entry.2 = v
    · have hkey : entry.1 ≠ k := by
        rintro hkey
        rw [if_pos hkey, hkeep] at hne
        exact hne rfl
      rw [if_neg hkey] at hne ⊢
      rw [dropValue, filter_cons_of_neg (by simp [hkeep])]
      exact ih hne
    rw [dropValue, filter_cons_of_pos (by simpa using hkeep), get?_cons]
    by_cases hkey : entry.1 = k
    · rw [if_pos hkey, if_pos hkey]
    rw [if_neg hkey] at hne ⊢
    rw [if_neg hkey]
    exact ih hne

lemma resolvePending_spec {e : ToolEnd} {calls nodes : Dict String String}
    (pendings : Dict String String) (hr : r ≠ "") (h : calls.get? e.toolCallId = some r
      ∨ (calls.get? e.toolCallId = none ∧ nodes.get? e.runId = some r)) :
    (resolvePendingToolRunId e calls nodes pendings).1 = r
      ∧ (∀ k x, calls.get? k = some x → x ≠ r →
          (resolvePendingToolRunId e calls nodes pendings).2.1.get? k = some x)
      ∧ (∀ k, calls.get? k = none → (resolvePendingToolRunId e calls nodes pendings).2.1.get? k = none)
      ∧ (∀ k x, nodes.get? k = some x → x ≠ r →
          (resolvePendingToolRunId e calls nodes pendings).2.2.get? k = some x) := by
  have hcalls : ∀ k x, calls.get? k = some x → x ≠ r →
      Dict.get? (dropValue (pop calls e.toolCallId) r) k = some x := by
    intro k x hk hx
    have hkey : k ≠ e.toolCallId := by
      rintro rfl
      rcases h with hcall | hcall
      · exact hx (some.inj (hk.symm.trans hcall))
      exact absurd (hk.symm.trans hcall.1) (by simp)
    exact get?_dropValue (by rw [get?_pop, if_neg hkey, hk]) (by simpa using hx)
  have hnone : ∀ k, calls.get? k = none → Dict.get? (dropValue (pop calls e.toolCallId) r) k = none := by
    intro k hk
    refine get?_dropValue ?_ nofun
    rw [get?_pop, hk]
    split <;> rfl
  unfold resolvePendingToolRunId
  rcases h with hcall | ⟨hcall, hnode⟩
  · simp only [hcall, getD_some, if_neg hr]
    exact ⟨trivial, hcalls, hnone, fun k x hk hx => get?_dropValue hk (by simpa using hx)⟩
  simp only [hcall, hnode, Option.getD_none, getD_some, if_neg hr, if_true]
  refine ⟨trivial, hcalls, hnone, fun k x hk hx => get?_dropValue ?_ (by simpa using hx)⟩
  have hkey : k ≠ e.runId := by
    rintro rfl
    exact hx (some.inj (hk.symm.trans hnode))
  rw [get?_pop, if_neg hkey, hk]

/-! ## One callback -/

/-- The world after a start that claims a slot, with the id of its run. -/
def World.claim (w : World F) (call : Nat) (own : Slot F) (e : ToolStart F) (r : String) : World F :=
  { w with
    claimed := w.claimed.insert own.index
    byCallId := if own.id = "" then w.byCallId else w.byCallId.set own.id r
    byNodeRunId := if e.runId = "" then w.byNodeRunId else w.byNodeRunId.set e.runId r
    pending := w.pending.set r e.name
    started := { call := call, slot := own.index, nodeRunId := e.runId, runId := r } :: w.started }

/-- The id of a run that a start of the slot may have. -/
structure NewRun (w : World F) (own : Slot F) (r : String) : Prop where
  id : own.id ≠ "" → r = own.id
  made : own.id = "" → r ∉ w.slots.map (·.id)
  filled : r ≠ ""
  fresh : r ∉ w.started.map (·.runId)

lemma Kept.newRun (h : Kept w) {own : Slot F} {made : String} (hown : w.slots[call]? = some own)
    (hnew : call ∉ w.started.map (·.call)) (hmade : made ≠ "")
    (hfresh : own.id = "" → made ∉ w.slots.map (·.id) ∧ made ∉ w.started.map (·.runId)) :
    NewRun w own (if own.id = "" then made else own.id) := by
  by_cases hempty : own.id = ""
  · rw [if_pos hempty]
    exact { id := fun hne => absurd hempty hne, made := fun _ => (hfresh hempty).1, filled := hmade
            fresh := (hfresh hempty).2 }
  rw [if_neg hempty]
  refine { id := fun _ => rfl, made := fun hid => absurd hid hempty, filled := hempty, fresh := ?_ }
  -- a run id that is the id of a slot is of the start of that slot
  intro hmem
  obtain ⟨s, hs, hsid⟩ := mem_map.1 hmem
  obtain ⟨slot, hget, -, hslotId, hslotMade⟩ := h.own s hs
  by_cases hslot : slot.id = ""
  · refine hslotMade hslot ?_
    rw [show s.runId = own.id from hsid]
    exact mem_map.2 ⟨own, mem_of_getElem? hown, rfl⟩
  have hsame := h.ids.pos_inj hget hown hempty ((hslotId hslot).symm.trans hsid)
  exact hnew (mem_map.2 ⟨s, hs, hsame⟩)

lemma kept_claim (h : Kept w) {own : Slot F} (hown : w.slots[call]? = some own)
    (hnew : call ∉ w.started.map (·.call)) (hr : NewRun w own r)
    (hnode : e.runId = "" ∨ e.runId ∉ w.started.map (·.nodeRunId)) : Kept (w.claim call own e r) := by
  refine
    { indices := h.indices, ids := h.ids, claimed := ?claimed, own := ?own, once := ?once, runs := ?runs
      filled := ?filled, noEmpty := ?noEmpty, byCall := ?byCall, byNode := ?byNode, ends := ?ends }
  case claimed =>
    intro i
    show i ∈ w.claimed.insert own.index ↔ i ∈ own.index :: w.started.map (·.slot)
    rw [mem_insert_iff, mem_cons, h.claimed]
  case own =>
    intro s hs
    rcases mem_cons.1 hs with rfl | hs
    · exact ⟨own, hown, rfl, hr.id, hr.made⟩
    exact h.own s hs
  case once => exact nodup_cons.2 ⟨hnew, h.once⟩
  case runs => exact nodup_cons.2 ⟨hr.fresh, h.runs⟩
  case filled =>
    intro s hs
    rcases mem_cons.1 hs with rfl | hs
    · exact hr.filled
    exact h.filled s hs
  case noEmpty =>
    show Dict.get? (if own.id = "" then w.byCallId else w.byCallId.set own.id r) "" = none
    split
    · exact h.noEmpty
    rw [get?_set_ne _ _ ‹_›]
    exact h.noEmpty
  case byCall =>
    intro s hs hopen slot hget hslot
    show Dict.get? (if own.id = "" then w.byCallId else w.byCallId.set own.id r) slot.id = some s.runId
    rcases mem_cons.1 hs with rfl | hs
    · obtain rfl := some.inj (hown.symm.trans hget)
      rw [if_neg hslot, get?_set_self]
    have hold := h.byCall s hs hopen slot hget hslot
    split
    · exact hold
    rw [get?_set_ne, hold]
    intro heq
    have hsame := h.ids.pos_inj hown hget hslot heq
    exact hnew (mem_map.2 ⟨s, hs, hsame.symm⟩)
  case byNode =>
    intro s hs hopen hne
    show Dict.get? (if e.runId = "" then w.byNodeRunId else w.byNodeRunId.set e.runId r) s.nodeRunId
      = some s.runId
    rcases mem_cons.1 hs with rfl | hs
    · rw [if_neg hne, get?_set_self]
    have hold := h.byNode s hs hopen hne
    split
    · exact hold
    rw [get?_set_ne, hold]
    intro heq
    exact (hnode.resolve_left ‹_›) (mem_map.2 ⟨s, hs, heq.symm⟩)
  case ends =>
    intro ended runId hended
    obtain ⟨s, hs, hsame⟩ := h.ends ended runId hended
    exact ⟨s, mem_cons_of_mem _ hs, hsame⟩

lemma kept_start (h : Kept w) {suffix : String} (hlt : call < w.slots.length)
    (hnew : call ∉ w.started.map (·.call)) (hmeets : Meets floats w (.start call e suffix)) :
    Kept (onToolStart floats w call e suffix) := by
  have hown := getElem?_eq_getElem hlt
  generalize w.slots[call] = own at hown
  obtain ⟨hnames, hfresh, hnode⟩ := hmeets own hown
  have heq : onToolStart floats w call e suffix
      = w.claim call own e (if own.id = "" then e.runId ++ "_" ++ suffix else own.id) := by
    simp only [onToolStart, resolve_own h hown hnew hnames, World.claim]
  have hmade : e.runId ++ "_" ++ suffix ≠ "" := by
    intro hempty
    have hlength := congrArg String.length hempty
    simp at hlength
  rw [heq]
  exact kept_claim h hown hnew (h.newRun hown hnew hmade hfresh) hnode

lemma kept_finish (h : Kept w) {e : ToolEnd} (hstarted : call ∈ w.started.map (·.call))
    (hopen : call ∉ w.ended.map (·.1)) (hmeets : Meets floats w (.finish call e)) :
    Kept (onToolEnd w call e) := by
  obtain ⟨s, hs, rfl⟩ := mem_map.1 hstarted
  obtain ⟨own, hget, -⟩ := h.own s hs
  have hfound : w.byCallId.get? e.toolCallId = some s.runId
      ∨ (w.byCallId.get? e.toolCallId = none ∧ w.byNodeRunId.get? e.runId = some s.runId) := by
    rcases hmeets own hget with ⟨hid, hcall⟩ | ⟨hcall, hne, t, ht, htcall, htnode⟩
    · refine .inl ?_
      rw [hcall]
      exact h.byCall s hs hopen own hget hid
    obtain rfl := inj_on_of_nodup_map h.once ht hs htcall
    refine .inr ⟨by rw [hcall]; exact h.noEmpty, ?_⟩
    rw [← htnode]
    exact h.byNode t hs hopen (by rw [htnode]; exact hne)
  obtain ⟨hrun, hcalls, hnone, hnodes⟩ := resolvePending_spec w.pending (h.filled s hs) hfound
  have hother : ∀ t ∈ w.started, t.call ∉ (s.call :: w.ended.map (·.1)) →
      t.call ∉ w.ended.map (·.1) ∧ t.runId ≠ s.runId := by
    intro t ht hnot
    refine ⟨fun hmem => hnot (mem_cons_of_mem _ hmem), fun heq => hnot ?_⟩
    obtain rfl := inj_on_of_nodup_map h.runs ht hs heq
    exact mem_cons_self
  refine
    { indices := h.indices, ids := h.ids, claimed := h.claimed, own := h.own, once := h.once, runs := h.runs
      filled := h.filled, noEmpty := hnone _ h.noEmpty, byCall := ?byCall, byNode := ?byNode, ends := ?ends }
  case byCall =>
    intro t ht hnot slot hslot hid
    have hpending := hother t ht hnot
    exact hcalls _ _ (h.byCall t ht hpending.1 slot hslot hid) hpending.2
  case byNode =>
    intro t ht hnot hne
    have hpending := hother t ht hnot
    exact hnodes _ _ (h.byNode t ht hpending.1 hne) hpending.2
  case ends =>
    intro ended runId hended
    rcases mem_cons.1 hended with heq | hended
    · exact ⟨s, hs, (congrArg Prod.fst heq).symm, hrun.symm.trans (congrArg Prod.snd heq).symm⟩
    exact h.ends ended runId hended

lemma kept_step {w' : World F} {event : Event F} (h : Kept w) (hmeets : Meets floats w event)
    (hstep : step floats w event = some w') : Kept w' := by
  cases event with
  | start =>
    obtain ⟨hcan, heq⟩ := Option.ite_none_right_eq_some.1 hstep
    obtain rfl := some.inj heq
    exact kept_start h hcan.1 hcan.2 hmeets
  | finish =>
    obtain ⟨hcan, heq⟩ := Option.ite_none_right_eq_some.1 hstep
    obtain rfl := some.inj heq
    exact kept_finish h hcan.1 hcan.2 hmeets

/-! ## The callbacks of a response -/

lemma Kept.matched (h : Kept w) : Matched w where
  apart := by
    refine pairwise_map.2 ((pairwise_map.1 h.once).imp_of_mem ?_)
    intro s t hs ht hne heq
    obtain ⟨_, ha, hsa, -⟩ := h.own s hs
    obtain ⟨_, hb, htb, -⟩ := h.own t ht
    exact hne (pos_inj h.indices ha hb (hsa.symm.trans (heq.trans htb)))
  own := by
    intro s hs
    obtain ⟨_, hget, hslot, -⟩ := h.own s hs
    rw [hget, map_some, hslot]
  ends := by
    intro call runId hended s hs
    obtain ⟨t, ht, rfl, rfl⟩ := h.ends call runId hended
    constructor
    · exact fun heq => congrArg Started.call (inj_on_of_nodup_map h.runs hs ht heq)
    exact fun heq => congrArg Started.runId (inj_on_of_nodup_map h.once hs ht heq)

/-- **Where the slots differ in index and in id, every start names its call, or
is of the first call not started yet with its tool and arguments, and every end
names its call or the run of its start, each start claims the slot of its call,
in any order, and each end is matched to its own start.** -/
theorem callbacks_matched {floats : FloatCodec F} {toolCalls : List (OutputCall F)}
    {streamedCalls : Dict Int (StreamedCall F)} {events : List (Event F)}
    (hindices : ((buildToolCallSlots toolCalls streamedCalls).map (·.index)).Nodup)
    (hids : DistinctIds (buildToolCallSlots toolCalls streamedCalls))
    (halong : Runs.Along (step floats) (Meets floats) (answered toolCalls streamedCalls) events) :
    Runs.Always (step floats) Matched (answered toolCalls streamedCalls) events := by
  have hstart : Kept (answered toolCalls streamedCalls) :=
    { indices := hindices, ids := hids, claimed := fun _ => Iff.rfl, once := nodup_nil
      runs := nodup_nil, noEmpty := rfl
      own := nofun
      filled := nofun
      byCall := nofun
      byNode := nofun
      ends := nofun }
  exact (Runs.always_of_along (fun _ _ _ => kept_step) hstart halong).mono (fun _ => Kept.matched)

def floatless : FloatCodec Bool where
  text _ := []
  ofText _ := false
  nan := false
  inf := false
  negInf := false
  finite _ := false
  text_shape _ h := absurd h Bool.false_ne_true
  ofText_text _ h := absurd h Bool.false_ne_true

def twoLookups : List (OutputCall Bool) :=
  [{ id := "A", name := "lookup", args := some (.dict []) },
    { id := "B", name := "lookup", args := some (.dict []) }]

theorem callbacks_matched_byId : Runs.Always (step floatless) Matched (answered twoLookups [])
      [.start 1 { callIds := ["B"], name := "lookup", runId := "r1" } "",
        .start 0 { callIds := ["A"], name := "lookup", runId := "r0" } "",
        .finish 1 { toolCallId := "B", name := "lookup", runId := "r1" }] := by
  refine callbacks_matched (by decide +kernel) (by unfold DistinctIds; decide +kernel) ?_
  refine (Runs.along_cons_some rfl).2 ⟨fun own hown => ?_, (Runs.along_cons_some rfl).2
    ⟨fun own hown => ?_, (Runs.along_cons_some rfl).2 ⟨fun own hown => ?_, trivial⟩⟩⟩
  · obtain rfl := some.inj hown
    exact ⟨.inl ⟨by decide, rfl⟩, nofun, .inr (by decide +kernel)⟩
  · obtain rfl := some.inj hown
    exact ⟨.inl ⟨by decide, rfl⟩, nofun, .inr (by decide +kernel)⟩
  obtain rfl := some.inj hown
  exact .inl ⟨by decide, rfl⟩

theorem equalCalls_swapped : ∃ w, Runs.run (step floatless) (answered twoLookups [])
        [.start 1 { name := "lookup", runId := "r1" } "", .start 0 { name := "lookup", runId := "r0" } "",
          .finish 1 { toolCallId := "B", name := "lookup", runId := "r1" }] = some w
      ∧ w.started.map (fun s => (s.call, s.slot, s.runId)) = [(0, 1, "B"), (1, 0, "A")]
      ∧ w.ended = [(1, "B")] ∧ ¬ Matched w := by
  refine ⟨_, rfl, by decide +kernel, by decide +kernel, fun h => ?_⟩
  have hown := h.own { call := 1, slot := 0, nodeRunId := "r1", runId := "A" } (by decide +kernel)
  exact absurd hown (by decide +kernel)

end DeterminFlow.Chat.ToolSlots
