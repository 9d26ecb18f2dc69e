/-
  Usage.SessionLedger
  **THE USAGE A SESSION KEEPS TWICE.**

  A model call is entered in the call ledger and added to the cumulative usage
  of its model.  Both are written by one function, under one test, and stored
  and restored apart; aborted streams, compressions and turns put back to
  their checkpoint touch neither.
-/
import DeterminFlow.Library.Runs
import DeterminFlow.Usage.Aggregation

namespace DeterminFlow.Usage.SessionLedger

open Library List Option

/-! ## One call -/

/-- The usage fields of a response, as `_usage_int` reads them. -/
structure Output where
  /-- `response_metadata.token_usage`. -/
  response : TokenKey → Option Nat
  /-- `usage_metadata`. -/
  metadata : TokenKey → Option Nat

/-- `_usage_field`: the first source with a valid value. -/
def usageField (out : Output) (key : TokenKey) : Option Nat := (out.response key).or (out.metadata key)

def missingUsageFields (out : Output) : List TokenKey :=
  [TokenKey.promptTokens, .completionTokens].filter (fun key => (usageField out key).isNone)

/-- `normalized_usage`, with the `call_count` of an entry. -/
def normalizedUsage (out : Output) : Counts
  | .totalTokens => (usageField out .totalTokens).getD
      ((usageField out .promptTokens).getD 0 + (usageField out .completionTokens).getD 0)
  | .callCount => 1
  | key => (usageField out key).getD 0

def usageErrors (out : Output) : List String :=
  let usage := normalizedUsage out
  if !(missingUsageFields out).isEmpty then []
  else
    (if usage .totalTokens ≠ usage .promptTokens + usage .completionTokens then
        ["total_tokens_mismatch"] else [])
      ++ (if usage .promptTokens < usage .cachedTokens then ["cached_tokens_exceed_prompt"] else [])
      ++ (if usage .completionTokens < usage .reasoningTokens then
        ["reasoning_tokens_exceed_completion"] else [])

structure CallEntry where
  callId : String
  runId : Option String
  callIndex : Nat
  provider : String
  model : String
  modelId : String
  counts : Counts
  missing : List TokenKey
  errors : List String

/-- What the session keeps of its usage. -/
structure Ledger where
  sessionId : String
  modelId : Option String
  cumulative : Dict String Counts
  calls : List CallEntry
  llmCallCount : Nat
  /-- `token_usage["llm_call_count"]`, once there was a call. -/
  lastCount : Option Nat

/-- `self.model_id or "unknown"`. -/
def Ledger.modelKey (s : Ledger) : String := orElse (s.modelId.getD "") "unknown"

def Ledger.entry (s : Ledger) (runId : Option String) (out : Output) : CallEntry where
  callId := s.sessionId ++ ":" ++ toString (s.llmCallCount + 1)
  runId := runId.filter (· ≠ "")
  callIndex := s.llmCallCount + 1
  provider := ((splitColon s.modelKey).map (·.1)).getD "unknown"
  model := ((splitColon s.modelKey).map (·.2)).getD s.modelKey
  modelId := s.modelKey
  counts := normalizedUsage out
  missing := missingUsageFields out
  errors := usageErrors out

/-- `_extract_and_broadcast_token_usage`; the estimates may raise once the call
is counted. -/
def Ledger.record (s : Ledger) (runId : Option String) (out : Output) (raises : Bool) : Ledger :=
  if runId.any (fun id => id ≠ "" && s.calls.any (fun call => call.runId == some id)) then s
  else if raises then { s with llmCallCount := s.llmCallCount + 1 }
  else
    let entry := s.entry runId out
    let counted := { s with llmCallCount := s.llmCallCount + 1, lastCount := some (s.llmCallCount + 1) }
    let cumulative := s.cumulative.setDefault entry.modelId zeroUsage
    if s.calls.any (fun call => call.callId == entry.callId) then { counted with cumulative := cumulative }
    else
      { counted with
        calls := s.calls ++ [entry]
        cumulative := cumulative.set entry.modelId
          (addToAggregate ((cumulative.get? entry.modelId).getD zeroUsage) entry.counts) }

/-! ## The session and its file -/

/-- The usage part of the session file; what is empty is left out. -/
structure Stored where
  sessionId : String
  modelId : Option String
  lastCount : Option Nat
  cumulative : Option (Dict String Counts)
  calls : Option (List CallEntry)

def Ledger.toDict (s : Ledger) : Stored where
  sessionId := s.sessionId
  modelId := s.modelId
  lastCount := s.lastCount
  cumulative := if s.cumulative.isEmpty then none else some s.cumulative
  calls := if s.calls.isEmpty then none else some s.calls

def Stored.fromDict (d : Stored) : Ledger where
  sessionId := d.sessionId
  modelId := d.modelId
  cumulative := d.cumulative.getD []
  calls := d.calls.getD []
  llmCallCount := ((d.calls.getD []).map (·.callIndex)).foldl max (d.lastCount.getD 0)
  lastCount := d.lastCount

structure World where
  live : Ledger
  file : Option Stored

inductive Event where
  | usage (runId : Option String) (out : Output) (raises : Bool)
  | setModel (modelId : Option String)
  /-- An aborted stream, a compression, a turn put back to its checkpoint. -/
  | elsewhere
  | save
  | reload

def step (w : World) : Event → Option World
  | .usage runId out raises => some { w with live := w.live.record runId out raises }
  | .setModel modelId => some { w with live := { w.live with modelId := modelId } }
  | .elsewhere => some w
  | .save => some { w with file := some w.live.toDict }
  | .reload => w.file.map (fun d => { w with live := d.fromDict })

def created (sessionId : String) (modelId : Option String) : World where
  live := { sessionId := sessionId, modelId := modelId, cumulative := [], calls := [],
            llmCallCount := 0, lastCount := none }
  file := none

/-! ## The two accounts -/

def entered (calls : List CallEntry) (modelId : String) (key : TokenKey) : Nat :=
  ((calls.filter (fun call => call.modelId == modelId)).map (fun call => call.counts key)).sum

/-- The call ids are distinct, and the accounts agree. -/
structure Kept (cumulative : Dict String Counts) (calls : List CallEntry) : Prop where
  distinct : (calls.map (·.callId)).Nodup
  sums : ∀ modelId key, ((cumulative.get? modelId).getD zeroUsage) key = entered calls modelId key

lemma getD_setDefault (d : Dict String Counts) (modelId other : String) :
    ((d.setDefault modelId zeroUsage).get? other).getD zeroUsage = (d.get? other).getD zeroUsage := by
  unfold Dict.setDefault
  split
  · rfl
  next hnone =>
  rw [Dict.get?_set]
  split
  · next heq =>
    have hget : d.get? other = none := by
      rw [← heq]
      simpa [Dict.has_iff] using hnone
    rw [hget]
    rfl
  rfl

lemma entered_append (calls : List CallEntry) (call : CallEntry) (modelId : String) (key : TokenKey) :
    entered (calls ++ [call]) modelId key
      = entered calls modelId key + if call.modelId = modelId then call.counts key else 0 := by
  unfold entered
  rw [filter_append, map_append, sum_append]
  by_cases h : call.modelId = modelId
  all_goals simp [h]

lemma kept_record {s : Ledger} (h : Kept s.cumulative s.calls) (runId : Option String)
    (out : Output) (raises : Bool) :
    Kept (s.record runId out raises).cumulative (s.record runId out raises).calls := by
  unfold Ledger.record
  split
  · exact h
  split
  · exact h
  simp only
  split
  · exact ⟨h.distinct, fun modelId key => by rw [getD_setDefault]; exact h.sums modelId key⟩
  next hnew =>
    constructor
    · show ((s.calls ++ [s.entry runId out]).map (·.callId)).Nodup
      rw [map_append, nodup_append]
      refine ⟨h.distinct, by simp, ?_⟩
      intro _ hid _ hother heq
      obtain ⟨call, hcall, rfl⟩ := mem_map.1 hid
      have hsame : call.callId = (s.entry runId out).callId := by
        rw [heq]
        simpa using hother
      exact hnew (any_eq_true.2 ⟨call, hcall, by simpa using hsame⟩)
    intro modelId key
    show ((Dict.set _ (s.entry runId out).modelId _).get? modelId).getD zeroUsage key
      = entered (s.calls ++ [s.entry runId out]) modelId key
    rw [entered_append, Dict.get?_set, ← h.sums modelId key]
    by_cases hmodel : (s.entry runId out).modelId = modelId
    · rw [if_pos hmodel, if_pos hmodel]
      show ((Dict.get? _ _).getD zeroUsage) key + _ = _
      rw [getD_setDefault, hmodel]
    rw [if_neg hmodel, if_neg hmodel, getD_setDefault, Nat.add_zero]

lemma fromDict_toDict (s : Ledger) :
    s.toDict.fromDict.cumulative = s.cumulative ∧ s.toDict.fromDict.calls = s.calls := by
  constructor
  · show (if s.cumulative.isEmpty then none else some s.cumulative).getD [] = s.cumulative
    cases s.cumulative <;> rfl
  show (if s.calls.isEmpty then none else some s.calls).getD [] = s.calls
  cases s.calls <;> rfl

def Sound (w : World) : Prop :=
  Kept w.live.cumulative w.live.calls
    ∧ ∀ d ∈ w.file, Kept d.fromDict.cumulative d.fromDict.calls

lemma sound_step {w w' : World} {e : Event} (h : Sound w) (hstep : step w e = some w') : Sound w' := by
  cases e with
  | usage runId out raises =>
    obtain rfl := some.inj hstep
    exact ⟨kept_record h.1 runId out raises, h.2⟩
  | save =>
    obtain rfl := some.inj hstep
    refine ⟨h.1, fun d hd => ?_⟩
    rw [← mem_some.1 hd, (fromDict_toDict w.live).1, (fromDict_toDict w.live).2]
    exact h.1
  | reload =>
    obtain ⟨d, hd, rfl⟩ := map_eq_some_iff.1 hstep
    exact ⟨h.2 d hd, h.2⟩
  | _ =>
    obtain rfl := some.inj hstep
    exact h

def fiveAndTwo : Output where
  response := fun key => if key = .promptTokens then some 5 else none
  metadata := fun key => if key = .completionTokens then some 2 else none

def lostAndMadeAgain : List Event :=
  [.usage (some "r") fiveAndTwo false, .save, .usage (some "r2") fiveAndTwo false, .reload,
    .usage (some "r2") fiveAndTwo false]

end DeterminFlow.Usage.SessionLedger
