/-
  Recovery.Variables
  **SETTING THE VARIABLES OF A TASK.**

  `set_workflow_variable` and `update_task_variables` read the task file,
  change the parameters and write the whole file back.  A runner works on its
  own task in memory, never reads the file again, and writes whole snapshots
  of its own, the last of them from a thread.
-/
import DeterminFlow.Recovery.Manager
import DeterminFlow.Engine.Updates
import DeterminFlow.Engine.Enrichment
import DeterminFlow.Engine.RejectedUpstream

namespace DeterminFlow.Recovery

open Library Coop Workflow DeterminFlow.Runtime List Option Dict
  DeterminFlow.Engine

/-! ## The calls -/

/-- What the calls find besides the task file. -/
structure VariableApi where
  workflowId : String := ""
  taskId : String := ""
  ownerEnabled : Bool := true
  /-- The keys in `task.snapshot_variables`. -/
  knownKeys : List String := []
  hasDefinition : Bool := false
  /-- `_refresh_snapshot_agent_guards` on the candidate values: the message
  of its exception, if it raises. -/
  refresh : Pool → Option String := fun _ => none
  now : Timestamp := ""

/-- What `set_workflow_variable` answers. -/
inductive VariableReply where
  | refused (message : String)
  | updated (key : String) (value : Json) (message : String)

namespace VariableApi

variable (A : VariableApi)

def refreshed (data : TaskData) (values : Pool) : Option String :=
  if (data.status = .pending ∨ data.status = .preRunning) ∧ A.hasDefinition then A.refresh values
  else none

/-- `_save_task` with other parameters. -/
def withValues (data : TaskData) (values : Pool) : TaskData :=
  { data with parameterValues := values, updatedAt := A.now }

/-- **`set_workflow_variable`** on the file it reads: the answer, and the
file it writes. -/
def setWorkflowVariable (file : Option TaskData) (key : String) (value : Json) :
    VariableReply × Option TaskData :=
  if A.ownerEnabled = false then
    (.refused ("工作流 " ++ A.workflowId ++ " 所属扩展未处于运行状态，" ++ "当前仅允许读取历史任务"), none)
  else
    match file with
    | none => (.refused ("任务 " ++ A.taskId ++ " 不存在"), none)
    | some data =>
      if key ∉ A.knownKeys then
        (.refused ("未知变量: " ++ key ++ "，可用变量: " ++ String.intercalate ", "
          (A.knownKeys.dedup.insertionSort (fun a b => codePointLe a b = true))), none)
      else
        let values := data.parameterValues.set key value
        match A.refreshed data values with
        | some message => (.refused message, none)
        | none =>
          (.updated key value ("变量 " ++ key ++ " 已更新为 \"" ++ valueText value ++ "\""),
            some (A.withValues data values))
where
  /-- A value in a message; the values of variables are texts. -/
  valueText : Json → String
    | .str text => text
    | _ => ""

/-- **`update_task_variables`** on the file it reads. -/
def updateTaskVariables (file : Option TaskData) (values : Pool) : Bool × Option TaskData :=
  if A.ownerEnabled = false then (false, none)
  else
    match file with
    | none => (false, none)
    | some data =>
      match A.refreshed data values with
      | some _ => (false, none)
      | none => (true, some (A.withValues data values))

/-- One of the two calls. -/
inductive Call where
  | set (key : String) (value : Json)
  | update (values : Pool)

/-- The file an acknowledged call writes, `none` when it is refused. -/
def written (file : Option TaskData) : Call → Option TaskData
  | .set key value => (A.setWorkflowVariable file key value).2
  | .update values => (A.updateTaskVariables file values).2

def promisedBy (promised : Pool) : Call → Pool
  | .set key value => promised.set key value
  | .update values => values

end VariableApi

/-! ## A task, its runners and the calls -/

/-- The task file, the tasks in memory, and what acknowledged calls have
promised and no node output or later call has overwritten since. -/
structure Shared where
  file : Option TaskData
  runners : List World := []
  promised : Pool := []

namespace Shared

/-- Something happens to the task. -/
inductive Event where
  /-- A runner reads the file and starts. -/
  | start
  /-- A runner makes an update that leaves the parameters alone. -/
  | engine (i : Nat) (after : World)
  /-- An attempt ends and its outputs go to the parameters. -/
  | output (i : Nat) (t : Thread) (node : String) (live : Nat) (previous : NodeExecutionState)
      (result : NodeResult)
  /-- A loop writes its iteration variables to the parameters. -/
  | iteration (i : Nat) (values : Pool)
  | lastSave (i : Nat)
  /-- A runner has ended. -/
  | leave (i : Nat)
  /-- Another operation of the manager, none of which touches the parameters. -/
  | manage (after : TaskData)
  /-- A call; `landing` is what a writing thread puts on disk between its
  reading and its writing of the file. -/
  | call (A : VariableApi) (c : VariableApi.Call) (landing : Option TaskData)

variable (E : Env) (s : Shared)

def view (w : World) : World := { w with disk := s.file }

/-- Runner `i` has come to world `after`. -/
def advance (i : Nat) (after : World) : Shared :=
  { s with file := after.disk, runners := s.runners.set i after }

/-- **What an event leaves.** -/
def Fires : Event → Shared → Prop
  | .start, s' =>
    ∃ data, s.file = some data ∧ s' = { s with runners := s.runners ++ [World.load data] }
  | .engine i after, s' =>
    ∃ w, s.runners[i]? = some w ∧ EngineStep E (s.view w) after
      ∧ after.task.parameterValues = w.task.parameterValues ∧ s' = s.advance i after
  | .output i t node live previous result, s' =>
    ∃ w, s.runners[i]? = some w
      ∧ s' = { s.advance i (finishAttempt t node live previous result (s.view w)) with
          promised := s.promised.filter (fun entry => !result.outputs.has entry.1) }
  | .iteration i values, s' =>
    ∃ w, s.runners[i]? = some w ∧ s' = s.advance i (bindIteration values (s.view w))
  | .lastSave i, s' =>
    ∃ w, s.runners[i]? = some w ∧ s' = s.advance i (saveNow (s.view w))
  | .leave i, s' => s' = { s with runners := s.runners.eraseIdx i }
  | .manage after, s' =>
    (∃ data, s.file = some data ∧ after.parameterValues = data.parameterValues)
      ∧ s' = { s with file := some after }
  | .call A c landing, s' =>
    (∀ data, landing = some data → ∃ w ∈ s.runners, w.writing = some data)
      ∧ s' = match A.written s.file c with
        | none => { s with file := landing.or s.file }
        | some data => { s with file := some data, promised := VariableApi.promisedBy s.promised c }

/-! ## What should hold, and when -/

/-- **What the calls are for**: an attempt that begins sees every promised
value, and a call leaves the node states on disk alone. -/
def Kept : Event → Prop
  | .engine i after =>
    ∀ w, s.runners[i]? = some w → ∀ t node r call,
      after = beginNodeAttempt E t node r call (s.view w) →
      ∀ key value, s.promised.get? key = some value →
        (newAttempt E t node r call (s.view w)).input.get? key = some value
  | .call A c landing =>
    ∀ data, A.written s.file c = some data →
      (landing.or s.file).map (·.nodeStates) = some data.nodeStates
  | _ => True

def Meets : Event → Prop
  | .engine i after =>
    ∀ w, s.runners[i]? = some w → ∀ t (node : WorkflowNode) r call,
      after = beginNodeAttempt E t node r call (s.view w) →
      (w.objects node.id r).freezesInput = true
        ∧ ∀ key, s.promised.has key = true →
          (∀ u ∈ upstreamIds E node.id, (outputsOf w u).get? key = none)
            ∧ (systemVariables E w).get? key = none
  | .iteration _ values => ∀ key, s.promised.has key = true → values.get? key = none
  | .call A c _ => (A.written s.file c).isSome → s.runners = []
  | _ => True

def MeetingRun : Shared → Shared → Prop :=
  Relation.ReflTransGen (fun s s' => ∃ e, s.Fires E e s' ∧ s.Meets E e)

end Shared

/-! ## What the engine does to the file -/

/-- File and writing thread are left alone. -/
structure SameFiles (w w' : World) : Prop where
  disk : w'.disk = w.disk
  writing : w'.writing = w.writing

lemma sameFiles_upsert (w : World) (n : String) (f : NodeExecutionState → NodeExecutionState) :
    SameFiles w (w.upsert n f) := by
  unfold World.upsert World.materialize
  split
  all_goals exact ⟨rfl, rfl⟩

variable {w' w : World} {t : Thread} {E : Env} {s s' : Shared}

lemma sameFiles_flowStep (h : FlowStep w w') : SameFiles w w' := by
  cases h with
  | skip n =>
    have hupsert := sameFiles_upsert w n (fun s =>
      { s with status := .skipped, completedAt := some w.clock, outputs := [] })
    exact ⟨hupsert.disk, hupsert.writing⟩
  | ensure =>
    unfold World.ensureState
    split
    all_goals exact ⟨rfl, rfl⟩
  | merged cid => exact sameFiles_upsert w cid _
  | disabled n => exact sameFiles_upsert w n _
  | finish outcome =>
    cases outcome with
    | none => exact ⟨rfl, rfl⟩
    | some outcome =>
      cases outcome with
      | _ => exact ⟨rfl, rfl⟩
  | _ => exact ⟨rfl, rfl⟩

lemma sameFiles_sequenceStep (h : SequenceStep E t w w') : SameFiles w w' := by
  cases h with
  | skipDisabled n => exact sameFiles_upsert w n _
  | normalize =>
    unfold normalizeStatus
    split
    all_goals exact ⟨rfl, rfl⟩
  | enter n =>
    have hupsert := sameFiles_upsert { w with task := { w.task with currentNodeId := some n } } n
      (fun s => { s with status := .running })
    exact ⟨hupsert.disk, hupsert.writing⟩
  | finish =>
    unfold finishAttempt publishOutputs
    simp only
    split
    all_goals exact ⟨rfl, rfl⟩
  | policy n r next =>
    cases next with
    | _ => exact ⟨rfl, rfl⟩
  | _ => exact ⟨rfl, rfl⟩

/-- What a step may leave on disk and in the writing thread: what was in
either of them, or the parameters in memory. -/
structure FilesFrom (w w' : World) : Prop where
  disk : ∀ data, w'.disk = some data →
    w.disk = some data ∨ w.writing = some data ∨ data.parameterValues = w.task.parameterValues
  writing : ∀ data, w'.writing = some data →
    w.writing = some data ∨ data.parameterValues = w.task.parameterValues

lemma SameFiles.files (h : SameFiles w w') : FilesFrom w w' := by
  constructor
  · intro data hdata
    left
    rw [← h.disk, hdata]
  intro data hdata
  left
  rw [← h.writing, hdata]

lemma filesFrom_land (w : World) : FilesFrom w w.land := by
  unfold World.land
  cases hwriting : w.writing with
  | none => exact SameFiles.files ⟨rfl, rfl⟩
  | some =>
    constructor
    · intro data hdata
      right
      left
      rw [hwriting]
      exact hdata
    intro data hdata
    left
    rw [hwriting]
    exact hdata

lemma filesFrom_release (w : World) : FilesFrom w w.releaseSaveLock := by
  constructor
  · intro data hdata
    exact .inl hdata
  intro data hdata
  cases hdata

lemma parameterValues_snapshot (w : World) :
    w.snapshot.parameterValues = w.task.parameterValues := rfl

lemma filesFrom_snapshot (w : World) : FilesFrom w w.takeSnapshot := by
  constructor
  · intro data hdata
    exact .inl hdata
  intro data hdata
  right
  rw [← some.inj hdata]
  exact parameterValues_snapshot _

lemma filesFrom_saveNow (w : World) : FilesFrom w (saveNow w) := by
  constructor
  · intro data hdata
    right
    right
    rw [← some.inj hdata]
    exact parameterValues_snapshot _
  intro data hdata
  exact .inl hdata

lemma FilesFrom.modifyAttempt (h : FilesFrom w w') (a : Nat) (f : Attempt → Attempt) :
    FilesFrom w (w'.modifyAttempt a f) := ⟨h.disk, h.writing⟩

lemma filesFrom_engineStep (h : EngineStep E w w') : FilesFrom w w' := by
  cases h with
  | flow h => exact (sameFiles_flowStep h).files
  | sequence t h => exact (sameFiles_sequenceStep h).files
  | plugin a x e h =>
    cases h with
    | saveStart => exact (filesFrom_snapshot w).modifyAttempt a _
    | land => exact filesFrom_land w
    | saved => exact (filesFrom_release w).modifyAttempt a _
    | _ => exact SameFiles.files ⟨rfl, rfl⟩
  | idle h =>
    cases h with
    | land => exact filesFrom_land w
    | release => exact filesFrom_release w
    | _ => exact SameFiles.files ⟨rfl, rfl⟩
  | snapshot => exact filesFrom_snapshot w
  | cancel =>
    unfold noteCancelled
    exact SameFiles.files ⟨rfl, rfl⟩

/-! ## The promised values are where they are needed -/

def Agrees (promised pool : Pool) : Prop :=
  ∀ key value, promised.get? key = some value → pool.get? key = some value

lemma Agrees.update {promised pool other : Pool} (h : Agrees promised pool)
    (hother : ∀ key, promised.has key = true → other.get? key = none) :
    Agrees promised (pool.update other) := by
  intro key value hkey
  have hpromised : promised.has key = true := by
    rw [has_iff, hkey]
    rfl
  rw [get?_update_of_not_has pool other (hother key hpromised)]
  exact h key value hkey

/-- The promised values are in the file, in every memory and in every snapshot. -/
structure PromisesHeld (s : Shared) : Prop where
  file : ∀ data, s.file = some data → Agrees s.promised data.parameterValues
  memory : ∀ w ∈ s.runners, Agrees s.promised w.task.parameterValues
  writing : ∀ w ∈ s.runners, ∀ data, w.writing = some data →
    Agrees s.promised data.parameterValues

lemma PromisesHeld.fewer (h : PromisesHeld s) {promised : Pool}
    (hfewer : Agrees promised s.promised) : PromisesHeld { s with promised := promised } := by
  constructor
  · intro data hdata key value hkey
    exact h.file data hdata key value (hfewer key value hkey)
  · intro w hw key value hkey
    exact h.memory w hw key value (hfewer key value hkey)
  intro w hw data hdata key value hkey
  exact h.writing w hw data hdata key value (hfewer key value hkey)

lemma PromisesHeld.advance (h : PromisesHeld s) {i : Nat} {after : World}
    (hw : s.runners[i]? = some w) (hfiles : FilesFrom (s.view w) after)
    (hmemory : Agrees s.promised after.task.parameterValues) :
    PromisesHeld (s.advance i after) := by
  have hmem : w ∈ s.runners := mem_of_getElem? hw
  have hold : ∀ data : TaskData, data.parameterValues = (s.view w).task.parameterValues →
      Agrees s.promised data.parameterValues := by
    intro data hvalues
    rw [hvalues]
    exact h.memory w hmem
  constructor
  · intro data hdata
    rcases hfiles.disk data hdata with hfile | hwriting | hvalues
    · exact h.file data hfile
    · exact h.writing w hmem data hwriting
    exact hold data hvalues
  · intro w' hw'
    cases mem_or_eq_of_mem_set hw' with
    | inl hin => exact h.memory w' hin
    | inr heq =>
      rw [heq]
      exact hmemory
  intro w' hw' data hdata
  cases mem_or_eq_of_mem_set hw' with
  | inl hin => exact h.writing w' hin data hdata
  | inr heq =>
    rw [heq] at hdata
    cases hfiles.writing data hdata with
    | inl hwriting => exact h.writing w hmem data hwriting
    | inr hvalues => exact hold data hvalues

lemma written_spec {A : VariableApi} {file : Option TaskData} {c : VariableApi.Call}
    {data : TaskData} (h : A.written file c = some data) :
    ∃ old, file = some old ∧ data.nodeStates = old.nodeStates
      ∧ ∀ promised, Agrees promised old.parameterValues →
        Agrees (VariableApi.promisedBy promised c) data.parameterValues := by
  cases c with
  | set key value =>
    unfold VariableApi.written VariableApi.setWorkflowVariable at h
    simp only at h
    split at h
    · cases h
    cases file with
    | none => cases h
    | some old =>
      simp only at h
      split at h
      · cases h
      split at h
      · cases h
      rw [← some.inj h]
      refine ⟨old, rfl, rfl, ?_⟩
      intro promised hold k v hkey
      show (old.parameterValues.set key value).get? k = some v
      have hkey' : (promised.set key value).get? k = some v := hkey
      rw [get?_set] at hkey' ⊢
      by_cases hk : key = k
      · rw [if_pos hk] at hkey' ⊢
        exact hkey'
      rw [if_neg hk] at hkey' ⊢
      exact hold k v hkey'
  | update =>
    unfold VariableApi.written VariableApi.updateTaskVariables at h
    simp only at h
    split at h
    · cases h
    cases file with
    | none => cases h
    | some old =>
      simp only at h
      split at h
      · cases h
      rw [← some.inj h]
      exact ⟨old, rfl, rfl, fun _ _ _ _ hkey => hkey⟩

lemma promisesHeld_step {e : Shared.Event} (h : PromisesHeld s) (hfires : s.Fires E e s')
    (hmeets : s.Meets E e) : PromisesHeld s' := by
  cases e with
  | start =>
    obtain ⟨data, hdata, rfl⟩ := hfires
    have hloaded : Agrees s.promised (World.load data).task.parameterValues := h.file data hdata
    constructor
    · exact h.file
    · intro w hw
      cases mem_append.1 hw with
      | inl hin => exact h.memory w hin
      | inr hnew =>
        rw [mem_singleton.1 hnew]
        exact hloaded
    intro w hw data' hdata'
    cases mem_append.1 hw with
    | inl hin => exact h.writing w hin data' hdata'
    | inr hnew =>
      rw [mem_singleton.1 hnew] at hdata'
      cases hdata'
  | engine =>
    obtain ⟨w, hw, hstep, hvalues, rfl⟩ := hfires
    apply h.advance hw (filesFrom_engineStep hstep)
    rw [hvalues]
    exact h.memory w (mem_of_getElem? hw)
  | output i t node live previous result =>
    obtain ⟨w, hw, rfl⟩ := hfires
    have hfewer : Agrees (s.promised.filter (fun entry => !result.outputs.has entry.1))
        s.promised := by
      intro key _ hkey
      rw [get?_filter_keys s.promised (fun key => !result.outputs.has key)] at hkey
      split at hkey
      · exact hkey
      cases hkey
    have hkept := h.fewer hfewer
    have hfiles := filesFrom_engineStep (E := E)
      (.sequence t (.finish (s.view w) node live previous result))
    have hmemory := hkept.memory w (mem_of_getElem? hw)
    refine hkept.advance hw hfiles ?_
    unfold finishAttempt publishOutputs
    simp only
    split
    · apply hmemory.update
      intro key hkey
      rw [has_iff, get?_filter_keys s.promised (fun key => !result.outputs.has key)] at hkey
      by_contra hhas
      have hwrites : result.outputs.has key = true := by
        rw [has_iff, isSome_iff_ne_none]
        exact hhas
      rw [hwrites] at hkey
      cases hkey
    exact hmemory
  | iteration i values =>
    obtain ⟨w, hw, rfl⟩ := hfires
    have hfiles := filesFrom_engineStep (E := E) (.flow (.bind (s.view w) values))
    apply h.advance hw hfiles
    exact (h.memory w (mem_of_getElem? hw)).update hmeets
  | lastSave =>
    obtain ⟨w, hw, rfl⟩ := hfires
    exact h.advance hw (filesFrom_saveNow _) (h.memory w (mem_of_getElem? hw))
  | leave =>
    rw [show s' = _ from hfires]
    constructor
    · exact h.file
    · intro w hw
      exact h.memory w (mem_of_mem_eraseIdx hw)
    intro w hw
    exact h.writing w (mem_of_mem_eraseIdx hw)
  | manage =>
    obtain ⟨⟨data, hdata, hvalues⟩, rfl⟩ := hfires
    constructor
    · intro data' hdata'
      rw [← some.inj hdata', hvalues]
      exact h.file data hdata
    · exact h.memory
    exact h.writing
  | call A c landing =>
    obtain ⟨hlanding, rfl⟩ := hfires
    cases hwritten : A.written s.file c with
    | none =>
      constructor
      · intro data hdata
        cases landing with
        | none => exact h.file data hdata
        | some landed =>
          obtain ⟨w, hw, hwriting⟩ := hlanding landed rfl
          rw [← some.inj hdata]
          exact h.writing w hw landed hwriting
      · exact h.memory
      exact h.writing
    | some =>
      have hidle : s.runners = [] := hmeets (by rw [hwritten]; rfl)
      obtain ⟨old, hold, _, hpromises⟩ := written_spec hwritten
      constructor
      · intro data' hdata'
        rw [← some.inj hdata']
        exact hpromises s.promised (h.file old hold)
      all_goals
        intro w hw
        rw [show s.runners = [] from hidle] at hw
        cases hw

lemma promisesHeld_run (hstart : PromisesHeld s) (hrun : s.MeetingRun E s') :
    PromisesHeld s' := by
  induction hrun with
  | refl => exact hstart
  | tail _ hstep ih =>
    obtain ⟨_, hfires, hmeets⟩ := hstep
    exact promisesHeld_step ih hfires hmeets

/-! ## What attempts see -/

lemma get?_computedInput {nodeId key : String}
    (hupstream : ∀ u ∈ upstreamIds E nodeId, (outputsOf w u).get? key = none)
    (hsystem : (systemVariables E w).get? key = none) :
    (computedInput E w nodeId).get? key = w.task.parameterValues.get? key := by
  unfold computedInput
  rw [get?_update_of_not_has _ _ hsystem, enrichParameterValues_eq, Dict.get?_mergeAll]
  have hnone : (upstreamIds E nodeId).reverse.findSome?
      (fun u => (outputsOf w u).written key) = none := by
    rw [findSome?_eq_none_iff]
    intro u hu
    have hempty := get?_update_of_not_has [] (outputsOf w u)
      (hupstream u (mem_reverse.1 hu))
    unfold Dict.written
    rw [hempty]
    rfl
  rw [hnone]
  rfl

lemma newAttempt_input {node : WorkflowNode} {r : Nat} {call : Call}
    (hfreezes : (w.objects node.id r).freezesInput = true) :
    (newAttempt E t node r call w).input = computedInput E w node.id := by
  have hfresh : ¬ (0 < (w.objects node.id r).attemptCount
      ∧ (w.objects node.id r).nextAttemptTrigger ≠ .initial) := by
    intro hretry
    cases freezesInput_iff.1 hfreezes with
    | inl => omega
    | inr hinitial => exact hretry.2 hinitial
  unfold newAttempt attemptInput
  rw [if_neg hfresh]
  rfl

/-- **Calls made while no runner is in memory keep their promises**: in every
run whose events meet the condition, each attempt that begins sees the values
set before it, and no call takes node states back. -/
theorem variables_kept {E : Env} {s s' s'' : Shared} {e : Shared.Event} (hstart : s.promised = [])
    (hrun : s.MeetingRun E s') (hfires : s'.Fires E e s'') (hmeets : s'.Meets E e) :
    s'.Kept E e := by
  have hnothing : PromisesHeld s := by
    have hagrees : ∀ pool, Agrees s.promised pool := by
      intro pool key value hkey
      rw [hstart] at hkey
      cases hkey
    exact ⟨fun _ _ => hagrees _, fun _ _ => hagrees _, fun _ _ _ _ => hagrees _⟩
  have hheld := promisesHeld_run hnothing hrun
  cases e with
  | engine =>
    intro w hw t node r call hbegin key value hkey
    obtain ⟨hfreezes, hfree⟩ := hmeets w hw t node r call hbegin
    have hpromised : s'.promised.has key = true := by
      rw [has_iff, hkey]
      rfl
    obtain ⟨hupstream, hsystem⟩ := hfree key hpromised
    have hinput : (newAttempt E t node r call (s'.view w)).input
        = computedInput E (s'.view w) node.id := newAttempt_input hfreezes
    have hvalue : (computedInput E (s'.view w) node.id).get? key
        = (s'.view w).task.parameterValues.get? key :=
      get?_computedInput (w := s'.view w) hupstream hsystem
    rw [hinput, hvalue]
    exact hheld.memory w (mem_of_getElem? hw) key value hkey
  | call A c landing =>
    intro data hwritten
    have hidle : s'.runners = [] := hmeets (by rw [hwritten]; rfl)
    obtain ⟨old, hold, hnodes, _⟩ := written_spec hwritten
    have hlands : landing = none := by
      cases landing with
      | none => rfl
      | some landed =>
        obtain ⟨w, hw, _⟩ := hfires.1 landed rfl
        rw [hidle] at hw
        cases hw
    rw [hlands, hold]
    show some old.nodeStates = some data.nodeStates
    rw [hnodes]
  | _ => trivial

/-! ## A call before and a call during a run -/

/-- The variable `version` may be set. -/
def versionApi : VariableApi where
  knownKeys := ["version"]

def setNew : VariableApi.Call := .set "version" (.str "new")

def oldTask : TaskData := { parameterValues := [("version", .str "old")] }

def newTask : TaskData := { parameterValues := [("version", .str "new")] }

def newWorld : World := World.load newTask

def firstCall : Engine.Call where
  order := ["make"]
  index := 0
  message := ""
  outer := none

def startedShared : Shared where
  file := some newTask
  runners := [newWorld]
  promised := [("version", .str "new")]

/-- A call before the start is seen by the first attempt. -/
theorem earlyVariable_seen : startedShared.Kept (plainEnv validated)
      (.engine 0 (beginNodeAttempt (plainEnv validated) .main { id := "make" } 0 firstCall
        (startedShared.view newWorld))) := by
  let first : Shared := { file := some oldTask }
  let called : Shared := { file := some newTask, promised := [("version", .str "new")] }
  have hcall : first.Fires (plainEnv validated) (.call versionApi setNew none) called :=
    ⟨fun _ h => (by cases h), rfl⟩
  have hstart : called.Fires (plainEnv validated) .start startedShared := ⟨newTask, rfl, rfl⟩
  have hrun : first.MeetingRun (plainEnv validated) startedShared :=
    .tail (.single ⟨_, hcall, fun _ => rfl⟩) ⟨_, hstart, trivial⟩
  refine variables_kept (E := plainEnv validated) (s := first) rfl hrun
    (e := .engine 0 (beginNodeAttempt (plainEnv validated) .main { id := "make" } 0 firstCall
      (startedShared.view newWorld)))
    ⟨newWorld, rfl, .sequence .main (.begin _ _ 0 firstCall), rfl, rfl⟩ ?_
  intro w hw _ _ _ call _
  obtain rfl : newWorld = w := some.inj hw
  refine ⟨rfl, ?_⟩
  intro key hkey
  have hversion : key = "version" := by
    rw [has_iff] at hkey
    by_contra hne
    rw [show startedShared.promised = [("version", Json.str "new")] from rfl, get?_cons,
      if_neg (fun h => hne h.symm)] at hkey
    cases hkey
  rw [hversion]
  exact ⟨fun _ _ => rfl, rfl⟩

/-- The runner is in the middle of `make`. -/
def makeRuns : List (Move engineSig) := [proceed .main] ++ save .main

/-- `make` ends, and `check` begins and is saved. -/
def makeEnds : List (Move engineSig) := [finish .main {}] ++ save .main ++ save .main

def withFile (c : Config engineSig Unit) (data : TaskData) : Config engineSig Unit :=
  { c with state := { c.state with disk := some data } }

/-- **A call during a run is lost**: it is acknowledged, the attempt that
begins next sees the old value, and the next checkpoint writes it back. -/
theorem liveVariable_lost :
    ∃ c data d, (engineMachine (plainEnv validated)).Reachable (fun _ _ => True)
        (launch (plainEnv validated) { task := { parameterValues := [("version", .str "old")] } }) c
      ∧ versionApi.written c.state.disk setNew = some data
      ∧ (engineMachine (plainEnv validated)).Reachable (fun _ _ => True) (withFile c data) d
      ∧ versionsSeen "make" c.state = [some "old"]
      ∧ versionsSeen "check" d.state = [some "old"]
      ∧ (d.state.disk.bind (fun data => versionIn data.parameterValues)) = some "old" := by
  have hruns : ((engineMachine (plainEnv validated)).replay 200
      (launch (plainEnv validated) { task := { parameterValues := [("version", .str "old")] } })
      makeRuns).bind (fun c => (versionApi.written c.state.disk setNew).bind (fun data =>
        ((engineMachine (plainEnv validated)).replay 200 (withFile c data) makeEnds).map (fun d =>
          [versionsSeen "make" c.state, versionsSeen "check" d.state,
            [d.state.disk.bind (fun data => versionIn data.parameterValues)]])))
      = some [[some "old"], [some "old"], [some "old"]] := by
    decide +kernel
  obtain ⟨c, hc, hcalled⟩ := bind_eq_some_iff.1 hruns
  obtain ⟨data, hdata, hresumed⟩ := bind_eq_some_iff.1 hcalled
  obtain ⟨d, hd, hafter⟩ := map_eq_some_iff.1 hresumed
  simp only [cons.injEq, and_true] at hafter
  obtain ⟨hmake, hcheck, hdisk⟩ := hafter
  have hany : ∀ (c : Config engineSig Unit), (fun _ _ => True) c (Move.tick (S := engineSig)) :=
    fun _ => trivial
  refine ⟨c, data, d, ?_, hdata, ?_, hmake, hcheck, hdisk⟩
  · exact Machine.reachable_of_replay _ hany (fun _ _ _ => trivial) hc
  exact Machine.reachable_of_replay _ hany (fun _ _ _ => trivial) hd

end DeterminFlow.Recovery
