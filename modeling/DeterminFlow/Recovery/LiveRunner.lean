/-
  Recovery.LiveRunner
  **RECOVERING A TASK THAT IS RUNNING.**

  `_recover_task` takes the control lock and reads the file; unlike the retry
  timer and the node operations it never looks at `_running_tasks`.  The
  supervisor repeats the hand-off call when it fails, so a pass may meet a
  task that the pass before it has resumed.
-/
import DeterminFlow.Recovery.Manager

namespace DeterminFlow.Recovery

open Library Workflow DeterminFlow.Runtime Manager List Option

/-! ## Passes over a live task -/

def passedOver (executor : Option ExecutorIdentity) (task : StoredTask) : Bool :=
  executor.any (fun identity => task.executorId != some identity.executorId
    || task.executorEpoch != some identity.epoch)

/-- Something happens to a task with a live runner. -/
inductive LiveEvent where
  /-- A pass of `recover_workflow_tasks`, or of one executor generation.
  `landing` is what the writing thread of the runner puts on disk after the
  pass has read the task. -/
  | pass (R : RecoveryEnv) (executor : Option ExecutorIdentity) (landing : Option StoredTask)
  /-- The runner writes the task file. -/
  | write (task : StoredTask)

def passSaves (M : Manager) (R : RecoveryEnv) (executor : Option ExecutorIdentity) : Bool :=
  M.ownerEnabled && M.disk.any (fun task => !passedOver executor task
    && recoverableStatus task.status && (recoverTask R task).isSome)

def land (M : Manager) (landing : Option StoredTask) : Manager :=
  { M with disk := landing.or M.disk }

def LiveEvent.fire (M : Manager) : LiveEvent → Manager
  | .pass R executor landing =>
    if passSaves M R executor then M.recoverPass R executor
    else land (M.recoverPass R executor) landing
  | .write task => M.save task

def recorded (disk : Option StoredTask) : Option (TaskStatus × Dict String NodeExecutionState) :=
  disk.map (fun task => (task.status, task.nodeStates))

lemma fire_pass (M : Manager) (R : RecoveryEnv) (executor : Option ExecutorIdentity)
    (landing : Option StoredTask) : (LiveEvent.pass R executor landing).fire M
      = if passSaves M R executor then M.recoverPass R executor
        else land (M.recoverPass R executor) landing := rfl

def PassKeeps (M : Manager) (R : RecoveryEnv) (executor : Option ExecutorIdentity)
    (landing : Option StoredTask) : Prop :=
  recorded ((LiveEvent.pass R executor landing).fire M).disk = recorded (landing.or M.disk)

def Untouched : Manager → List LiveEvent → Prop
  | _, [] => True
  | M, event :: rest =>
    (∀ R executor landing, event = .pass R executor landing → PassKeeps M R executor landing)
      ∧ Untouched (event.fire M) rest

/-! ## When a pass keeps the task -/

/-- Recovery raises on the task: it has no definition, or one of its nodes is
to be retried at a time that cannot be computed. -/
def RecoveryRaises (R : RecoveryEnv) (task : StoredTask) : Prop :=
  ∀ d, taskDefinition R task = some d →
    ∃ entry ∈ task.nodeStates, closeNode R d entry.1 entry.2 = none

/-- The file of a task at rest: nothing interrupted, every scheduled retry
timed, and the status the one recovery would give it. -/
structure AtRest (R : RecoveryEnv) (task : StoredTask) : Prop where
  calm : ∀ entry ∈ task.nodeStates, entry.2.calm
  timed : ∀ entry ∈ task.nodeStates, entry.2.status = .retryWaiting → hasValidTime R entry.2 = true
  status : task.status = .resumePending ∨ (task.status = .retryWaiting
    ∧ resumeRequested task.status task.nodeStates = false
    ∧ someNode .retryWaiting task.nodeStates = true)

/-- The pass does not reach the task, raises on it, or finds it at rest and
nothing else lands before it saves. -/
def Harmless (M : Manager) (R : RecoveryEnv) (executor : Option ExecutorIdentity)
    (landing : Option StoredTask) : Prop :=
  ∀ task, M.disk = some task → M.ownerEnabled = true → recoverableStatus task.status = true →
    passedOver executor task = false →
    RecoveryRaises R task ∨ (AtRest R task ∧ ∀ late, landing = some late →
      late.status = task.status ∧ late.nodeStates = task.nodeStates)

def AllHarmless : Manager → List LiveEvent → Prop
  | _, [] => True
  | M, event :: rest =>
    (∀ R executor landing, event = .pass R executor landing → Harmless M R executor landing)
      ∧ AllHarmless (event.fire M) rest

def NoneLands (events : List LiveEvent) : Prop :=
  ∀ R executor landing, LiveEvent.pass R executor landing ∈ events → landing = none

/-! ## The node states -/

variable {d : WorkflowDef} {R : RecoveryEnv} {states : Dict String NodeExecutionState} {M : Manager}
  {task : StoredTask} {executor : Option ExecutorIdentity}

lemma recoveredStates_eq_none_iff :
    recoveredStates R d states = none ↔ ∃ entry ∈ states, closeNode R d entry.1 entry.2 = none := by
  rw [recoveredStates_eq]
  refine ⟨?_, ?_⟩
  · intro hnone
    by_contra hall
    have hsome : ∀ entry ∈ states, ∃ value, closeNode R d entry.1 entry.2 = some value := by
      intro entry hmem
      rw [← ne_none_iff_exists']
      intro hentry
      exact hall ⟨entry, hmem, hentry⟩
    obtain ⟨_, hout⟩ := Dict.exists_mapValues? hsome
    rw [hnone] at hout
    cases hout
  intro h
  obtain ⟨entry, hmem, hentry⟩ := h
  cases hout : states.mapValues? (closeNode R d) with
  | none => rfl
  | some =>
    obtain ⟨_, hv⟩ := Dict.exists_of_mapValues? hout hmem
    rw [hentry] at hv
    cases hv

lemma recoveredStates_self_iff :
    recoveredStates R d states = some states ↔ (∀ entry ∈ states, entry.2.calm)
      ∧ ∀ entry ∈ states, entry.2.status = .retryWaiting → hasValidTime R entry.2 = true := by
  rw [recoveredStates_eq]
  refine ⟨?_, ?_⟩
  · intro h
    have hentries : ∀ entry ∈ states, entry.2.calm
        ∧ (entry.2.status = .retryWaiting → hasValidTime R entry.2 = true) := by
      intro entry hmem
      obtain ⟨_, _, hs⟩ := Dict.mem_of_mapValues? h hmem
      obtain ⟨t, ht, htimed⟩ := map_eq_some_iff.1 hs
      obtain ⟨_, hcalm, _, hvalid⟩ := failUntimed_spec R t
      rw [← htimed]
      exact ⟨hcalm (passNode_spec ht).1, hvalid⟩
    exact ⟨fun entry hmem => (hentries entry hmem).1, fun entry hmem => (hentries entry hmem).2⟩
  intro h
  obtain ⟨hcalm, htimed⟩ := h
  apply Dict.mapValues?_self
  intro entry hmem
  unfold closeNode
  rw [passNode_of_calm (hcalm entry hmem), map_some]
  unfold failUntimed
  rw [if_neg]
  intro hbad
  rw [htimed entry hmem hbad.1] at hbad
  cases hbad.2

/-! ## One pass -/

lemma runTask_live (hlive : M.running = true) : M.runTask.1.success = false := by
  by_cases howner : M.ownerEnabled = true
  · cases hdisk : M.disk with
    | none =>
      unfold runTask
      rw [if_neg (by simp [howner]), hdisk]
    | some task =>
      rw [runTask_eq howner hdisk]
      have hrunning : (settleOwner M task).2.running = true :=
        (settleOwner_spec M task).2.2.2.2.1.trans hlive
      have hrefused : (settleOwner M task).2.startRefusal (settleOwner M task).1 ≠ none := by
        unfold startRefusal
        rw [hrunning]
        split
        · simp
        split
        · simp
        split
        · simp
        split
        all_goals simp
      cases hrefusal : (settleOwner M task).2.startRefusal (settleOwner M task).1 with
      | none => exact absurd hrefusal hrefused
      | some => exact startRefusal_fails hrefusal
  unfold runTask
  rw [if_pos (by simpa using howner)]
  rfl

lemma runTask_running (hlive : M.running = true) : M.runTask.2.running = true := by
  by_cases howner : M.ownerEnabled = true
  · cases hdisk : M.disk with
    | none =>
      unfold runTask
      rw [if_neg (by simp [howner]), hdisk]
      exact hlive
    | some task =>
      rw [runTask_eq howner hdisk]
      split
      · exact (settleOwner_spec M task).2.2.2.2.1.trans hlive
      rfl
  unfold runTask
  rw [if_pos (by simpa using howner)]
  exact hlive

lemma recorded_of_persisted {N : Manager} (h : M.persisted = N.persisted) :
    recorded M.disk = recorded N.disk := by
  have hmap := congrArg (Option.map (fun x : TaskStatus × Dict String NodeExecutionState
    × Dict String ConditionState × Dict String LoopCursor => (x.1, x.2.1))) h
  unfold persisted at hmap
  rw [Option.map_map, Option.map_map] at hmap
  exact hmap

lemma recover_live (hlive : M.running = true) (hdisk : M.disk = some task)
    (hstatus : recoverableStatus task.status = true) (R : RecoveryEnv) : recorded (M.recover R).disk
      = match recoverTask R task with
        | none => some (task.status, task.nodeStates)
        | some (_, task') => some (task'.status, task'.nodeStates) := by
  unfold recover
  rw [hdisk]
  simp only [hstatus]
  rw [if_neg (by simp)]
  cases hrecover : recoverTask R task with
  | none =>
    show recorded M.disk = _
    rw [hdisk]
    rfl
  | some out =>
    obtain ⟨action, task'⟩ := out
    cases action with
    | resume => exact recorded_of_persisted (runTask_refused (runTask_live (M := M.save task') hlive))
    | _ => rfl

lemma recoverTask_of_raises (h : RecoveryRaises R task)
    (hstatus : recoverableStatus task.status = true) (action : RecoveryAction)
    (task' : StoredTask) : recoverTask R task ≠ some (action, task') := by
  intro hout
  unfold recoverTask at hout
  split at hout
  · rename_i hother
    rw [hstatus] at hother
    cases hother
  cases hdef : taskDefinition R task with
  | none =>
    rw [hdef] at hout
    cases hout
  | some d =>
    rw [hdef, bind_some, recoveredStates_eq_none_iff.2 (h d hdef)] at hout
    cases hout

lemma decideTask_status_iff (R : RecoveryEnv) (hstatus : recoverableStatus task.status = true) :
    (decideTask R task).2.status = task.status ↔ task.status = .resumePending
      ∨ (task.status = .retryWaiting ∧ resumeRequested task.status task.nodeStates = false
        ∧ someNode .retryWaiting task.nodeStates = true) := by
  unfold decideTask
  by_cases hresume : resumeRequested task.status task.nodeStates = false
  · have hnotPending : task.status ≠ .resumePending := by
      intro hpending
      unfold resumeRequested at hresume
      rw [hpending] at hresume
      simp at hresume
    by_cases hwaiting : someNode .retryWaiting task.nodeStates = true
    · rw [if_pos ⟨hresume, hwaiting⟩]
      show TaskStatus.retryWaiting = task.status ↔ _
      refine ⟨fun h => .inr ⟨h.symm, hresume, hwaiting⟩, ?_⟩
      intro h
      rcases h with h | h
      · exact absurd h hnotPending
      exact h.1.symm
    rw [if_neg (fun h => hwaiting h.2)]
    have hneither : ¬ (task.status = .resumePending ∨ (task.status = .retryWaiting
        ∧ resumeRequested task.status task.nodeStates = false
        ∧ someNode .retryWaiting task.nodeStates = true)) := by
      intro h
      rcases h with h | h
      · exact hnotPending h
      exact hwaiting h.2.2
    refine ⟨?_, fun h => absurd h hneither⟩
    intro h
    exfalso
    split at h
    · have hfailed : task.status = .failed := h.symm
      rw [hfailed] at hstatus
      cases hstatus
    exact hnotPending h.symm
  rw [if_neg (fun h => hresume h.1), if_neg (fun h => hresume h.1)]
  show TaskStatus.resumePending = task.status ↔ _
  refine ⟨fun h => .inl h.symm, ?_⟩
  intro h
  rcases h with h | h
  · exact h.symm
  exact absurd h.2.1 hresume

lemma recoverTask_keeps_iff (R : RecoveryEnv) (hstatus : recoverableStatus task.status = true) :
    (∀ action task', recoverTask R task = some (action, task') →
      task'.status = task.status ∧ task'.nodeStates = task.nodeStates)
      ↔ RecoveryRaises R task ∨ AtRest R task := by
  unfold recoverTask
  rw [if_neg (by simp [hstatus])]
  cases hdef : taskDefinition R task with
  | none =>
    rw [bind_none]
    constructor
    · intro _
      left
      intro d hd
      rw [hdef] at hd
      cases hd
    intro _ action task' h
    cases h
  | some d =>
    rw [bind_some]
    cases hstates : recoveredStates R d task.nodeStates with
    | none =>
      rw [map_none]
      constructor
      · intro _
        left
        intro _ hd'
        rw [hdef] at hd'
        rw [← some.inj hd']
        exact recoveredStates_eq_none_iff.1 hstates
      intro _ action task' h
      cases h
    | some states =>
      rw [map_some]
      have hnotRaises : ¬ RecoveryRaises R task := by
        intro hraises
        have hnone := recoveredStates_eq_none_iff.2 (hraises d hdef)
        rw [hstates] at hnone
        cases hnone
      have hnodes := nodeStates_decideTask R { task with nodeStates := states }
      have hstays : states = task.nodeStates →
          ((decideTask R { task with nodeStates := states }).2.status = task.status
            ↔ task.status = .resumePending ∨ (task.status = .retryWaiting
              ∧ resumeRequested task.status task.nodeStates = false
              ∧ someNode .retryWaiting task.nodeStates = true)) := by
        intro hsame
        rw [hsame]
        exact decideTask_status_iff R hstatus
      generalize decideTask R { task with nodeStates := states } = decision at *
      obtain ⟨action, decided⟩ := decision
      constructor
      · intro h
        right
        obtain ⟨hsame, hkept⟩ := h action decided rfl
        have hself : states = task.nodeStates := hnodes.symm.trans hkept
        have hstatus' := (hstays hself).1 hsame
        rw [hself] at hstates
        obtain ⟨hcalm, htimed⟩ := recoveredStates_self_iff.1 hstates
        exact ⟨hcalm, htimed, hstatus'⟩
      intro h _ task' hdecided
      have hrest := h.resolve_left hnotRaises
      have hself := (recoveredStates_self_iff (R := R) (d := d)).2 ⟨hrest.calm, hrest.timed⟩
      have hsame : states = task.nodeStates := some.inj (hstates.symm.trans hself)
      have htask : decided = task' := congrArg Prod.snd (some.inj hdecided)
      rw [← htask]
      exact ⟨(hstays hsame).2 hrest.status, hnodes.trans hsame⟩

lemma recoverPass_unsaved (h : passSaves M R executor = false) :
    (M.recoverPass R executor).disk = M.disk := by
  unfold recoverPass
  split
  · rfl
  rename_i howner
  split
  · rfl
  rename_i hscan
  unfold recover
  cases hdisk : M.disk with
  | none => exact hdisk
  | some task =>
    rw [hdisk] at hscan
    unfold passSaves at h
    rw [hdisk] at h
    have hpassed : passedOver executor task = false := by
      unfold passedOver
      simpa using hscan
    have hstops : recoverableStatus task.status = false ∨ recoverTask R task = none := by
      by_cases hstatus : recoverableStatus task.status = false
      · exact .inl hstatus
      right
      simpa [hpassed, howner, hstatus] using h
    simp only
    cases hstops with
    | inl hstatus =>
      rw [if_pos hstatus]
      exact hdisk
    | inr hraises =>
      rw [hraises]
      split
      all_goals exact hdisk

lemma recoverPass_saved (hlive : M.running = true) (h : passSaves M R executor = true) :
    ∃ task action task', M.disk = some task ∧ M.ownerEnabled = true
      ∧ recoverableStatus task.status = true ∧ passedOver executor task = false
      ∧ recoverTask R task = some (action, task')
      ∧ recorded (M.recoverPass R executor).disk = some (task'.status, task'.nodeStates) := by
  unfold passSaves at h
  cases hdisk : M.disk with
  | none =>
    rw [hdisk] at h
    simp at h
  | some task =>
    rw [hdisk] at h
    simp only [any_some, Bool.and_eq_true, Bool.not_eq_true'] at h
    obtain ⟨howner, ⟨hscan, hstatus⟩, hreturns⟩ := h
    obtain ⟨out, hout⟩ := isSome_iff_exists.1 hreturns
    obtain ⟨action, task'⟩ := out
    refine ⟨task, action, task', rfl, howner, hstatus, hscan, hout, ?_⟩
    have hpass : M.recoverPass R executor = M.recover R := by
      unfold recoverPass
      rw [if_neg (by simp [howner]), hdisk, if_neg]
      intro hskip
      have hpassed : passedOver executor task = true := hskip
      rw [hscan] at hpassed
      cases hpassed
    rw [hpass, recover_live hlive hdisk hstatus R, hout]

lemma passKeeps_of_harmless (hlive : M.running = true) {landing : Option StoredTask}
    (h : Harmless M R executor landing) : PassKeeps M R executor landing := by
  unfold PassKeeps
  rw [fire_pass]
  cases hsaves : passSaves M R executor with
  | false =>
    rw [if_neg (by simp)]
    show recorded (landing.or (M.recoverPass R executor).disk) = _
    rw [recoverPass_unsaved hsaves]
  | true =>
    obtain ⟨task, action, task', hdisk, howner, hstatus, hscan, hout, hleft⟩ :=
      recoverPass_saved hlive hsaves
    have hharmless := h task hdisk howner hstatus hscan
    have hkeeps := (recoverTask_keeps_iff R hstatus).2 (hharmless.imp_right And.left)
    obtain ⟨hsame, hnodes⟩ := hkeeps action task' hout
    rw [if_pos rfl, hleft, hsame, hnodes, hdisk]
    cases landing with
    | none => rfl
    | some late =>
      cases hharmless with
      | inl hraises =>
        -- recovery has returned, so it has not raised
        exact absurd hout (recoverTask_of_raises hraises hstatus action task')
      | inr hrest =>
        obtain ⟨hlateStatus, hlateNodes⟩ := hrest.2 late rfl
        show _ = some (late.status, late.nodeStates)
        rw [hlateStatus, hlateNodes]

lemma harmless_of_passKeeps (hlive : M.running = true) (h : PassKeeps M R executor none) :
    Harmless M R executor none := by
  intro task hdisk howner hstatus hscan
  have hkeeps : ∀ action task', recoverTask R task = some (action, task') →
      task'.status = task.status ∧ task'.nodeStates = task.nodeStates := by
    intro action task' hout
    have hsaves : passSaves M R executor = true := by
      unfold passSaves
      rw [hdisk, any_some, howner, hscan, hstatus, hout]
      rfl
    obtain ⟨found, _, found', hfound, _, _, _, hout', hleft⟩ :=
      recoverPass_saved hlive hsaves
    have hsame : found = task := some.inj (hfound.symm.trans hdisk)
    rw [hsame, hout] at hout'
    have hfound' : task' = found' := congrArg Prod.snd (some.inj hout')
    unfold PassKeeps at h
    rw [fire_pass, if_pos hsaves, hleft, hdisk, ← hfound'] at h
    have hpair : (task'.status, task'.nodeStates) = (task.status, task.nodeStates) :=
      some.inj h
    exact ⟨congrArg Prod.fst hpair, congrArg Prod.snd hpair⟩
  have hcases := (recoverTask_keeps_iff R hstatus).1 hkeeps
  refine hcases.imp_right (fun hrest => ⟨hrest, ?_⟩)
  intro _ hlate
  cases hlate

/-! ## Any number of passes -/

lemma fire_live (hlive : M.running = true) (event : LiveEvent) :
    (event.fire M).running = true := by
  cases event with
  | write => exact hlive
  | pass R executor =>
    have hrun : ∀ task, (M.save task).runTask.2.running = true := by
      intro task
      exact runTask_running (M := M.save task) hlive
    have hrecover : (M.recover R).running = true := by
      unfold recover
      cases M.disk with
      | none => exact hlive
      | some =>
        simp only
        split
        · exact hlive
        split
        · exact hlive
        · exact hrun _
        all_goals exact hlive
    have hpass : (M.recoverPass R executor).running = true := by
      unfold recoverPass
      split
      · exact hlive
      split
      · exact hlive
      exact hrecover
    rw [fire_pass]
    split
    all_goals exact hpass

lemma untouched_of_allHarmless (events : List LiveEvent) :
    ∀ M : Manager, M.running = true → AllHarmless M events → Untouched M events := by
  induction events with
  | nil =>
    intro M _ _
    trivial
  | cons event rest ih =>
    intro M hlive hall
    obtain ⟨hfirst, hrest⟩ := hall
    refine ⟨?_, ih _ (fire_live hlive event) hrest⟩
    intro R executor landing hpass
    exact passKeeps_of_harmless hlive (hfirst R executor landing hpass)

lemma allHarmless_of_untouched (events : List LiveEvent) :
    ∀ M : Manager, M.running = true → NoneLands events → Untouched M events →
      AllHarmless M events := by
  induction events with
  | nil =>
    intro M _ _ _
    trivial
  | cons event rest ih =>
    intro M hlive hlands hall
    obtain ⟨hfirst, hrest⟩ := hall
    have hlandsRest : NoneLands rest := fun R executor landing hmem =>
      hlands R executor landing (mem_cons_of_mem _ hmem)
    refine ⟨?_, ih _ (fire_live hlive event) hlandsRest hrest⟩
    intro R executor landing hpass
    have hnone : landing = none := by
      apply hlands R executor
      rw [hpass]
      exact mem_cons_self
    rw [hnone]
    apply harmless_of_passKeeps hlive
    rw [← hnone]
    exact hfirst R executor landing hpass

/-- **Over any run** of passes and writes of the runner the task is left alone
if every pass that meets the live runner is harmless, and only then where no
write lands in the middle of a pass. -/
theorem live_untouched (M : Manager) (hlive : M.running = true) (events : List LiveEvent) :
    (AllHarmless M events → Untouched M events)
      ∧ (NoneLands events → (Untouched M events ↔ AllHarmless M events)) := by
  refine ⟨untouched_of_allHarmless events M hlive, ?_⟩
  intro hlands
  constructor
  · exact allHarmless_of_untouched events M hlive hlands
  exact untouched_of_allHarmless events M hlive

def waitingTask : StoredTask where
  status := .resumePending
  nodeStates := [("a", { nodeId := "a", attemptCount := 1 })]
  snapshotDefinition := some oneNode

theorem waitingTask_untouched : Untouched { disk :=some waitingTask, running := true } [.pass stoppedClock none none] := by
  apply (live_untouched { disk := some waitingTask, running := true } rfl
    [.pass stoppedClock none none]).1
  refine ⟨?_, trivial⟩
  intro _ _ _ hpass
  cases hpass
  intro _ hdisk _ _ _
  cases hdisk
  right
  refine ⟨⟨?_, ?_, .inl rfl⟩, ?_⟩
  · intro entry hmem
    rw [mem_singleton.1 hmem, NodeExecutionState.calm_iff]
    exact ⟨rfl, fun entry hentry => absurd hentry (not_mem_nil)⟩
  · intro entry hmem hwaiting
    rw [mem_singleton.1 hmem] at hwaiting
    cases hwaiting
  intro _ hlate
  cases hlate

def crashedTask : StoredTask where
  status := .running
  nodeStates := [("a", { nodeId := "a" })]
  snapshotDefinition := some oneNode

/-- The hand-off, done twice: the first pass resumes the task, the runner
starts its node, and the second pass marks both failed. -/
theorem secondPass_fails_live : let first :=({ disk := some crashedTask } : Manager).recoverPass stoppedClock none
    let second : LiveEvent := .pass stoppedClock none none
    first.running = true
      ∧ ¬ Untouched first [.write interruptedTask, second]
      ∧ recorded (second.fire ((LiveEvent.write interruptedTask).fire first)).disk
        ≠ recorded (some interruptedTask) := by
  have hdiffers : recorded ((LiveEvent.pass stoppedClock none none).fire
      ((LiveEvent.write interruptedTask).fire
        (({ disk := some crashedTask } : Manager).recoverPass stoppedClock none))).disk
      ≠ recorded (some interruptedTask) := by
    intro hsame
    have hstatus := congrArg (Option.map Prod.fst) hsame
    revert hstatus
    decide +kernel
  refine ⟨by decide +kernel, ?_, hdiffers⟩
  intro huntouched
  exact hdiffers (huntouched.2.1 stoppedClock none none rfl)

end DeterminFlow.Recovery
