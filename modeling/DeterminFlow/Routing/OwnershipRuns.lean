/-
  Routing.OwnershipRuns
  **ONE EXECUTOR FOR EACH TASK.**

  What follows for every run of crashes, respawns, hand-offs, restarts of the
  controller and routed operations.
-/
import DeterminFlow.Routing.OwnershipInvariant

namespace DeterminFlow.Routing

open Library DeterminFlow.Runtime Recovery List Fleet
open Option (bind_eq_some_iff map_eq_some_iff some.inj)

variable {s s' : Fleet} {pool : Pool}

/-! ## What should hold -/

/-- An installation at rest: no controller, no process, and what the controller
executes itself is bound to no executor. -/
structure Fleet.AtRest (s : Fleet) : Prop where
  pool : s.pool = none
  processes : s.waiting = [] ∧ s.live = [] ∧ s.dead = []
  ghosts : s.adopted = [] ∧ s.accepted = []
  inline : ∀ key task, s.tasks.get? key = some task →
    task.mainTakeover = true ∨ task.status = .preRunning →
      task.executorId = none ∨ task.executorId = some "controller"

lemma Fleet.AtRest.sound (h : s.AtRest) : Sound s := by
  obtain ⟨hwaiting, hlive, hdead⟩ := h.processes
  obtain ⟨hadopted, haccepted⟩ := h.ghosts
  constructor
  · constructor
    · rw [hlive]
      exact fun g hmem => absurd hmem not_mem_nil
    · rw [hwaiting]
      exact fun g hmem => absurd hmem not_mem_nil
    · rw [hdead]
      exact fun g hmem => absurd hmem not_mem_nil
    · rw [hadopted]
      exact fun g hmem => absurd hmem not_mem_nil
    intro g hg
    rw [hwaiting, hlive] at hg
    cases hg with
    | inl hmem => exact absurd hmem not_mem_nil
    | inr hmem => exact absurd hmem not_mem_nil
  · constructor
    · intro key task g _ _
      unfold Named
      rw [hwaiting, hlive]
      exact ⟨not_mem_nil, fun hmem => absurd hmem not_mem_nil⟩
    · rw [haccepted]
      exact fun key g hmem => absurd hmem not_mem_nil
    · rw [haccepted]
      exact fun key g task hmem => absurd hmem not_mem_nil
    · rw [haccepted]
      exact fun key g _ hmem => absurd hmem not_mem_nil
    exact h.inline
  intro pool hpool
  rw [h.pool] at hpool
  cases hpool

/-- **What should hold of an event.** -/
structure Kept (s : Fleet) (e : Fleet.Event) (s' : Fleet) : Prop where
  /-- No task is accepted by two live generations. -/
  once : ∀ key g other, (key, g) ∈ s'.accepted → (key, other) ∈ s'.accepted → g ∈ s'.live →
    other ∈ s'.live → g = other
  /-- After a hand-off the reassignable tasks of the executor carry its epoch. -/
  handedOff : ∀ executorId, e = .handedOff executorId → ∃ pool current, s'.pool = some pool
    ∧ pool.identityOf executorId = some current
    ∧ ∀ key task, s'.tasks.get? key = some task → reassignable task.status = true →
      task.executorId = some executorId → task.executorEpoch = some current.epoch
  /-- After a reconciliation each of them is bound to the controller, or to
  exactly one member with its current identity, whose process has served. -/
  reconciled : e = .opened → ∀ pool, s'.pool = some pool → ∀ key task,
    s'.tasks.get? key = some task → reassignable task.status = true →
      task.mainTakeover = true ∨ task.executorId = some "controller"
        ∨ ∃! current, ownerOf task = some current ∧ current.executorId ∈ pool.executorIds
          ∧ pool.identityOf current.executorId = some current
          ∧ (current ∈ s'.live ∨ current ∈ s'.dead)
  /-- A task stays with its executor while that is in the pool. -/
  sticky : ∀ key task task' pool executorId, s.tasks.get? key = some task →
    s'.tasks.get? key = some task' → s'.pool = some pool → executorId ∈ pool.executorIds →
      task.executorId = some executorId → task'.executorId = some executorId

/-! ## Every run -/

variable {task task' : StoredTask} {executorId : String} {e : Fleet.Event}

lemma get?_set_cases {tasks : Dict String StoredTask} {key other : String} {found : StoredTask}
    (h : (tasks.set key task).get? other = some found) :
    (other = key ∧ found = task) ∨ (other ≠ key ∧ tasks.get? other = some found) := by
  rw [Dict.get?_set] at h
  split at h
  · rename_i heq
    exact .inl ⟨heq.symm, (some.inj h).symm⟩
  rename_i hne
  exact .inr ⟨fun heq => hne heq.symm, h⟩

lemma sticky_of_same {key : String} (hget : s.tasks.get? key = some task)
    (hget' : s.tasks.get? key = some task') (hid : task.executorId = some executorId) :
    task'.executorId = some executorId := by
  rw [← some.inj (hget.symm.trans hget')]
  exact hid

lemma tasks_withSupervisor {update : Supervisor → Option Supervisor}
    (hs : s.withSupervisor executorId update = some s') : s'.tasks = s.tasks := by
  obtain ⟨_, _, _, _, _, _, hs'⟩ := withSupervisor_eq_some hs
  rw [hs']

def Fleet.Event.writesFiles : Fleet.Event → Bool
  | .create .. | .delete .. | .edit .. | .route .. | .handOff .. | .opened | .write .. => true
  | _ => false

lemma tasks_step (hs : s.step e = some s') (hquiet : e.writesFiles = false) :
    s'.tasks = s.tasks := by
  unfold Fleet.step at hs
  cases e with
  | create => cases hquiet
  | delete => cases hquiet
  | edit => cases hquiet
  | route => cases hquiet
  | handOff => cases hquiet
  | opened => cases hquiet
  | write => cases hquiet
  | halt => rw [← some.inj hs]
  | retire =>
    obtain ⟨pool, _, hs⟩ := bind_eq_some_iff.1 hs
    split at hs
    · rw [← some.inj hs]
    cases hs
  | supervise =>
    obtain ⟨pool, _, hs⟩ := bind_eq_some_iff.1 hs
    split at hs
    · rw [← some.inj hs]
    cases hs
  | spawn executorId epoch =>
    simp only at hs
    split at hs
    · obtain ⟨_, hnext, hs⟩ := map_eq_some_iff.1 hs
      have hsame := tasks_withSupervisor hnext
      rw [← hs]
      exact hsame
    cases hs
  | exit =>
    simp only at hs
    split at hs
    · rw [← some.inj hs]
    split at hs
    · rw [← some.inj hs]
    cases hs
  | adopt =>
    obtain ⟨pool, _, hs⟩ := bind_eq_some_iff.1 hs
    obtain ⟨_, _, hs⟩ := bind_eq_some_iff.1 hs
    obtain ⟨epoch, _, hs⟩ := bind_eq_some_iff.1 hs
    simp only at hs
    split at hs
    · rw [← some.inj hs]
    cases hs
  | ready =>
    obtain ⟨pool, _, hs⟩ := bind_eq_some_iff.1 hs
    split at hs
    · cases hs
    exact tasks_withSupervisor hs
  | restarting => exact tasks_withSupervisor hs
  | handedOff =>
    obtain ⟨pool, _, hs⟩ := bind_eq_some_iff.1 hs
    split at hs
    · exact tasks_withSupervisor hs
    cases hs
  | deliver =>
    obtain ⟨_, _, hs⟩ := bind_eq_some_iff.1 hs
    split at hs
    · rw [← some.inj hs]
    cases hs
  | _ =>
    simp only at hs
    split at hs
    · rw [← some.inj hs]
    cases hs

lemma Reconciled.sticky (h : Reconciled s pool task task')
    (hmember : (pool.identityOf executorId).isSome) (hid : task.executorId = some executorId) :
    task'.executorId = some executorId := by
  cases h with
  | kept hsame =>
    rw [hsame]
    exact hid
  | taken hnone =>
    rw [hnone] at hid
    cases hid
  | bound current _ howner _ _ _ _ hwhy =>
    cases hwhy with
    | inl hown =>
      rw [(ownerOf_eq_some.1 howner).1, ← hown]
      exact hid
    | inr hnobody =>
      rw [hid] at hnobody
      rw [show pool.identityOf executorId = none from hnobody] at hmember
      cases hmember

lemma sticky_step (h : Sound s) (hs : s.step e = some s') {key : String}
    (hget : s.tasks.get? key = some task) (hget' : s'.tasks.get? key = some task')
    (hpool : s'.pool = some pool) (hmem : executorId ∈ pool.executorIds)
    (hid : task.executorId = some executorId) : task'.executorId = some executorId := by
  by_cases hquiet : e.writesFiles = false
  · rw [tasks_step hs hquiet] at hget'
    exact sticky_of_same hget hget' hid
  unfold Fleet.step at hs
  cases e with
  | create name new =>
    simp only at hs
    split at hs
    · rename_i hguard
      rw [← some.inj hs] at hget'
      obtain ⟨heq, _⟩ | ⟨_, hthen⟩ := get?_set_cases hget'
      · rw [← heq, hget] at hguard
        cases hguard.1
      exact sticky_of_same hget hthen hid
    cases hs
  | delete name =>
    rw [← some.inj hs] at hget'
    have hlook : Dict.get? (s.tasks.filter (fun entry => entry.1 != name)) key = some task' :=
      hget'
    rw [Dict.get?_filter_keys s.tasks (fun other => other != name)] at hlook
    split at hlook
    · exact sticky_of_same hget hlook hid
    cases hlook
  | edit name new =>
    obtain ⟨current, _, hs⟩ := bind_eq_some_iff.1 hs
    obtain ⟨before, hbefore, hs⟩ := bind_eq_some_iff.1 hs
    split at hs
    · rename_i hguard
      rw [← some.inj hs] at hget'
      obtain ⟨heq, hnew⟩ | ⟨_, hthen⟩ := get?_set_cases hget'
      · rw [heq, hbefore] at hget
        rw [← some.inj hget] at hid
        have hedit := hguard.2
        unfold mayEdit at hedit
        simp only [Bool.and_eq_true, Bool.or_eq_true, beq_iff_eq,
          Option.isNone_iff_eq_none] at hedit
        rw [hnew]
        cases hedit.2 with
        | inl hkept =>
          rw [hkept.1.1]
          exact hid
        | inr hassigned =>
          rw [hassigned.1.2] at hid
          cases hid
      exact sticky_of_same hget hthen hid
    cases hs
  | route name =>
    obtain ⟨current, _, hs⟩ := bind_eq_some_iff.1 hs
    obtain ⟨before, hbefore, hs⟩ := bind_eq_some_iff.1 hs
    split at hs
    · rw [← some.inj hs] at hget'
      unfold routeTask at hget'
      split at hget'
      · split at hget'
        · exact sticky_of_same hget hget' hid
        split at hget'
        all_goals exact sticky_of_same hget hget' hid
      rename_i hnone
      split at hget'
      · exact sticky_of_same hget hget' hid
      obtain ⟨heq, _⟩ | ⟨_, hthen⟩ := get?_set_cases hget'
      · rw [heq, hbefore] at hget
        rw [← some.inj hget, hnone] at hid
        cases hid
      exact sticky_of_same hget hthen hid
    cases hs
  | handOff other previousEpoch =>
    obtain ⟨current, _, hs⟩ := bind_eq_some_iff.1 hs
    split at hs
    · obtain ⟨identity, hidentity, hs⟩ := bind_eq_some_iff.1 hs
      obtain ⟨_, hnext, hs⟩ := map_eq_some_iff.1 hs
      rw [← hs] at hget'
      simp only at hget'
      rw [tasks_withSupervisor hnext] at hget'
      obtain ⟨before, hbefore, ⟨hown, _, _, hnew⟩ | ⟨hkept, _⟩⟩ := get?_reassign hget'
      · rw [hget] at hbefore
        rw [← some.inj hbefore, hid] at hown
        rw [hnew]
        show some identity.executorId = some executorId
        rw [(identityOf_eq_some.1 hidentity).1, hown]
      rw [hkept, ← some.inj (hget.symm.trans hbefore)]
      exact hid
    cases hs
  | opened =>
    obtain ⟨current, _, hs⟩ := bind_eq_some_iff.1 hs
    split at hs
    · rename_i hmay
      unfold mayOpen at hmay
      simp only [Bool.and_eq_true, all_eq_true] at hmay
      have hids : pool.executorIds = current.executorIds := by
        rw [← some.inj hs] at hpool
        unfold openPool at hpool
        simp only at hpool
        split at hpool
        · rw [← some.inj hpool]
        cases hpool
      rw [← some.inj hs] at hget'
      rw [hids] at hmem
      obtain ⟨before, hbefore, hreconciled | ⟨hkept, _⟩⟩ := reconcileFiles_spec s.tasks _ hget'
      · rw [hget] at hbefore
        rw [← some.inj hbefore] at hreconciled
        exact hreconciled.sticky (hmay.1.2 executorId hmem) hid
      rw [hkept, ← some.inj (hget.symm.trans hbefore)]
      exact hid
    cases hs
  | write g name new =>
    simp only at hs
    split at hs
    · rename_i hguard
      obtain ⟨hlive, haccepted, howner, _, _⟩ := hguard
      rw [← some.inj hs] at hget'
      obtain ⟨heq, hnew⟩ | ⟨_, hthen⟩ := get?_set_cases hget'
      · rw [heq] at hget
        have hheld := h.files.held name g task haccepted hlive hget
        rw [hnew, (ownerOf_eq_some.1 howner).1, ← (ownerOf_eq_some.1 hheld).1]
        exact hid
      exact sticky_of_same hget hthen hid
    cases hs
  | _ => exact absurd rfl hquiet

lemma opened_owner (hs : s.step .opened = some s') (hpool : s'.pool = some pool) {key : String}
    (hget : s'.tasks.get? key = some task) (hstatus : reassignable task.status = true) :
    task.mainTakeover = true ∨ task.executorId = some "controller"
      ∨ ∃ current, pool.identityOf current.executorId = some current
        ∧ ownerOf task = some current := by
  obtain ⟨before, _, hopened⟩ := bind_eq_some_iff.1 hs
  split at hopened
  · rw [← some.inj hopened] at hget hpool
    unfold openPool at hpool
    simp only at hpool
    split at hpool
    · rename_i hcomplete
      obtain ⟨_, _, hreconciled | ⟨_, hstopped⟩⟩ := reconcileFiles_spec s.tasks _ hget
      · obtain htakeover | hcontroller | ⟨current, hclient, howner⟩ := hreconciled.owner hstatus
        · exact .inl htakeover
        · exact .inr (.inl hcontroller)
        refine .inr (.inr ⟨current, ?_, howner⟩)
        rw [← some.inj hpool]
        exact (identityOf_settled before _ _).trans hclient
      rw [hcomplete] at hstopped
      cases hstopped
    cases hpool
  cases hopened

/-- **In every run** from an installation at rest, whatever crashes, is
respawned, handed over and routed in whatever order. -/
theorem ownership_kept {s₀ : Fleet} {e : Fleet.Event} (hstart : s₀.AtRest)
    (hrun : Fleet.Run s₀ s) (hs : s.step e = some s') : Kept s e s' := by
  have hbefore := sound_run hstart.sound hrun
  have hafter := sound_step hbefore hs
  constructor
  · exact hafter.files.once
  · intro executorId he
    rw [he] at hs
    obtain ⟨pool, hpool, hmarked⟩ := bind_eq_some_iff.1 hs
    split at hmarked
    · rename_i hstarted
      have htasks := tasks_withSupervisor hmarked
      obtain ⟨pool', sup, sup', hpool', hget, hupdate, hs'⟩ := withSupervisor_eq_some hmarked
      have hsame : pool' = pool := some.inj (hpool'.symm.trans hpool)
      rw [hsame] at hget hs'
      have hold := hbefore.pool pool hpool
      have hsome := (hold.opened hstarted).2 executorId (hold.members executorId sup hget)
      obtain ⟨current, hcurrent⟩ := Option.isSome_iff_exists.1 hsome
      obtain ⟨hid, found, hfound, hclient⟩ := identityOf_eq_some.1 hcurrent
      rw [hget] at hfound
      rw [← some.inj hfound] at hclient
      split at hupdate
      · rename_i hset
        have hsup' : sup' = { sup with ready := true } := (some.inj hupdate).symm
        refine ⟨_, current, by rw [hs'], ?_, ?_⟩
        · rw [identityOf_set, if_pos rfl, hsup', hclient, ← hid]
          rfl
        rw [htasks]
        exact hold.settled hstarted executorId sup current.epoch hget hset hclient
      cases hupdate
    cases hmarked
  · intro he pool hpool key task hget hstatus
    rw [he] at hs
    have hserved : ∀ current, pool.identityOf current.executorId = some current →
        current.executorId ∈ pool.executorIds ∧ (current ∈ s'.live ∨ current ∈ s'.dead) := by
      intro current hclient
      obtain ⟨hadopted, _, hmem⟩ := hafter.client_adopted hpool hclient
      exact ⟨hmem, hafter.processes.adopted current hadopted⟩
    obtain htakeover | hcontroller | ⟨current, hclient, howner⟩ := opened_owner hs hpool hget hstatus
    · exact .inl htakeover
    · exact .inr (.inl hcontroller)
    right
    right
    refine ⟨current, ⟨howner, (hserved current hclient).1, hclient, (hserved current hclient).2⟩,
      ?_⟩
    intro other hother
    exact some.inj (hother.1.symm.trans howner)
  intro key task task' pool executorId hget hget' hpool hmem hid
  exact sticky_step hbefore hs hget hget' hpool hmem hid

/-- **The files name who executes**: what a live generation has accepted is its
own in the file, no executor owns what the controller takes over, and no
executor that is no longer in the pool is live. -/
theorem ownership_written {s₀ : Fleet} (hstart : s₀.AtRest) (hrun : Fleet.Run s₀ s) :
    (∀ key g task, (key, g) ∈ s.accepted → g ∈ s.live → s.tasks.get? key = some task →
        ownerOf task = some g)
      ∧ (∀ key task, s.tasks.get? key = some task →
          task.mainTakeover = true ∨ task.status = .preRunning →
            task.executorId = none ∨ task.executorId = some "controller")
      ∧ ∀ pool, s.pool = some pool → ∀ executorId ∈ pool.retired, ∀ g ∈ s.live,
          g.executorId ≠ executorId := by
  have hsound := sound_run hstart.sound hrun
  exact ⟨hsound.files.held, hsound.files.inline, fun pool hpool => (hsound.pool pool hpool).retired⟩

/-! ## Two starts of a pool -/

def Fleet.events : List Fleet.Event → Fleet → Option Fleet
  | [], s => some s
  | e :: rest, s => (s.step e).bind (Fleet.events rest)

lemma Fleet.run_of_events (es : List Fleet.Event) :
    ∀ s s', Fleet.events es s = some s' → Fleet.Run s s' := by
  induction es with
  | nil =>
    intro s s' h
    rw [← some.inj h]
    exact Relation.ReflTransGen.refl
  | cons e rest ih =>
    intro s s' h
    obtain ⟨next, hnext, hrest⟩ := bind_eq_some_iff.1 h
    exact Relation.ReflTransGen.head ⟨e, hnext⟩ (ih next s' hrest)

def leftBehind : Fleet where
  tasks := [("t", { status := .running, executorId := some "workflow-executor-0",
                    executorEpoch := some "before" })]

def worker (index : Nat) (epoch : String) : ExecutorIdentity where
  executorId := "workflow-executor-" ++ toString index
  epoch := epoch

def startWorker (g : ExecutorIdentity) : List Fleet.Event :=
  [.supervise g.executorId, .spawn g.executorId g.epoch, .acquire g, .adopt g.executorId,
    .ready g.executorId]

def coldStart : List Fleet.Event :=
  .launch 2 :: (startWorker (worker 0 "a") ++ startWorker (worker 1 "b"))

def rushedStart : List Fleet.Event :=
  .launch 2 :: (startWorker (worker 0 "a") ++ .exit (worker 0 "a")
    :: .restarting "workflow-executor-0" :: startWorker (worker 1 "b"))

lemma leftBehind_atRest : leftBehind.AtRest := by
  refine ⟨rfl, ⟨rfl, rfl, rfl⟩, ⟨rfl, rfl⟩, ?_⟩
  intro _ _ hget hnow
  have hentry := Dict.mem_of_get? hget
  obtain ⟨_, htask⟩ := Prod.mk.inj (mem_singleton.1 hentry)
  rw [htask] at hnow
  cases hnow with
  | inl htakeover => cases htakeover
  | inr hpre => cases hpre

theorem coldStart_kept : ∃ s s', Fleet.events coldStart leftBehind = some s
    ∧ s.step .opened = some s' ∧ Kept s .opened s'
    ∧ (s'.tasks.get? "t").bind ownerOf = some (worker 0 "a") := by
  have hopens : ((Fleet.events coldStart leftBehind).bind fun s => (s.step .opened).map fun s' =>
      (s'.tasks.get? "t").bind ownerOf) = some (some (worker 0 "a")) := by
    decide +kernel
  obtain ⟨s, hs, hopened⟩ := bind_eq_some_iff.1 hopens
  obtain ⟨s', hs', howner⟩ := map_eq_some_iff.1 hopened
  exact ⟨s, s', hs, hs',
    ownership_kept leftBehind_atRest (run_of_events coldStart _ _ hs) hs', howner⟩

theorem ownership_written_coldStart : ∃ s, Fleet.events coldStart leftBehind = some s
    ∧ ∀ pool, s.pool = some pool → ∀ executorId ∈ pool.retired, ∀ g ∈ s.live,
      g.executorId ≠ executorId := by
  have hruns : (Fleet.events coldStart leftBehind).isSome = true := by
    decide +kernel
  obtain ⟨s, hs⟩ := Option.isSome_iff_exists.1 hruns
  exact ⟨s, hs, (ownership_written leftBehind_atRest (run_of_events coldStart _ _ hs)).2.2⟩

/-- **A task bound to a dead generation**: the reconciliation takes the identity
its client has, and no process has it any more. -/
theorem boundToDead : leftBehind.AtRest ∧ ∃ s s', Fleet.Run leftBehind s
    ∧ s.step .opened = some s' ∧ s'.pool.isSome
    ∧ ¬ ∀ key task, s'.tasks.get? key = some task → reassignable task.status = true →
      task.mainTakeover = true ∨ task.executorId = some "controller"
        ∨ ∃! current, ownerOf task = some current ∧ current ∈ s'.live := by
  have hopens : ((Fleet.events rushedStart leftBehind).bind fun s => (s.step .opened).map fun s' =>
      (s'.pool.isSome, s'.live, (s'.tasks.get? "t").map (fun task =>
        (reassignable task.status && !task.mainTakeover, ownerOf task))))
      = some (true, [worker 1 "b"], some (true, some (worker 0 "a"))) := by
    decide +kernel
  obtain ⟨s, hs, hopened⟩ := bind_eq_some_iff.1 hopens
  obtain ⟨s', hs', hfacts⟩ := map_eq_some_iff.1 hopened
  simp only [Prod.mk.injEq, map_eq_some_iff, Bool.and_eq_true, Bool.not_eq_true'] at hfacts
  obtain ⟨hpool, hlive, task, hget, ⟨hstatus, htakeover⟩, howner⟩ := hfacts
  refine ⟨leftBehind_atRest, s, s', run_of_events rushedStart _ _ hs, hs', hpool, ?_⟩
  intro hclaim
  obtain hyes | hcontroller | ⟨current, ⟨hcurrent, hmem⟩, _⟩ := hclaim "t" task hget hstatus
  · rw [htakeover] at hyes
    cases hyes
  · rw [(ownerOf_eq_some.1 howner).1] at hcontroller
    exact absurd hcontroller (by decide)
  rw [howner] at hcurrent
  rw [hlive, ← some.inj hcurrent] at hmem
  exact absurd hmem (by decide)

end DeterminFlow.Routing
