/-
  Persistence.SessionFile
  **WHEN THE FILE OF A SESSION IS CURRENT.**

  `_flush_to_disk` clears the dirty mark under the save lock and lets a worker
  thread read the session, write its temporary file and put that in place.
  The lock belongs to the awaiting coroutine: a caller that is cancelled marks
  the session dirty again and gives the lock up while its worker goes on, and
  the next flush starts a second worker on the same temporary name.
-/
import DeterminFlow.Library.Runs

namespace DeterminFlow.Persistence

open Library List Option

/-! ## The flushes of one session -/

/-- What a worker reads: the state, with the number of changes before it. -/
structure Stamped (α : Type) where
  version : Nat
  state : α
  deriving DecidableEq

/-- How far `save` has come in its worker thread. -/
inductive Stage (α : Type) where
  | started
  /-- It has serialised what `to_dict` gave. -/
  | read (data : Stamped α)
  /-- It has written the temporary file. -/
  | wrote (data : Stamped α)
  /-- `os.replace` is through. -/
  | done
  | raised
  deriving DecidableEq

def Stage.isRunning {α : Type} : Stage α → Bool
  | .started | .read _ | .wrote _ => true
  | .done | .raised => false

/-- The flush that holds the save lock and its worker. -/
structure Flush where
  call : Nat
  worker : Nat
  deriving DecidableEq

/-- A session, its flushes and its files; ghost: the stamp of its state, and
the versions that were put in place. -/
structure Session (α : Type) where
  state : α
  version : Nat := 0
  dirty : Bool
  calls : Nat := 0
  waiting : List Nat := []
  flush : Option Flush := none
  workers : List (Stage α) := []
  /-- The temporary file, one name for all workers. -/
  tmp : Option (Stamped α) := none
  file : Option (Stamped α)
  saved : List Nat := []
  deriving DecidableEq

def Session.current {α : Type} (s : Session α) : Stamped α := ⟨s.version, s.state⟩

/-- What happens to the session and its flushes. -/
inductive FlushEvent (α : Type) where
  /-- The state changes; `marked` when `async_save` comes with it. -/
  | change (state : α) (marked : Bool)
  /-- `async_save` without `force`. -/
  | mark
  /-- `_flush_to_disk` is called. -/
  | call
  /-- A waiting flush gets the lock. -/
  | acquire (call : Nat)
  /-- A worker takes its next step. -/
  | work (worker : Nat)
  /-- A worker raises. -/
  | fail (worker : Nat)
  /-- The worker of the flush that holds the lock is through. -/
  | resume
  | cancel (call : Nat)
  deriving DecidableEq

section
variable {α : Type}

def Session.at (s : Session α) (i : Nat) (stage : Stage α) : Session α :=
  { s with workers := s.workers.set i stage }

/-- The next step of `save`. -/
def Session.work (s : Session α) (i : Nat) : Option (Session α) :=
  match s.workers[i]? with
  | some .started => some (s.at i (.read s.current))
  | some (.read data) => some { s.at i (.wrote data) with tmp := some data }
  | some (.wrote _) =>
    match s.tmp with
    | some content =>
      some { s.at i .done with
        tmp := none
        file := some content
        saved := s.saved ++ [content.version] }
    -- another worker has put the temporary file in place
    | none => some (s.at i .raised)
  | _ => none

/-- One event; `none` when it cannot happen. -/
def flushStep (s : Session α) : FlushEvent α → Option (Session α)
  | .change state marked =>
    some { s with
      state := state
      version := s.version + 1
      dirty := s.dirty || marked }
  | .mark => some { s with dirty := true }
  | .call => some { s with calls := s.calls + 1, waiting := s.waiting ++ [s.calls] }
  | .acquire call =>
    if s.flush = none ∧ call ∈ s.waiting then
      let s := { s with waiting := s.waiting.erase call }
      if s.dirty = false then some s
      else
        some { s with
          dirty := false
          flush := some { call := call, worker := s.workers.length }
          workers := s.workers ++ [.started] }
    else none
  | .work i => s.work i
  | .fail i =>
    if (s.workers[i]?).any Stage.isRunning then some (s.at i .raised) else none
  | .resume =>
    match s.flush with
    | some flush =>
      match s.workers[flush.worker]? with
      | some .done => some { s with flush := none }
      | some .raised => some { s with flush := none, dirty := true }
      | _ => none
    | none => none
  | .cancel call =>
    if call ∈ s.waiting then some { s with waiting := s.waiting.erase call }
    else
      match s.flush with
      | some flush =>
        -- the executor goes on with the worker
        if flush.call = call then some { s with flush := none, dirty := true } else none
      | none => none

/-! ## The property and the condition -/

def Session.running (s : Session α) : List (Stage α) := s.workers.filter Stage.isRunning

/-- **The flushes are in order**: one worker at a time, the file of a clean
session that is not being flushed is current, and no older state replaces a
newer one. -/
structure Session.Ordered (s : Session α) : Prop where
  alone : s.running.length ≤ 1
  current : s.flush = none → s.dirty = false → s.file = some s.current
  newer : s.saved.Pairwise (· ≤ ·)

/-- **The condition**: a change marks the session, and a flush that finds it
dirty finds no worker of an earlier flush at work. -/
def LeavesNoWorker (s : Session α) : FlushEvent α → Prop
  | .change _ marked => marked = true
  | .acquire _ => s.dirty = true → s.running = []
  | _ => True

/-! ## What every step keeps -/

def Session.Fresh (s : Session α) : Stage α → Prop
  | .started => True
  | .read data => data = s.current
  | .wrote data => data = s.current
  | .done => s.file = some s.current
  | .raised => True

def Session.NotBehind (s : Session α) : Stage α → Prop
  | .started => True
  | .read data => data.version ≤ s.version ∧ ∀ v ∈ s.saved, v ≤ data.version
  | .wrote data =>
    (data.version ≤ s.version ∧ ∀ v ∈ s.saved, v ≤ data.version) ∧ s.tmp = some data
  | _ => True

/-- **The invariant**: only the last worker may be at work; it belongs to the
flush that holds the lock or was left behind; and it is up to date as long as
the session is clean. -/
structure Session.Guarded (s : Session α) : Prop where
  alone : ∀ i stage, s.workers[i]? = some stage → stage.isRunning = true →
    i + 1 = s.workers.length
  newest : ∀ flush, s.flush = some flush → flush.worker + 1 = s.workers.length
  notBehind : ∀ stage ∈ s.workers, s.NotBehind stage
  saved : s.saved.Pairwise (· ≤ ·)
  bounded : ∀ v ∈ s.saved, v ≤ s.version
  idle : s.dirty = false → s.flush = none →
    s.file = some s.current ∧ s.running = []
  busy : s.dirty = false → ∀ flush, s.flush = some flush →
    ∀ stage, s.workers[flush.worker]? = some stage → s.Fresh stage

variable {stage : Stage α} {s s' : Session α} {i : Nat}

lemma mem_running : stage ∈ s.running ↔ stage ∈ s.workers ∧ stage.isRunning = true := by
  unfold Session.running
  exact mem_filter

lemma Session.Guarded.split (h : s.Guarded) (hi : s.workers[i]? = some stage)
    (hrunning : stage.isRunning = true) :
    ∃ earlier, s.workers = earlier ++ [stage] ∧ i = earlier.length ∧
      ∀ other ∈ earlier, other.isRunning = false := by
  have hlen := h.alone i stage hi hrunning
  obtain ⟨_, hget⟩ := List.getElem?_eq_some_iff.1 hi
  have hne : s.workers ≠ [] := ne_nil_of_length_pos (by omega)
  have hlast : s.workers.getLast hne = stage := by
    rw [getLast_eq_getElem, ← hget]
    congr 1
    omega
  refine ⟨s.workers.dropLast, ?_, by simp; omega, ?_⟩
  · rw [← hlast]
    exact (dropLast_append_getLast hne).symm
  intro other hother
  obtain ⟨j, hj⟩ := mem_iff_getElem?.1 hother
  have hjlt := (List.getElem?_eq_some_iff.1 hj).1
  rw [length_dropLast] at hjlt
  rw [getElem?_dropLast, if_pos hjlt] at hj
  by_contra hrun
  have := h.alone j other hj (by simpa using hrun)
  omega

lemma Session.Guarded.ordered (h : s.Guarded) : s.Ordered where
  alone := by
    by_contra hmany
    have hsome : s.running ≠ [] := by
      intro hnil
      rw [hnil] at hmany
      exact hmany (Nat.zero_le _)
    obtain ⟨_, hstage⟩ := exists_mem_of_ne_nil _ hsome
    obtain ⟨hmem, hrunning⟩ := mem_running.1 hstage
    obtain ⟨_, hi⟩ := mem_iff_getElem?.1 hmem
    obtain ⟨earlier, hworkers, -, hearlier⟩ := h.split hi hrunning
    have hnone : earlier.filter Stage.isRunning = [] := by
      rw [filter_eq_nil_iff]
      intro other hother
      rw [hearlier other hother]
      decide
    unfold Session.running at hmany
    rw [hworkers, filter_append, hnone] at hmany
    exact hmany (length_filter_le _ _)
  current := fun hfree hclean => (h.idle hclean hfree).1
  newer := h.saved

lemma running_eq_nil : s.running = [] ↔
      ∀ (i : Nat) (stage : Stage α), s.workers[i]? = some stage → stage.isRunning = false := by
  unfold Session.running
  rw [filter_eq_nil_iff]
  constructor
  · intro h i stage hi
    simpa using h stage (mem_iff_getElem?.2 ⟨i, hi⟩)
  intro h stage hstage
  obtain ⟨i, hi⟩ := mem_iff_getElem?.1 hstage
  simpa using h i stage hi

lemma at_eq {earlier : List (Stage α)} (hworkers : s.workers = earlier ++ [stage])
    (hi : i = earlier.length) (next : Stage α) : s.at i next = { s with workers :=earlier ++ [next] } := by
  subst hi
  unfold Session.at
  rw [hworkers, set_append_right _ _ (Nat.le_refl _)]
  simp

lemma Session.Guarded.advance (h : s.Guarded) {earlier : List (Stage α)} {next : Stage α}
    (hworkers : s.workers = earlier ++ [stage]) (hrunning : stage.isRunning = true)
    (hearlier : ∀ other ∈ earlier, other.isRunning = false)
    (hworkers' : s'.workers = earlier ++ [next]) (hflush : s'.flush = s.flush)
    (hdirty : s'.dirty = s.dirty) (hsaved : s'.saved.Pairwise (· ≤ ·))
    (hbounded : ∀ v ∈ s'.saved, v ≤ s'.version) (hnotBehind : s'.NotBehind next)
    (hfresh : s.Fresh stage → s'.Fresh next) : s'.Guarded where
  alone := by
    intro i other hi hother
    rw [hworkers'] at hi ⊢
    rcases Nat.lt_or_ge i earlier.length with hlt | hge
    · rw [getElem?_append_left hlt] at hi
      have := hearlier other (mem_iff_getElem?.2 ⟨i, hi⟩)
      exact absurd (hother.symm.trans this) (by decide)
    have hlt := (List.getElem?_eq_some_iff.1 hi).1
    simp only [length_append, length_singleton] at hlt ⊢
    omega
  newest := by
    intro flush hold
    rw [hflush] at hold
    have hlen := h.newest flush hold
    rw [hworkers] at hlen
    rw [hworkers']
    simpa using hlen
  notBehind := by
    intro other hother
    rw [hworkers', mem_append, mem_singleton] at hother
    rcases hother with hother | rfl
    · -- the others are through and owe nothing
      have hdone := hearlier other hother
      cases other with
      | done => trivial
      | raised => trivial
      | _ => exact Bool.noConfusion hdone
    exact hnotBehind
  saved := hsaved
  bounded := hbounded
  idle := by
    intro hclean hfree
    rw [hdirty] at hclean
    rw [hflush] at hfree
    -- a clean session without a flush has no worker at work
    have hnone := running_eq_nil.1 (h.idle hclean hfree).2 earlier.length stage (by
      rw [hworkers]
      simp)
    exact absurd (hrunning.symm.trans hnone) (by decide)
  busy := by
    intro hclean flush hold other hother
    rw [hdirty] at hclean
    rw [hflush] at hold
    have hlen := h.newest flush hold
    rw [hworkers, length_append, length_singleton] at hlen
    obtain hindex : flush.worker = earlier.length := by omega
    rw [hworkers', hindex] at hother
    simp only [length_append, length_singleton, Nat.lt_add_one, getElem?_pos,
      getElem_concat_length, some.injEq] at hother
    subst hother
    refine hfresh (h.busy hclean flush hold stage ?_)
    rw [hworkers, hindex]
    simp

lemma Session.Guarded.work (h : s.Guarded) (hstep : s.work i = some s') : s'.Guarded := by
  unfold Session.work at hstep
  split at hstep
  · rename_i hi
    obtain rfl := some.inj hstep
    obtain ⟨earlier, hworkers, hlen, hearlier⟩ := h.split hi rfl
    rw [at_eq hworkers hlen]
    exact h.advance hworkers rfl hearlier rfl rfl rfl h.saved h.bounded
      ⟨Nat.le_refl _, h.bounded⟩ (fun _ => rfl)
  · rename_i data hi
    obtain rfl := some.inj hstep
    obtain ⟨earlier, hworkers, hlen, hearlier⟩ := h.split hi rfl
    have hbehind : s.NotBehind (.read data) := h.notBehind _ (mem_iff_getElem?.2 ⟨i, hi⟩)
    rw [at_eq hworkers hlen]
    exact h.advance hworkers rfl hearlier rfl rfl rfl h.saved h.bounded
      ⟨hbehind, rfl⟩ (fun hfresh => hfresh)
  · rename_i data hi
    obtain ⟨earlier, hworkers, hlen, hearlier⟩ := h.split hi rfl
    have hbehind : s.NotBehind (.wrote data) := h.notBehind _ (mem_iff_getElem?.2 ⟨i, hi⟩)
    -- the temporary file is the worker's own
    rw [hbehind.2] at hstep
    obtain rfl := some.inj hstep
    rw [at_eq hworkers hlen]
    refine h.advance hworkers rfl hearlier rfl rfl rfl ?_ ?_ trivial ?_
    · rw [pairwise_append]
      refine ⟨h.saved, pairwise_singleton _ _, fun v hv w hw => ?_⟩
      obtain rfl := mem_singleton.1 hw
      exact hbehind.1.2 v hv
    · intro v hv
      rw [mem_append, mem_singleton] at hv
      rcases hv with hv | rfl
      · exact h.bounded v hv
      exact hbehind.1.1
    intro hfresh
    exact congrArg some hfresh
  cases hstep

lemma Session.Guarded.start (h : s.Guarded) (hnone : s.running = []) (call : Nat) :
    Session.Guarded { s with
      waiting := s.waiting.erase call
      dirty := false
      flush := some { call := call, worker := s.workers.length }
      workers := s.workers ++ [.started] } where
  alone := by
    intro i stage hi hrunning
    dsimp only at hi
    rcases Nat.lt_or_ge i s.workers.length with hlt | hge
    · rw [getElem?_append_left hlt] at hi
      exact absurd (hrunning.symm.trans (running_eq_nil.1 hnone i stage hi)) (by decide)
    have hlt := (List.getElem?_eq_some_iff.1 hi).1
    simp only [length_append, length_singleton] at hlt ⊢
    omega
  newest := by
    intro flush hflush
    obtain rfl := some.inj hflush
    simp
  notBehind := by
    intro stage hstage
    rw [mem_append, mem_singleton] at hstage
    rcases hstage with hstage | rfl
    · exact h.notBehind stage hstage
    trivial
  saved := h.saved
  bounded := h.bounded
  idle := by
    intro _ hfree
    cases hfree
  busy := by
    intro _ flush hflush stage hstage
    obtain rfl := some.inj hflush
    simp only [length_append, length_singleton, Nat.lt_add_one, getElem?_pos,
      getElem_concat_length, some.injEq] at hstage
    subst hstage
    trivial

lemma Session.Guarded.release (h : s.Guarded) (dirty : Bool)
    (hclean : dirty = false → s.file = some s.current ∧ s.running = []) :
    Session.Guarded { s with flush := none, dirty := dirty } where
  alone := h.alone
  newest := by
    intro flush hflush
    cases hflush
  notBehind := h.notBehind
  saved := h.saved
  bounded := h.bounded
  idle := by
    intro hc _
    exact hclean hc
  busy := by
    intro _ flush hflush
    cases hflush

lemma Session.Guarded.dirtied (h : s.Guarded) (hdirty : s'.dirty = true)
    (hworkers : s'.workers = s.workers) (hflush : s'.flush = s.flush) (htmp : s'.tmp = s.tmp)
    (hsaved : s'.saved = s.saved) (hversion : s.version ≤ s'.version) : s'.Guarded where
  alone := by
    rw [hworkers]
    exact h.alone
  newest := by
    rw [hworkers, hflush]
    exact h.newest
  notBehind := by
    intro stage hstage
    rw [hworkers] at hstage
    have hbehind := h.notBehind stage hstage
    cases stage with
    | read =>
      refine ⟨Nat.le_trans hbehind.1 hversion, ?_⟩
      rw [hsaved]
      exact hbehind.2
    | wrote =>
      refine ⟨⟨Nat.le_trans hbehind.1.1 hversion, ?_⟩, htmp.trans hbehind.2⟩
      rw [hsaved]
      exact hbehind.1.2
    | _ => trivial
  saved := by
    rw [hsaved]
    exact h.saved
  bounded := by
    intro v hv
    rw [hsaved] at hv
    exact Nat.le_trans (h.bounded v hv) hversion
  idle := by
    intro hclean
    exact absurd (hdirty.symm.trans hclean) (by decide)
  busy := by
    intro hclean
    exact absurd (hdirty.symm.trans hclean) (by decide)

lemma Session.Guarded.queue (h : s.Guarded) (calls : Nat) (waiting : List Nat) :
    Session.Guarded { s with calls := calls, waiting := waiting } :=
  ⟨h.alone, h.newest, h.notBehind, h.saved, h.bounded, h.idle, h.busy⟩

lemma Session.Guarded.step {e : FlushEvent α} (h : s.Guarded) (hcond : LeavesNoWorker s e)
    (hstep : flushStep s e = some s') : s'.Guarded := by
  cases e with
  | change state marked =>
    obtain rfl := some.inj hstep
    obtain rfl : marked = true := hcond
    exact h.dirtied (Bool.or_true _) rfl rfl rfl rfl (Nat.le_succ _)
  | mark =>
    obtain rfl := some.inj hstep
    exact h.dirtied rfl rfl rfl rfl rfl (Nat.le_refl _)
  | call =>
    obtain rfl := some.inj hstep
    exact h.queue _ _
  | acquire call =>
    unfold flushStep at hstep
    dsimp only at hstep
    split at hstep
    · split at hstep
      · obtain rfl := some.inj hstep
        exact h.queue s.calls _
      rename_i hdirty
      obtain rfl := some.inj hstep
      exact h.start (hcond (by simpa using hdirty)) call
    cases hstep
  | work => exact h.work hstep
  | fail i =>
    unfold flushStep at hstep
    dsimp only at hstep
    split at hstep
    · rename_i hany
      obtain rfl := some.inj hstep
      obtain ⟨stage, hi, hrunning⟩ := (Option.any_eq_true _ _).1 hany
      obtain ⟨_, hworkers, hlen, hearlier⟩ := h.split hi hrunning
      rw [at_eq hworkers hlen]
      exact h.advance hworkers hrunning hearlier rfl rfl rfl h.saved h.bounded trivial
        (fun _ => trivial)
    cases hstep
  | resume =>
    unfold flushStep at hstep
    dsimp only at hstep
    split at hstep
    · rename_i flush hflush
      have hlen := h.newest flush hflush
      split at hstep
      · rename_i hdone
        obtain rfl := some.inj hstep
        refine h.release s.dirty (fun hclean => ⟨h.busy hclean flush hflush _ hdone, ?_⟩)
        -- the last worker is through, and only the last could be at work
        refine running_eq_nil.2 (fun i stage hi => ?_)
        by_contra hrun
        have hlast := h.alone i stage hi (by simpa using hrun)
        obtain rfl : i = flush.worker := by omega
        rw [hdone, some.injEq] at hi
        exact hrun (hi ▸ rfl)
      · obtain rfl := some.inj hstep
        exact h.release true (nofun)
      cases hstep
    cases hstep
  | cancel =>
    unfold flushStep at hstep
    dsimp only at hstep
    split at hstep
    · obtain rfl := some.inj hstep
      exact h.queue s.calls _
    split at hstep
    · split at hstep
      · obtain rfl := some.inj hstep
        exact h.release true (nofun)
      cases hstep
    cases hstep

/-! ## Every run -/

def Session.opened (state : α) (dirty : Bool) (file : Option (Stamped α)) : Session α :=
  { state := state, dirty := dirty, file := file }

lemma guarded_opened {state : α} {dirty : Bool} {file : Option (Stamped α)}
    (hstart : dirty = false → file = some ⟨0, state⟩) :
    (Session.opened state dirty file).Guarded where
  alone := by
    intro _ stage hi
    cases hi
  newest := by
    intro flush hflush
    cases hflush
  notBehind := by
    intro stage hstage
    cases hstage
  saved := List.Pairwise.nil
  bounded := by
    intro _ hv
    cases hv
  idle := by
    intro hclean _
    exact ⟨hstart hclean, rfl⟩
  busy := by
    intro _ flush hflush
    cases hflush

/-- **In every run in which changes mark the session and no flush starts its
worker beside one that was left behind, the flushes are in order.** -/
theorem flushes_ordered (state : α) (dirty : Bool) (file : Option (Stamped α))
    (hstart : dirty = false → file = some ⟨0, state⟩) (events : List (FlushEvent α))
    (hcond : Runs.Along flushStep LeavesNoWorker (Session.opened state dirty file) events) :
    Runs.Always flushStep Session.Ordered (Session.opened state dirty file) events := by
  have hguarded :
      Runs.Always flushStep Session.Guarded (Session.opened state dirty file) events :=
    Runs.always_of_along (fun _ _ _ h hcond hstep => Session.Guarded.step h hcond hstep)
      (guarded_opened hstart) hcond
  exact hguarded.mono (fun _ h => h.ordered)

end

def cancelledFlushRun : List (FlushEvent Nat) :=
  [.change 1 true, .call, .acquire 0, .work 0, .cancel 0, .work 0, .work 0, .call, .acquire 1,
    .work 1, .work 1, .work 1, .resume]

theorem cancelledFlush_ordered :
    Runs.Always flushStep Session.Ordered (Session.opened 0 false (some ⟨0, 0⟩))
      cancelledFlushRun := by
  refine flushes_ordered 0 false (some ⟨0, 0⟩) (fun _ => rfl) cancelledFlushRun ?_
  simp [cancelledFlushRun, Runs.Along, flushStep, LeavesNoWorker, Session.opened,
    Session.running, Session.work, Session.at, Session.current, Stage.isRunning]

/-- A flush is cancelled when its worker has read the session; the session
changes and the next flush overtakes it. -/
def overtakenFlushRun : List (FlushEvent Nat) :=
  [.change 1 true, .call, .acquire 0, .work 0, .cancel 0, .change 2 true, .call, .acquire 1,
    .work 1, .work 1, .work 1, .resume, .work 0, .work 0]

/-- **The session is clean at version 2, and its file holds version 1.** -/
theorem cancelledFlush_old_state :
    ¬ Runs.Always flushStep Session.Ordered (Session.opened 0 false (some ⟨0, 0⟩))
      overtakenFlushRun := by
  intro halways
  obtain ⟨s, hrun, hfree, hclean, hfile, hcurrent⟩ :
      ∃ s, Runs.run flushStep (Session.opened 0 false (some ⟨0, 0⟩)) overtakenFlushRun = some s ∧
        s.flush = none ∧ s.dirty = false ∧ s.file = some ⟨1, 1⟩ ∧ s.current = ⟨2, 2⟩ :=
    ⟨_, rfl, rfl, rfl, rfl, rfl⟩
  have hnew := (halways _ s (prefix_refl _) hrun).current hfree hclean
  rw [hfile, hcurrent] at hnew
  cases hnew

end DeterminFlow.Persistence
