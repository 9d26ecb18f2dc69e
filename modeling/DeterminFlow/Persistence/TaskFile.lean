/-
  Persistence.TaskFile
  **IN WHICH ORDER THE SNAPSHOTS OF A TASK REACH ITS FILE.**

  `_save_task_state` takes a snapshot under the save lock of the task and
  writes it in a worker thread.  A caller that is cancelled meanwhile waits
  for its write under a second shield before it gives the lock up.  The second
  shield guards against one cancellation only: a caller that is cancelled
  again leaves, and the lock with it, while its write goes on.
-/
import DeterminFlow.Library.Runs

namespace DeterminFlow.Persistence

open Library List Option

/-! ## The saves of one task -/

/-- How `_do_save_task_state` fares in its thread. -/
inductive Outcome where
  | running
  /-- Its temporary file has replaced the task file. -/
  | landed
  /-- It has raised; the task file is as it was. -/
  | raised
  deriving DecidableEq

/-- A snapshot on its way to the file. -/
structure Write (α : Type) where
  snapshot : α
  outcome : Outcome := .running
  deriving DecidableEq

/-- The call that holds the save lock: which write it waits for, and whether
it has been cancelled and waits under the second shield. -/
structure Holder where
  call : Nat
  write : Nat
  cancelled : Bool := false
  deriving DecidableEq

/-- The task, its save lock, its writes in the order of their snapshots, and
its file; ghost: the snapshots in the order in which they reached the file. -/
structure Saves (α : Type) where
  task : α
  calls : Nat := 0
  waiting : List Nat := []
  holder : Option Holder := none
  writes : List (Write α) := []
  file : Option α := none
  landed : List α := []
  deriving DecidableEq

/-- What happens to the task and its saves. -/
inductive SaveEvent (α : Type) where
  /-- A coroutine changes the task. -/
  | change (task : α)
  /-- `_save_task_state` is called. -/
  | call
  /-- A waiting call gets the lock, takes its snapshot and starts its write. -/
  | acquire (call : Nat)
  /-- A thread replaces the file. -/
  | land (write : Nat)
  /-- A thread raises. -/
  | fail (write : Nat)
  /-- The write of the holder is done: its call returns or raises. -/
  | resume
  | cancel (call : Nat)
  deriving DecidableEq

section
variable {α : Type}

def Saves.isRunning (s : Saves α) (i : Nat) : Bool :=
  (s.writes[i]?).any (fun w => w.outcome = .running)

def Saves.finish (s : Saves α) (i : Nat) (outcome : Outcome) : Saves α :=
  { s with writes := s.writes.modify i (fun w => { w with outcome := outcome }) }

/-- One event; `none` when it cannot happen. -/
def saveStep (s : Saves α) : SaveEvent α → Option (Saves α)
  | .change task => some { s with task := task }
  | .call => some { s with calls := s.calls + 1, waiting := s.waiting ++ [s.calls] }
  | .acquire call =>
    if s.holder = none ∧ call ∈ s.waiting then
      some { s with
        waiting := s.waiting.erase call
        holder := some { call := call, write := s.writes.length }
        writes := s.writes ++ [{ snapshot := s.task }] }
    else none
  | .land i =>
    match s.writes[i]? with
    | some { snapshot, outcome := .running } =>
      some { s.finish i .landed with
        file := some snapshot
        landed := s.landed ++ [snapshot] }
    | _ => none
  | .fail i => if s.isRunning i then some (s.finish i .raised) else none
  | .resume =>
    match s.holder with
    | some holder => if s.isRunning holder.write then none else some { s with holder := none }
    | none => none
  | .cancel call =>
    if call ∈ s.waiting then some { s with waiting := s.waiting.erase call }
    else
      match s.holder with
      | some holder =>
        if holder.call ≠ call then none
        -- `except CancelledError`: the lock is kept under the second shield
        else if holder.cancelled = false then
          some { s with holder := some { holder with cancelled := true } }
        else some { s with holder := none }
      | none => none

/-! ## The property and the condition -/

def Saves.Idle (s : Saves α) : Prop := s.waiting = [] ∧ s.holder = none

/-- **The saves are in order**: writes do not overlap, the snapshots reach the
file in the order in which the lock was acquired, and when every save is
through the file holds the last snapshot, unless its own write raised. -/
structure Saves.Ordered (s : Saves α) : Prop where
  alone : (s.writes.filter (fun w => w.outcome = .running)).length ≤ 1
  inOrder : s.landed.Sublist (s.writes.map (·.snapshot))
  last : s.Idle → ∀ w, s.writes.getLast? = some w →
    w.outcome = .raised ∨ w.outcome = .landed ∧ s.file = some w.snapshot

/-- **The condition**: the caller that holds the lock is not cancelled a
second time before its write is done. -/
def CancelledOnce (s : Saves α) (e : SaveEvent α) : Prop :=
  ∀ holder, s.holder = some holder → holder.cancelled = true → e = .cancel holder.call →
    s.isRunning holder.write = false

/-! ## What every step keeps -/

/-- **The invariant**: a running write is the last one, and the holder of the
lock waits for it. -/
structure Saves.Guarded (s : Saves α) : Prop where
  guarded : ∀ i w, s.writes[i]? = some w → w.outcome = .running →
    ∃ holder, s.holder = some holder ∧ holder.write = i
  newest : ∀ holder, s.holder = some holder → holder.write + 1 = s.writes.length
  landed : s.landed = (s.writes.filter (fun w => w.outcome = .landed)).map (·.snapshot)
  file : s.landed ≠ [] → s.file = s.landed.getLast?

variable {s s' : Saves α} {i : Nat} {w : Write α}

lemma isRunning_eq_true :
    s.isRunning i = true ↔ ∃ w, s.writes[i]? = some w ∧ w.outcome = .running := by
  unfold Saves.isRunning
  rw [Option.any_eq_true]
  simp only [decide_eq_true_eq]

lemma Saves.Guarded.split (h : s.Guarded) (hi : s.writes[i]? = some w)
    (hrunning : w.outcome = .running) : ∃ earlier, s.writes = earlier ++ [w] ∧ i = earlier.length ∧
      ∀ v ∈ earlier, v.outcome ≠ .running := by
  obtain ⟨holder, hholder, rfl⟩ := h.guarded i w hi hrunning
  have hlen := h.newest holder hholder
  obtain ⟨_, hget⟩ := List.getElem?_eq_some_iff.1 hi
  have hne : s.writes ≠ [] := ne_nil_of_length_pos (by omega)
  have hlast : s.writes.getLast hne = w := by
    rw [getLast_eq_getElem]
    rw [← hget]
    congr 1
    omega
  refine ⟨s.writes.dropLast, ?_, by simp; omega, ?_⟩
  · rw [← hlast]
    exact (dropLast_append_getLast hne).symm
  intro v hv hrun
  obtain ⟨j, hj⟩ := mem_iff_getElem?.1 hv
  obtain ⟨hjlt, -⟩ := List.getElem?_eq_some_iff.1 hj
  rw [length_dropLast] at hjlt
  have hj' : s.writes[j]? = some v := by
    rw [getElem?_dropLast] at hj
    rw [if_pos hjlt] at hj
    exact hj
  obtain ⟨_, hother, rfl⟩ := h.guarded j v hj' hrun
  obtain rfl := some.inj (hholder.symm.trans hother)
  omega

lemma Saves.Guarded.congr (h : s.Guarded) (hwrites : s'.writes = s.writes)
    (hfile : s'.file = s.file) (hlanded : s'.landed = s.landed)
    (hkept : ∀ holder, s.holder = some holder → s.isRunning holder.write = true →
      ∃ holder', s'.holder = some holder' ∧ holder'.write = holder.write)
    (hold : ∀ holder', s'.holder = some holder' →
      ∃ holder, s.holder = some holder ∧ holder.write = holder'.write) : s'.Guarded where
  guarded := by
    intro i w hi hrunning
    rw [hwrites] at hi
    obtain ⟨holder, hholder, rfl⟩ := h.guarded i w hi hrunning
    exact hkept holder hholder (isRunning_eq_true.2 ⟨w, hi, hrunning⟩)
  newest := by
    intro holder' hholder'
    obtain ⟨holder, hholder, heq⟩ := hold holder' hholder'
    rw [hwrites, ← heq]
    exact h.newest holder hholder
  landed := by
    rw [hlanded, hwrites]
    exact h.landed
  file := by
    rw [hlanded, hfile]
    exact h.file

lemma Saves.Guarded.acquire (h : s.Guarded) (hfree : s.holder = none) (call : Nat) :
    Saves.Guarded { s with
      waiting := s.waiting.erase call
      holder := some { call := call, write := s.writes.length }
      writes := s.writes ++ [{ snapshot := s.task }] } where
  guarded := by
    intro i w hi hrunning
    dsimp only at hi
    rcases Nat.lt_or_ge i s.writes.length with hlt | hge
    · -- the lock was free, so no earlier write is running
      rw [getElem?_append_left hlt] at hi
      obtain ⟨holder, hholder, -⟩ := h.guarded i w hi hrunning
      exact nomatch hfree.symm.trans hholder
    have hlt := (List.getElem?_eq_some_iff.1 hi).1
    rw [length_append, length_singleton] at hlt
    exact ⟨_, rfl, by dsimp only; omega⟩
  newest := by
    intro holder hholder
    obtain rfl := some.inj hholder
    simp
  landed := by
    rw [filter_append]
    simp [h.landed]
  file := h.file

lemma finish_eq {earlier : List (Write α)} (hwrites : s.writes = earlier ++ [w])
    (hi : i = earlier.length) (outcome : Outcome) : s.finish i outcome = { s with writes :=earlier ++ [{ w with outcome := outcome }] } := by
  subst hi
  have hlt : earlier.length < (earlier ++ [w]).length := by simp
  unfold Saves.finish
  rw [hwrites, modify_eq_set_get _ hlt, set_append_right _ _ (Nat.le_refl _)]
  simp

lemma Saves.Guarded.settled (h : s.Guarded) {earlier : List (Write α)} {w' : Write α}
    (hwrites : s.writes = earlier ++ [w]) (hearlier : ∀ v ∈ earlier, v.outcome ≠ .running)
    (hdone : w'.outcome ≠ .running) (hwrites' : s'.writes = earlier ++ [w'])
    (hholder : s'.holder = s.holder)
    (hlanded : s'.landed = (s'.writes.filter (fun w => w.outcome = .landed)).map (·.snapshot))
    (hfile : s'.landed ≠ [] → s'.file = s'.landed.getLast?) : s'.Guarded where
  guarded := by
    intro i v hi hrunning
    have hv : v ∈ s'.writes := mem_iff_getElem?.2 ⟨i, hi⟩
    rw [hwrites', mem_append, mem_singleton] at hv
    rcases hv with hv | rfl
    · exact absurd hrunning (hearlier v hv)
    exact absurd hrunning hdone
  newest := by
    intro holder hold
    rw [hholder] at hold
    have hlen := h.newest holder hold
    rw [hwrites, length_append, length_singleton] at hlen
    rw [hwrites', length_append, length_singleton]
    exact hlen
  landed := hlanded
  file := hfile

lemma Saves.Guarded.step {e : SaveEvent α} (h : s.Guarded) (honce : CancelledOnce s e)
    (hstep : saveStep s e = some s') : s'.Guarded := by
  cases e with
  | acquire call =>
    unfold saveStep at hstep
    dsimp only at hstep
    split at hstep
    · rename_i hfree
      obtain rfl := some.inj hstep
      exact h.acquire hfree.1 call
    cases hstep
  | land i =>
    unfold saveStep at hstep
    dsimp only at hstep
    split at hstep
    · rename_i snapshot hi
      obtain rfl := some.inj hstep
      obtain ⟨earlier, hwrites, hlen, hearlier⟩ := h.split hi rfl
      rw [finish_eq hwrites hlen]
      refine h.settled hwrites hearlier (by simp) rfl rfl ?_ ?_
      · have hbefore := h.landed
        rw [hwrites] at hbefore
        simp [filter_append] at hbefore ⊢
        exact hbefore
      intro _
      simp
    cases hstep
  | fail i =>
    unfold saveStep at hstep
    dsimp only at hstep
    split at hstep
    · rename_i hrunning
      obtain rfl := some.inj hstep
      obtain ⟨_, hi, hw⟩ := isRunning_eq_true.1 hrunning
      obtain ⟨earlier, hwrites, hlen, hearlier⟩ := h.split hi hw
      rw [finish_eq hwrites hlen]
      refine h.settled hwrites hearlier (by simp) rfl rfl ?_ h.file
      have hbefore := h.landed
      rw [hwrites] at hbefore
      simp [filter_append, hw] at hbefore ⊢
      exact hbefore
    cases hstep
  | resume =>
    unfold saveStep at hstep
    dsimp only at hstep
    split at hstep
    · rename_i holder hholder
      split at hstep
      · cases hstep
      rename_i hdone
      obtain rfl := some.inj hstep
      refine h.congr rfl rfl rfl (fun other hother hrunning => ?_)
        (nofun)
      obtain rfl := some.inj (hholder.symm.trans hother)
      exact absurd hrunning hdone
    cases hstep
  | cancel call =>
    unfold saveStep at hstep
    dsimp only at hstep
    split at hstep
    · obtain rfl := some.inj hstep
      exact h.congr rfl rfl rfl (fun holder hholder _ => ⟨holder, hholder, rfl⟩)
        (fun holder hholder => ⟨holder, hholder, rfl⟩)
    split at hstep
    · rename_i holder hholder
      split at hstep
      · cases hstep
      rename_i hcall
      obtain rfl : holder.call = call := not_not.1 hcall
      split at hstep
      · -- the first cancellation: the lock is kept
        obtain rfl := some.inj hstep
        refine h.congr rfl rfl rfl (fun other hother _ => ?_) (fun other hother => ?_)
        · obtain rfl := some.inj (hholder.symm.trans hother)
          exact ⟨_, rfl, rfl⟩
        obtain rfl := some.inj hother
        exact ⟨holder, hholder, rfl⟩
      -- the second one: by the condition the write is done
      rename_i hagain
      obtain rfl := some.inj hstep
      have hdone := honce holder hholder (by simpa using hagain) rfl
      refine h.congr rfl rfl rfl (fun other hother hrunning => ?_)
        (nofun)
      obtain rfl := some.inj (hholder.symm.trans hother)
      exact absurd (hrunning.symm.trans hdone) (by decide)
    cases hstep
  | _ =>
    obtain rfl := some.inj hstep
    exact h.congr rfl rfl rfl (fun holder hholder _ => ⟨holder, hholder, rfl⟩)
      (fun holder hholder => ⟨holder, hholder, rfl⟩)

/-! ## Every run -/

theorem Saves.Guarded.ordered (h : s.Guarded) : s.Ordered where
  alone := by
    by_contra hmany
    -- a running write is the only one
    have hsome : s.writes.filter (fun w => w.outcome = .running) ≠ [] := by
      intro hnil
      rw [hnil] at hmany
      exact hmany (Nat.zero_le _)
    obtain ⟨w, hw⟩ := exists_mem_of_ne_nil _ hsome
    rw [mem_filter, decide_eq_true_eq] at hw
    obtain ⟨_, hi⟩ := mem_iff_getElem?.1 hw.1
    obtain ⟨earlier, hwrites, -, hearlier⟩ := h.split hi hw.2
    have hnone : earlier.filter (fun w => w.outcome = .running) = [] := by
      rw [filter_eq_nil_iff]
      intro v hv
      simpa using hearlier v hv
    rw [hwrites, filter_append, hnone] at hmany
    exact hmany (length_filter_le _ _)
  inOrder := by
    rw [h.landed]
    exact filter_sublist.map _
  last := by
    intro hidle w hw
    obtain ⟨earlier, hwrites⟩ := getLast?_eq_some_iff.1 hw
    cases houtcome : w.outcome with
    | running =>
      -- nobody holds the lock, so no write is running
      have hi : s.writes[earlier.length]? = some w := by
        rw [hwrites]
        simp
      obtain ⟨_, hholder, -⟩ := h.guarded _ w hi houtcome
      exact nomatch hidle.2.symm.trans hholder
    | raised => exact .inl rfl
    | landed =>
      refine .inr ⟨rfl, ?_⟩
      have hlanded : s.landed.getLast? = some w.snapshot := by
        rw [h.landed, hwrites, filter_append]
        simp [houtcome]
      rw [← hlanded]
      refine h.file ?_
      intro hnil
      rw [hnil] at hlanded
      cases hlanded

def Saves.start (task : α) (file : Option α) : Saves α := { task := task, file := file }

lemma guarded_start (task : α) (file : Option α) : (Saves.start task file).Guarded where
  guarded := by
    intro _ _ hi
    cases hi
  newest := by
    intro _ hholder
    cases hholder
  landed := rfl
  file := by
    intro hne
    exact absurd rfl hne

/-- **In every run in which no caller is cancelled a second time before its
write is done, the saves are in order.** -/
theorem saves_ordered (task : α) (file : Option α) (events : List (SaveEvent α))
    (honce : Runs.Along saveStep CancelledOnce (Saves.start task file) events) :
    Runs.Always saveStep Saves.Ordered (Saves.start task file) events := by
  have hguarded : Runs.Always saveStep Saves.Guarded (Saves.start task file) events :=
    Runs.always_of_along (fun _ _ _ h honce hstep => Saves.Guarded.step h honce hstep)
      (guarded_start task file) honce
  exact hguarded.mono (fun _ h => h.ordered)

end

def cancelledOnceRun : List (SaveEvent Nat) :=
  [.call, .acquire 0, .cancel 0, .change 2, .call, .land 0, .resume, .acquire 1, .land 1, .resume]

theorem cancelledOnce_ordered :
    Runs.Always saveStep Saves.Ordered (Saves.start 1 none) cancelledOnceRun := by
  refine saves_ordered 1 none cancelledOnceRun ?_
  simp [cancelledOnceRun, Runs.Along, saveStep, CancelledOnce, Saves.start, Saves.isRunning,
    Saves.finish]

def cancelledTwiceRun : List (SaveEvent Nat) :=
  [.call, .acquire 0, .cancel 0, .cancel 0, .change 2, .call, .acquire 1, .land 1, .resume, .land 0]

/-- **The file holds the snapshot 1 though 2 was taken after it.** -/
theorem cancelledTwice_old_snapshot :
    ¬ Runs.Always saveStep Saves.Ordered (Saves.start 1 none) cancelledTwiceRun := by
  intro halways
  obtain ⟨s, hrun, hfile, hlast, hidle⟩ :
      ∃ s, Runs.run saveStep (Saves.start 1 none) cancelledTwiceRun = some s ∧
        s.file = some 1 ∧ s.writes.getLast? = some ⟨2, .landed⟩ ∧ s.Idle :=
    ⟨_, rfl, rfl, rfl, rfl, rfl⟩
  rcases (halways _ s (prefix_refl _) hrun).last hidle _ hlast with hraised | ⟨-, hnew⟩
  · cases hraised
  exact absurd (hfile.symm.trans hnew) (by decide)

end DeterminFlow.Persistence
