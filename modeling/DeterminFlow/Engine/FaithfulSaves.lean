/-
  Engine.FaithfulSaves
  **WHAT A SAVE SHOWS OF THE RUNNING NODES: THE INVARIANT.**

  The objects of a node are numbered in the order they are made, and their
  attempt counts never go down along that order.  A save shows the object
  that is installed.  It is the newest one, but for one case: the reject
  callback puts back the object its attempt started from (`PutBack`), one
  attempt behind, until the attempt ends or checkpoints.

  The invariant (`Sound`) says so for every history in which no two tasks
  work on one node, and that a newest object which runs has the number and
  the input of the attempt that runs.  The updates of the control flow keep
  it (`Sound.flowStep`, `promise_flowStep`).
-/
import DeterminFlow.Engine.NodeWork

namespace DeterminFlow.Engine

open Library Coop Workflow DeterminFlow.Runtime List Option World

/-! ## The invariant -/

/-- The frozen input is the one handed to the attempt, but for the checkpoint
a sub-process plugin keeps in it under a key of its own. -/
def SameInput (kept input : Pool) : Prop :=
  ∀ key, key ≠ subprocessSnapshotKey → kept.get? key = input.get? key

/-- The entry of a node is the object an attempt of it started from: the
attempt has rejected an upstream node, and the callback has put it back. -/
def PutBack (w : World) (n : String) : Prop :=
  ∃ x ∈ w.attempts, x.node = n ∧ x.rejected.isSome ∧ x.outer.isSome ∧ w.current? n = x.outer

section
variable (E : Env)

/-- Objects, attempts and saved states. -/
structure Base (w : World) : Prop where
  entry : ∀ n r, w.current? n = some r → r < w.allocated n
  absent : ∀ n, w.current? n = none → w.allocated n = 0
  grow : ∀ n r r', r ≤ r' → r' < w.allocated n →
    (w.objects n r).attemptCount ≤ (w.objects n r').attemptCount
  outer : ∀ x ∈ w.attempts, ∀ r, x.outer = some r → r < w.allocated x.node ∧
    x.live < w.allocated x.node ∧
    (w.objects x.node x.live).attemptCount = (w.objects x.node r).attemptCount + 1
  known : ∀ x ∈ w.attempts, ∃ node, E.node? x.node = some node ∧
    E.registered (nodeTypeOf node) = true
  worked : ∀ t, ∀ n ∈ (workOf E t w.log).nodes, 0 < w.allocated n
  saved : ∀ data ∈ w.snapshots, ∀ n s, data.nodeStates.get? n = some s →
    ∃ r, r < w.allocated n ∧ s.attemptCount ≤ (w.objects n r).attemptCount

/-- The newest object of a node, when it runs, has the number and the input of
the attempt that runs. -/
def RunningKept (w : World) (n : String) : Prop :=
  ∀ r, r + 1 = w.allocated n → (w.objects n r).status = .running →
    1 ≤ (w.objects n r).attemptCount ∧ ∃ input,
      runningAttempt n w.log = some ((w.objects n r).attemptCount, input) ∧
        SameInput (w.objects n r).inputSnapshot input

def EntryKept (w : World) (n : String) : Prop :=
  ∀ r, w.current? n = some r → r + 1 = w.allocated n ∨
    ∃ x ∈ w.attempts, x.node = n ∧ x.rejected.isSome ∧ x.outer = some r ∧
      x.live + 1 = w.allocated n

/-- **The invariant.** -/
structure Sound (w : World) : Prop extends Base E w where
  running : ∀ n, RunningKept w n
  entries : ∀ n, EntryKept w n

variable {E}

/-- Worlds that agree on nodes, attempts, saves and history. -/
structure Alike (w w' : World) : Prop where
  objects : w'.objects = w.objects
  allocated : w'.allocated = w.allocated
  current : ∀ n, w'.current? n = w.current? n
  attempts : w'.attempts = w.attempts
  log : w'.log = w.log
  snapshots : w'.snapshots = w.snapshots

variable {w' w : World} {n m : String} {r a : Nat} {f : NodeExecutionState → NodeExecutionState}
  {s : NodeExecutionState} {g : Attempt → Attempt}

lemma Base.alike (h : Base E w) (hw : Alike w w') : Base E w' where
  entry n r hr := by
    rw [hw.allocated]
    exact h.entry n r ((hw.current n).symm.trans hr)
  absent n hn := by
    rw [hw.allocated]
    exact h.absent n ((hw.current n).symm.trans hn)
  grow := by
    rw [hw.allocated, hw.objects]
    exact h.grow
  outer := by
    rw [hw.attempts, hw.allocated, hw.objects]
    exact h.outer
  known := by
    rw [hw.attempts]
    exact h.known
  worked := by
    rw [hw.log, hw.allocated]
    exact h.worked
  saved := by
    rw [hw.snapshots, hw.allocated, hw.objects]
    exact h.saved

lemma RunningKept.alike (h : RunningKept w n) (hw : Alike w w') : RunningKept w' n := by
  unfold RunningKept
  rw [hw.objects, hw.allocated, hw.log]
  exact h

lemma EntryKept.alike (h : EntryKept w n) (hw : Alike w w') : EntryKept w' n := by
  unfold EntryKept
  rw [hw.allocated, hw.attempts, hw.current n]
  exact h

lemma Sound.alike (h : Sound E w) (hw : Alike w w') : Sound E w' where
  toBase := h.toBase.alike hw
  running n := (h.running n).alike hw
  entries n := (h.entries n).alike hw

lemma Alike.promise (h : Alike w w') (t : Thread) : Promise E t w w' :=
  .of_same h.log h.allocated h.objects h.attempts

lemma alike_install (hr : w.current? n = some r) : Alike w (w.install n r) := by
  refine ⟨rfl, rfl, fun m => ?_, rfl, rfl, rfl⟩
  rw [current?_install]
  split
  · rename_i h
    rw [← h, hr]
  rfl

lemma IdleStep.alike (h : IdleStep w w') : Alike w w' := by
  cases h with
  | land =>
    unfold World.land
    split <;> exact ⟨rfl, rfl, fun _ => rfl, rfl, rfl, rfl⟩
  | _ => exact ⟨rfl, rfl, fun _ => rfl, rfl, rfl, rfl⟩

/-! ## Single updates -/

lemma count_modifyObject (w : World) (n : String) (r : Nat)
    (hcount : ∀ s, (f s).attemptCount = s.attemptCount) (m : String) (k : Nat) :
    ((w.modifyObject n r f).objects m k).attemptCount = (w.objects m k).attemptCount := by
  rw [objects_modifyObject]
  split
  · rename_i h
    rw [h.1, h.2]
    exact hcount _
  rfl

lemma Base.modifyObject (h : Base E w) (n : String) (r : Nat)
    (hcount : ∀ s, (f s).attemptCount = s.attemptCount) : Base E (w.modifyObject n r f) where
  entry := h.entry
  absent := h.absent
  grow m k k' hle hlt := by
    rw [count_modifyObject w n r hcount, count_modifyObject w n r hcount]
    exact h.grow m k k' hle hlt
  outer x hx k hk := by
    rw [count_modifyObject w n r hcount, count_modifyObject w n r hcount]
    exact h.outer x hx k hk
  known := h.known
  worked := h.worked
  saved data hdata m s hs := by
    obtain ⟨k, hk, hle⟩ := h.saved data hdata m s hs
    exact ⟨k, hk, by rwa [count_modifyObject w n r hcount]⟩

lemma Base.install (h : Base E w) (hr : r < w.allocated n) : Base E (w.install n r) where
  entry m k hk := by
    rw [current?_install] at hk
    split at hk
    · rename_i hm
      obtain rfl := some.inj hk
      rwa [← hm]
    exact h.entry m k hk
  absent m hm := by
    rw [current?_install] at hm
    split at hm
    · cases hm
    exact h.absent m hm
  grow := h.grow
  outer := h.outer
  known := h.known
  worked := h.worked
  saved := h.saved

lemma allocated_installNew (w : World) (n : String) (s : NodeExecutionState) (m : String) :
    (w.installNew n s).allocated m = if m = n then w.allocated n + 1 else w.allocated m := by
  unfold World.installNew World.install World.allocate
  by_cases hm : m = n
  · subst hm; simp
  simp [hm]

lemma Base.installNew (h : Base E w)
    (hs : ∀ r, r < w.allocated n → (w.objects n r).attemptCount ≤ s.attemptCount) :
    Base E (w.installNew n s) := by
  have hobjects := objects_installNew w n
  have hallocated := allocated_installNew w n s
  have hold : ∀ m k, k < w.allocated m → (w.installNew n s).objects m k = w.objects m k := by
    intro m k hk
    rw [hobjects, if_neg]
    rintro ⟨rfl, rfl⟩
    exact lt_irrefl _ hk
  have hmono : ∀ m, w.allocated m ≤ (w.installNew n s).allocated m := by
    intro m
    rw [hallocated]
    split
    · rename_i hm
      rw [hm]
      exact Nat.le_succ _
    exact le_rfl
  constructor
  case entry =>
    intro m k hk
    rw [current?_installNew] at hk
    rw [hallocated]
    by_cases hm : n = m
    · rw [if_pos hm] at hk
      rw [if_pos hm.symm, ← some.inj hk]
      exact Nat.lt_succ_self _
    rw [if_neg hm] at hk
    rw [if_neg (Ne.symm hm)]
    exact h.entry m k hk
  case absent =>
    intro m hm
    rw [current?_installNew] at hm
    by_cases hnm : n = m
    · rw [if_pos hnm] at hm
      cases hm
    rw [if_neg hnm] at hm
    rw [hallocated, if_neg (Ne.symm hnm)]
    exact h.absent m hm
  case grow =>
    intro m k k' hle hlt
    rw [hallocated] at hlt
    by_cases hm : m = n
    · subst hm
      rw [if_pos rfl] at hlt
      by_cases hnew : k' = w.allocated m
      · rw [hobjects m k', if_pos ⟨rfl, hnew⟩]
        by_cases hk : k = w.allocated m
        · rw [hobjects m k, if_pos ⟨rfl, hk⟩]
        rw [hold m k (by omega)]
        exact hs k (by omega)
      rw [hold m k' (by omega), hold m k (by omega)]
      exact h.grow m k k' hle (by omega)
    rw [if_neg hm] at hlt
    rw [hold m k' hlt, hold m k (hle.trans_lt hlt)]
    exact h.grow m k k' hle hlt
  case outer =>
    intro x hx k hk
    obtain ⟨h₁, h₂, h₃⟩ := h.outer x hx k hk
    rw [hold _ _ h₁, hold _ _ h₂]
    exact ⟨h₁.trans_le (hmono _), h₂.trans_le (hmono _), h₃⟩
  case known => exact h.known
  case worked => exact fun t m hm => (h.worked t m hm).trans_le (hmono m)
  case saved =>
    intro data hdata m old hold'
    obtain ⟨k, hk, hle⟩ := h.saved data hdata m old hold'
    exact ⟨k, hk.trans_le (hmono m), by rwa [hold m k hk]⟩

lemma Base.record (h : Base E w) {entry : LogEntry}
    (hworked : ∀ t, ∀ n ∈ (workOf E t (entry :: w.log)).nodes, 0 < w.allocated n) :
    Base E (w.record entry) where
  entry := h.entry
  absent := h.absent
  grow := h.grow
  outer := h.outer
  known := h.known
  worked := hworked
  saved := h.saved

lemma RunningKept.modifyObject_ne (h : RunningKept w m) (hm : m ≠ n) (r : Nat)
    (f : NodeExecutionState → NodeExecutionState) : RunningKept (w.modifyObject n r f) m := by
  intro k hk hrun
  rw [objects_modifyObject_ne _ _ _ _ _ _ (.inl hm)] at hrun ⊢
  exact h k hk hrun

lemma RunningKept.modifyObject (h : RunningKept w m) (n : String) (r : Nat)
    (hcount : ∀ s, (f s).attemptCount = s.attemptCount)
    (hf : ∀ s, (f s).status = .running → s.status = .running ∧ (f s).inputSnapshot = s.inputSnapshot) :
    RunningKept (w.modifyObject n r f) m := by
  intro k hk hrun
  rw [objects_modifyObject] at hrun ⊢
  split at hrun
  · rename_i hcase
    rw [if_pos hcase]
    obtain ⟨hold, hinput⟩ := hf _ hrun
    rw [hcount, hinput, ← hcase.1, ← hcase.2]
    exact h k hk (by rw [hcase.1, hcase.2]; exact hold)
  rename_i hcase
  rw [if_neg hcase]
  exact h k hk hrun

lemma RunningKept.installNew_ne (h : RunningKept w m) (hm : m ≠ n) (s : NodeExecutionState) :
    RunningKept (w.installNew n s) m := by
  intro k hk hrun
  rw [allocated_installNew, if_neg hm] at hk
  rw [objects_installNew, if_neg (fun h => hm h.1)] at hrun ⊢
  exact h k hk hrun

lemma runningKept_of_newest (hr : r + 1 = w.allocated n)
    (hstatus : (w.objects n r).status ≠ .running) : RunningKept w n := by
  intro k _ hrun
  obtain rfl : k = r := by omega
  exact absurd hrun hstatus

lemma RunningKept.installNew (h : ∀ k, k ≠ m → RunningKept w k) (hs : s.status ≠ .running)
    (n : String) : RunningKept (w.installNew m s) n := by
  by_cases hn : n = m
  · subst hn
    refine runningKept_of_newest (r := w.allocated n) (by rw [allocated_installNew, if_pos rfl]) ?_
    rw [objects_installNew, if_pos ⟨rfl, rfl⟩]
    exact hs
  exact (h n hn).installNew_ne hn s

lemma RunningKept.record (h : RunningKept w n) {entry : LogEntry}
    (hsame : runningAttempt n (entry :: w.log) = runningAttempt n w.log) :
    RunningKept (w.record entry) n := by
  intro k hk hrun
  rw [log_record, hsame]
  exact h k hk hrun

lemma EntryKept.install_ne (h : EntryKept w m) (hm : m ≠ n) (r : Nat) :
    EntryKept (w.install n r) m := by
  intro k hk
  rw [current?_install, if_neg (Ne.symm hm)] at hk
  exact h k hk

lemma EntryKept.install (h : ∀ m, m ≠ n → EntryKept w m) (hr : r + 1 = w.allocated n)
    (m : String) : EntryKept (w.install n r) m := by
  by_cases hm : m = n
  · subst hm
    intro _ hk
    rw [current?_install_self] at hk
    obtain rfl := some.inj hk
    exact .inl hr
  exact (h m hm).install_ne hm r

lemma EntryKept.installNew (h : ∀ m, m ≠ n → EntryKept w m) (s : NodeExecutionState)
    (m : String) : EntryKept (w.installNew n s) m := by
  intro k hk
  rw [current?_installNew] at hk
  rw [allocated_installNew]
  by_cases hm : m = n
  · subst hm
    rw [if_pos rfl] at hk
    rw [if_pos rfl, ← some.inj hk]
    exact .inl rfl
  rw [if_neg (Ne.symm hm)] at hk
  rw [if_neg hm]
  exact h m hm k hk

lemma Sound.modifyObject (h : Sound E w) (n : String) (r : Nat)
    (hcount : ∀ s, (f s).attemptCount = s.attemptCount) (hf : ∀ s, (f s).status = .running →
      s.status = .running ∧ (f s).inputSnapshot = s.inputSnapshot) :
    Sound E (w.modifyObject n r f) where
  toBase := h.toBase.modifyObject n r hcount
  running m := (h.running m).modifyObject n r hcount hf
  entries := h.entries

lemma Sound.installNew (h : Sound E w)
    (hs : ∀ r, r < w.allocated n → (w.objects n r).attemptCount ≤ s.attemptCount)
    (hstatus : s.status ≠ .running) : Sound E (w.installNew n s) where
  toBase := h.toBase.installNew hs
  running := RunningKept.installNew (fun m _ => h.running m) hstatus
  entries := EntryKept.installNew (fun m _ => h.entries m) s

lemma Sound.create (h : Sound E w) (hn : w.current? n = none) (hstatus : s.status ≠ .running) :
    Sound E (w.installNew n s) := by
  refine h.installNew (fun r hr => ?_) hstatus
  rw [h.absent n hn] at hr
  exact absurd hr (Nat.not_lt_zero r)

lemma Sound.record (h : Sound E w) {entry : LogEntry}
    (hworks : ∀ t, workOf E t (entry :: w.log) = workOf E t w.log)
    (hrunning : ∀ n, runningAttempt n (entry :: w.log) = runningAttempt n w.log) :
    Sound E (w.record entry) where
  toBase := h.toBase.record (fun t n _ => h.worked t n (by rwa [← hworks t]))
  running n := (h.running n).record (hrunning n)
  entries := h.entries

lemma Sound.takeSnapshot (h : Sound E w) : Sound E w.takeSnapshot := by
  have hsaved : ∀ data ∈ w.takeSnapshot.snapshots, ∀ n s, data.nodeStates.get? n = some s →
      ∃ r, r < w.allocated n ∧ s.attemptCount ≤ (w.objects n r).attemptCount := by
    intro data hdata n s hs
    rcases mem_cons.1 hdata with rfl | hdata
    · have hget : ((w.task.nodeStates.mapValues fun node r => w.objects node r).get? n)
          = some s := hs
      rw [Dict.get?_mapValues] at hget
      obtain ⟨r, hr, rfl⟩ := map_eq_some_iff.1 hget
      exact ⟨r, h.entry n r hr, le_rfl⟩
    exact h.saved data hdata n s hs
  exact { entry := h.entry, absent := h.absent, grow := h.grow, outer := h.outer,
          known := h.known, worked := h.worked, saved := hsaved, running := h.running,
          entries := h.entries }

lemma Base.alone_of_absent (h : Base E w) (hn : w.current? n = none) (t : Thread) :
    Alone E t n w := by
  intro t' _ hmem
  have hpos := h.worked t' n hmem
  rw [h.absent n hn] at hpos
  exact lt_irrefl _ hpos

lemma upsert_of_some (hr : w.current? n = some r) (f : NodeExecutionState → NodeExecutionState) :
    w.upsert n f = (w.install n r).modifyObject n r f := by
  unfold World.upsert World.materialize currentOrNext
  simp only [hr, getD_some]
  rfl

lemma upsert_of_none (hn : w.current? n = none) (f : NodeExecutionState → NodeExecutionState) :
    w.upsert n f = (w.installNew n { nodeId := n }).modifyObject n (w.allocated n) f := by
  unfold World.upsert World.materialize currentOrNext
  simp only [hn, getD_none]
  rfl

lemma mem_modifyAttempt {y : Attempt} (h : y ∈ (w.modifyAttempt a g).attempts) :
    ∃ x ∈ w.attempts, y = x ∨ y = g x := by
  obtain ⟨j, hj⟩ := mem_iff_getElem?.1 h
  simp only [World.modifyAttempt, List.getElem?_modify, Option.map_eq_map, map_eq_some_iff] at hj
  obtain ⟨x, hx, hy⟩ := hj
  refine ⟨x, mem_of_getElem? hx, ?_⟩
  by_cases haj : a = j
  · exact .inr (by simpa [haj] using hy.symm)
  exact .inl (by simpa [haj] using hy.symm)

lemma exists_modifyAttempt {x : Attempt} (h : x ∈ w.attempts) :
    ∃ y ∈ (w.modifyAttempt a g).attempts, y = x ∨ y = g x := by
  obtain ⟨j, hj⟩ := mem_iff_getElem?.1 h
  have hget : (w.attempts.modify a g)[j]? = some (if a = j then g x else x) := by
    rw [List.getElem?_modify, hj]
    by_cases haj : a = j <;> simp [haj]
  refine ⟨if a = j then g x else x, mem_of_getElem? hget, ?_⟩
  by_cases haj : a = j
  · exact .inr (if_pos haj)
  exact .inl (if_neg haj)

lemma Sound.modifyAttempt (h : Sound E w) (a : Nat) (hfixed : ∀ x, fixedPart (g x) = fixedPart x)
    (hrejected : ∀ x, x.rejected.isSome → (g x).rejected.isSome) :
    Sound E (w.modifyAttempt a g) := by
  have hsame : ∀ x, (g x).node = x.node ∧ (g x).live = x.live ∧ (g x).outer = x.outer := by
    intro x
    have hx := hfixed x
    simp only [fixedPart, Prod.mk.injEq] at hx
    exact ⟨hx.2.1, hx.2.2.1, hx.2.2.2.1⟩
  have hback : ∀ y ∈ (w.modifyAttempt a g).attempts, ∃ x ∈ w.attempts,
      y.node = x.node ∧ y.live = x.live ∧ y.outer = x.outer := by
    intro y hy
    obtain ⟨x, hx, rfl | rfl⟩ := mem_modifyAttempt hy
    · exact ⟨y, hx, rfl, rfl, rfl⟩
    exact ⟨x, hx, hsame x⟩
  refine ⟨{ entry := h.entry, absent := h.absent, grow := h.grow, worked := h.worked,
            saved := h.saved, outer := ?_, known := ?_ }, h.running, ?_⟩
  · intro y hy r hr
    obtain ⟨x, hx, hnode, hlive, houter⟩ := hback y hy
    rw [hnode, hlive]
    exact h.outer x hx r (houter ▸ hr)
  · intro y hy
    obtain ⟨x, hx, hnode, -⟩ := hback y hy
    rw [hnode]
    exact h.known x hx
  intro n r hr
  rcases h.entries n r hr with hnew | ⟨x, hx, hnode, hrej, houter, hlive⟩
  · exact .inl hnew
  obtain ⟨y, hy, rfl | rfl⟩ := exists_modifyAttempt (a := a) (g := g) hx
  · exact .inr ⟨y, hy, hnode, hrej, houter, hlive⟩
  obtain ⟨h₁, h₂, h₃⟩ := hsame x
  exact .inr ⟨g x, hy, h₁.trans hnode, hrejected x hrej, h₃.trans houter, h₂.symm ▸ hlive⟩

/-! ## Updates that start nothing -/

section
variable {t : Thread} {f : NodeExecutionState → NodeExecutionState} {w w' : World}

lemma promise_upsert (h : Unmixed E w.log → Base E w) (n : String)
    (hcount : ∀ s, (f s).attemptCount = s.attemptCount)
    (hinput : ∀ s, (f s).inputSnapshot = s.inputSnapshot) : Promise E t w (w.upsert n f) := by
  cases hcur : w.current? n with
  | some r =>
    rw [upsert_of_some hcur]
    exact (promise_install t w n r).trans
      (promise_modifyObject _ r hcount (fun _ => .inl hinput))
  | none =>
    rw [upsert_of_none hcur]
    exact (promise_installNew w _ (fun hu => (h hu).alone_of_absent hcur t)).trans
      (promise_modifyObject _ _ hcount (fun _ => .inl hinput))

lemma Sound.exists_upsert (h : Sound E w) (n : String) :
    ∃ w₁, Sound E w₁ ∧ w₁.current? n = some (w.currentOrNext n) ∧ w₁.log = w.log ∧
      ∀ f, w.upsert n f = w₁.modifyObject n (w.currentOrNext n) f := by
  unfold currentOrNext
  cases hcur : w.current? n with
  | some r =>
    exact ⟨w.install n r, h.alike (alike_install hcur), current?_install_self _ _ _, rfl,
      fun f => upsert_of_some hcur f⟩
  | none =>
    refine ⟨w.installNew n { nodeId := n }, h.create hcur (by simp), ?_, rfl,
      fun f => upsert_of_none hcur f⟩
    rw [current?_installNew, if_pos rfl]
    rfl

lemma Sound.upsert (h : Sound E w) (n : String)
    (hcount : ∀ s, (f s).attemptCount = s.attemptCount) (hstatus : ∀ s, (f s).status ≠ .running) :
    Sound E (w.upsert n f) := by
  obtain ⟨_, h₁, -, -, heq⟩ := h.exists_upsert n
  rw [heq f]
  exact h₁.modifyObject n _ hcount (fun s hs => absurd hs (hstatus s))

lemma promise_flowStep (hstep : FlowStep w w') (h : Unmixed E w.log → Base E w) :
    Promise E .main w w' := by
  cases hstep with
  | evaluated => exact promise_record w (fun _ _ => rfl) (fun _ _ _ _ _ => rfl)
  | chose => exact promise_record w (fun _ _ => rfl) (fun _ _ _ _ _ => rfl)
  | skip n =>
    unfold skipBranchNode
    refine Promise.trans (promise_upsert h n ?_ ?_)
      (promise_record _ (fun _ _ => rfl) (fun _ _ _ _ _ => rfl))
    all_goals exact fun _ => rfl
  | ensure n =>
    unfold ensureState
    split
    · exact .refl .main w
    rename_i hcur
    exact promise_installNew w _ (fun hu => (h hu).alone_of_absent hcur .main)
  | reset n r =>
    -- no branch works on a node that a loop resets
    have hrecord : Promise E .main w (w.record (.reset n)) :=
      promise_record w (fun _ _ => rfl) (fun _ _ _ _ _ => rfl)
    refine hrecord.trans (promise_modifyObject (w.record (.reset n)) r (fun _ => rfl) ?_)
    intro hunmixed
    refine .inr (fun t' hne => ?_)
    cases t' with
    | main => exact absurd rfl hne
    | kid i => exact hunmixed.2 i
  | snapshot n r =>
    exact promise_modifyObject w r (fun _ => rfl) (fun _ => .inl (fun _ => rfl))
  | merged cid => exact promise_upsert h cid (fun _ => rfl) (fun _ => rfl)
  | disabled n => exact promise_upsert h n (fun _ => rfl) (fun _ => rfl)
  | finish outcome =>
    match outcome with
    | none => exact .of_same rfl rfl rfl rfl
    | some .completed => exact .of_same rfl rfl rfl rfl
    | some .failed => exact .of_same rfl rfl rfl rfl
    | some .retryWaiting => exact .of_same rfl rfl rfl rfl
  | _ => exact .of_same rfl rfl rfl rfl

lemma Sound.flowStep (h : Sound E w) (hstep : FlowStep w w') : Sound E w' := by
  cases hstep with
  | evaluated => exact h.record (fun _ => rfl) (fun _ => rfl)
  | chose => exact h.record (fun _ => rfl) (fun _ => rfl)
  | skip n =>
    unfold skipBranchNode
    refine Sound.record (Sound.upsert h n ?_ ?_) (fun _ => rfl) (fun _ => rfl)
    · exact fun _ => rfl
    exact fun _ => by simp
  | ensure n =>
    unfold ensureState
    split
    · exact h
    rename_i hcur
    exact h.create hcur (by simp)
  | reset n r =>
    unfold resetObject
    refine Sound.record (Sound.modifyObject h n r ?_ ?_) (fun _ => rfl) (fun _ => rfl)
    · exact fun _ => rfl
    exact fun s hs => absurd hs (by simp [NodeExecutionState.resetForIteration])
  | snapshot n r => exact h.modifyObject n r (fun _ => rfl) (fun s hs => ⟨hs, rfl⟩)
  | merged cid => exact h.upsert cid (fun _ => rfl) (fun _ => by simp)
  | disabled n => exact h.upsert n (fun _ => rfl) (fun _ => by simp)
  | finish outcome =>
    cases outcome with
    | none => exact h.alike ⟨rfl, rfl, fun _ => rfl, rfl, rfl, rfl⟩
    | some outcome => cases outcome <;> exact h.alike ⟨rfl, rfl, fun _ => rfl, rfl, rfl, rfl⟩
  | _ => exact h.alike ⟨rfl, rfl, fun _ => rfl, rfl, rfl, rfl⟩

end
end
end DeterminFlow.Engine
