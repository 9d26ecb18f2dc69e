/-
  Routing.OwnershipInvariant
  **WHY AN OWNER IS THE ONLY ONE.**

  Two generations of one executor never serve at the same time, because the
  lease is exclusive; and a file names a generation only when a client has
  had its identity.  So when a scan of the controller changes the owner of a
  task, the former owner has ended.
-/
import DeterminFlow.Routing.Ownership

namespace DeterminFlow.Routing

open Library DeterminFlow.Runtime Recovery List Fleet Dict Bool
open Option (bind_eq_some_iff isNone_iff_eq_none map_eq_some_iff some.inj)

/-! ## Owners -/

variable {g : ExecutorIdentity} {task task' : StoredTask} {executorId : String} {index : Nat}
  {sup : Supervisor}

lemma ownerOf_eq_some : ownerOf task = some g ↔ task.executorId = some g.executorId
      ∧ task.executorEpoch = some g.epoch := by
  unfold ownerOf
  cases g with
  | mk executorId =>
    cases hid : task.executorId with
    | none => simp
    | some =>
      cases hepoch : task.executorEpoch with
      | _ => simp

lemma ownerOf_congr (hid : task'.executorId = task.executorId)
    (hepoch : task'.executorEpoch = task.executorEpoch) : ownerOf task' = ownerOf task := by
  unfold ownerOf
  rw [hid, hepoch]

lemma ownerOf_bindTo (now : Timestamp) (task : StoredTask) (current : ExecutorIdentity) :
    ownerOf (bindTo now task current) = some current := rfl

lemma settleTask_spec (s : Fleet) (task : StoredTask) (current : ExecutorIdentity) :
    ownerOf (s.settleTask task current) = some current
      ∧ (s.settleTask task current).status = task.status
      ∧ (s.settleTask task current).mainTakeover = task.mainTakeover := by
  unfold settleTask
  split
  · rename_i hsame
    exact ⟨ownerOf_eq_some.2 hsame, rfl, rfl⟩
  exact ⟨rfl, rfl, rfl⟩

lemma identityOf_eq_some {pool : Pool} :
    pool.identityOf executorId = some g ↔ g.executorId = executorId ∧ ∃ sup,
      pool.supervisors.get? executorId = some sup ∧ sup.client = some g.epoch := by
  unfold Pool.identityOf
  cases g with
  | mk id epoch =>
    simp only [map_eq_some_iff, bind_eq_some_iff]
    constructor
    · intro h
      obtain ⟨_, ⟨sup, hsup, hclient⟩, heq⟩ := h
      cases heq
      exact ⟨rfl, sup, hsup, hclient⟩
    intro h
    obtain ⟨hid, sup, hsup, hclient⟩ := h
    exact ⟨epoch, ⟨sup, hsup, hclient⟩, by rw [← hid]⟩

lemma selectFrom_spec {s : Fleet} {pool : Pool} {tries : Nat} {found : ExecutorIdentity × Nat}
    (h : s.selectFrom pool tries index = some found) :
    pool.identityOf found.1.executorId = some found.1 := by
  induction tries generalizing index with
  | zero => cases h
  | succ tries ih =>
    unfold selectFrom at h
    split at h
    · rename_i identity hready
      cases h
      obtain ⟨executorId, _, hidentity⟩ := bind_eq_some_iff.1 hready
      unfold readyIdentity at hidentity
      split at hidentity
      · cases hidentity
      split at hidentity
      · have hid := (identityOf_eq_some.1 hidentity).1
        rw [← hid] at hidentity
        exact hidentity
      cases hidentity
    exact ih h

/-! ## The invariant -/

/-- **The processes**: the lease is exclusive, and nothing comes back. -/
structure Processes (s : Fleet) : Prop where
  exclusive : ∀ g ∈ s.live, ∀ other ∈ s.live, g.executorId = other.executorId → g = other
  waiting : ∀ g ∈ s.waiting, g ∉ s.live ∧ g ∉ s.dead
  dead : ∀ g ∈ s.dead, g ∉ s.live
  adopted : ∀ g ∈ s.adopted, g ∈ s.live ∨ g ∈ s.dead
  workers : ∀ g, g ∈ s.waiting ∨ g ∈ s.live → g.executorId ≠ "controller"

def Named (s : Fleet) (g : ExecutorIdentity) : Prop :=
  g ∉ s.waiting ∧ (g ∈ s.live → g ∈ s.adopted ∧ g.executorId ∈ s.recorded)

/-- **The files**: they name generations that clients have had, and what a
live generation has accepted is its own. -/
structure Files (s : Fleet) : Prop where
  named : ∀ key task g, s.tasks.get? key = some task → ownerOf task = some g → Named s g
  accepted : ∀ key g, (key, g) ∈ s.accepted → Named s g ∧ (g ∈ s.live ∨ g ∈ s.dead)
  held : ∀ key g task, (key, g) ∈ s.accepted → g ∈ s.live → s.tasks.get? key = some task →
    ownerOf task = some g
  once : ∀ key g other, (key, g) ∈ s.accepted → (key, other) ∈ s.accepted → g ∈ s.live →
    other ∈ s.live → g = other
  inline : ∀ key task, s.tasks.get? key = some task →
    task.mainTakeover = true ∨ task.status = .preRunning →
      task.executorId = none ∨ task.executorId = some "controller"

/-- **The pool**: of each executor only the current generation is live among
those that clients have had. -/
structure Supervised (s : Fleet) (pool : Pool) : Prop where
  retired : ∀ executorId ∈ pool.retired, ∀ g ∈ s.live, g.executorId ≠ executorId
  client : ∀ executorId sup, pool.supervisors.get? executorId = some sup → ∀ epoch,
    sup.client = some epoch → { executorId := executorId, epoch := epoch } ∈ s.adopted
  current : ∀ executorId sup, pool.supervisors.get? executorId = some sup → ∀ epoch,
    sup.process = some epoch ∨ sup.client = some epoch →
    { executorId := executorId, epoch := epoch } ∈ s.live
      ∨ { executorId := executorId, epoch := epoch } ∈ s.dead →
    ∀ g ∈ s.live, g.executorId = executorId → g ≠ { executorId := executorId, epoch := epoch } →
      g ∉ s.adopted
  members : ∀ executorId sup, pool.supervisors.get? executorId = some sup →
    executorId ∈ pool.executorIds
  workers : "controller" ∉ pool.executorIds
  opened : pool.started = true → s.recorded = pool.executorIds
    ∧ ∀ executorId ∈ pool.executorIds, (pool.identityOf executorId).isSome
  settled : pool.started = true → ∀ executorId sup epoch,
    pool.supervisors.get? executorId = some sup → sup.settled = true → sup.client = some epoch →
    ∀ key task, s.tasks.get? key = some task → reassignable task.status = true →
      task.executorId = some executorId → task.executorEpoch = some epoch

/-- **The invariant.** -/
structure Sound (s : Fleet) : Prop where
  processes : Processes s
  files : Files s
  pool : ∀ pool, s.pool = some pool → Supervised s pool

/-! ## Changing owners -/

variable {s s' : Fleet} {pool : Pool}

lemma Sound.client_adopted (h : Sound s) (hpool : s.pool = some pool)
    (hclient : pool.identityOf executorId = some g) :
    g ∈ s.adopted ∧ g.executorId = executorId ∧ executorId ∈ pool.executorIds := by
  obtain ⟨hid, sup, hsup, hepoch⟩ := identityOf_eq_some.1 hclient
  have hadopted := (h.pool pool hpool).client executorId sup hsup g.epoch hepoch
  rw [← hid] at hadopted
  exact ⟨hadopted, hid, (h.pool pool hpool).members executorId sup hsup⟩

lemma Sound.client_named (h : Sound s) (hpool : s.pool = some pool)
    (hstarted : pool.started = true) (hclient : pool.identityOf executorId = some g) :
    Named s g := by
  obtain ⟨hadopted, hid, hmem⟩ := h.client_adopted hpool hclient
  constructor
  · intro hwaiting
    have hnot := h.processes.waiting g hwaiting
    cases h.processes.adopted g hadopted with
    | inl hlive => exact hnot.1 hlive
    | inr hdead => exact hnot.2 hdead
  intro _
  refine ⟨hadopted, ?_⟩
  rw [hid, ((h.pool pool hpool).opened hstarted).1]
  exact hmem

lemma Sound.named_is_client (h : Sound s) (hpool : s.pool = some pool) {c : ExecutorIdentity}
    (hnamed : Named s g) (hlive : g ∈ s.live) (hclient : pool.identityOf g.executorId = some c) :
    g = c := by
  obtain ⟨hadopted, hid, _⟩ := h.client_adopted hpool hclient
  obtain ⟨_, sup, hsup, hepoch⟩ := identityOf_eq_some.1 hclient
  by_contra hne
  have hserved : c ∈ s.live ∨ c ∈ s.dead := h.processes.adopted c hadopted
  have hc : c = { executorId := g.executorId, epoch := c.epoch } := by
    rw [← hid]
  rw [hc] at hserved hne
  exact (h.pool pool hpool).current g.executorId sup hsup c.epoch (.inr hepoch) hserved g hlive
    rfl hne (hnamed.2 hlive).1

/-- What a write may make of the owner of a file. -/
inductive Rebound (s : Fleet) (key : String) (task' : StoredTask) : Prop
  /-- The owner stays. -/
  | same (task : StoredTask) (hget : s.tasks.get? key = some task)
      (howner : ownerOf task' = ownerOf task)
  /-- A task nobody has accepted gets a new owner, or none. -/
  | free (hfree : ∀ g, (key, g) ∈ s.accepted → g ∉ s.live)
      (howner : ∀ g, ownerOf task' = some g → Named s g)
  /-- A live generation writes what it has accepted. -/
  | own (g : ExecutorIdentity) (hlive : g ∈ s.live) (haccepted : (key, g) ∈ s.accepted)
      (howner : ownerOf task' = some g)

lemma Files.rebound (h : Files s) (hsame : s'.waiting = s.waiting ∧ s'.live = s.live
      ∧ s'.dead = s.dead ∧ s'.adopted = s.adopted ∧ s'.recorded = s.recorded
      ∧ s'.accepted = s.accepted)
    (hfiles : ∀ key task', s'.tasks.get? key = some task' → Rebound s key task')
    (hlocal : ∀ key task', s'.tasks.get? key = some task' →
      task'.mainTakeover = true ∨ task'.status = .preRunning →
        task'.executorId = none ∨ task'.executorId = some "controller") : Files s' := by
  obtain ⟨hwaiting, hlive, hdead, hadopted, hrecorded, haccepted⟩ := hsame
  have hnamed : ∀ g, Named s g → Named s' g := by
    intro g hg
    unfold Named
    rw [hwaiting, hlive, hadopted, hrecorded]
    exact hg
  constructor
  · intro key task' g hget howner
    apply hnamed
    cases hfiles key task' hget with
    | same task hbefore hsame =>
      rw [hsame] at howner
      exact h.named key task g hbefore howner
    | free _ hnew => exact hnew g howner
    | own writer hwriter hown hwrote =>
      rw [hwrote] at howner
      rw [← some.inj howner]
      exact (h.accepted key writer hown).1
  · intro key g hmem
    rw [haccepted] at hmem
    rw [hlive, hdead]
    exact ⟨hnamed g (h.accepted key g hmem).1, (h.accepted key g hmem).2⟩
  · intro key g task' hmem hg hget
    rw [haccepted] at hmem
    rw [hlive] at hg
    cases hfiles key task' hget with
    | same task hbefore hsame =>
      rw [hsame]
      exact h.held key g task hmem hg hbefore
    | free hfree => exact absurd hg (hfree g hmem)
    | own writer hwriter hown hwrote =>
      rw [hwrote, h.once key writer g hown hmem hwriter hg]
  · intro key g other hmem hother hg hlive'
    rw [haccepted] at hmem hother
    rw [hlive] at hg hlive'
    exact h.once key g other hmem hother hg hlive'
  exact hlocal

lemma Files.of_processes (h : Files s) (htasks : s'.tasks = s.tasks)
    (haccepted : s'.accepted = s.accepted)
    (hnamed : ∀ g, (∃ key task, s.tasks.get? key = some task ∧ ownerOf task = some g)
      ∨ (∃ key, (key, g) ∈ s.accepted) → Named s g → Named s' g)
    (hlive : ∀ g ∈ s'.live, Named s g → g ∈ s.live)
    (hserved : ∀ g, g ∈ s.live ∨ g ∈ s.dead → g ∈ s'.live ∨ g ∈ s'.dead) : Files s' := by
  constructor
  · intro key task g hget howner
    rw [htasks] at hget
    exact hnamed g (.inl ⟨key, task, hget, howner⟩) (h.named key task g hget howner)
  · intro key g hmem
    rw [haccepted] at hmem
    have hold := h.accepted key g hmem
    exact ⟨hnamed g (.inr ⟨key, hmem⟩) hold.1, hserved g hold.2⟩
  · intro key g task hmem hg hget
    rw [haccepted] at hmem
    rw [htasks] at hget
    exact h.held key g task hmem (hlive g hg (h.accepted key g hmem).1) hget
  · intro key g other hmem hother hg hlive'
    rw [haccepted] at hmem hother
    exact h.once key g other hmem hother (hlive g hg (h.accepted key g hmem).1)
      (hlive other hlive' (h.accepted key other hother).1)
  intro key task hget
  rw [htasks] at hget
  exact h.inline key task hget

lemma Supervised.of_files (h : Supervised s pool) (hlive : s'.live = s.live)
    (hdead : s'.dead = s.dead) (hadopted : s'.adopted = s.adopted)
    (hrecorded : s'.recorded = s.recorded) (hsettled : pool.started = true → ∀ executorId sup epoch,
      pool.supervisors.get? executorId = some sup → sup.settled = true →
      sup.client = some epoch → ∀ key task, s'.tasks.get? key = some task →
        reassignable task.status = true → task.executorId = some executorId →
        task.executorEpoch = some epoch) : Supervised s' pool := by
  constructor
  · rw [hlive]
    exact h.retired
  · rw [hadopted]
    exact h.client
  · rw [hlive, hdead, hadopted]
    exact h.current
  · exact h.members
  · exact h.workers
  · rw [hrecorded]
    exact h.opened
  exact hsettled

lemma identityOf_set (pool : Pool) (executorId other : String) (sup : Supervisor) :
    { pool with supervisors := pool.supervisors.set executorId sup }.identityOf other
      = if executorId = other then sup.client.map (fun epoch => ⟨other, epoch⟩)
        else pool.identityOf other := by
  unfold Pool.identityOf
  simp only [get?_set]
  split
  all_goals rfl

lemma get?_put {supervisors : Dict String Supervisor} {other : String} {found : Supervisor}
    (h : (supervisors.set executorId sup).get? other = some found) :
    (executorId = other ∧ sup = found)
      ∨ (executorId ≠ other ∧ supervisors.get? other = some found) := by
  rw [get?_set] at h
  split at h
  · rename_i heq
    exact .inl ⟨heq, some.inj h⟩
  rename_i hne
  exact .inr ⟨hne, h⟩

lemma Supervised.update (h : Supervised s pool) (hmem : executorId ∈ pool.executorIds)
    (hclient : ∀ epoch, sup.client = some epoch → ⟨executorId, epoch⟩ ∈ s.adopted)
    (hcurrent : ∀ epoch, sup.process = some epoch ∨ sup.client = some epoch →
      ⟨executorId, epoch⟩ ∈ s.live ∨ ⟨executorId, epoch⟩ ∈ s.dead →
      ∀ g ∈ s.live, g.executorId = executorId → g ≠ ⟨executorId, epoch⟩ → g ∉ s.adopted)
    (hopened : pool.started = true → sup.client.isSome)
    (hsettled : pool.started = true → sup.settled = true → ∀ epoch, sup.client = some epoch →
      ∀ key task, s.tasks.get? key = some task → reassignable task.status = true →
        task.executorId = some executorId → task.executorEpoch = some epoch) :
    Supervised s { pool with supervisors := pool.supervisors.set executorId sup } := by
  constructor
  · exact h.retired
  · intro other found hfound epoch hepoch
    obtain ⟨heq, hsup⟩ | ⟨_, hold⟩ := get?_put hfound
    · rw [← hsup] at hepoch
      rw [← heq]
      exact hclient epoch hepoch
    exact h.client other found hold epoch hepoch
  · intro other found hfound epoch hepoch
    obtain ⟨heq, hsup⟩ | ⟨_, hold⟩ := get?_put hfound
    · rw [← hsup] at hepoch
      rw [← heq]
      exact hcurrent epoch hepoch
    exact h.current other found hold epoch hepoch
  · intro other found hfound
    obtain ⟨heq, _⟩ | ⟨_, hold⟩ := get?_put hfound
    · rw [← heq]
      exact hmem
    exact h.members other found hold
  · exact h.workers
  · intro hstarted
    refine ⟨(h.opened hstarted).1, ?_⟩
    intro other hother
    rw [identityOf_set]
    split
    · simpa using hopened hstarted
    exact (h.opened hstarted).2 other hother
  intro hstarted other found epoch hfound hset hepoch
  obtain ⟨heq, hsup⟩ | ⟨_, hold⟩ := get?_put hfound
  · rw [← hsup] at hset hepoch
    rw [← heq]
    exact hsettled hstarted hset epoch hepoch
  exact h.settled hstarted other found epoch hold hset hepoch

lemma Supervised.client_isSome (h : Supervised s pool) (hstarted : pool.started = true)
    (hget : pool.supervisors.get? executorId = some sup) : sup.client.isSome := by
  have hidentity := (h.opened hstarted).2 executorId (h.members executorId sup hget)
  unfold Pool.identityOf at hidentity
  rw [hget] at hidentity
  simpa using hidentity

lemma withSupervisor_eq_some {update : Supervisor → Option Supervisor}
    (h : s.withSupervisor executorId update = some s') :
    ∃ pool sup sup', s.pool = some pool ∧ pool.supervisors.get? executorId = some sup
      ∧ update sup = some sup' ∧ s' = { s with pool := some { pool with
        supervisors := pool.supervisors.set executorId sup' } } := by
  unfold Fleet.withSupervisor at h
  obtain ⟨pool, hpool, h⟩ := bind_eq_some_iff.1 h
  obtain ⟨sup, hsup, h⟩ := bind_eq_some_iff.1 h
  obtain ⟨sup', hupdate, h⟩ := map_eq_some_iff.1 h
  exact ⟨pool, sup, sup', hpool, hsup, hupdate, h.symm⟩

lemma Sound.of_pool (h : Sound s) {next : Option Pool}
    (hnext : ∀ pool, next = some pool → Supervised s pool) : Sound { s with pool := next } := by
  constructor
  · exact ⟨h.processes.exclusive, h.processes.waiting, h.processes.dead, h.processes.adopted,
      h.processes.workers⟩
  · exact h.files.of_processes rfl rfl (fun _ _ hg => hg) (fun _ hg _ => hg) (fun _ hg => hg)
  intro pool hpool
  have hold := hnext pool hpool
  exact hold.of_files rfl rfl rfl rfl hold.settled

lemma Sound.withSupervisor (h : Sound s) {update : Supervisor → Option Supervisor}
    (hs : s.withSupervisor executorId update = some s')
    (hkeeps : ∀ sup sup', update sup = some sup' → sup'.process = sup.process
      ∧ sup'.client = sup.client ∧ (sup'.settled = true → sup.settled = true)) : Sound s' := by
  obtain ⟨pool, sup, sup', hpool, hget, hupdate, hs'⟩ := withSupervisor_eq_some hs
  obtain ⟨hprocess, hclient, hsettled⟩ := hkeeps sup sup' hupdate
  rw [hs']
  apply h.of_pool
  intro _ hnext
  cases hnext
  have hold := h.pool pool hpool
  apply hold.update (hold.members executorId sup hget)
  · rw [hclient]
    exact hold.client executorId sup hget
  · rw [hprocess, hclient]
    exact hold.current executorId sup hget
  · rw [hclient]
    exact fun hstarted => hold.client_isSome hstarted hget
  intro hstarted hset epoch hepoch
  rw [hclient] at hepoch
  exact hold.settled hstarted executorId sup epoch hget (hsettled hset) hepoch

/-! ## Processes -/

lemma controller_notMem_executorIds (count : Nat) : "controller" ∉ executorIds count := by
  intro hmem
  unfold executorIds at hmem
  obtain ⟨_, _, heq⟩ := mem_map.1 hmem
  have hchars := congrArg String.toList heq
  rw [String.toList_append] at hchars
  have hfirst := congrArg List.head? hchars
  have hworker : "workflow-executor-".toList
      = 'w' :: "orkflow-executor-".toList := by decide
  have hname : "controller".toList = 'c' :: "ontroller".toList := by decide
  rw [hworker, hname] at hfirst
  simp at hfirst

lemma sound_spawn (h : Sound s) {epoch : String}
    (hs : s.step (.spawn executorId epoch) = some s') : Sound s' := by
  unfold Fleet.step at hs
  simp only at hs
  split at hs
  · rename_i hfresh
    obtain ⟨_, hnext, hs⟩ := map_eq_some_iff.1 hs
    obtain ⟨pool, sup, sup', hpool, hget, hupdate, hnext⟩ := withSupervisor_eq_some hnext
    have hsup' : sup' = { sup with process := some epoch } := (some.inj hupdate).symm
    unfold freshEpoch at hfresh
    simp only [and_eq_true, all_eq_true, mem_append, bne_iff_ne, ne_eq] at hfresh
    obtain ⟨hprocesses, hfiles⟩ := hfresh
    have hnew : ∀ g, g ∈ s.live ∨ g ∈ s.dead → g ≠ ⟨executorId, epoch⟩ := by
      intro g hg heq
      apply hprocesses g
      · cases hg with
        | inl hlive => exact .inl (.inr hlive)
        | inr hdead => exact .inr hdead
      rw [heq]
    have hworker : executorId ≠ "controller" := by
      intro heq
      have hmem := (h.pool pool hpool).members executorId sup hget
      rw [heq] at hmem
      exact (h.pool pool hpool).workers hmem
    rw [← hs, hnext]
    constructor
    · constructor
      · exact h.processes.exclusive
      · intro g hg
        cases mem_cons.1 hg with
        | inl heq =>
          exact ⟨fun hlive => hnew g (.inl hlive) heq, fun hdead => hnew g (.inr hdead) heq⟩
        | inr hold => exact h.processes.waiting g hold
      · exact h.processes.dead
      · exact h.processes.adopted
      intro g hg
      cases hg with
      | inl hwaiting =>
        cases mem_cons.1 hwaiting with
        | inl heq =>
          rw [heq]
          exact hworker
        | inr hold => exact h.processes.workers g (.inl hold)
      | inr hlive => exact h.processes.workers g (.inr hlive)
    · refine h.files.of_processes rfl rfl ?_ (fun _ hg _ => hg) (fun _ hg => hg)
      intro g hknown hnamed
      have hother : g ≠ ⟨executorId, epoch⟩ := by
        cases hknown with
        | inl hfile =>
          obtain ⟨key, _, hfile, howner⟩ := hfile
          intro heq
          have hepoch := (ownerOf_eq_some.1 howner).2
          rw [heq] at hepoch
          exact hfiles _ (mem_of_get? hfile) hepoch
        | inr haccepted =>
          obtain ⟨key, hmem⟩ := haccepted
          exact hnew g (h.files.accepted key g hmem).2
      constructor
      · intro hwaiting
        cases mem_cons.1 hwaiting with
        | inl heq => exact hother heq
        | inr hold => exact hnamed.1 hold
      exact hnamed.2
    intro next' hnext'
    cases hnext'
    have hold := h.pool pool hpool
    have hupdated : Supervised s { pool with
        supervisors := pool.supervisors.set executorId sup' } := by
      apply hold.update (hold.members executorId sup hget)
      · rw [hsup']
        exact hold.client executorId sup hget
      · intro other hother hserved
        rw [hsup'] at hother
        cases hother with
        | inl hprocess =>
          -- the fresh process has not served yet
          rw [← some.inj hprocess] at hserved
          exact absurd rfl (hnew _ hserved)
        | inr hclient =>
          exact hold.current executorId sup hget other (.inr hclient) hserved
      · intro hstarted
        have hsome : sup.client.isSome := hold.client_isSome hstarted hget
        rw [hsup']
        exact hsome
      rw [hsup']
      intro hstarted hset other hother
      exact hold.settled hstarted executorId sup other hget hset hother
    exact hupdated.of_files rfl rfl rfl rfl hupdated.settled
  cases hs

lemma sound_acquire (h : Sound s) (hs : s.step (.acquire g) = some s') : Sound s' := by
  unfold Fleet.step at hs
  simp only at hs
  split at hs
  · rename_i hguard
    obtain ⟨hwaiting, hexclusive, hretired⟩ := hguard
    have hothers : ∀ other ∈ s.live, other.executorId ≠ g.executorId := by
      simpa using hexclusive
    have hnot := h.processes.waiting g hwaiting
    rw [← some.inj hs]
    constructor
    · constructor
      · intro one hone other hother hsame
        cases mem_cons.1 hone with
        | inl heq =>
          cases mem_cons.1 hother with
          | inl heq' => rw [heq, heq']
          | inr hold =>
            rw [heq] at hsame
            exact absurd hsame.symm (hothers other hold)
        | inr hold =>
          cases mem_cons.1 hother with
          | inl heq =>
            rw [heq] at hsame
            exact absurd hsame (hothers one hold)
          | inr hold' => exact h.processes.exclusive one hold other hold' hsame
      · intro other hother
        obtain ⟨hmem, hne⟩ := mem_filter.1 hother
        have hold := h.processes.waiting other hmem
        refine ⟨?_, hold.2⟩
        intro hlive
        cases mem_cons.1 hlive with
        | inl heq => simp [heq] at hne
        | inr hlive => exact hold.1 hlive
      · intro other hdead hlive
        cases mem_cons.1 hlive with
        | inl heq =>
          rw [heq] at hdead
          exact hnot.2 hdead
        | inr hlive => exact h.processes.dead other hdead hlive
      · intro other hadopted
        exact (h.processes.adopted other hadopted).imp_left (mem_cons_of_mem g)
      intro other hother
      apply h.processes.workers other
      cases hother with
      | inl hmem => exact .inl (mem_filter.1 hmem).1
      | inr hlive =>
        cases mem_cons.1 hlive with
        | inl heq =>
          rw [heq]
          exact .inl hwaiting
        | inr hold => exact .inr hold
    · refine h.files.of_processes rfl rfl ?_ ?_ ?_
      · intro other _ hnamed
        constructor
        · intro hmem
          exact hnamed.1 (mem_filter.1 hmem).1
        intro hlive
        cases mem_cons.1 hlive with
        | inl heq =>
          rw [heq] at hnamed
          exact absurd hwaiting hnamed.1
        | inr hold => exact hnamed.2 hold
      · intro other hlive hnamed
        cases mem_cons.1 hlive with
        | inl heq =>
          rw [heq] at hnamed
          exact absurd hwaiting hnamed.1
        | inr hold => exact hold
      intro other hserved
      exact hserved.imp_left (mem_cons_of_mem g)
    intro pool hpool
    have hold := h.pool pool hpool
    have hunadopted : g ∉ s.adopted := by
      intro hadopted
      cases h.processes.adopted g hadopted with
      | inl hlive => exact hnot.1 hlive
      | inr hdead => exact hnot.2 hdead
    constructor
    · intro executorId hmem other hlive
      cases mem_cons.1 hlive with
      | inl heq =>
        rw [heq]
        have hpool' : s.pool = some pool := hpool
        rw [hpool'] at hretired
        intro hsame
        rw [← hsame] at hmem
        simp [hmem] at hretired
      | inr hlive => exact hold.retired executorId hmem other hlive
    · exact hold.client
    · intro executorId sup hget epoch hepoch hserved other hlive hid hne hadopted
      cases mem_cons.1 hlive with
      | inl heq =>
        rw [heq] at hadopted
        exact hunadopted hadopted
      | inr hlive =>
        have hbefore : ⟨executorId, epoch⟩ ∈ s.live ∨ ⟨executorId, epoch⟩ ∈ s.dead := by
          cases hserved with
          | inl hnow =>
            cases mem_cons.1 hnow with
            | inl heq =>
              -- it has just taken the lease, so no other process of the executor is live
              exfalso
              apply hothers other hlive
              rw [hid, ← heq]
            | inr hthen => exact .inl hthen
          | inr hdead => exact .inr hdead
        exact hold.current executorId sup hget epoch hepoch hbefore other hlive hid hne hadopted
    · exact hold.members
    · exact hold.workers
    · exact hold.opened
    exact hold.settled
  cases hs

lemma sound_exit (h : Sound s) (hs : s.step (.exit g) = some s') : Sound s' := by
  unfold Fleet.step at hs
  simp only at hs
  split at hs
  · rename_i hlive
    rw [← some.inj hs]
    have hfewer : ∀ other, other ∈ s.live.filter (· ≠ g) → other ∈ s.live ∧ other ≠ g := by
      intro other hmem
      obtain ⟨hmem, hne⟩ := mem_filter.1 hmem
      exact ⟨hmem, by simpa using hne⟩
    have hserved : ∀ other, other ∈ s.live ∨ other ∈ s.dead →
        other ∈ s.live.filter (· ≠ g) ∨ other ∈ g :: s.dead := by
      intro other hother
      by_cases heq : other = g
      · rw [heq]
        exact .inr mem_cons_self
      cases hother with
      | inl hmem => exact .inl (mem_filter.2 ⟨hmem, by simpa using heq⟩)
      | inr hdead => exact .inr (mem_cons_of_mem g hdead)
    have hbefore : ∀ other, other ∈ s.live.filter (· ≠ g) ∨ other ∈ g :: s.dead →
        other ∈ s.live ∨ other ∈ s.dead := by
      intro other hother
      cases hother with
      | inl hmem => exact .inl (hfewer other hmem).1
      | inr hdead =>
        cases mem_cons.1 hdead with
        | inl heq =>
          rw [heq]
          exact .inl hlive
        | inr hdead => exact .inr hdead
    constructor
    · constructor
      · intro one hone other hother
        exact h.processes.exclusive one (hfewer one hone).1 other (hfewer other hother).1
      · intro other hmem
        have hold := h.processes.waiting other hmem
        refine ⟨fun hnow => hold.1 (hfewer other hnow).1, ?_⟩
        intro hdead
        cases mem_cons.1 hdead with
        | inl heq =>
          rw [heq] at hold
          exact hold.1 hlive
        | inr hdead => exact hold.2 hdead
      · intro other hdead hnow
        cases mem_cons.1 hdead with
        | inl heq => exact (hfewer other hnow).2 heq
        | inr hdead => exact h.processes.dead other hdead (hfewer other hnow).1
      · intro other hadopted
        exact hserved other (h.processes.adopted other hadopted)
      intro other hother
      exact h.processes.workers other (hother.imp_right (fun hnow => (hfewer other hnow).1))
    · refine h.files.of_processes rfl rfl ?_ ?_ ?_
      · intro other _ hnamed
        exact ⟨hnamed.1, fun hnow => hnamed.2 (hfewer other hnow).1⟩
      · intro other hnow _
        exact (hfewer other hnow).1
      exact hserved
    intro pool hpool
    have hold := h.pool pool hpool
    constructor
    · intro executorId hmem other hnow
      exact hold.retired executorId hmem other (hfewer other hnow).1
    · exact hold.client
    · intro executorId sup hget epoch hepoch hnow other hother
      exact hold.current executorId sup hget epoch hepoch (hbefore _ hnow) other
        (hfewer other hother).1
    · exact hold.members
    · exact hold.workers
    · exact hold.opened
    exact hold.settled
  split at hs
  · rw [← some.inj hs]
    have hfewer : ∀ other, other ∈ s.waiting.filter (· ≠ g) → other ∈ s.waiting :=
      fun other hmem => (mem_filter.1 hmem).1
    constructor
    · constructor
      · exact h.processes.exclusive
      · exact fun other hmem => h.processes.waiting other (hfewer other hmem)
      · exact h.processes.dead
      · exact h.processes.adopted
      exact fun other hother => h.processes.workers other (hother.imp_left (hfewer other))
    · refine h.files.of_processes rfl rfl ?_ ?_ ?_
      · intro other _ hnamed
        exact ⟨fun hmem => hnamed.1 (hfewer other hmem), hnamed.2⟩
      · exact fun _ hnow _ => hnow
      exact fun _ hserved => hserved
    intro pool hpool
    have hold := h.pool pool hpool
    exact hold.of_files rfl rfl rfl rfl hold.settled
  cases hs

lemma sound_adopt (h : Sound s) (hs : s.step (.adopt executorId) = some s') : Sound s' := by
  unfold Fleet.step at hs
  simp only at hs
  obtain ⟨pool, hpool, hs⟩ := bind_eq_some_iff.1 hs
  obtain ⟨sup, hget, hs⟩ := bind_eq_some_iff.1 hs
  obtain ⟨epoch, hprocess, hs⟩ := bind_eq_some_iff.1 hs
  split at hs
  · rename_i hserved
    rw [← some.inj hs]
    have hold := h.pool pool hpool
    constructor
    · constructor
      · exact h.processes.exclusive
      · exact h.processes.waiting
      · exact h.processes.dead
      · intro g hadopted
        cases mem_cons.1 hadopted with
        | inl heq =>
          rw [heq]
          exact hserved
        | inr hthen => exact h.processes.adopted g hthen
      exact h.processes.workers
    · refine h.files.of_processes rfl rfl ?_ ?_ ?_
      · intro g _ hnamed
        constructor
        · exact hnamed.1
        intro hlive
        obtain ⟨hadopted, hrecorded⟩ := hnamed.2 hlive
        exact ⟨mem_cons_of_mem _ hadopted, hrecorded⟩
      · exact fun _ hlive _ => hlive
      exact fun _ hthen => hthen
    intro next hnext
    cases hnext
    constructor
    · exact hold.retired
    · intro other found hfound e he
      obtain ⟨heq, hsup⟩ | ⟨_, hthen⟩ := get?_put hfound
      · rw [← hsup] at he
        rw [← heq, ← some.inj he]
        exact mem_cons_self
      exact mem_cons_of_mem _ (hold.client other found hthen e he)
    · intro other found hfound e he hnow g hlive hid hne hadopted
      obtain ⟨heq, hsup⟩ | ⟨hdiffers, hthen⟩ := get?_put hfound
      · -- process and client are the same now
        have hepoch : e = epoch := by
          rw [← hsup] at he
          cases he with
          | inl hproc => exact some.inj (hproc.symm.trans hprocess)
          | inr hclient => exact (some.inj hclient).symm
        rw [← heq, hepoch] at hne
        cases mem_cons.1 hadopted with
        | inl hself => exact hne hself
        | inr hbefore =>
          rw [← heq] at hid
          exact hold.current executorId sup hget epoch (.inl hprocess) hserved g hlive hid hne
            hbefore
      cases mem_cons.1 hadopted with
      | inl hself =>
        rw [hself] at hid
        exact hdiffers hid
      | inr hbefore => exact hold.current other found hthen e he hnow g hlive hid hne hbefore
    · intro other found hfound
      obtain ⟨heq, _⟩ | ⟨_, hthen⟩ := get?_put hfound
      · rw [← heq]
        exact hold.members executorId sup hget
      exact hold.members other found hthen
    · exact hold.workers
    · intro hstarted
      refine ⟨(hold.opened hstarted).1, ?_⟩
      intro other hother
      rw [identityOf_set]
      split
      · rfl
      exact (hold.opened hstarted).2 other hother
    intro hstarted other found e hfound hset he
    obtain ⟨_, hsup⟩ | ⟨_, hthen⟩ := get?_put hfound
    · rw [← hsup] at hset
      cases hset
    exact hold.settled hstarted other found e hthen hset he
  cases hs

/-! ## The pool -/

lemma sound_launch (h : Sound s) {count : Nat} (hs : s.step (.launch count) = some s') :
    Sound s' := by
  unfold Fleet.step at hs
  simp only at hs
  split at hs
  · rw [← some.inj hs]
    apply h.of_pool
    intro _ hpool
    cases hpool
    constructor
    · intro executorId hmem
      cases hmem
    · intro executorId sup hget
      cases hget
    · intro executorId sup hget
      cases hget
    · intro executorId sup hget
      cases hget
    · exact controller_notMem_executorIds count
    all_goals
      intro hstarted
      cases hstarted
  cases hs

lemma sound_halt (h : Sound s) (hs : s.step .halt = some s') : Sound s' := by
  rw [← some.inj hs]
  apply h.of_pool
  intro _ hpool
  cases hpool

lemma sound_retire (h : Sound s) (hs : s.step (.retire executorId) = some s') : Sound s' := by
  unfold Fleet.step at hs
  simp only at hs
  obtain ⟨pool, hpool, hs⟩ := bind_eq_some_iff.1 hs
  split at hs
  · rename_i hguard
    obtain ⟨_, _, hfree⟩ := hguard
    have hgone : ∀ g ∈ s.live, g.executorId ≠ executorId := by
      simpa using hfree
    have hold := h.pool pool hpool
    rw [← some.inj hs]
    apply h.of_pool
    intro next hnext
    cases hnext
    constructor
    · intro other hmem g hlive
      cases mem_cons.1 hmem with
      | inl heq =>
        rw [heq]
        exact hgone g hlive
      | inr hthen => exact hold.retired other hthen g hlive
    · exact hold.client
    · exact hold.current
    · exact hold.members
    · exact hold.workers
    · exact hold.opened
    exact hold.settled
  cases hs

lemma sound_supervise (h : Sound s) (hs : s.step (.supervise executorId) = some s') :
    Sound s' := by
  unfold Fleet.step at hs
  simp only at hs
  obtain ⟨pool, hpool, hs⟩ := bind_eq_some_iff.1 hs
  split at hs
  · rename_i hguard
    obtain ⟨hmem, hnew⟩ := hguard
    have hold := h.pool pool hpool
    rw [← some.inj hs]
    apply h.of_pool
    intro next hnext
    cases hnext
    apply hold.update hmem
    · intro epoch hclient
      cases hclient
    · intro epoch hnone
      cases hnone with
      | inl hprocess => cases hprocess
      | inr hclient => cases hclient
    · -- in a started pool every executor is supervised already
      intro hstarted
      have hsome := (hold.opened hstarted).2 executorId hmem
      unfold Pool.identityOf at hsome
      rw [isNone_iff_eq_none.1 hnew] at hsome
      cases hsome
    intro _ hset
    cases hset
  cases hs

/-! ## Task files -/

lemma Sound.rebound (h : Sound s) (hsame : s'.waiting = s.waiting ∧ s'.live = s.live
      ∧ s'.dead = s.dead ∧ s'.adopted = s.adopted ∧ s'.recorded = s.recorded
      ∧ s'.accepted = s.accepted)
    (hpool : ∀ next, s'.pool = some next → ∃ pool index, s.pool = some pool
      ∧ next = { pool with selectionIndex := index })
    (hfiles : ∀ key task', s'.tasks.get? key = some task' → Rebound s key task')
    (hlocal : ∀ key task', s'.tasks.get? key = some task' →
      task'.mainTakeover = true ∨ task'.status = .preRunning →
        task'.executorId = none ∨ task'.executorId = some "controller")
    (hsettled : ∀ pool, s.pool = some pool → pool.started = true → ∀ executorId sup epoch,
      pool.supervisors.get? executorId = some sup → sup.settled = true →
      sup.client = some epoch → ∀ key task, s'.tasks.get? key = some task →
        reassignable task.status = true → task.executorId = some executorId →
        task.executorEpoch = some epoch) : Sound s' := by
  have hfilesAfter := h.files.rebound hsame hfiles hlocal
  obtain ⟨hwaiting, hlive, hdead, hadopted, hrecorded, _⟩ := hsame
  constructor
  · constructor
    · rw [hlive]
      exact h.processes.exclusive
    · rw [hwaiting, hlive, hdead]
      exact h.processes.waiting
    · rw [hlive, hdead]
      exact h.processes.dead
    · rw [hadopted, hlive, hdead]
      exact h.processes.adopted
    rw [hwaiting, hlive]
    exact h.processes.workers
  · exact hfilesAfter
  intro next hnext
  obtain ⟨pool, index, hpool, hindex⟩ := hpool next hnext
  have hold := h.pool pool hpool
  have hafter := hold.of_files hlive hdead hadopted hrecorded (hsettled pool hpool)
  rw [hindex]
  exact ⟨hafter.retired, hafter.client, hafter.current, hafter.members, hafter.workers,
    hafter.opened, hafter.settled⟩

lemma Sound.set (h : Sound s) {key : String} (htasks : s'.tasks = s.tasks.set key task)
    (hsame : s'.waiting = s.waiting ∧ s'.live = s.live
      ∧ s'.dead = s.dead ∧ s'.adopted = s.adopted ∧ s'.recorded = s.recorded
      ∧ s'.accepted = s.accepted)
    (hpool : ∀ next, s'.pool = some next → ∃ pool index, s.pool = some pool
      ∧ next = { pool with selectionIndex := index }) (hrebound : Rebound s key task)
    (hlocal : task.mainTakeover = true ∨ task.status = .preRunning →
      task.executorId = none ∨ task.executorId = some "controller")
    (hsettled : ∀ pool, s.pool = some pool → pool.started = true → ∀ executorId sup epoch,
      pool.supervisors.get? executorId = some sup → sup.settled = true →
      sup.client = some epoch → reassignable task.status = true →
        task.executorId = some executorId → task.executorEpoch = some epoch) : Sound s' := by
  have hlook : ∀ other found, s'.tasks.get? other = some found →
      (other = key ∧ found = task) ∨ s.tasks.get? other = some found := by
    intro other found hfound
    rw [htasks, get?_set] at hfound
    split at hfound
    · rename_i heq
      exact .inl ⟨heq.symm, (some.inj hfound).symm⟩
    exact .inr hfound
  apply h.rebound hsame hpool
  · intro other found hfound
    obtain ⟨heq, hnew⟩ | hthen := hlook other found hfound
    · rw [heq, hnew]
      exact hrebound
    exact .same found hthen rfl
  · intro other found hfound
    obtain ⟨_, hnew⟩ | hthen := hlook other found hfound
    · rw [hnew]
      exact hlocal
    exact h.files.inline other found hthen
  intro pool hpool' hstarted executorId sup epoch hget hset hclient other found hfound
  obtain ⟨_, hnew⟩ | hthen := hlook other found hfound
  · rw [hnew]
    exact hsettled pool hpool' hstarted executorId sup epoch hget hset hclient
  exact (h.pool pool hpool').settled hstarted executorId sup epoch hget hset hclient other
    found hthen

lemma samePool (s : Fleet) : ∀ next, s.pool = some next → ∃ pool index, s.pool = some pool
    ∧ next = { pool with selectionIndex := index } :=
  fun next hnext => ⟨next, next.selectionIndex, hnext, rfl⟩

lemma Sound.unassigned (h : Sound s) {key : String} (hget : s.tasks.get? key = some task)
    (hnone : task.executorId = none) : ∀ g, (key, g) ∈ s.accepted → g ∉ s.live := by
  intro g hmem hlive
  have howner := (ownerOf_eq_some.1 (h.files.held key g task hmem hlive hget)).1
  rw [hnone] at howner
  cases howner

lemma Sound.inline_named (h : Sound s) : Named s inlineController :=
  ⟨fun hwaiting => h.processes.workers _ (.inl hwaiting) rfl,
    fun hlive => absurd rfl (h.processes.workers _ (.inr hlive))⟩

lemma sound_create (h : Sound s) {key : String} (hs : s.step (.create key task) = some s') :
    Sound s' := by
  unfold Fleet.step at hs
  simp only at hs
  split at hs
  · rename_i hguard
    obtain ⟨_, hfresh, hid, _⟩ := hguard
    have hunknown : ∀ g, (key, g) ∉ s.accepted := by
      intro g hmem
      have hne := all_eq_true.1 hfresh (key, g) hmem
      simp at hne
    rw [← some.inj hs]
    refine h.set rfl ⟨rfl, rfl, rfl, rfl, rfl, rfl⟩ (samePool s) ?_ ?_ ?_
    · apply Rebound.free
      · exact fun g hmem => absurd hmem (hunknown g)
      intro g howner
      rw [(ownerOf_eq_some.1 howner).1] at hid
      cases hid
    · exact fun _ => .inl hid
    intro pool _ _ executorId sup epoch _ _ _ _ hsome
    rw [hid] at hsome
    cases hsome
  cases hs

lemma sound_delete (h : Sound s) {key : String} (hs : s.step (.delete key) = some s') :
    Sound s' := by
  rw [← some.inj hs]
  have hlook : ∀ other found, Dict.get? (s.tasks.filter (fun entry => entry.1 != key)) other
      = some found → s.tasks.get? other = some found := by
    intro other found hfound
    rw [get?_filter_keys s.tasks (fun other => other != key)] at hfound
    split at hfound
    · exact hfound
    cases hfound
  refine h.rebound ⟨rfl, rfl, rfl, rfl, rfl, rfl⟩ (samePool s) ?_ ?_ ?_
  · intro other found hfound
    exact .same found (hlook other found hfound) rfl
  · intro other found hfound
    exact h.files.inline other found (hlook other found hfound)
  intro pool hpool hstarted executorId sup epoch hget hset hclient other found hfound
  exact (h.pool pool hpool).settled hstarted executorId sup epoch hget hset hclient other found
    (hlook other found hfound)

lemma Sound.locallyRun_id (h : Sound s) {key : String} (hget : s.tasks.get? key = some task)
    (hlocal : locallyRun task = true) :
    task.executorId = none ∨ task.executorId = some "controller" := by
  unfold locallyRun shouldDelegateTask at hlocal
  by_cases hcontroller : task.executorId = some "controller"
  · exact .inr hcontroller
  apply h.files.inline key task hget
  by_cases htakeover : task.mainTakeover = true
  · exact .inl htakeover
  right
  simpa [hcontroller, htakeover] using hlocal

lemma sound_edit (h : Sound s) {key : String} (hs : s.step (.edit key task') = some s') :
    Sound s' := by
  unfold Fleet.step at hs
  simp only at hs
  obtain ⟨pool, _, hs⟩ := bind_eq_some_iff.1 hs
  obtain ⟨task, hget, hs⟩ := bind_eq_some_iff.1 hs
  split at hs
  · rename_i hguard
    have hedit := hguard.2
    unfold mayEdit at hedit
    simp only [and_eq_true, or_eq_true, beq_iff_eq, isNone_iff_eq_none] at hedit
    obtain ⟨htakeover, hways⟩ := hedit
    rw [← some.inj hs]
    cases hways with
    | inl hkept =>
      obtain ⟨⟨hid, hepoch⟩, hwhy⟩ := hkept
      refine h.set rfl ⟨rfl, rfl, rfl, rfl, rfl, rfl⟩ (samePool s) ?_ ?_ ?_
      · exact .same task hget (ownerOf_congr hid hepoch)
      · intro hnow
        rw [hid]
        cases hwhy with
        | inl hlocal => exact h.locallyRun_id hget hlocal
        | inr hstatus =>
          rw [htakeover, hstatus] at hnow
          exact h.files.inline key task hget hnow
      intro pool' hpool' hstarted executorId sup epoch hsup hset hclient hstatus' hsome
      rw [hid] at hsome
      rw [hepoch]
      cases hwhy with
      | inl hlocal =>
        have hmem := (h.pool pool' hpool').members executorId sup hsup
        cases h.locallyRun_id hget hlocal with
        | inl hnone =>
          rw [hnone] at hsome
          cases hsome
        | inr hcontroller =>
          rw [hcontroller] at hsome
          rw [← some.inj hsome] at hmem
          exact absurd hmem (h.pool pool' hpool').workers
      | inr hstatus =>
        rw [hstatus] at hstatus'
        exact (h.pool pool' hpool').settled hstarted executorId sup epoch hsup hset hclient key
          task hget hstatus' hsome
    | inr hassigned =>
      obtain ⟨⟨_, hnone⟩, howner⟩ := hassigned
      have hnew := ownerOf_eq_some.1 howner
      refine h.set rfl ⟨rfl, rfl, rfl, rfl, rfl, rfl⟩ (samePool s) ?_ ?_ ?_
      · apply Rebound.free (h.unassigned hget hnone)
        intro g hg
        rw [howner] at hg
        rw [← some.inj hg]
        exact h.inline_named
      · exact fun _ => .inr hnew.1
      intro pool' hpool' _ executorId sup epoch hsup _ _ _ hsome
      rw [hnew.1] at hsome
      have hmem := (h.pool pool' hpool').members executorId sup hsup
      rw [← some.inj hsome] at hmem
      exact absurd hmem (h.pool pool' hpool').workers
  cases hs

lemma sound_write (h : Sound s) {key : String} (hs : s.step (.write g key task) = some s') :
    Sound s' := by
  unfold Fleet.step at hs
  simp only at hs
  split at hs
  · rename_i hguard
    obtain ⟨hlive, haccepted, howner, htakeover, hstatus⟩ := hguard
    rw [← some.inj hs]
    refine h.set rfl ⟨rfl, rfl, rfl, rfl, rfl, rfl⟩ (samePool s) ?_ ?_ ?_
    · exact .own g hlive haccepted howner
    · intro hnow
      cases hnow with
      | inl hyes =>
        rw [htakeover] at hyes
        cases hyes
      | inr hpre => exact absurd hpre hstatus
    intro pool hpool _ executorId sup epoch hsup _ hclient _ hsome
    obtain ⟨hid, hepoch⟩ := ownerOf_eq_some.1 howner
    rw [hid] at hsome
    have hidentity : pool.identityOf g.executorId = some ⟨g.executorId, epoch⟩ := by
      rw [identityOf_eq_some]
      refine ⟨rfl, sup, ?_, hclient⟩
      rw [some.inj hsome]
      exact hsup
    have hsame := h.named_is_client hpool (h.files.accepted key g haccepted).1 hlive hidentity
    rw [hepoch]
    exact congrArg (fun g : ExecutorIdentity => some g.epoch) hsame
  cases hs

lemma sound_route (h : Sound s) {key : String} (hs : s.step (.route key) = some s') :
    Sound s' := by
  unfold Fleet.step at hs
  simp only at hs
  obtain ⟨pool, hpool, hs⟩ := bind_eq_some_iff.1 hs
  obtain ⟨task, hget, hs⟩ := bind_eq_some_iff.1 hs
  split at hs
  · rename_i hguard
    obtain ⟨hstarted, hdelegate⟩ := hguard
    have hquiet : ∀ frames, Sound { s with frames := frames } := by
      intro frames
      refine h.rebound ⟨rfl, rfl, rfl, rfl, rfl, rfl⟩ (samePool s) ?_ ?_ ?_
      · exact fun other found hfound => .same found hfound rfl
      · exact h.files.inline
      exact fun pool' hpool' => (h.pool pool' hpool').settled
    rw [← some.inj hs]
    unfold routeTask
    split
    · split
      · exact h
      split
      · exact hquiet _
      exact h
    rename_i hnone
    split
    · exact h
    rename_i identity index hselected
    have hclient := selectFrom_spec hselected
    refine h.set rfl ⟨rfl, rfl, rfl, rfl, rfl, rfl⟩ ?_ ?_ ?_ ?_
    · intro next hnext
      cases hnext
      exact ⟨pool, index, hpool, rfl⟩
    · apply Rebound.free (h.unassigned hget hnone)
      intro g howner
      rw [ownerOf_bindTo] at howner
      rw [← some.inj howner]
      exact h.client_named hpool hstarted hclient
    · intro hnow
      exfalso
      unfold shouldDelegateTask at hdelegate
      simp only [and_eq_true, not_eq_true', bne_iff_ne, ne_eq] at hdelegate
      cases hnow with
      | inl htakeover =>
        have hno : task.mainTakeover = false := hdelegate.1.2
        have hyes : task.mainTakeover = true := htakeover
        rw [hno] at hyes
        cases hyes
      | inr hpre => exact hdelegate.2 hpre
    intro pool' hpool' _ executorId sup epoch hsup _ hepoch _ hsome
    have hsame : pool' = pool := some.inj (hpool'.symm.trans hpool)
    rw [hsame] at hsup
    obtain ⟨_, found, hfound, hcurrent⟩ := identityOf_eq_some.1 hclient
    have hid : identity.executorId = executorId := some.inj hsome
    rw [hid, hsup] at hfound
    rw [← some.inj hfound, hepoch] at hcurrent
    show some identity.epoch = some epoch
    rw [hcurrent]
  cases hs

/-! ## Handing over -/

lemma get?_reassign {now : Timestamp} {previous current : ExecutorIdentity}
    {tasks : Dict String StoredTask} {key : String}
    (h : (reassignDeadExecutorGeneration now previous current tasks).get? key = some task') :
    ∃ task, tasks.get? key = some task
      ∧ ((task.executorId = some previous.executorId ∧ task.executorEpoch ≠ some current.epoch
            ∧ reassignable task.status = true ∧ task' = bindTo now task current)
        ∨ (task' = task ∧ (reassignable task.status = true →
            task.executorId = some previous.executorId →
              task.executorEpoch = some current.epoch))) := by
  unfold reassignDeadExecutorGeneration reassignExecutorTasks at h
  rw [get?_mapValues] at h
  obtain ⟨task, hget, hmapped⟩ := map_eq_some_iff.1 h
  refine ⟨task, hget, ?_⟩
  by_cases hscanned : (reassignable task.status && (task.executorId == some previous.executorId
      && task.executorEpoch != some current.epoch)) = true
  · rw [if_pos hscanned] at hmapped
    left
    simp only [and_eq_true, beq_iff_eq, bne_iff_ne, ne_eq] at hscanned
    exact ⟨hscanned.2.1, hscanned.2.2, hscanned.1, hmapped.symm⟩
  rw [if_neg hscanned] at hmapped
  right
  refine ⟨hmapped.symm, ?_⟩
  intro hstatus hid
  by_contra hepoch
  apply hscanned
  simp [hstatus, hid, hepoch]

lemma sound_handOff (h : Sound s) {previousEpoch : String}
    (hs : s.step (.handOff executorId previousEpoch) = some s') : Sound s' := by
  unfold Fleet.step at hs
  simp only at hs
  obtain ⟨pool, hpool, hs⟩ := bind_eq_some_iff.1 hs
  split at hs
  · rename_i hstarted
    obtain ⟨current, hcurrent, hs⟩ := bind_eq_some_iff.1 hs
    obtain ⟨_, hnext, hs⟩ := map_eq_some_iff.1 hs
    obtain ⟨pool', sup, sup', hpool', hget, hupdate, hnext⟩ := withSupervisor_eq_some hnext
    have hsame : pool' = pool := some.inj (hpool'.symm.trans hpool)
    rw [hsame] at hget hnext
    have hsup' : sup' = { sup with settled := true } := (some.inj hupdate).symm
    obtain ⟨hid, _, hfound, hepoch⟩ := identityOf_eq_some.1 hcurrent
    rw [hget] at hfound
    rw [← some.inj hfound] at hepoch
    have hold := h.pool pool hpool
    -- what every reassignable task of the executor is bound to now
    have hbound : ∀ key task', (reassignDeadExecutorGeneration s.now
        ⟨executorId, previousEpoch⟩ current s.tasks).get? key = some task' →
        reassignable task'.status = true → task'.executorId = some executorId →
          task'.executorEpoch = some current.epoch := by
      intro key task' hget' hstatus hsome
      obtain ⟨task, _, ⟨_, _, _, hnew⟩ | ⟨hkept, hwhy⟩⟩ := get?_reassign hget'
      · rw [hnew]
        rfl
      rw [hkept] at hstatus hsome ⊢
      exact hwhy hstatus hsome
    have hscanned : Sound { s with
        tasks := reassignDeadExecutorGeneration s.now ⟨executorId, previousEpoch⟩ current s.tasks
        frames := { identity := current, operation := .recoverOwnedTasks } :: s.frames } := by
      refine h.rebound ⟨rfl, rfl, rfl, rfl, rfl, rfl⟩ (samePool s) ?_ ?_ ?_
      · intro key task' hget'
        obtain ⟨task, hthen, ⟨howned, hstale, _, hnew⟩ | ⟨hkept, _⟩⟩ := get?_reassign hget'
        · rw [hnew]
          apply Rebound.free
          · -- the former owner has ended
            intro g hmem hlive
            have hholds := ownerOf_eq_some.1 (h.files.held key g task hmem hlive hthen)
            have hgid : executorId = g.executorId :=
              some.inj (howned.symm.trans hholds.1)
            rw [hgid] at hcurrent
            have hclient := h.named_is_client hpool (h.files.accepted key g hmem).1 hlive hcurrent
            apply hstale
            rw [hholds.2, hclient]
          intro g howner
          rw [ownerOf_bindTo] at howner
          rw [← some.inj howner]
          exact h.client_named hpool hstarted hcurrent
        exact .same task hthen (by rw [hkept])
      · intro key task' hget' hnow
        obtain ⟨task, hthen, ⟨howned, _, _, hnew⟩ | ⟨hkept, _⟩⟩ := get?_reassign hget'
        · rw [hnew] at hnow
          have hinline := h.files.inline key task hthen hnow
          rw [howned] at hinline
          cases hinline with
          | inl hnone => cases hnone
          | inr hcontroller =>
            have hmem := hold.members executorId sup hget
            rw [show executorId = "controller" from some.inj hcontroller] at hmem
            exact absurd hmem hold.workers
        rw [hkept] at hnow ⊢
        exact h.files.inline key task hthen hnow
      intro pool'' hpool'' _ other found' epoch hother hset hclient key task' hget' hstatus hsome
      have hsame' : pool'' = pool := some.inj (hpool''.symm.trans hpool)
      rw [hsame'] at hother
      by_cases hthis : other = executorId
      · rw [hthis] at hother hsome
        rw [hget] at hother
        rw [← some.inj hother, hepoch] at hclient
        rw [hbound key task' hget' hstatus hsome, ← some.inj hclient]
      obtain ⟨task, hthen, ⟨_, _, _, hnew⟩ | ⟨hkept, _⟩⟩ := get?_reassign hget'
      · rw [hnew] at hsome
        have hboth : current.executorId = other := some.inj hsome
        rw [hid] at hboth
        exact absurd hboth.symm hthis
      rw [hkept] at hstatus hsome ⊢
      exact hold.settled hstarted other found' epoch hother hset hclient key task hthen
        hstatus hsome
    rw [← hs, hnext]
    apply hscanned.of_pool
    intro next' hnext'
    cases hnext'
    have hafter := hscanned.pool pool hpool
    apply hafter.update (hold.members executorId sup hget)
    · rw [hsup']
      exact hafter.client executorId sup hget
    · rw [hsup']
      exact hafter.current executorId sup hget
    · intro _
      rw [hsup', hepoch]
      rfl
    intro _ _ epoch hclient key task' hget' hstatus hsome
    rw [hsup', hepoch] at hclient
    rw [hbound key task' hget' hstatus hsome, ← some.inj hclient]
  cases hs

/-! ## Accepting -/

lemma Sound.accept (h : Sound s) (hlive : g ∈ s.live) {new : List (String × ExecutorIdentity)}
    {frames : List Frame}
    (hnew : ∀ entry ∈ new, entry.2 = g ∧ ∃ task, s.tasks.get? entry.1 = some task
      ∧ ownerOf task = some g) : Sound { s with frames :=frames, accepted := new ++ s.accepted } := by
  have hcases : ∀ key other, (key, other) ∈ new ++ s.accepted →
      (other = g ∧ ∃ task, s.tasks.get? key = some task ∧ ownerOf task = some g)
        ∨ (key, other) ∈ s.accepted := by
    intro key other hmem
    cases mem_append.1 hmem with
    | inl hfirst => exact .inl (hnew (key, other) hfirst)
    | inr hthen => exact .inr hthen
  constructor
  · exact ⟨h.processes.exclusive, h.processes.waiting, h.processes.dead, h.processes.adopted,
      h.processes.workers⟩
  · constructor
    · exact h.files.named
    · intro key other hmem
      obtain ⟨heq, task, hget, howner⟩ | hthen := hcases key other hmem
      · rw [heq]
        exact ⟨h.files.named key task g hget howner, .inl hlive⟩
      exact h.files.accepted key other hthen
    · intro key other task hmem hlive' hget
      obtain ⟨heq, _, hfound, howner⟩ | hthen := hcases key other hmem
      · rw [heq, ← howner, some.inj (hget.symm.trans hfound)]
      exact h.files.held key other task hthen hlive' hget
    · intro key one other hone hother hlive₁ hlive₂
      obtain ⟨heq, task, hget, howner⟩ | hthen := hcases key one hone
      · obtain ⟨heq', _⟩ | hthen' := hcases key other hother
        · rw [heq, heq']
        have hheld := h.files.held key other task hthen' hlive₂ hget
        rw [howner] at hheld
        rw [heq]
        exact some.inj hheld
      obtain ⟨heq', task, hget, howner⟩ | hthen' := hcases key other hother
      · have hheld := h.files.held key one task hthen hlive₁ hget
        rw [howner] at hheld
        rw [heq']
        exact (some.inj hheld).symm
      exact h.files.once key one other hthen hthen' hlive₁ hlive₂
    exact h.files.inline
  intro pool hpool
  have hold := h.pool pool hpool
  exact hold.of_files rfl rfl rfl rfl hold.settled

lemma acceptFrame_spec {frame : Frame} {entry : String × ExecutorIdentity}
    (hmem : entry ∈ s.acceptFrame g frame) : entry.2 = g ∧ ∃ task,
      s.tasks.get? entry.1 = some task ∧ ownerOf task = some g := by
  unfold acceptFrame at hmem
  split at hmem
  · cases hmem
  split at hmem
  · rename_i key _
    split at hmem
    · rename_i hany
      rw [Option.any_eq_true] at hany
      obtain ⟨task, hget, howner⟩ := hany
      rw [mem_singleton.1 hmem]
      exact ⟨rfl, task, hget, by simpa using howner⟩
    cases hmem
  obtain ⟨key, hkey, heq⟩ := mem_map.1 hmem
  have hany := (mem_filter.1 hkey).2
  rw [Option.any_eq_true] at hany
  obtain ⟨task, hget, howner⟩ := hany
  rw [and_eq_true, decide_eq_true_eq] at howner
  rw [← heq]
  exact ⟨rfl, task, hget, howner.1⟩

lemma sound_deliver (h : Sound s) {frame : Nat} (hs : s.step (.deliver frame g) = some s') :
    Sound s' := by
  unfold Fleet.step at hs
  simp only at hs
  obtain ⟨_, _, hs⟩ := bind_eq_some_iff.1 hs
  split at hs
  · rename_i hlive
    rw [← some.inj hs]
    exact h.accept hlive (fun entry hmem => acceptFrame_spec hmem)
  cases hs

lemma sound_awake (h : Sound s) {key : String} (hs : s.step (.awake g key) = some s') :
    Sound s' := by
  unfold Fleet.step at hs
  simp only at hs
  split at hs
  · rename_i hguard
    obtain ⟨hlive, hany⟩ := hguard
    rw [Option.any_eq_true] at hany
    obtain ⟨task, hget, howner⟩ := hany
    rw [← some.inj hs]
    have haccepted : Sound { s with
        frames := s.frames, accepted := [(key, g)] ++ s.accepted } := by
      apply h.accept hlive
      intro entry hmem
      rw [mem_singleton.1 hmem]
      exact ⟨rfl, task, hget, by simpa using howner⟩
    exact haccepted
  cases hs

/-! ## Reconciling -/

/-- What becomes of a task that the scan has passed. -/
inductive Reconciled (s : Fleet) (pool : Pool) (task task' : StoredTask) : Prop
  /-- It is left alone: not reassignable, or the controller's. -/
  | kept (hsame : task' = task) (hwhy : reassignable task.status = false
      ∨ task.mainTakeover = true ∨ task.executorId = some "controller")
  | taken (hnone : task.executorId = none) (htakeover : task.mainTakeover = true)
      (hnew : task' = bindTo s.now task inlineController)
  /-- It is bound to a member: its own one, if that is in the pool. -/
  | bound (current : ExecutorIdentity) (hclient : pool.identityOf current.executorId = some current)
      (howner : ownerOf task' = some current) (hstatus : task'.status = task.status)
      (htakeover : task'.mainTakeover = task.mainTakeover)
      (hreassigned : reassignable task.status = true)
      (hdelegated : ¬ (task.mainTakeover = true ∨ task.executorId = some "controller"))
      (hwhy : task.executorId = some current.executorId
        ∨ task.executorId.bind pool.identityOf = none)

lemma reconcileTask_spec {after : Nat}
    (h : s.reconcileTask pool index task = some (task', after)) : Reconciled s pool task task' := by
  unfold reconcileTask at h
  split at h
  · rename_i hstatus
    cases h
    exact .kept rfl (.inl hstatus)
  rename_i hstatus
  have hreassigned : reassignable task.status = true := by simpa using hstatus
  split at h
  · rename_i hcontroller
    split at h
    · rename_i hnone
      cases h
      have hid : task.executorId = none := isNone_iff_eq_none.1 hnone
      cases hcontroller with
      | inl htakeover => exact .taken hid htakeover rfl
      | inr hown =>
        rw [hid] at hown
        cases hown
    cases h
    exact .kept rfl (.inr hcontroller)
  rename_i hdelegated
  cases hfound : task.executorId.bind pool.identityOf with
  | some current =>
    rw [hfound] at h
    simp only at h
    obtain ⟨htask, _⟩ := Prod.mk.inj (some.inj h)
    obtain ⟨executorId, hid, hidentity⟩ := bind_eq_some_iff.1 hfound
    have hsame := (identityOf_eq_some.1 hidentity).1
    obtain ⟨howner, hstatus, htakeover⟩ := settleTask_spec s task current
    rw [htask] at howner hstatus htakeover
    rw [← hsame] at hid hidentity
    exact .bound current hidentity howner hstatus htakeover hreassigned hdelegated (.inl hid)
  | none =>
    rw [hfound] at h
    simp only at h
    obtain ⟨⟨current, _⟩, hselected, heq⟩ := map_eq_some_iff.1 h
    obtain ⟨htask, _⟩ := Prod.mk.inj heq
    obtain ⟨howner, hstatus, htakeover⟩ := settleTask_spec s task current
    rw [htask] at howner hstatus htakeover
    exact .bound current (selectFrom_spec hselected) howner hstatus htakeover hreassigned
      hdelegated (.inr hfound)

/-- **The scan** passes every file, or stops where `select_client` raises. -/
theorem reconcileFiles_spec {key : String} (files : Dict String StoredTask) :
    ∀ index, (s.reconcileFiles pool index files).1.get? key = some task' →
      ∃ task, files.get? key = some task ∧ (Reconciled s pool task task'
        ∨ (task' = task ∧ (s.reconcileFiles pool index files).2.2 = false)) := by
  induction files with
  | nil =>
    intro index h
    cases h
  | cons entry rest ih =>
    obtain ⟨name, task⟩ := entry
    intro index h
    unfold reconcileFiles at h ⊢
    cases hone : s.reconcileTask pool index task with
    | none =>
      rw [hone] at h
      exact ⟨task', h, .inr ⟨rfl, rfl⟩⟩
    | some found =>
      obtain ⟨first, after⟩ := found
      rw [hone] at h
      have hget : Dict.get? ((name, first) :: (s.reconcileFiles pool after rest).1) key
          = some task' := h
      rw [get?_cons] at hget ⊢
      by_cases hname : name = key
      · rw [if_pos hname] at hget ⊢
        rw [← some.inj hget]
        exact ⟨task, rfl, .inl (reconcileTask_spec hone)⟩
      rw [if_neg hname] at hget ⊢
      exact ih after hget

lemma Reconciled.owner (h : Reconciled s pool task task')
    (hstatus : reassignable task'.status = true) :
    task'.mainTakeover = true ∨ task'.executorId = some "controller"
      ∨ ∃ current, pool.identityOf current.executorId = some current
        ∧ ownerOf task' = some current := by
  cases h with
  | kept hsame hwhy =>
    rw [hsame] at hstatus ⊢
    obtain hno | htakeover | hcontroller := hwhy
    · rw [hno] at hstatus
      cases hstatus
    · exact .inl htakeover
    exact .inr (.inl hcontroller)
  | taken hnone htakeover hnew =>
    rw [hnew]
    exact .inr (.inl rfl)
  | bound current hclient howner => exact .inr (.inr ⟨current, hclient, howner⟩)

lemma identityOf_settled (pool : Pool) (index : Nat) (executorId : String) : { pool with
      started := true
      selectionIndex := index
      supervisors := pool.supervisors.mapValues (fun _ sup => { sup with settled := true })
      }.identityOf executorId = pool.identityOf executorId := by
  unfold Pool.identityOf
  simp only [get?_mapValues]
  cases pool.supervisors.get? executorId with
  | _ => rfl

lemma Supervised.settle (h : Supervised s pool) (index : Nat)
    (hclients : ∀ executorId ∈ pool.executorIds, (pool.identityOf executorId).isSome)
    (hsame : s'.live = s.live ∧ s'.dead = s.dead ∧ s'.adopted = s.adopted)
    (hrecorded : s'.recorded = pool.executorIds)
    (hlocal : ∀ key task', s'.tasks.get? key = some task' → task'.mainTakeover = true →
      task'.executorId = none ∨ task'.executorId = some "controller")
    (howners : ∀ key task', s'.tasks.get? key = some task' → reassignable task'.status = true →
      task'.mainTakeover = true ∨ task'.executorId = some "controller"
        ∨ ∃ current, pool.identityOf current.executorId = some current
          ∧ ownerOf task' = some current) : Supervised s' { pool with
      started := true
      selectionIndex := index
      supervisors := pool.supervisors.mapValues (fun _ sup => { sup with settled := true }) } := by
  obtain ⟨hlive, hdead, hadopted⟩ := hsame
  have hlook : ∀ executorId found, (pool.supervisors.mapValues
      (fun _ sup => ({ sup with settled := true } : Supervisor))).get? executorId = some found →
      ∃ sup, pool.supervisors.get? executorId = some sup ∧ found = { sup with settled := true } := by
    intro executorId found hfound
    rw [get?_mapValues] at hfound
    obtain ⟨sup, hget, heq⟩ := map_eq_some_iff.1 hfound
    exact ⟨sup, hget, heq.symm⟩
  constructor
  · rw [hlive]
    exact h.retired
  · intro executorId found hfound epoch hepoch
    obtain ⟨sup, hget, heq⟩ := hlook executorId found hfound
    rw [heq] at hepoch
    rw [hadopted]
    exact h.client executorId sup hget epoch hepoch
  · intro executorId found hfound epoch hepoch
    obtain ⟨sup, hget, heq⟩ := hlook executorId found hfound
    rw [heq] at hepoch
    rw [hlive, hdead, hadopted]
    exact h.current executorId sup hget epoch hepoch
  · intro executorId found hfound
    obtain ⟨sup, hget, _⟩ := hlook executorId found hfound
    exact h.members executorId sup hget
  · exact h.workers
  · intro _
    refine ⟨hrecorded, ?_⟩
    intro executorId hmem
    rw [identityOf_settled]
    exact hclients executorId hmem
  intro _ executorId found epoch hfound _ hepoch key task' hget' hstatus hsome
  obtain ⟨sup, hget, heq⟩ := hlook executorId found hfound
  have hmem := h.members executorId sup hget
  have hnot : task'.executorId ≠ some "controller" := by
    intro hcontroller
    rw [hcontroller] at hsome
    rw [← some.inj hsome] at hmem
    exact h.workers hmem
  obtain htakeover | hcontroller | ⟨current, hclient, howner⟩ := howners key task' hget' hstatus
  · cases hlocal key task' hget' htakeover with
    | inl hnone =>
      rw [hnone] at hsome
      cases hsome
    | inr hcontroller => exact absurd hcontroller hnot
  · exact absurd hcontroller hnot
  obtain ⟨hid, hcurrent⟩ := ownerOf_eq_some.1 howner
  obtain ⟨_, _, hsup', hcarries⟩ := identityOf_eq_some.1 hclient
  have hsame : current.executorId = executorId := some.inj (hid.symm.trans hsome)
  rw [hsame, hget] at hsup'
  rw [heq] at hepoch
  rw [← some.inj hsup'] at hcarries
  have hboth : some current.epoch = some epoch := hcarries.symm.trans hepoch
  rw [hcurrent, hboth]

/-- **A pool is opened.**  The owners of the tasks it rebinds have ended: those
of retired executors because their leases are held, those of members because
the members have new processes. -/
theorem sound_opened (h : Sound s) (hs : s.step .opened = some s') : Sound s' := by
  unfold Fleet.step at hs
  simp only at hs
  obtain ⟨pool, hpool, hs⟩ := bind_eq_some_iff.1 hs
  split at hs
  · rename_i hmay
    unfold mayOpen at hmay
    simp only [and_eq_true, not_eq_true', all_eq_true, or_eq_true, decide_eq_true_eq] at hmay
    obtain ⟨⟨_, hclients⟩, hleases⟩ := hmay
    have hold := h.pool pool hpool
    have hmember : ∀ g, Named s g → g ∈ s.live → g.executorId ∈ pool.executorIds := by
      intro g hnamed hlive
      cases hleases g.executorId (hnamed.2 hlive).2 with
      | inl hmem => exact hmem
      | inr hretired => exact absurd rfl (hold.retired g.executorId hretired g hlive)
    have hnamed : ∀ g, Named s g →
        Named { s with recorded := pool.executorIds, pool := none } g := by
      intro g hg
      exact ⟨hg.1, fun hlive => ⟨(hg.2 hlive).1, hmember g hg hlive⟩⟩
    have hbase : Files { s with recorded := pool.executorIds, pool := none } :=
      h.files.of_processes rfl rfl (fun g _ hg => hnamed g hg) (fun _ hlive _ => hlive)
        (fun _ hserved => hserved)
    have hpassed : ∀ key task', (s.reconcileFiles { pool with started := true }
        pool.selectionIndex s.tasks).1.get? key = some task' →
        ∃ task, s.tasks.get? key = some task
          ∧ (Reconciled s { pool with started := true } task task'
            ∨ (task' = task ∧ (s.reconcileFiles { pool with started := true }
              pool.selectionIndex s.tasks).2.2 = false)) :=
      fun key task' hget => reconcileFiles_spec s.tasks pool.selectionIndex hget
    have hlocal : ∀ key task', (s.reconcileFiles { pool with started := true }
        pool.selectionIndex s.tasks).1.get? key = some task' →
        task'.mainTakeover = true ∨ task'.status = .preRunning →
          task'.executorId = none ∨ task'.executorId = some "controller" := by
      intro key task' hget hnow
      obtain ⟨task, hthen, hreconciled | ⟨hkept, _⟩⟩ := hpassed key task' hget
      · cases hreconciled with
        | kept hsame =>
          rw [hsame] at hnow ⊢
          exact h.files.inline key task hthen hnow
        | taken _ _ hnew =>
          rw [hnew]
          exact .inr rfl
        | bound current _ _ hstatus htakeover hreassigned hdelegated =>
          exfalso
          rw [htakeover, hstatus] at hnow
          cases hnow with
          | inl hyes => exact hdelegated (.inl hyes)
          | inr hpre =>
            rw [hpre] at hreassigned
            cases hreassigned
      rw [hkept] at hnow ⊢
      exact h.files.inline key task hthen hnow
    rw [← some.inj hs]
    constructor
    · exact ⟨h.processes.exclusive, h.processes.waiting, h.processes.dead, h.processes.adopted,
        h.processes.workers⟩
    · refine hbase.rebound ⟨rfl, rfl, rfl, rfl, rfl, rfl⟩ ?_ hlocal
      intro key task' hget
      obtain ⟨task, hthen, hreconciled | ⟨hkept, _⟩⟩ := hpassed key task' hget
      · cases hreconciled with
        | kept hsame => exact .same task hthen (by rw [hsame])
        | taken hnone _ hnew =>
          rw [hnew]
          refine .free (h.unassigned hthen hnone) ?_
          intro g howner
          rw [ownerOf_bindTo] at howner
          rw [← some.inj howner]
          exact hnamed _ h.inline_named
        | bound current hclient howner _ _ _ _ hwhy =>
          by_cases hheld : ∃ g, (key, g) ∈ s.accepted ∧ g ∈ s.live
          · -- a live generation has accepted it, so it is bound to that one already
            obtain ⟨g, hmem, hlive⟩ := hheld
            have hholds := h.files.held key g task hmem hlive hthen
            have hname := (h.files.accepted key g hmem).1
            cases hwhy with
            | inl hown =>
              have hgid : current.executorId = g.executorId :=
                some.inj (hown.symm.trans (ownerOf_eq_some.1 hholds).1)
              have hcurrent : pool.identityOf g.executorId = some current := by
                rw [← hgid]
                exact hclient
              have hsame := h.named_is_client hpool hname hlive hcurrent
              exact .same task hthen (by rw [howner, hholds, hsame])
            | inr hnobody =>
              rw [(ownerOf_eq_some.1 hholds).1] at hnobody
              have hsome := hclients g.executorId (hmember g hname hlive)
              rw [show pool.identityOf g.executorId = none from hnobody] at hsome
              cases hsome
          apply Rebound.free
          · exact fun g hmem hlive => hheld ⟨g, hmem, hlive⟩
          intro g hg
          rw [howner] at hg
          rw [← some.inj hg]
          obtain ⟨hadopted, _, hmem⟩ := h.client_adopted hpool hclient
          constructor
          · intro hwaiting
            have hnot := h.processes.waiting current hwaiting
            cases h.processes.adopted current hadopted with
            | inl hlive => exact hnot.1 hlive
            | inr hdead => exact hnot.2 hdead
          exact fun _ => ⟨hadopted, hmem⟩
      exact .same task hthen (by rw [hkept])
    intro next hnext
    unfold openPool at hnext
    simp only at hnext
    split at hnext
    · rename_i hcomplete
      rw [← some.inj hnext]
      refine hold.settle _ hclients ⟨rfl, rfl, rfl⟩ rfl ?_ ?_
      · exact fun key task' hget htakeover => hlocal key task' hget (.inl htakeover)
      intro key task' hget hstatus
      obtain ⟨task, _, hreconciled | ⟨_, hstopped⟩⟩ := hpassed key task' hget
      · exact hreconciled.owner hstatus
      rw [hcomplete] at hstopped
      cases hstopped
    cases hnext
  cases hs

/-! ## Any run -/

theorem sound_step {e : Fleet.Event} (h : Sound s) (hs : s.step e = some s') : Sound s' := by
  cases e with
  | launch => exact sound_launch h hs
  | halt => exact sound_halt h hs
  | retire => exact sound_retire h hs
  | supervise => exact sound_supervise h hs
  | spawn => exact sound_spawn h hs
  | acquire => exact sound_acquire h hs
  | exit => exact sound_exit h hs
  | adopt => exact sound_adopt h hs
  | ready =>
    obtain ⟨pool, _, hmarked⟩ := bind_eq_some_iff.1 hs
    split at hmarked
    · cases hmarked
    apply h.withSupervisor hmarked
    intro sup sup' hupdate
    split at hupdate
    · rw [← some.inj hupdate]
      exact ⟨rfl, rfl, fun hset => hset⟩
    cases hupdate
  | opened => exact sound_opened h hs
  | restarting =>
    apply h.withSupervisor hs
    intro sup sup' hupdate
    rw [← some.inj hupdate]
    exact ⟨rfl, rfl, fun hset => hset⟩
  | handOff => exact sound_handOff h hs
  | handedOff =>
    obtain ⟨pool, _, hmarked⟩ := bind_eq_some_iff.1 hs
    split at hmarked
    · apply h.withSupervisor hmarked
      intro sup sup' hupdate
      split at hupdate
      · rw [← some.inj hupdate]
        exact ⟨rfl, rfl, fun hset => hset⟩
      cases hupdate
    cases hmarked
  | create => exact sound_create h hs
  | delete => exact sound_delete h hs
  | edit => exact sound_edit h hs
  | route => exact sound_route h hs
  | deliver => exact sound_deliver h hs
  | awake => exact sound_awake h hs
  | write => exact sound_write h hs

def Fleet.Run : Fleet → Fleet → Prop :=
  Relation.ReflTransGen (fun s s' => ∃ e, s.step e = some s')

lemma sound_run {s₀ : Fleet} (h : Sound s₀) (hrun : Fleet.Run s₀ s) : Sound s := by
  induction hrun with
  | refl => exact h
  | tail _ hstep ih =>
    obtain ⟨_, hs⟩ := hstep
    exact sound_step ih hs

end DeterminFlow.Routing
