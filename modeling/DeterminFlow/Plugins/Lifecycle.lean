/-
  Plugins.Lifecycle
  **STARTING, FAILING, STOPPING.**

  `start`, `stop` and the handlers of process exits are tasks that interleave at
  their awaits.  A handler stops the running dependents of an extension, one after
  the other, and degrades the extension last.
-/
import DeterminFlow.Plugins.LoadOrder

namespace DeterminFlow.Plugins.Extensions

open Library List

/-! ## Tasks -/

/-- Where the start of an extension awaits. -/
inductive Phase where
  /-- `run_extension_lifecycle` -/
  | lifecycle
  /-- `start_manifest_processes` -/
  | processes
  /-- `extension.start` -/
  | extension
  /-- `_run_health_checks` -/
  | health
  /-- `_register_owner_tools` -/
  | tools
  deriving DecidableEq

/-- `start` -/
inductive StartTask where
  | idle
  | awaiting (id : String) (phase : Phase) (rest : List String)
  /-- `_deactivate_owner` after an exception, or after a block -/
  | cleaning (id : String) (exc : Option String) (rest : List String)
  deriving DecidableEq

/-- `stop` -/
inductive StopTask where
  | idle
  | awaiting (id : String) (rest : List String)
  deriving DecidableEq

/-- `handle_managed_process_exit` -/
inductive Handler where
  /-- `starting.wait()`, for the event of one start -/
  | waiting (owner error : String) (attempt : Nat)
  /-- `_deactivate_owner` of a dependent -/
  | blocking (owner error dependent : String) (rest : List String)
  /-- `_deactivate_owner` of the owner -/
  | degrading (owner error : String)
  | done
  deriving DecidableEq

/-- The host and its tasks; `startCalls` lists the calls of `extension.start`. -/
structure Lifecycle where
  registry : Registry
  /-- the keys of `_extensions` -/
  extensions : List String
  started : List String := []
  stopping : Bool := false
  runtime : Bool := false
  degrading : List String := []
  /-- how many extensions were started so far; each start has an event of its own -/
  attempt : Nat := 0
  start : StartTask := .idle
  stop : StopTask := .idle
  handlers : List Handler := []
  startCalls : List String := []

/-- What happens: a call, or a task that goes on after an await. -/
inductive Event where
  | start
  | resumeStart (outcome : Except String Unit)
  | cleaned (cleanupError : String)
  | exit (owner error : String)
  | resumeHandler (i : Nat) (cleanupError : String)
  | stop
  | resumeStop (outcome : Except String Unit)

namespace Lifecycle

def setState (s : Lifecycle) (id : String) (status : Status) (error : String := "") : Lifecycle :=
  { s with registry := s.registry.setState id status error }

def status (s : Lifecycle) (id : String) : Option Status := s.registry.status id

/-- `_started_extensions.discard` -/
def discard (s : Lifecycle) (id : String) : Lifecycle :=
  { s with started := s.started.filter (fun x => x ≠ id) }

/-- The loop of `start`, to the next await. -/
def nextStart : List String → Lifecycle → Lifecycle
  | [], s => { s with start := .idle }
  | id :: rest, s =>
    if s.status id ≠ some .loaded then nextStart rest s
    else
      match s.registry.dependencyError id .running with
      | some error => nextStart rest (s.setState id .blocked error)
      | none =>
        { s.setState id .starting with
          attempt := s.attempt + 1, start := .awaiting id .lifecycle rest }

/-- `ensure_runtime_start_allowed`: the state after it, and whether it lets the start go on. -/
def ensureAllowed (s : Lifecycle) (id : String) : Lifecycle × Bool :=
  if s.status id = some .blocked then (s, false)
  else
    match s.registry.dependencyError id .running with
    | some error => (s.setState id .blocked error, false)
    | none => (s, true)

def advance (s : Lifecycle) (id : String) (rest : List String) : Phase → Lifecycle
  | .lifecycle => { s with start := .awaiting id .processes rest }
  | .processes =>
    { s with started := id :: s.started, startCalls := s.startCalls ++ [id],
             start := .awaiting id .extension rest }
  | .extension => { s with start := .awaiting id .health rest }
  | .health => { s with start := .awaiting id .tools rest }
  | .tools => nextStart rest (s.setState id .running)

/-- The start of an extension is given up; `_deactivate_owner` begins. -/
def giveUp (s : Lifecycle) (id : String) (exc : Option String) (rest : List String) : Lifecycle :=
  { s.discard id with start := .cleaning id exc rest }

/-- `_starting_extensions` has the extension. -/
def isStarting (s : Lifecycle) (id : String) : Bool :=
  match s.start with
  | .idle => false
  | .awaiting other _ _ => other = id
  | .cleaning other _ _ => other = id

end Lifecycle

def addDependent (r : Registry) (acc : List String) (candidate : String) : List String :=
  if (r.dependencies candidate).any (fun d => d ∈ acc) then candidate :: acc else acc

def affected (r : Registry) (owner : String) : List String := r.order.foldl (addDependent r) [owner]

def blockStarting (r : Registry) (owner : String) : Registry :=
  r.order.foldl (fun acc dependent =>
    if dependent ≠ owner ∧ dependent ∈ affected r owner ∧ acc.status dependent = some .starting then
      acc.setState dependent .blocked ("依赖扩展 " ++ owner ++ " 运行时失败")
    else acc) r

namespace Lifecycle

def cascade (owner error : String) : List String → Lifecycle → Lifecycle × Handler
  | [], s => (s.discard owner, .degrading owner error)
  | dependent :: rest, s =>
    if dependent = owner ∨ dependent ∉ affected s.registry owner
        ∨ s.status dependent ≠ some .running then cascade owner error rest s
    else (s.discard dependent, .blocking owner error dependent rest)

def setHandler (s : Lifecycle) (i : Nat) (h : Handler) : Lifecycle :=
  { s with handlers := s.handlers.set i h }

def wake (s : Lifecycle) (i : Nat) (owner error : String) : Lifecycle :=
  if s.runtime = false ∨ s.stopping = true ∨ owner ∈ s.degrading
      ∨ s.status owner ≠ some .running then s.setHandler i .done
  else
    let blocked := { s with degrading := owner :: s.degrading
                            registry := blockStarting s.registry owner }
    let next := cascade owner error s.registry.order.reverse blocked
    next.1.setHandler i next.2

/-- The loop of `stop`, to the next await. -/
def nextStop : List String → Lifecycle → Lifecycle
  | [], s => { s with stop := .idle, runtime := false }
  | id :: rest, s =>
    if id ∈ s.started then { s.discard id with stop := .awaiting id rest }
    else if id ∈ s.extensions ∧ s.status id = some .blocked then
      nextStop rest (s.setState id .loaded)
    else nextStop rest s

/-- **One step**: a call, or a task from one await to the next. -/
def step (strict : Bool) (s : Lifecycle) : Event → Option Lifecycle
  | .start =>
    match s.start with
    | .idle => some (nextStart s.registry.order { s with runtime := true, stopping := false })
    | _ => none
  | .resumeStart outcome =>
    match s.start with
    | .awaiting id phase rest =>
      match outcome with
      | .error exc => some (s.giveUp id (some exc) rest)
      | .ok _ =>
        let checked := s.ensureAllowed id
        some (if checked.2 then checked.1.advance id rest phase
          else checked.1.giveUp id none rest)
    | _ => none
  | .cleaned cleanupError =>
    match s.start with
    | .cleaning id (some exc) rest =>
      let after := s.setState id .degraded (exc ++ cleanupError)
      some (if strict then { after with start := .idle } else nextStart rest after)
    | .cleaning id none rest =>
      let error := ((s.registry.states.get? id).map (·.error)).getD ""
      some (nextStart rest
        (if cleanupError = "" then s else s.setState id .blocked (error ++ cleanupError)))
    | _ => none
  | .exit owner error =>
    let waiting := { s with handlers := s.handlers ++ [.waiting owner error s.attempt] }
    some (if s.isStarting owner then waiting else waiting.wake s.handlers.length owner error)
  | .resumeHandler i cleanupError =>
    match s.handlers[i]? with
    | some (.waiting owner error attempt) =>
      if s.isStarting owner ∧ s.attempt = attempt then none else some (s.wake i owner error)
    | some (.blocking owner error dependent rest) =>
      let next := cascade owner error rest
        (s.setState dependent .blocked ("依赖扩展 " ++ owner ++ " 运行时失败" ++ cleanupError))
      some (next.1.setHandler i next.2)
    | some (.degrading owner error) =>
      some ({ s.setState owner .degraded ("Plugin 托管进程异常退出: " ++ error ++ cleanupError) with
        degrading := s.degrading.filter (fun x => x ≠ owner) }.setHandler i .done)
    | _ => none
  | .stop =>
    match s.stop with
    | .idle => some (nextStop s.registry.order.reverse { s with stopping := true })
    | _ => none
  | .resumeStop outcome =>
    match s.stop with
    | .awaiting id rest =>
      let after :=
        match outcome with
        | .ok _ => s.setState id .loaded
        | .error exc => s.setState id .degraded ("扩展关闭失败: " ++ exc)
      some (nextStop rest { after with stop := .idle })
    | _ => none

end Lifecycle

/-! ## Cascades -/

section
variable {r : Registry} {owner : String}

lemma mem_foldl_affected {ids acc : List String} {x : String} (h : x ∈ acc) :
    x ∈ ids.foldl (addDependent r) acc := by
  induction ids generalizing acc with
  | nil => exact h
  | cons id rest ih =>
    apply ih
    unfold addDependent
    split
    · exact mem_cons_of_mem _ h
    exact h

lemma of_mem_foldl_affected {ids acc : List String} {x : String}
    (h : x ∈ ids.foldl (addDependent r) acc) : x ∈ acc ∨ x ∈ ids := by
  induction ids generalizing acc with
  | nil => exact .inl h
  | cons id rest ih =>
    rcases ih h with hacc | hrest
    · unfold addDependent at hacc
      split at hacc
      · rcases mem_cons.1 hacc with rfl | hacc
        · exact .inr mem_cons_self
        exact .inl hacc
      exact .inl hacc
    exact .inr (mem_cons_of_mem _ hrest)

lemma owner_mem_affected : owner ∈ affected r owner :=
  mem_foldl_affected (mem_singleton.2 rfl)

lemma mem_order_of_affected {x : String} (h : x ∈ affected r owner) : x = owner ∨ x ∈ r.order :=
  (of_mem_foldl_affected h).imp mem_singleton.1 (fun hx => hx)

lemma mem_affected (hnodup : r.order.Nodup) {d x : String} (hd : d ∈ affected r owner)
    (hdepends : d ∈ r.dependencies x) (hbefore : Before r.order d x) : x ∈ affected r owner := by
  obtain ⟨_, post, horder, hpre⟩ := hbefore
  unfold affected at hd ⊢
  rw [horder] at hd hnodup ⊢
  rw [foldl_append] at hd ⊢
  have hnew : d ∉ x :: post := fun hmem =>
    (nodup_append.1 hnodup).2.2 d hpre d hmem rfl
  have hearly := (of_mem_foldl_affected hd).resolve_right hnew
  rw [foldl_cons]
  apply mem_foldl_affected
  rw [addDependent, if_pos (any_eq_true.2 ⟨d, hdepends, decide_eq_true hearly⟩)]
  exact mem_cons_self

lemma Before.asymm {l : List String} (hnodup : l.Nodup) {a b : String} (hab : Before l a b) :
    ¬ Before l b a := by
  obtain ⟨pre, post, rfl, ha⟩ := hab
  rintro ⟨_, _, heq, hb⟩
  have hsplit := (nodup_append.1 hnodup)
  have hbpre : b ∉ pre := fun hmem => hsplit.2.2 b hmem b mem_cons_self rfl
  have hapost : a ∉ b :: post := fun hmem => hsplit.2.2 a ha a hmem rfl
  rcases append_eq_append_iff.1 heq with ⟨mid, _, hrest⟩ | ⟨mid, hpre, hrest⟩
  · -- `a` would stand after `b`
    have hamem : a ∈ b :: post := by
      rw [hrest]
      exact mem_append_right _ mem_cons_self
    exact hapost hamem
  exact hbpre (hpre ▸ mem_append_left _ hb)

lemma Before.reverse {l pre rest : List String} {a b : String} (h : l.reverse = pre ++ a :: rest)
    (hb : b ∈ rest) : Before l b a := by
  refine ⟨rest.reverse, pre.reverse, ?_, mem_reverse.2 hb⟩
  rw [← reverse_reverse l, h]
  simp

lemma blockStarting_spec (r : Registry) (owner : String) :
    (blockStarting r owner).order = r.order ∧ (blockStarting r owner).manifests = r.manifests
      ∧ ∀ x, (blockStarting r owner).status x = r.status x
        ∨ (r.status x = some .starting ∧ (blockStarting r owner).status x = some .blocked) := by
  unfold blockStarting
  have hfold : ∀ (ids : List String) (acc : Registry),
      let after := ids.foldl (fun acc dependent =>
        if dependent ≠ owner ∧ dependent ∈ affected r owner
            ∧ acc.status dependent = some .starting then
          acc.setState dependent .blocked ("依赖扩展 " ++ owner ++ " 运行时失败")
        else acc) acc
      after.order = acc.order ∧ after.manifests = acc.manifests
        ∧ ∀ x, after.status x = acc.status x
          ∨ (acc.status x = some .starting ∧ after.status x = some .blocked) := by
    intro ids
    induction ids with
    | nil => exact fun acc => ⟨rfl, rfl, fun _ => .inl rfl⟩
    | cons id rest ih =>
      intro acc
      simp only [foldl_cons]
      split
      · next hblock =>
        obtain ⟨horder, hmanifests, hstatus⟩ := ih
          (acc.setState id .blocked ("依赖扩展 " ++ owner ++ " 运行时失败"))
        refine ⟨horder, hmanifests, fun x => ?_⟩
        by_cases hx : x = id
        · subst hx
          rcases hstatus x with hsame | ⟨hstarting, -⟩
          · rw [status_setState, if_pos rfl] at hsame
            exact .inr ⟨hblock.2.2, hsame⟩
          rw [status_setState, if_pos rfl] at hstarting
          cases hstarting
        have hother := hstatus x
        rw [status_setState, if_neg hx] at hother
        exact hother
      exact ih acc
  exact hfold r.order r

end

section
variable {s : Lifecycle} {owner error : String}

def Skipped (s : Lifecycle) (owner x : String) : Prop :=
  x = owner ∨ x ∉ affected s.registry owner ∨ s.status x ≠ some .running

lemma cascade_spec (ids : List String) :
    (∃ d pre rest, ids = pre ++ d :: rest ∧ (∀ x ∈ pre, Skipped s owner x) ∧ ¬ Skipped s owner d
        ∧ s.cascade owner error ids = (s.discard d, .blocking owner error d rest))
      ∨ ((∀ x ∈ ids, Skipped s owner x)
        ∧ s.cascade owner error ids = (s.discard owner, .degrading owner error)) := by
  induction ids with
  | nil => exact .inr ⟨nofun, rfl⟩
  | cons id rest ih =>
    unfold Lifecycle.cascade
    by_cases hskip : id = owner ∨ id ∉ affected s.registry owner ∨ s.status id ≠ some .running
    · rw [if_pos hskip]
      rcases ih with ⟨d, pre, later, rfl, hpre, hd, hrun⟩ | ⟨hall, hrun⟩
      · refine .inl ⟨d, id :: pre, later, rfl, fun x hx => ?_, hd, hrun⟩
        rcases mem_cons.1 hx with rfl | hx
        · exact hskip
        exact hpre x hx
      refine .inr ⟨fun x hx => ?_, hrun⟩
      rcases mem_cons.1 hx with rfl | hx
      · exact hskip
      exact hall x hx
    rw [if_neg hskip]
    exact .inl ⟨id, [], rest, rfl, nofun, hskip, rfl⟩

end
end DeterminFlow.Plugins.Extensions
