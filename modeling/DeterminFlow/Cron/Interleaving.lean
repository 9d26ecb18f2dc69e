/-
  Cron.Interleaving
  **A TICK AND THE REQUESTS BESIDE IT.**

  A tick that runs jobs, and a request to run one now, hold a copy of the job
  list while their sessions go on, and write the whole copy back.  A request of
  the tool that comes in between is acknowledged and then overwritten.

  The log has the acknowledged requests and the recorded runs in their order;
  the file keeps them all if it is what the log makes of the first file.
-/
import DeterminFlow.Cron.Requests
import DeterminFlow.Cron.Tick
import DeterminFlow.Library.Runs

namespace DeterminFlow.Cron

open Library.Runs List
open Option (getD_some some.inj)

/-! ## The machine -/

/-- The copy that a tick, or a request to run a job, holds: the jobs it is done
with, and those still to come. -/
structure Held where
  done : List CronJob
  rest : List Looked
  deriving DecidableEq

def Held.copy (held : Held) : List CronJob := held.done ++ held.rest.map (·.job)

/-- What the file has to keep. -/
inductive Entry where
  | changed (request : Request)
  /-- The run of a job, the `namesakes`-th of those with its id. -/
  | ran (id : String) (namesakes : Nat) (outcome : RunOutcome)
  deriving DecidableEq

structure Scene where
  file : List CronJob
  held : Option Held := none
  log : List Entry := []
  deriving DecidableEq

inductive Event where
  | request (request : Request) (saved : Bool)
  /-- A tick loads the jobs. -/
  | tick (now : Int) (weather : Nat → Weather)
  /-- `_action_run` loads the jobs. -/
  | runNow (jobId : Option String) (outcome : RunOutcome)
  /-- The holder comes to the next job of its copy, and runs it if it is to. -/
  | proceed
  /-- The holder writes its copy back. -/
  | store (saved : Bool)

section
variable (croniter : String → Int → CronAnswer) (hash : String → Nat)

/-- The copy of `_action_run`: the first job with the id is to run. -/
def picked (id : String) (outcome : RunOutcome) : List CronJob → List Looked
  | [] => []
  | job :: rest =>
    if job.id = id then
      { job := job, due := true, outcome := outcome }
        :: rest.map (fun job => { job := job, due := false, outcome := outcome })
    else { job := job, due := false, outcome := outcome } :: picked id outcome rest

def loaded (weather : Nat → Weather) (file : List CronJob) : List (CronJob × Weather) :=
  file.zipIdx.map (fun e => (e.1, weather e.2))

def namesakes (id : String) (jobs : List CronJob) : Nat :=
  (jobs.filter (·.id = id)).length

def step (s : Scene) : Event → Option Scene
  | .request request saved =>
    let handled := handle croniter hash request saved s.file
    some { s with
      file := handled.1
      log := if handled.2 then s.log ++ [.changed request] else s.log }
  | .tick now weather =>
    match s.held with
    | some _ => none
    | none =>
      match lookAll croniter now (loaded weather s.file) with
      | .error _ => some s
      | .ok looked =>
        if looked.any (·.due) then some { s with held := some { done := [], rest := looked } }
        else some s
  | .runNow jobId outcome =>
    match s.held with
    | some _ => none
    | none =>
      match requireJobId jobId with
      | .error _ => some s
      | .ok id =>
        if s.file.any (·.id = id) then
          some { s with held := some { done := [], rest := picked id outcome s.file } }
        else some s
  | .proceed =>
    match s.held with
    | some ⟨done, l :: rest⟩ =>
      some { s with
        held := some { done := done ++ [l.ran croniter hash], rest := rest }
        log := if l.due then s.log ++ [.ran l.job.id (namesakes l.job.id done) l.outcome]
          else s.log }
    | _ => none
  | .store saved =>
    match s.held with
    | some ⟨done, []⟩ =>
      some { s with file := (saveJobs done saved).getD s.file, held := none }
    | _ => none

/-! ## What the file has to keep -/

def runNth (id : String) (outcome : RunOutcome) : Nat → List CronJob → List CronJob
  | _, [] => []
  | n, job :: rest =>
    if job.id = id then
      match n with
      | 0 => runJob croniter hash job outcome :: rest
      | n + 1 => job :: runNth id outcome n rest
    else job :: runNth id outcome n rest

def apply (jobs : List CronJob) : Entry → List CronJob
  | .changed request => ((act croniter hash request jobs).toOption).getD jobs
  | .ran id n outcome => runNth croniter hash id outcome n jobs

def replay (first : List CronJob) (log : List Entry) : List CronJob :=
  log.foldl (apply croniter hash) first

/-- **Nothing is lost** once no copy is held. -/
def Kept (first : List CronJob) (s : Scene) : Prop :=
  s.held = none → s.file = replay croniter hash first s.log

def movesOn (now clock : Int) (job : CronJob) : Bool :=
  match job.nextRunAt with
  | .text (.iso (.aware next)) =>
    job.enabled && decide (next ≤ now) && beyondGrace (periodOf croniter job clock) now next
      && (match computeNext croniter job now with
          | .ok (some _) => true
          | _ => false)
  | _ => false

/-- **A step that is in nobody's way**, told in the state before it. -/
def Undisturbed (s : Scene) : Event → Prop
  | .request request saved =>
    -- while a copy is held: refused, or what it asks for is so already
    ∀ held ∈ s.held,
      (handle croniter hash request saved s.file).2 = false
        ∨ act croniter hash request s.file = .ok s.file
          ∧ act croniter hash request held.copy = .ok held.copy
  | .tick now weather =>
    ∀ looked ∈ (lookAll croniter now (loaded weather s.file)).toOption,
      looked.any (·.due) = true →
        ∀ e ∈ loaded weather s.file, movesOn croniter now e.2.clock e.1 = false
  | .store saved => saved = true
  | _ => True

/-- The condition can be checked. -/
instance decidableUndisturbed (s : Scene) : ∀ e, Decidable (Undisturbed croniter hash s e)
  | .request request saved =>
    inferInstanceAs (Decidable (∀ held ∈ s.held,
      (handle croniter hash request saved s.file).2 = false
        ∨ act croniter hash request s.file = .ok s.file
          ∧ act croniter hash request held.copy = .ok held.copy))
  | .tick now weather =>
    inferInstanceAs (Decidable (∀ looked ∈ (lookAll croniter now (loaded weather s.file)).toOption,
      looked.any (·.due) = true →
        ∀ e ∈ loaded weather s.file, movesOn croniter now e.2.clock e.1 = false))
  | .store saved => inferInstanceAs (Decidable (saved = true))
  | .runNow _ _ => .isTrue trivial
  | .proceed => .isTrue trivial

/-! ## What a step keeps -/

/-- **The invariant.**  What is held is what the log makes of the first file; so
is the file when nothing is held. -/
structure Sound (first : List CronJob) (s : Scene) : Prop where
  plain : s.file.all isPlain = true
  idle : s.held = none → s.file = replay croniter hash first s.log
  copy : ∀ held, s.held = some held → held.copy = replay croniter hash first s.log
    ∧ held.copy.all isPlain = true

lemma replay_snoc (first : List CronJob) (log : List Entry) (entry : Entry) :
    replay croniter hash first (log ++ [entry])
      = apply croniter hash (replay croniter hash first log) entry := by
  rw [replay, foldl_append]
  rfl

variable {job : CronJob} {now : Int} {looked : List Looked} {s' s : Scene} {saved : Bool}

lemma isPlain_iff : isPlain job = true ↔ ∀ stamp, job.nextRunAt ≠ .object stamp := by
  rw [isPlain]
  cases job.nextRunAt with
  | object stamp => exact ⟨fun h => Bool.noConfusion h, fun h => absurd rfl (h stamp)⟩
  | _ => exact ⟨fun _ _ => NextRun.noConfusion, fun _ => rfl⟩

lemma runJob_plain (h : isPlain job = true) (outcome : RunOutcome) :
    isPlain (runJob croniter hash job outcome) = true := by
  rw [isPlain_iff] at h ⊢
  exact runJob_next croniter hash (P := fun next => ∀ stamp, next ≠ .object stamp)
    (fun _ => NextRun.noConfusion) (fun _ _ => NextRun.noConfusion) h outcome

lemma runNth_other {id : String} {other : CronJob} (hid : other.id ≠ id) (outcome : RunOutcome)
    (n : Nat) (back : List CronJob) : runNth croniter hash id outcome n (other :: back)
      = other :: runNth croniter hash id outcome n back := by
  cases n with
  | _ => rw [runNth, if_neg hid]

lemma runNth_append (outcome : RunOutcome) (front back : List CronJob) :
    runNth croniter hash job.id outcome (namesakes job.id front) (front ++ job :: back)
      = front ++ runJob croniter hash job outcome :: back := by
  induction front with
  | nil =>
    show runNth croniter hash job.id outcome 0 (job :: back) = _
    rw [runNth, if_pos rfl]
    rfl
  | cons other front ih =>
    rw [cons_append, cons_append]
    by_cases hid : other.id = job.id
    · have hcount : namesakes job.id (other :: front) = namesakes job.id front + 1 := by
        rw [namesakes, filter_cons_of_pos (by simpa using hid), length_cons]
        rfl
      rw [hcount, runNth, if_pos hid]
      exact congrArg (other :: ·) ih
    have hcount : namesakes job.id (other :: front) = namesakes job.id front := by
      rw [namesakes, filter_cons_of_neg (by simpa using hid)]
      rfl
    rw [hcount, runNth_other croniter hash hid]
    exact congrArg (other :: ·) ih

lemma look_still {clock : Int} {job' : CronJob} {due : Bool}
    (hlook : look croniter now clock job = .ok (job', due))
    (hstill : movesOn croniter now clock job = false) : job' = job := by
  rcases look_cases croniter hlook with ⟨-, hjob, -⟩ | ⟨hdue, _, htime, hcase⟩
  · exact hjob
  rcases hcase with ⟨-, hjob, -⟩ | ⟨hgrace, -, hjob | ⟨_, hcompute, -⟩⟩
  · exact hjob
  · exact hjob
  obtain ⟨henabled, _, hother, hle⟩ := hdue
  rw [htime] at hother
  obtain rfl := some.inj hother
  simp only [movesOn, htime, henabled, hle, decide_true, hgrace, hcompute,
    Bool.and_self] at hstill
  cases hstill

lemma loaded_jobs (weather : Nat → Weather) (file : List CronJob) :
    (loaded weather file).map (·.1) = file := by
  rw [loaded, map_map]
  exact zipIdx_map_fst 0 file

lemma lookAll_still {stored : List (CronJob × Weather)}
    (hlooked : lookAll croniter now stored = .ok looked)
    (hstill : ∀ e ∈ stored, movesOn croniter now e.2.clock e.1 = false) :
    looked.map (·.job) = stored.map (·.1) := by
  have hseen := (forall₂_and_left _ _).mpr ⟨hstill, lookAll_ok croniter hlooked⟩
  have hsame : List.Forall₂ (· = ·) (stored.map (·.1)) (looked.map (·.job)) := by
    rw [forall₂_map_left_iff, forall₂_map_right_iff]
    exact hseen.imp fun e _ h => (look_still croniter h.2.1 h.1).symm
  rw [forall₂_eq_eq_eq] at hsame
  exact hsame.symm

lemma picked_jobs (id : String) (outcome : RunOutcome) (file : List CronJob) :
    (picked id outcome file).map (·.job) = file := by
  induction file with
  | nil => rfl
  | cons job rest ih =>
    rw [picked]
    split
    · rw [map_cons, map_map]
      exact congrArg (job :: ·) (map_id rest)
    rw [map_cons, ih]

lemma request_kept {first : List CronJob} {request : Request} (h : Sound croniter hash first s)
    (hcalm : Undisturbed croniter hash s (.request request saved))
    (hstep : step croniter hash s (.request request saved) = some s') :
    Sound croniter hash first s' := by
  obtain rfl := some.inj hstep
  cases hack : (handle croniter hash request saved s.file).2 with
  | false =>
    have hfile := handle_unacknowledged croniter hash hack
    simp only [hfile, Bool.false_eq_true, if_false]
    exact h
  | true =>
    obtain ⟨hact, hplain⟩ := handle_acknowledged croniter hash hack
    simp only [if_true]
    constructor
    · exact hplain
    · intro hidle
      rw [replay_snoc, ← h.idle hidle]
      simp only [apply, hact, Except.toOption, getD_some]
    intro held hheld
    obtain ⟨hcopy, hcopyPlain⟩ := h.copy held hheld
    rcases hcalm held hheld with hrefused | ⟨-, hsame⟩
    · rw [hack] at hrefused
      cases hrefused
    rw [replay_snoc, ← hcopy]
    simp only [apply, hsame, Except.toOption, getD_some]
    exact ⟨trivial, hcopyPlain⟩

lemma Sound.hold {first : List CronJob} (h : Sound croniter hash first s) (hidle : s.held = none)
    (hcopy : looked.map (·.job) = s.file) : Sound croniter hash first { s with held :=some { done := [], rest := looked } } := by
  constructor
  · exact h.plain
  · intro hnone
    cases hnone
  intro held hheld
  obtain rfl := some.inj hheld
  have hfile : Held.copy { done := [], rest := looked } = s.file := by
    rw [Held.copy, nil_append, hcopy]
  rw [hfile]
  exact ⟨h.idle hidle, h.plain⟩

lemma tick_kept {first : List CronJob} {weather : Nat → Weather} (h : Sound croniter hash first s)
    (hcalm : Undisturbed croniter hash s (.tick now weather))
    (hstep : step croniter hash s (.tick now weather) = some s') :
    Sound croniter hash first s' := by
  simp only [step] at hstep
  split at hstep
  case h_1 => cases hstep
  case h_2 hidle =>
    cases hlooked : lookAll croniter now (loaded weather s.file) with
    | error =>
      simp only [hlooked] at hstep
      obtain rfl := some.inj hstep
      exact h
    | ok looked =>
      simp only [hlooked] at hstep
      split at hstep
      case isTrue hdue =>
        obtain rfl := some.inj hstep
        have hstill := hcalm looked (by rw [hlooked]; rfl) hdue
        have hcopy := lookAll_still croniter hlooked hstill
        rw [loaded_jobs] at hcopy
        exact h.hold croniter hash hidle hcopy
      case isFalse =>
        obtain rfl := some.inj hstep
        exact h

lemma runNow_kept {first : List CronJob} {jobId : Option String} {outcome : RunOutcome}
    (h : Sound croniter hash first s)
    (hstep : step croniter hash s (.runNow jobId outcome) = some s') :
    Sound croniter hash first s' := by
  simp only [step] at hstep
  split at hstep
  case h_1 => cases hstep
  case h_2 hidle =>
    split at hstep
    case h_1 =>
      obtain rfl := some.inj hstep
      exact h
    case h_2 id _ =>
      split at hstep
      case isTrue =>
        obtain rfl := some.inj hstep
        exact h.hold croniter hash hidle (picked_jobs id outcome s.file)
      case isFalse =>
        obtain rfl := some.inj hstep
        exact h

lemma proceed_kept {first : List CronJob} (h : Sound croniter hash first s)
    (hstep : step croniter hash s .proceed = some s') : Sound croniter hash first s' := by
  simp only [step] at hstep
  split at hstep
  case h_2 => cases hstep
  case h_1 done l rest hheld =>
    obtain rfl := some.inj hstep
    obtain ⟨hcopy, hplain⟩ := h.copy _ hheld
    have hparts : Held.copy { done := done, rest := l :: rest }
        = done ++ l.job :: rest.map (·.job) := rfl
    have hnext : Held.copy { done := done ++ [l.ran croniter hash], rest := rest }
        = done ++ l.ran croniter hash :: rest.map (·.job) := by
      rw [Held.copy, append_assoc]
      rfl
    rw [hparts] at hcopy hplain
    constructor
    · exact h.plain
    · intro hnone
      cases hnone
    intro _ hheld'
    obtain rfl := some.inj hheld'
    rw [hnext]
    cases hdue : l.due with
    | false =>
      -- the job is not run: the copy is what it was
      have hran : l.ran croniter hash = l.job := by
        rw [Looked.ran, hdue]
        rfl
      rw [hran]
      exact ⟨hcopy, hplain⟩
    | true =>
      have hran : l.ran croniter hash = runJob croniter hash l.job l.outcome := by
        rw [Looked.ran, hdue]
        rfl
      rw [hran]
      simp only [if_true]
      constructor
      · rw [replay_snoc, ← hcopy]
        exact (runNth_append croniter hash l.outcome done (rest.map (·.job))).symm
      rw [all_append, all_cons, Bool.and_eq_true, Bool.and_eq_true] at hplain ⊢
      exact ⟨hplain.1, runJob_plain croniter hash hplain.2.1 l.outcome, hplain.2.2⟩

lemma store_kept {first : List CronJob} (h : Sound croniter hash first s) (hsaved : saved = true)
    (hstep : step croniter hash s (.store saved) = some s') : Sound croniter hash first s' := by
  simp only [step] at hstep
  split at hstep
  case h_2 => cases hstep
  case h_1 done hheld =>
    obtain rfl := some.inj hstep
    obtain ⟨hcopy, hplain⟩ := h.copy _ hheld
    have hdone : Held.copy { done := done, rest := [] } = done := append_nil done
    rw [hdone] at hcopy hplain
    have hfile : (saveJobs done saved).getD s.file = done := by
      rw [saveJobs, hsaved, hplain]
      rfl
    simp only [hfile]
    constructor
    · exact hplain
    · exact fun _ => hcopy
    intro _ hnone
    cases hnone

lemma step_kept {first : List CronJob} (s : Scene) (e : Event) (s' : Scene)
    (h : Sound croniter hash first s) (hcalm : Undisturbed croniter hash s e)
    (hstep : step croniter hash s e = some s') : Sound croniter hash first s' := by
  cases e with
  | request => exact request_kept croniter hash h hcalm hstep
  | tick => exact tick_kept croniter hash h hcalm hstep
  | runNow => exact runNow_kept croniter hash h hstep
  | proceed => exact proceed_kept croniter hash h hstep
  | store => exact store_kept croniter hash h hcalm hstep

lemma start_sound {first : List CronJob} (hplain : first.all isPlain = true) :
    Sound croniter hash first { file := first } where
  plain := hplain
  idle _ := rfl
  copy held hheld := by cases hheld

/-- **In a run of undisturbed steps nothing is lost**: whenever no copy is held,
the file is what the acknowledged changes and the recorded runs, in their order,
make of the first file. -/
theorem changes_kept {first : List CronJob} (hplain : first.all isPlain = true)
    {events : List Event} (hcalm : Along (step croniter hash) (Undisturbed croniter hash) { file :=first } events) :
    Always (step croniter hash) (Kept croniter hash first) { file := first } events :=
  (always_of_along (step_kept croniter hash) (start_sound croniter hash hplain) hcalm).mono
    fun _ h => h.idle

end

def report : CronJob :=
  { hourly with id := "c0ffee12", nextRunAt := .text (.iso (.aware 7200000000)) }

def backup : CreateArgs where
  prompt := some "back up"
  schedule := .good { kind := .interval, everyMinutes := some 30 }
  id := "9c41aa07"
  now := 3600000000
  clock := 3600000000

def fine : Weather where
  clock := 3600000000
  outcome := .marks { now := 3660000000, clock := 3660000000, status := "success" }
    { now := 3660000000, clock := 3660000000, status := "error" }

/-- The same requests before and after a tick, and a pause of a paused job while
it runs. -/
theorem changes_kept_inTurn : Always (step (fun _ _ => .badValue) (fun _ => 0))
      (Kept (fun _ _ => .badValue) (fun _ => 0) [reminder, report]) { file := [reminder, report] }
      [.request (.create backup) true, .request (.pause (some "c0ffee12")) true,
        .tick 3600000000 (fun _ => fine), .request (.pause (some "c0ffee12")) true, .proceed,
        .proceed, .proceed, .store true, .request (.remove (some "77b0e5d2")) true] :=
  changes_kept (fun _ _ => .badValue) (fun _ => 0) (by decide) (by decide)

/-- **During a tick a job is created, the report is paused and the reminder is
removed**, each with success; after it the file has no such job, the report is
enabled, and the reminder is back. -/
theorem changes_lostByTick : ∃ s, run (step (fun _ _ => .badValue) (fun _ => 0)) { file :=[reminder, report] }
        [.tick 3600000000 (fun _ => fine), .request (.create backup) true,
          .request (.pause (some "c0ffee12")) true, .request (.remove (some "77b0e5d2")) true,
          .proceed, .proceed, .store true] = some s
      ∧ s.held = none
      ∧ s.log.take 3 = [.changed (.create backup), .changed (.pause (some "c0ffee12")),
        .changed (.remove (some "77b0e5d2"))]
      ∧ s.file.map (·.id) = ["77b0e5d2", "c0ffee12"]
      ∧ s.file.map (·.enabled) = [false, true]
      ∧ ¬ Kept (fun _ _ => .badValue) (fun _ => 0) [reminder, report] s := by
  refine ⟨_, rfl, rfl, by decide, by decide, by decide, fun hkept => ?_⟩
  have hids := congrArg (List.map (·.id)) (hkept rfl)
  revert hids
  decide

end DeterminFlow.Cron
