/-
  Cron.Jobs
  **THE CRON JOBS AND THEIR NEXT RUNS.**

  An instant is a number of microseconds since the epoch.  A text is told
  apart by what `datetime.fromisoformat` reads in it, and `isoformat` writes
  the text that reads as the instant.  `croniter` and the hash of an id are
  parameters: nothing here depends on what they answer.

  A computed time is a `datetime` object.  `mark_job_run` and the tools turn
  it into a text before they store it in a job; the fast-forward of an overdue
  job does not.
-/
import Mathlib.Data.List.Basic

namespace DeterminFlow.Cron

/-! ## Times and texts -/

/-- A `datetime`: an instant, or a wall time without an offset. -/
inductive Stamp where
  | aware (instant : Int)
  | naive (wall : Int)
  deriving DecidableEq

/-- A text, by what Python reads in it. -/
inductive Text where
  | empty
  | iso (stamp : Stamp)
  /-- No ISO time. -/
  | other
  deriving DecidableEq

/-- `next_run_at` of a job object. -/
inductive NextRun where
  | null
  | text (text : Text)
  /-- A `datetime`, which JSON cannot hold. -/
  | object (stamp : Stamp)
  deriving DecidableEq

inductive PyError where
  | typeError
  | overflowError
  deriving DecidableEq

/-- The instants a `datetime` can hold. -/
def inRange (instant : Int) : Bool :=
  decide (-62135596800000000 ≤ instant ∧ instant ≤ 253402300799999999)

/-- `dt + timedelta(microseconds=delta)`. -/
def Stamp.add : Stamp → Int → Except PyError Stamp
  | .aware instant, delta =>
    if inRange (instant + delta) then .ok (.aware (instant + delta)) else .error .overflowError
  | .naive wall, delta =>
    if inRange (wall + delta) then .ok (.naive (wall + delta)) else .error .overflowError

def seconds (n : Int) : Int := n * 1000000

def minutes (n : Int) : Int := n * 60000000

/-- Python's truth of `next_run_at`. -/
def NextRun.isTrue : NextRun → Bool
  | .null => false
  | .text .empty => false
  | _ => true

/-- What `fromisoformat` reads in it. -/
def NextRun.parsed : NextRun → Option Stamp
  | .text (.iso stamp) => some stamp
  | _ => none

def Stamp.isoformat (stamp : Stamp) : NextRun := .text (.iso stamp)

/-! ## Jobs -/

inductive ScheduleKind where
  | once
  | interval
  | cron
  deriving DecidableEq

structure CronSchedule where
  kind : ScheduleKind
  atTime : Option Text := none
  everyMinutes : Option Int := none
  expr : Option String := none
  deriving DecidableEq

structure CronJob where
  id : String
  name : String
  prompt : String
  schedule : CronSchedule
  enabled : Bool := true
  agentType : String := "researcher"
  modelOverride : Option String := none
  silentOnEmpty : Bool := true
  maxTurns : Int := 50
  nextRunAt : NextRun := .null
  lastRunAt : Option Text := none
  lastStatus : Option String := none
  repeatLimit : Option Int := none
  completed : Int := 0
  deriving DecidableEq

/-- What `croniter(expr, base).get_next` does. -/
inductive CronAnswer where
  | next (instant : Int)
  /-- `KeyError` or `ValueError`. -/
  | badValue
  | typeError
  deriving DecidableEq

section
variable (croniter : String → Int → CronAnswer) (hash : String → Nat)

/-- `_get_period_seconds`, in microseconds; `clock` is the time it reads. -/
def periodOf (job : CronJob) (clock : Int) : Int :=
  match job.schedule.kind with
  | .once => 0
  | .interval => (job.schedule.everyMinutes.map minutes).getD 0
  | .cron =>
    match job.schedule.expr with
    | none => 0
    | some expr =>
      if expr = "" then 0
      else
        match croniter expr clock with
        | .next first =>
          match croniter expr first with
          | .next second => if 0 < second - first then second - first else seconds 3600
          | _ => seconds 3600
        | _ => seconds 3600

def intervalBase (job : CronJob) (base : Int) : Stamp :=
  match job.lastRunAt with
  | none => .aware base
  | some .empty => .aware base
  | some (.iso stamp) => stamp
  | some .other => job.nextRunAt.parsed.getD (.aware base)

/-- `_compute_next_run`. -/
def computeNext (job : CronJob) (base : Int) : Except PyError (Option Stamp) :=
  match job.schedule.kind with
  | .once =>
    match job.schedule.atTime with
    | some (.iso (.aware instant)) =>
      .ok (if instant ≤ base then none else some (.aware instant))
    -- a time without an offset cannot be compared with one that has it
    | some (.iso (.naive _)) => .error .typeError
    | _ => .ok none
  | .interval =>
    match job.schedule.everyMinutes with
    | none => .ok none
    | some every => ((intervalBase job base).add (minutes every)).map some
  | .cron =>
    match job.schedule.expr with
    | none => .ok none
    | some expr =>
      if expr = "" then .ok none
      else
        match croniter expr base with
        | .next instant => .ok (some (.aware instant))
        | .badValue => .ok none
        | .typeError => .error .typeError

/-- `compute_next_run`, the text of the time; in the tools the base is now. -/
def computeNextRun (job : CronJob) (base : Int) : Except PyError NextRun :=
  (computeNext croniter job base).map (fun next => (next.map Stamp.isoformat).getD .null)

/-- The offset of `_apply_jitter`: at most a tenth of the period, and less than
a minute. -/
def jitter (job : CronJob) (period : Int) : Int :=
  if period ≤ 0 then 0
  else
    let most := min (period / seconds 10) 60
    if most ≤ 0 then 0 else seconds ((hash job.id : Int) % most)

/-- One call of `mark_job_run`: the time it reads, the time its estimate of the
period reads, and whether saving the output raises (an empty output is not
saved). -/
structure Marking where
  now : Int
  clock : Int
  status : String
  outputFails : Bool := false
  deriving DecidableEq

/-- The limit of repetitions in `mark_job_run`. -/
def limited (job : CronJob) : CronJob :=
  if job.repeatLimit.any (fun limit => decide (limit ≤ job.completed)) then
    { job with enabled := false, nextRunAt := .null }
  else job

/-- `mark_job_run`: the job as it is left, and whether the call raises. -/
def markJobRun (job : CronJob) (m : Marking) : CronJob × Bool :=
  let job := { job with
    lastRunAt := some (.iso (.aware m.now))
    lastStatus := some m.status
    completed := job.completed + 1 }
  if job.schedule.kind = .once then
    (limited { job with enabled := false, nextRunAt := .null }, m.outputFails)
  else
    match computeNext croniter job m.now with
    | .error _ => (job, true)
    | .ok none => (limited { job with nextRunAt := .null }, m.outputFails)
    | .ok (some next) =>
      match next.add (jitter hash job (periodOf croniter job m.clock)) with
      | .error _ => (job, true)
      | .ok next => (limited { job with nextRunAt := next.isoformat }, m.outputFails)

/-- How the run of a job ends. -/
inductive RunOutcome where
  /-- `run_job` marks the job; the second marking is that of its `except`
  branch, should the first one raise. -/
  | marks (first again : Marking)
  /-- Something raises before the job is marked. -/
  | raises (again : Marking)
  deriving DecidableEq

/-- `run_job`, as far as the job is concerned. -/
def runJob (job : CronJob) : RunOutcome → CronJob
  | .raises again => (markJobRun croniter hash job again).1
  | .marks first again =>
    let marked := markJobRun croniter hash job first
    if marked.2 then (markJobRun croniter hash marked.1 again).1 else marked.1

/-! ## Due jobs -/

def doubleGrace (period : Int) : Int := min (max period (seconds 240)) (seconds 14400)

def beyondGrace (period now next : Int) : Bool :=
  decide (0 < period) && decide (doubleGrace period < 2 * (now - next))

/-- The loop of `get_due_jobs` for one job: the job as it is left, and whether
it is due. -/
def look (now clock : Int) (job : CronJob) : Except PyError (CronJob × Bool) :=
  if job.enabled && job.nextRunAt.isTrue then
    match job.nextRunAt.parsed with
    | none => .ok (job, false)
    | some (.naive _) => .error .typeError
    | some (.aware next) =>
      if next ≤ now then
        if beyondGrace (periodOf croniter job clock) now next then
          match computeNext croniter job now with
          | .error e => .error e
          | .ok none => .ok (job, false)
          | .ok (some stamp) => .ok ({ job with nextRunAt := .object stamp }, false)
        else .ok (job, true)
      else .ok (job, false)
  else .ok (job, false)

/-! ## The file -/

def isPlain (job : CronJob) : Bool :=
  match job.nextRunAt with
  | .object _ => false
  | _ => true

/-- `save_jobs`: the new file; `none` when it raises, because of an object that
JSON cannot hold or, where `saved` is false, because of the disk. -/
def saveJobs (jobs : List CronJob) (saved : Bool) : Option (List CronJob) :=
  if saved && jobs.all isPlain then some jobs else none

/-- What a tick meets of the world for one job. -/
structure Weather where
  /-- The time that the estimate of the period reads. -/
  clock : Int
  outcome : RunOutcome
  deriving DecidableEq

/-- A job after `get_due_jobs`. -/
structure Looked where
  job : CronJob
  due : Bool
  outcome : RunOutcome
  deriving DecidableEq

/-- `get_due_jobs`; an exception ends it. -/
def lookAll (now : Int) : List (CronJob × Weather) → Except PyError (List Looked)
  | [] => .ok []
  | (job, weather) :: rest =>
    match look croniter now weather.clock job with
    | .error e => .error e
    | .ok (job, due) =>
      match lookAll now rest with
      | .error e => .error e
      | .ok looked => .ok ({ job := job, due := due, outcome := weather.outcome } :: looked)

def Looked.ran (l : Looked) : CronJob :=
  if l.due then runJob croniter hash l.job l.outcome else l.job

/-- `_tick`: the file after it. -/
def tick (now : Int) (saved : Bool) (stored : List (CronJob × Weather)) : List CronJob :=
  let file := stored.map (·.1)
  match lookAll croniter now stored with
  | .error _ => file
  | .ok looked =>
    if looked.any (·.due) then
      (saveJobs (looked.map (Looked.ran croniter hash)) saved).getD file
    else file

end
end DeterminFlow.Cron
