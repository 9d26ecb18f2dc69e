/-
  Cron.Requests
  **THE REQUESTS OF THE CRONJOB TOOL THAT CHANGE JOBS.**

  Each of them loads the jobs, changes them and saves them without waiting in
  between.  A request that fails, by a message or by an exception, saves
  nothing.
-/
import DeterminFlow.Cron.Jobs

namespace DeterminFlow.Cron

/-! ## Arguments -/

/-- What `_parse_schedule` makes of the argument `schedule`. -/
inductive Parsed where
  /-- Not given, or empty. -/
  | absent
  | bad (raw : String)
  | good (schedule : CronSchedule)
  deriving DecidableEq

/-- The arguments of `create`; the id is that of `uuid4`, `now` and `clock` the
times read. -/
structure CreateArgs where
  prompt : Option String
  schedule : Parsed
  name : Option String := none
  agentType : Option String := none
  silentOnEmpty : Option Bool := none
  modelOverride : Option String := none
  maxTurns : Option Int := none
  repeatLimit : Option Int := none
  id : String
  now : Int
  clock : Int
  deriving DecidableEq

structure UpdateArgs where
  name : Option String := none
  prompt : Option String := none
  agentType : Option String := none
  modelOverride : Option String := none
  repeatLimit : Option Int := none
  silentOnEmpty : Option Bool := none
  maxTurns : Option Int := none
  enabled : Option Bool := none
  schedule : Parsed := .absent
  now : Int
  deriving DecidableEq

inductive Request where
  | create (args : CreateArgs)
  | update (jobId : Option String) (args : UpdateArgs)
  | pause (jobId : Option String)
  | resume (jobId : Option String) (now : Int)
  | remove (jobId : Option String)
  deriving DecidableEq

/-- `value or other` for a text. -/
def orText (value : Option String) (other : String) : String :=
  match value with
  | none => other
  | some text => if text = "" then other else text

/-- `value or other` for a number. -/
def orNumber (value : Option Int) (other : Int) : Int :=
  match value with
  | none => other
  | some n => if n = 0 then other else n

/-! ## The actions -/

section
variable (croniter : String → Int → CronAnswer) (hash : String → Nat)

def failed : String := "操作失败（详见服务日志）"

def ofPy {α : Type} (result : Except PyError α) : Except String α :=
  result.mapError (fun _ => failed)

def Stamp.instant : Stamp → Int
  | .aware instant => instant
  | .naive wall => wall

def onceEnabled (job : CronJob) (now : Int) : Text → Bool
  | .iso stamp => if stamp.instant < now then false else job.enabled
  | _ => job.enabled

/-- `add_job`: the job as it is added. -/
def addJob (job : CronJob) (now clock : Int) : Except PyError CronJob :=
  match job.schedule.kind, job.schedule.atTime.filter (· ≠ .empty) with
  | .once, some time =>
    .ok { job with nextRunAt := .text time, enabled := onceEnabled job now time }
  | _, _ =>
    match computeNext croniter job now with
    | .error e => .error e
    | .ok none => .ok job
    | .ok (some next) =>
      (next.add (jitter hash job (periodOf croniter job clock))).map
        (fun next => { job with nextRunAt := next.isoformat })

/-- `_action_create`, the new job. -/
def created (args : CreateArgs) : Except String CronJob :=
  if orText args.prompt "" = "" then .error "缺少 prompt"
  else
    match args.schedule with
    | .absent =>
      .error "缺少 schedule (格式: once:ISO时间 / interval:分钟数 / cron:cron表达式)"
    | .bad raw => .error ("无法解析 schedule: " ++ raw)
    | .good schedule =>
      let job : CronJob :=
        { id := args.id
          name := orText args.name "Unnamed"
          prompt := orText args.prompt ""
          schedule := schedule
          enabled := true
          agentType := orText args.agentType "researcher"
          silentOnEmpty := args.silentOnEmpty.getD true
          modelOverride := args.modelOverride
          maxTurns := orNumber args.maxTurns 50
          repeatLimit := args.repeatLimit }
      ofPy (addJob croniter hash job args.now args.clock)

/-- The fields that `_action_update` may set. -/
def setFields (args : UpdateArgs) (job : CronJob) : CronJob :=
  { job with
    name := args.name.getD job.name
    prompt := args.prompt.getD job.prompt
    agentType := args.agentType.getD job.agentType
    modelOverride := args.modelOverride <|> job.modelOverride
    repeatLimit := args.repeatLimit <|> job.repeatLimit
    silentOnEmpty := args.silentOnEmpty.getD job.silentOnEmpty
    maxTurns := args.maxTurns.getD job.maxTurns
    enabled := args.enabled.getD job.enabled }

/-- `_action_update`, on the job it finds. -/
def updated (args : UpdateArgs) (job : CronJob) : Except String CronJob :=
  match args.schedule with
  | .absent => .ok (setFields args job)
  | .bad raw => .error ("无法解析 schedule: " ++ raw)
  | .good schedule =>
    let job := { setFields args job with schedule := schedule }
    (ofPy (computeNextRun croniter job args.now)).map (fun next => { job with nextRunAt := next })

/-- `_action_pause`, on the job it finds. -/
def paused (job : CronJob) : Except String CronJob := .ok { job with enabled := false }

/-- `_action_resume`, on the job it finds. -/
def resumed (now : Int) (job : CronJob) : Except String CronJob :=
  let job := { job with enabled := true }
  (ofPy (computeNextRun croniter job now)).map (fun next => { job with nextRunAt := next })

def notFound (id : String) : String := "未找到任务 " ++ id

def updateFirst (id : String) (change : CronJob → Except String CronJob) :
    List CronJob → Except String (List CronJob)
  | [] => .error (notFound id)
  | job :: rest =>
    if job.id = id then (change job).map (· :: rest)
    else (updateFirst id change rest).map (job :: ·)

/-- `_action_remove`. -/
def removed (id : String) (jobs : List CronJob) : Except String (List CronJob) :=
  let left := jobs.filter (·.id ≠ id)
  if left.length = jobs.length then .error (notFound id) else .ok left

def requireJobId (jobId : Option String) : Except String String :=
  if orText jobId "" = "" then .error "缺少 job_id" else .ok (orText jobId "")

def act : Request → List CronJob → Except String (List CronJob)
  | .create args, jobs => (created croniter hash args).map (fun job => jobs ++ [job])
  | .update jobId args, jobs =>
    (requireJobId jobId).bind (fun id => updateFirst id (updated croniter args) jobs)
  | .pause jobId, jobs => (requireJobId jobId).bind (fun id => updateFirst id paused jobs)
  | .resume jobId now, jobs =>
    (requireJobId jobId).bind (fun id => updateFirst id (resumed croniter now) jobs)
  | .remove jobId, jobs => (requireJobId jobId).bind (fun id => removed id jobs)

def handle (request : Request) (saved : Bool) (file : List CronJob) : List CronJob × Bool :=
  match act croniter hash request file with
  | .error _ => (file, false)
  | .ok jobs =>
    match saveJobs jobs saved with
    | none => (file, false)
    | some jobs => (jobs, true)

lemma handle_unacknowledged {request : Request} {saved : Bool} {file : List CronJob}
    (h : (handle croniter hash request saved file).2 = false) :
    (handle croniter hash request saved file).1 = file := by
  rw [handle] at h ⊢
  split at h
  · rfl
  split at h
  · rfl
  cases h

lemma handle_acknowledged {request : Request} {saved : Bool} {file : List CronJob}
    (h : (handle croniter hash request saved file).2 = true) :
    act croniter hash request file = .ok (handle croniter hash request saved file).1
      ∧ (handle croniter hash request saved file).1.all isPlain = true := by
  rw [handle] at h ⊢
  split at h
  · cases h
  next jobs hact =>
  rw [hact]
  split at h
  · cases h
  next kept hsave =>
  rw [saveJobs] at hsave
  split at hsave
  · next hplain =>
    obtain rfl := Option.some.inj hsave
    rw [Bool.and_eq_true] at hplain
    exact ⟨rfl, hplain.2⟩
  cases hsave

end
end DeterminFlow.Cron
