/-
  Cron.DueAlone
  **WHETHER A JOB IS DUE DEPENDS ON THAT JOB.**

  `get_due_jobs` looks at one job after the other, and an exception at one
  ends the look at all.  Two things raise: a time without an offset, which
  `create` stores as it was given, and the fast-forward of an overdue job to a
  time that no `datetime` holds.
-/
import DeterminFlow.Cron.Requests
import DeterminFlow.Cron.Tick

namespace DeterminFlow.Cron

open List

section
variable (croniter : String → Int → CronAnswer)

/-- The fast-forward finds a time, or that there is none. -/
def CanForward (now : Int) (job : CronJob) : Prop :=
  match job.schedule.kind with
  | .once => True
  | .interval => ∀ every, job.schedule.everyMinutes = some every →
      inRange ((intervalBase job now).instant + minutes every) = true
  | .cron => ∀ expr, job.schedule.expr = some expr → expr ≠ "" → croniter expr now ≠ .typeError

/-- **What `get_due_jobs` needs of a job.** -/
def Answers (now clock : Int) (job : CronJob) : Prop :=
  job.enabled = true → ∀ stamp, job.nextRunAt.parsed = some stamp →
    ∃ next, stamp = .aware next ∧ (next ≤ now →
      beyondGrace (periodOf croniter job clock) now next = true → CanForward croniter now job)

/-- The call returns, and says of every job what it says of that job alone. -/
def EachAlone (now : Int) (stored : List (CronJob × Weather)) : Prop :=
  ∃ looked, lookAll croniter now stored = .ok looked
    ∧ List.Forall₂ (fun e l => lookAll croniter now [e] = .ok [l]) stored looked

variable {croniter} {now clock : Int} {job : CronJob}

lemma add_ok_iff {stamp : Stamp} {delta : Int} :
    (∃ sum, stamp.add delta = .ok sum) ↔ inRange (stamp.instant + delta) = true := by
  cases stamp with
  | aware t | naive t =>
    by_cases h : inRange (t + delta) = true <;> simp [Stamp.add, Stamp.instant, h]

/-- A schedule without a period is never beyond its grace. -/
lemma not_beyondGrace_once {next : Int} (h : job.schedule.kind = .once) :
    beyondGrace (periodOf croniter job clock) now next = false := by
  simp [beyondGrace, periodOf, h]

lemma computeNext_ok_iff (hkind : job.schedule.kind ≠ .once) :
    (∃ next, computeNext croniter job now = .ok next) ↔ CanForward croniter now job := by
  unfold computeNext CanForward
  cases hk : job.schedule.kind with
  | once => exact absurd hk hkind
  | interval =>
    cases job.schedule.everyMinutes with
    | none => simp
    | some every =>
      simp only [Option.some.injEq, forall_eq', ← add_ok_iff]
      cases (intervalBase job now).add (minutes every) <;> simp [Except.map]
  | cron =>
    cases job.schedule.expr with
    | none => simp
    | some expr =>
      by_cases hempty : expr = ""
      · simp [hempty]
      cases hnext : croniter expr now <;> simp [hempty, hnext]

/-- **One job**: the look raises unless the job answers. -/
theorem look_ok_iff :
    (∃ seen, look croniter now clock job = .ok seen) ↔ Answers croniter now clock job := by
  unfold Answers
  by_cases henabled : job.enabled = true
  · rcases hparsed : job.nextRunAt.parsed with _ | stamp
    · -- nothing to compare: the job is left alone
      simp only [look, hparsed]
      split <;> simp
    have htrue : job.nextRunAt.isTrue = true := by
      rw [NextRun.parsed_some hparsed]
      cases stamp <;> rfl
    simp only [look, henabled, htrue, hparsed, Bool.and_self, if_true, forall_const,
      Option.some.injEq, forall_eq']
    cases stamp with
    | naive => simp
    | aware next =>
      simp only [Stamp.aware.injEq, exists_eq_left']
      by_cases hle : next ≤ now
      · by_cases hgrace : beyondGrace (periodOf croniter job clock) now next = true
        · have hkind : job.schedule.kind ≠ .once := by
            intro h
            rw [not_beyondGrace_once h] at hgrace
            cases hgrace
          rw [← computeNext_ok_iff hkind]
          simp only [hle, hgrace, if_true, forall_const]
          rcases computeNext croniter job now with e | _ | stamp <;> simp
        simp [hle, hgrace]
      simp [hle]
  simp [look, henabled]

lemma lookAll_single {e : CronJob × Weather} {l : Looked} :
    lookAll croniter now [e] = .ok [l] ↔ SeenAs croniter now e l := by
  constructor
  · intro h
    cases lookAll_ok croniter h with
    | cons hseen => exact hseen
  rintro ⟨hlook, houtcome⟩
  simp only [lookAll, hlook, ← houtcome]

/-- **The jobs, one by one**: `get_due_jobs` returns and says of every job what
it says of that job alone, exactly when every job answers. -/
theorem due_alone_iff (croniter : String → Int → CronAnswer) (now : Int)
    (stored : List (CronJob × Weather)) :
    EachAlone croniter now stored ↔ ∀ e ∈ stored, Answers croniter now e.2.clock e.1 := by
  constructor
  · rintro ⟨looked, -, halone⟩
    induction halone with
    | nil => simp
    | cons hsingle _ ih =>
      refine forall_mem_cons.2 ⟨look_ok_iff.1 ?_, ih⟩
      exact ⟨_, (lookAll_single.1 hsingle).1⟩
  intro hanswers
  cases hall : lookAll croniter now stored with
  | error err =>
    obtain ⟨e, he, err, hraises⟩ := lookAll_error croniter hall
    obtain ⟨_, hseen⟩ := look_ok_iff.2 (hanswers e he)
    rw [hraises] at hseen
    cases hseen
  | ok looked =>
    exact ⟨looked, hall, (lookAll_ok croniter hall).imp fun _ _ => lookAll_single.2⟩

end

/-- `once:2026-01-01T08:00:00`, asked for in the year 2025. -/
def withoutOffset : CreateArgs where
  prompt := some "news"
  schedule := .good { kind := .once, atTime := some (.iso (.naive 1767254400000000)) }
  id := "job-1"
  now := 1735689600000000
  clock := 1735689600000000

/-- The job is stored, and the next look raises. -/
theorem withoutOffset_raises :
    ¬ ∀ (croniter : String → Int → CronAnswer) (hash : String → Nat) (args : CreateArgs)
        (weather : CronJob → Weather) (jobs : List CronJob) (now : Int),
      act croniter hash (.create args) [] = .ok jobs →
      EachAlone croniter now (jobs.map fun job => (job, weather job)) := by
  intro hall
  obtain ⟨_, hlooked, -⟩ := hall (fun _ _ => .badValue) (fun _ => 0) withoutOffset
    (fun _ => ⟨0, .raises ⟨0, 0, "", false⟩⟩) _ 1735689660000000 rfl
  cases hlooked

end DeterminFlow.Cron
