/-
  Cron.Tick
  **WHAT A TICK LEAVES IN THE FILE.**

  A tick loads the jobs, moves those on that are overdue beyond their grace,
  runs those that are due, and saves all of them at once.  The moved-on jobs
  hold a `datetime`, which no save can write; and when nothing is due there is
  no save.  So a job that is overdue beyond its grace is never moved on, and
  takes the runs of its tick with it.
-/
import DeterminFlow.Cron.Jobs
import Mathlib.Data.List.Forall2

namespace DeterminFlow.Cron

open List

/-! ## The file in order -/

/-- When the job is due; a time without an offset counts as UTC, as `add_job`
reads it. -/
def NextRun.instant : NextRun → Option Int
  | .text (.iso (.aware instant)) => some instant
  | .text (.iso (.naive wall)) => some wall
  | _ => none

def Due (now : Int) (job : CronJob) : Prop :=
  job.enabled = true ∧ ∃ next, job.nextRunAt.instant = some next ∧ next ≤ now

def NextRun.IsoOrNull : NextRun → Prop
  | .null => True
  | .text (.iso _) => True
  | _ => False

def Recorded (before after : CronJob) : Prop :=
  after.completed = before.completed + 1 ∧ after.nextRunAt ≠ before.nextRunAt

def Postponed (now : Int) (before after : CronJob) : Prop :=
  after.completed = before.completed
    ∧ ∃ next, after.nextRunAt = .text (.iso (.aware next)) ∧ now < next

def Settled (now : Int) (before after : CronJob) : Prop :=
  (Due now before → Recorded before after ∨ Postponed now before after)
    ∧ after.nextRunAt.IsoOrNull

/-- **The file is in order after a tick**: every due job is recorded or moved
on, and every next run is an ISO text or null. -/
def InOrder (now : Int) (file after : List CronJob) : Prop :=
  List.Forall₂ (Settled now) file after

lemma not_settled_self {now : Int} {job : CronJob} (hdue : Due now job) :
    ¬ Settled now job job := by
  intro h
  obtain ⟨_, hnext, _⟩ := hdue.2
  rcases h.1 hdue with hrecorded | ⟨-, later, hlater, hlt⟩
  · have := hrecorded.1
    omega
  rw [hlater] at hnext
  obtain rfl := Option.some.inj hnext
  omega

/-! ## A marking -/

section
variable (croniter : String → Int → CronAnswer) (hash : String → Nat)

/-- The job after the first lines of `mark_job_run`. -/
def marked (job : CronJob) (m : Marking) : CronJob :=
  { job with
    lastRunAt := some (.iso (.aware m.now))
    lastStatus := some m.status
    completed := job.completed + 1 }

def lastRepeat (job : CronJob) : Bool :=
  job.repeatLimit.any (fun limit => decide (limit ≤ job.completed + 1))

def offsetOf (job : CronJob) (m : Marking) : Int :=
  jitter hash job (periodOf croniter job m.clock)

/-- A time computed from `base` can be written, and is not the old one. -/
def NewTime (job : CronJob) (m : Marking) (base : Int) : Prop :=
  inRange (base + offsetOf croniter hash job m) = true
    ∧ (lastRepeat job = false →
      job.nextRunAt ≠ .text (.iso (.aware (base + offsetOf croniter hash job m))))

/-- **A marking computes a new due time without an error**, told by the
schedule: a job for once has none; an interval counts from the marking; a cron
expression has what `croniter` finds, or nothing. -/
def Renews (job : CronJob) (m : Marking) : Prop :=
  match job.schedule.kind with
  | .once => True
  | .interval =>
    match job.schedule.everyMinutes with
    | none => True
    | some every =>
      inRange (m.now + minutes every) = true
        ∧ NewTime croniter hash job m (m.now + minutes every)
  | .cron =>
    match job.schedule.expr with
    | none => True
    | some expr =>
      expr = "" ∨
        match croniter expr m.now with
        | .next instant => NewTime croniter hash job m instant
        | .badValue => True
        | .typeError => False

def RunsClean (job : CronJob) : RunOutcome → Prop
  | .marks first _ => Renews croniter hash job first ∧ first.outputFails = false
  | .raises again => Renews croniter hash job again

lemma limited_completed (job : CronJob) : (limited job).completed = job.completed := by
  rw [limited]
  split <;> rfl

lemma markJobRun_completed (job : CronJob) (m : Marking) :
    (markJobRun croniter hash job m).1.completed = job.completed + 1 := by
  simp only [markJobRun]
  split
  · exact limited_completed _
  split
  · rfl
  · exact limited_completed _
  split
  · rfl
  exact limited_completed _

lemma runJob_completed (job : CronJob) (outcome : RunOutcome) :
    job.completed < (runJob croniter hash job outcome).completed := by
  cases outcome with
  | raises again =>
    have hcount := markJobRun_completed croniter hash job again
    rw [runJob]
    omega
  | marks first again =>
    have hcount := markJobRun_completed croniter hash job first
    rw [runJob]
    split
    · have hagain := markJobRun_completed croniter hash (markJobRun croniter hash job first).1 again
      omega
    omega

def FreshNext (job : CronJob) (next : NextRun) : Prop :=
  next = .null ∨ (∃ instant, next = .text (.iso (.aware instant))) ∧ next ≠ job.nextRunAt

variable {job : CronJob} {m : Marking} {P : NextRun → Prop} {clock now : Int} {looked : List Looked}
  {saved : Bool} {l : Looked} {e : CronJob × Weather}

lemma limited_next (m : Marking) (next : NextRun) : (limited { marked job m with nextRunAt :=next }).nextRunAt
      = if lastRepeat job then .null else next := by
  rw [limited]
  show (if (job.repeatLimit.any (fun limit => decide (limit ≤ job.completed + 1))) = true
    then _ else _ : CronJob).nextRunAt = _
  rw [lastRepeat]
  split <;> rfl

lemma markJobRun_eq (job : CronJob) (m : Marking) : markJobRun croniter hash job m
      = if job.schedule.kind = .once then
          (limited { marked job m with enabled := false, nextRunAt := .null }, m.outputFails)
        else
          match computeNext croniter (marked job m) m.now with
          | .error _ => (marked job m, true)
          | .ok none => (limited { marked job m with nextRunAt := .null }, m.outputFails)
          | .ok (some next) =>
            match next.add (offsetOf croniter hash job m) with
            | .error _ => (marked job m, true)
            | .ok next =>
              (limited { marked job m with nextRunAt := next.isoformat }, m.outputFails) := rfl

lemma mark_from {base : Int} (hkind : job.schedule.kind ≠ .once)
    (hcompute : computeNext croniter (marked job m) m.now = .ok (some (.aware base))) :
    (NewTime croniter hash job m base → (markJobRun croniter hash job m).2 = m.outputFails
        ∧ FreshNext job (markJobRun croniter hash job m).1.nextRunAt)
      ∧ (¬ NewTime croniter hash job m base →
        (markJobRun croniter hash job m).1.nextRunAt = job.nextRunAt) := by
  rw [markJobRun_eq, if_neg hkind, hcompute]
  simp only [Stamp.add]
  by_cases hrange : inRange (base + offsetOf croniter hash job m) = true
  · simp only [hrange, if_true, limited_next, NewTime]
    cases hlast : lastRepeat job with
    | true =>
      simp only [if_true]
      exact ⟨fun _ => ⟨trivial, .inl rfl⟩,
        fun hnot => absurd ⟨trivial, nofun⟩ hnot⟩
    | false =>
      simp only [Bool.false_eq_true, if_false, Stamp.isoformat]
      refine ⟨fun hnew => ⟨trivial, .inr ⟨⟨_, rfl⟩, (hnew.2 trivial).symm⟩⟩, fun hnot => ?_⟩
      by_contra hne
      exact hnot ⟨trivial, fun _ heq => hne heq.symm⟩
  simp only [hrange, Bool.false_eq_true, if_false]
  exact ⟨fun hnew => absurd hnew.1 hrange, fun _ => rfl⟩

lemma mark_none (hkind : job.schedule.kind ≠ .once)
    (hcompute : computeNext croniter (marked job m) m.now = .ok none) :
    (markJobRun croniter hash job m).2 = m.outputFails
      ∧ FreshNext job (markJobRun croniter hash job m).1.nextRunAt := by
  rw [markJobRun_eq, if_neg hkind, hcompute]
  refine ⟨rfl, .inl ?_⟩
  show (limited { marked job m with nextRunAt := .null }).nextRunAt = .null
  rw [limited_next]
  split <;> rfl

lemma mark_error {e : PyError} (hkind : job.schedule.kind ≠ .once)
    (hcompute : computeNext croniter (marked job m) m.now = .error e) :
    (markJobRun croniter hash job m).1.nextRunAt = job.nextRunAt := by
  rw [markJobRun_eq, if_neg hkind, hcompute]
  rfl

lemma mark_renews (job : CronJob) (m : Marking) :
    (Renews croniter hash job m → (markJobRun croniter hash job m).2 = m.outputFails
        ∧ FreshNext job (markJobRun croniter hash job m).1.nextRunAt)
      ∧ (¬ Renews croniter hash job m →
        (markJobRun croniter hash job m).1.nextRunAt = job.nextRunAt) := by
  cases hkind : job.schedule.kind with
  | once =>
    have hrenews : Renews croniter hash job m := by
      rw [Renews, hkind]
      trivial
    refine ⟨fun _ => ?_, fun hnot => absurd hrenews hnot⟩
    rw [markJobRun_eq, if_pos hkind]
    refine ⟨rfl, .inl ?_⟩
    rw [limited]
    split <;> rfl
  | interval =>
    have hne : job.schedule.kind ≠ .once := by
      rw [hkind]
      decide
    cases hevery : job.schedule.everyMinutes with
    | none =>
      have hcompute : computeNext croniter (marked job m) m.now = .ok none := by
        simp only [computeNext, marked, hkind, hevery]
      have hrenews : Renews croniter hash job m := by
        simp only [Renews, hkind, hevery]
      exact ⟨fun _ => mark_none croniter hash hne hcompute, fun hnot => absurd hrenews hnot⟩
    | some every =>
      have hcompute : computeNext croniter (marked job m) m.now
          = ((Stamp.aware m.now).add (minutes every)).map some := by
        simp only [computeNext, marked, hkind, hevery, intervalBase]
      have hrenews : Renews croniter hash job m ↔ inRange (m.now + minutes every) = true
          ∧ NewTime croniter hash job m (m.now + minutes every) := by
        simp only [Renews, hkind, hevery]
      rw [hrenews]
      by_cases hrange : inRange (m.now + minutes every) = true
      · rw [Stamp.add, if_pos hrange] at hcompute
        have hfrom := mark_from croniter hash hne hcompute
        exact ⟨fun h => hfrom.1 h.2, fun hnot => hfrom.2 (fun hnew => hnot ⟨hrange, hnew⟩)⟩
      rw [Stamp.add, if_neg hrange] at hcompute
      exact ⟨fun h => absurd h.1 hrange, fun _ => mark_error croniter hash hne hcompute⟩
  | cron =>
    have hne : job.schedule.kind ≠ .once := by
      rw [hkind]
      decide
    cases hexpr : job.schedule.expr with
    | none =>
      have hcompute : computeNext croniter (marked job m) m.now = .ok none := by
        simp only [computeNext, marked, hkind, hexpr]
      have hrenews : Renews croniter hash job m := by
        simp only [Renews, hkind, hexpr]
      exact ⟨fun _ => mark_none croniter hash hne hcompute, fun hnot => absurd hrenews hnot⟩
    | some expr =>
      by_cases hempty : expr = ""
      · have hcompute : computeNext croniter (marked job m) m.now = .ok none := by
          simp only [computeNext, marked, hkind, hexpr, hempty, if_true]
        have hrenews : Renews croniter hash job m := by
          simp only [Renews, hkind, hexpr]
          exact .inl hempty
        exact ⟨fun _ => mark_none croniter hash hne hcompute, fun hnot => absurd hrenews hnot⟩
      cases hanswer : croniter expr m.now with
      | next instant =>
        have hcompute : computeNext croniter (marked job m) m.now
            = .ok (some (.aware instant)) := by
          simp only [computeNext, marked, hkind, hexpr, if_neg hempty, hanswer]
        have hrenews : Renews croniter hash job m ↔ NewTime croniter hash job m instant := by
          simp only [Renews, hkind, hexpr, hanswer, hempty, false_or]
        rw [hrenews]
        exact mark_from croniter hash hne hcompute
      | badValue =>
        have hcompute : computeNext croniter (marked job m) m.now = .ok none := by
          simp only [computeNext, marked, hkind, hexpr, if_neg hempty, hanswer]
        have hrenews : Renews croniter hash job m := by
          simp only [Renews, hkind, hexpr, hanswer, or_true]
        exact ⟨fun _ => mark_none croniter hash hne hcompute, fun hnot => absurd hrenews hnot⟩
      | typeError =>
        have hcompute : computeNext croniter (marked job m) m.now = .error .typeError := by
          simp only [computeNext, marked, hkind, hexpr, if_neg hempty, hanswer]
        have hrenews : ¬ Renews croniter hash job m := by
          simp only [Renews, hkind, hexpr, hanswer, hempty, or_self, not_false_eq_true]
        exact ⟨fun h => absurd h hrenews, fun _ => mark_error croniter hash hne hcompute⟩

lemma markJobRun_next (hnull : P .null) (hiso : ∀ instant, P (.text (.iso (.aware instant))))
    (h : P job.nextRunAt) (m : Marking) : P (markJobRun croniter hash job m).1.nextRunAt := by
  have hmark := mark_renews croniter hash job m
  by_cases hrenews : Renews croniter hash job m
  · rcases (hmark.1 hrenews).2 with hnext | ⟨⟨instant, hnext⟩, -⟩
    · exact hnext ▸ hnull
    exact hnext ▸ hiso instant
  exact hmark.2 hrenews ▸ h

lemma runJob_next (hnull : P .null) (hiso : ∀ instant, P (.text (.iso (.aware instant))))
    (h : P job.nextRunAt) (outcome : RunOutcome) :
    P (runJob croniter hash job outcome).nextRunAt := by
  cases outcome with
  | raises again => exact markJobRun_next croniter hash hnull hiso h again
  | marks first again =>
    have hfirst := markJobRun_next croniter hash hnull hiso h first
    rw [runJob]
    split
    · exact markJobRun_next croniter hash hnull hiso hfirst again
    exact hfirst

lemma runJob_iso (h : job.nextRunAt.IsoOrNull) (outcome : RunOutcome) :
    (runJob croniter hash job outcome).nextRunAt.IsoOrNull :=
  runJob_next croniter hash trivial (fun _ => trivial) h outcome

lemma runJob_recorded (hnext : job.nextRunAt ≠ .null) (outcome : RunOutcome) :
    Recorded job (runJob croniter hash job outcome) ↔ RunsClean croniter hash job outcome := by
  have hfresh : ∀ {next : NextRun}, FreshNext job next → next ≠ job.nextRunAt := by
    rintro next (rfl | ⟨-, hne⟩)
    · exact hnext.symm
    exact hne
  cases outcome with
  | raises again =>
    have hmark := mark_renews croniter hash job again
    rw [RunsClean, runJob]
    constructor
    · intro hrecorded
      by_contra hnot
      exact hrecorded.2 (hmark.2 hnot)
    exact fun h => ⟨markJobRun_completed croniter hash job again, hfresh (hmark.1 h).2⟩
  | marks first =>
    have hmark := mark_renews croniter hash job first
    rw [RunsClean, runJob]
    constructor
    · intro hrecorded
      cases hraised : (markJobRun croniter hash job first).2 with
      | true =>
        -- the marking that raised has counted, and the second one counts again
        simp only [hraised, if_true] at hrecorded
        have hcount := hrecorded.1
        rw [markJobRun_completed, markJobRun_completed] at hcount
        omega
      | false =>
        simp only [hraised, Bool.false_eq_true, if_false] at hrecorded
        have hrenews : Renews croniter hash job first := by
          by_contra hnot
          exact hrecorded.2 (hmark.2 hnot)
        exact ⟨hrenews, (hmark.1 hrenews).1.symm.trans hraised⟩
    rintro ⟨hrenews, hsaved⟩
    obtain ⟨hraised, hnew⟩ := hmark.1 hrenews
    rw [hsaved] at hraised
    simp only [hraised, Bool.false_eq_true, if_false]
    exact ⟨markJobRun_completed croniter hash job first, hfresh hnew⟩

/-! ## A tick -/

/-- What the tick loads of a job is in the way of no other one. -/
structure Orderly (now : Int) (stored : List (CronJob × Weather)) : Prop where
  /-- An enabled job's time has an offset. -/
  offset : ∀ e ∈ stored, e.1.enabled = true → ∀ wall, e.1.nextRunAt ≠ .text (.iso (.naive wall))
  /-- No due job is overdue beyond its grace. -/
  grace : ∀ e ∈ stored, e.1.enabled = true → ∀ next, e.1.nextRunAt = .text (.iso (.aware next)) →
    next ≤ now → beyondGrace (periodOf croniter e.1 e.2.clock) now next = false
  /-- Every due job runs clean. -/
  clean : ∀ e ∈ stored, Due now e.1 → RunsClean croniter hash e.1 e.2.outcome

/-- **When a tick keeps its promise.** -/
def Promised (now : Int) (saved : Bool) (stored : List (CronJob × Weather)) : Prop :=
  (∀ e ∈ stored, e.1.nextRunAt.IsoOrNull)
    ∧ ((∀ e ∈ stored, ¬ Due now e.1) ∨ saved = true ∧ Orderly croniter hash now stored)

lemma NextRun.parsed_some {next : NextRun} {stamp : Stamp} (h : next.parsed = some stamp) :
    next = .text (.iso stamp) := by
  cases next with
  | text text =>
    cases text with
    | iso => rw [Option.some.inj h]
    | _ => cases h
  | _ => cases h

lemma NextRun.parsed_none {next : NextRun} (h : next.parsed = none) : next.instant = none := by
  cases next with
  | text text =>
    cases text with
    | iso => cases h
    | _ => rfl
  | _ => rfl

lemma NextRun.isTrue_of_instant {next : NextRun} {instant : Int}
    (h : next.instant = some instant) : next.isTrue = true := by
  cases next with
  | text text =>
    cases text with
    | iso => rfl
    | _ => cases h
  | _ => cases h

/-- **A look, by its cases**: a job that is not due stays; a due one is let
through, or, beyond its grace, stays or holds a `datetime`. -/
theorem look_cases {job' : CronJob} {due : Bool}
    (h : look croniter now clock job = .ok (job', due)) : (¬ Due now job ∧ job' = job ∧ due = false)
      ∨ Due now job ∧ ∃ next, job.nextRunAt = .text (.iso (.aware next))
        ∧ ((beyondGrace (periodOf croniter job clock) now next = false ∧ job' = job ∧ due = true)
          ∨ beyondGrace (periodOf croniter job clock) now next = true ∧ due = false
            ∧ (job' = job ∨ ∃ stamp, computeNext croniter job now = .ok (some stamp)
              ∧ job'.nextRunAt = .object stamp)) := by
  rw [look] at h
  split at h
  case isFalse hoff =>
    obtain ⟨rfl, rfl⟩ := Prod.mk.inj (Except.ok.inj h)
    refine .inl ⟨?_, rfl, rfl⟩
    rintro ⟨henabled, next, hnext, -⟩
    exact hoff (by rw [henabled, NextRun.isTrue_of_instant hnext]; rfl)
  case isTrue hon =>
    rw [Bool.and_eq_true] at hon
    cases hparsed : job.nextRunAt.parsed with
    | none =>
      rw [hparsed] at h
      obtain ⟨rfl, rfl⟩ := Prod.mk.inj (Except.ok.inj h)
      refine .inl ⟨?_, rfl, rfl⟩
      rintro ⟨-, next, hnext, -⟩
      rw [NextRun.parsed_none hparsed] at hnext
      cases hnext
    | some stamp =>
      have htime := NextRun.parsed_some hparsed
      rw [hparsed] at h
      cases stamp with
      | naive => cases h
      | aware next =>
        have hinstant : job.nextRunAt.instant = some next := by
          rw [htime]
          rfl
        simp only at h
        split at h
        case isFalse hlate =>
          obtain ⟨rfl, rfl⟩ := Prod.mk.inj (Except.ok.inj h)
          refine .inl ⟨?_, rfl, rfl⟩
          rintro ⟨-, _, hother, hle⟩
          rw [hinstant] at hother
          obtain rfl := Option.some.inj hother
          exact hlate hle
        case isTrue hle =>
          refine .inr ⟨⟨hon.1, next, hinstant, hle⟩, next, htime, ?_⟩
          split at h
          case isFalse hgrace =>
            obtain ⟨rfl, rfl⟩ := Prod.mk.inj (Except.ok.inj h)
            exact .inl ⟨Bool.eq_false_iff.mpr hgrace, rfl, rfl⟩
          case isTrue hgrace =>
            -- overdue: whatever is computed, the job is not run
            refine .inr ⟨hgrace, ?_⟩
            split at h
            · cases h
            · obtain ⟨rfl, rfl⟩ := Prod.mk.inj (Except.ok.inj h)
              exact ⟨rfl, .inl rfl⟩
            next stamp hcompute =>
            obtain ⟨rfl, rfl⟩ := Prod.mk.inj (Except.ok.inj h)
            exact ⟨rfl, .inr ⟨stamp, hcompute, rfl⟩⟩

lemma look_naive {wall : Int} (henabled : job.enabled = true)
    (hnext : job.nextRunAt = .text (.iso (.naive wall))) :
    look croniter now clock job = .error .typeError := by
  simp only [look, henabled, hnext, NextRun.isTrue, NextRun.parsed, Bool.and_self, if_true]

lemma look_ok (hoffset : job.enabled = true → ∀ wall, job.nextRunAt ≠ .text (.iso (.naive wall)))
    (hgrace : job.enabled = true → ∀ next, job.nextRunAt = .text (.iso (.aware next)) →
      next ≤ now → beyondGrace (periodOf croniter job clock) now next = false) :
    ∃ due, look croniter now clock job = .ok (job, due) := by
  rw [look]
  split
  case isFalse => exact ⟨false, rfl⟩
  case isTrue hon =>
    have henabled := (Bool.and_eq_true _ _ ▸ hon).1
    cases hparsed : job.nextRunAt.parsed with
    | none => exact ⟨false, rfl⟩
    | some stamp =>
      have htime := NextRun.parsed_some hparsed
      cases stamp with
      | naive wall => exact absurd htime (hoffset henabled wall)
      | aware next =>
        by_cases hle : next ≤ now
        · have hlate := hgrace henabled next htime hle
          simp only [hle, if_true, hlate, Bool.false_eq_true, if_false]
          exact ⟨true, rfl⟩
        simp only [hle, if_false]
        exact ⟨false, rfl⟩

def SeenAs (now : Int) (e : CronJob × Weather) (l : Looked) : Prop :=
  look croniter now e.2.clock e.1 = .ok (l.job, l.due) ∧ l.outcome = e.2.outcome

lemma lookAll_ok {stored : List (CronJob × Weather)}
    (h : lookAll croniter now stored = .ok looked) :
    List.Forall₂ (SeenAs croniter now) stored looked := by
  induction stored generalizing looked with
  | nil =>
    obtain rfl := Except.ok.inj h
    exact .nil
  | cons e rest ih =>
    rw [lookAll] at h
    cases hlook : look croniter now e.2.clock e.1 with
    | error =>
      simp only [hlook] at h
      cases h
    | ok =>
      simp only [hlook] at h
      cases hrest : lookAll croniter now rest with
      | error =>
        simp only [hrest] at h
        cases h
      | ok =>
        simp only [hrest] at h
        obtain rfl := Except.ok.inj h
        exact .cons ⟨hlook, rfl⟩ (ih hrest)

lemma lookAll_error {stored : List (CronJob × Weather)} {err : PyError}
    (h : lookAll croniter now stored = .error err) :
    ∃ e ∈ stored, ∃ err, look croniter now e.2.clock e.1 = .error err := by
  induction stored generalizing err with
  | nil => cases h
  | cons e rest ih =>
    rw [lookAll] at h
    cases hlook : look croniter now e.2.clock e.1 with
    | error err => exact ⟨e, mem_cons_self, err, hlook⟩
    | ok =>
      simp only [hlook] at h
      cases hrest : lookAll croniter now rest with
      | error =>
        obtain ⟨e', he', hfails⟩ := ih hrest
        exact ⟨e', mem_cons_of_mem e he', hfails⟩
      | ok =>
        simp only [hrest] at h
        cases h

lemma tick_cases (now : Int) (saved : Bool) (stored : List (CronJob × Weather)) :
    tick croniter hash now saved stored = stored.map (·.1)
      ∨ saved = true ∧ ∃ looked, lookAll croniter now stored = .ok looked
        ∧ tick croniter hash now saved stored = looked.map (Looked.ran croniter hash) := by
  rw [tick]
  split
  case h_1 => exact .inl rfl
  case h_2 looked hlooked =>
    split
    case isFalse => exact .inl rfl
    case isTrue =>
      rw [saveJobs]
      split
      case isFalse => exact .inl rfl
      case isTrue hplain =>
        rw [Bool.and_eq_true] at hplain
        exact .inr ⟨hplain.1, looked, hlooked, rfl⟩

lemma tick_saves {stored : List (CronJob × Weather)}
    (hlooked : lookAll croniter now stored = .ok looked) (hdue : ∃ l ∈ looked, l.due = true)
    (hsaved : saved = true) (hplain : ∀ l ∈ looked, (l.ran croniter hash).nextRunAt.IsoOrNull) :
    tick croniter hash now saved stored = looked.map (Looked.ran croniter hash) := by
  have hall : (looked.map (Looked.ran croniter hash)).all isPlain = true := by
    rw [all_map, all_eq_true]
    intro l hl
    have hiso := hplain l hl
    show isPlain (l.ran croniter hash) = true
    rw [isPlain]
    split
    next hobject => exact (hobject ▸ hiso : NextRun.IsoOrNull (.object _)).elim
    next => rfl
  rw [tick, hlooked]
  simp only [List.any_eq_true.mpr hdue, if_true, saveJobs, hsaved, hall, Bool.and_self,
    Option.getD_some]

/-! ## The promise -/

theorem settled_self (hdue : ¬ Due now job) (hnext : job.nextRunAt.IsoOrNull) :
    Settled now job job :=
  ⟨fun h => absurd h hdue, hnext⟩

lemma settled_seen (hseen : SeenAs croniter now e l)
    (hsettled : Settled now e.1 (l.ran croniter hash)) : e.1.nextRunAt.IsoOrNull
      ∧ (e.1.enabled = true → ∀ wall, e.1.nextRunAt ≠ .text (.iso (.naive wall)))
      ∧ (e.1.enabled = true → ∀ next, e.1.nextRunAt = .text (.iso (.aware next)) → next ≤ now →
        beyondGrace (periodOf croniter e.1 e.2.clock) now next = false)
      ∧ (Due now e.1 → RunsClean croniter hash e.1 e.2.outcome) := by
  have hoffset : e.1.enabled = true → ∀ wall, e.1.nextRunAt ≠ .text (.iso (.naive wall)) := by
    intro henabled wall hnext
    have hlook := hseen.1
    rw [look_naive croniter henabled hnext] at hlook
    cases hlook
  rcases look_cases croniter hseen.1 with ⟨hdue, hjob, hflag⟩ | ⟨hdue, next, htime, hcase⟩
  · -- not due: the file holds the job as it was
    have hran : l.ran croniter hash = e.1 := by
      rw [Looked.ran, hflag, hjob]
      rfl
    refine ⟨hran ▸ hsettled.2, hoffset, fun henabled next htime hle => ?_, fun h => absurd h hdue⟩
    exact absurd ⟨henabled, next, by rw [htime]; rfl, hle⟩ hdue
  have hiso : e.1.nextRunAt.IsoOrNull := by
    rw [htime]
    trivial
  rcases hcase with ⟨hgrace, hjob, hflag⟩ | ⟨-, hflag, hleft⟩
  · have hran : l.ran croniter hash = runJob croniter hash e.1 e.2.outcome := by
      rw [Looked.ran, hflag, hjob, hseen.2]
      rfl
    rw [hran] at hsettled
    refine ⟨hiso, hoffset, fun _ _ hother _ => ?_, fun _ => ?_⟩
    · rw [htime] at hother
      injection hother with htext
      injection htext with hstamp
      injection hstamp with hinstant
      exact hinstant ▸ hgrace
    apply (runJob_recorded croniter hash (by rw [htime]; exact NextRun.noConfusion) _).mp
    rcases hsettled.1 hdue with hrecorded | ⟨hcount, -⟩
    · exact hrecorded
    -- a run always counts
    have hless := runJob_completed croniter hash e.1 e.2.outcome
    omega
  -- overdue: unchanged, or holding what no save can write
  have hran : l.ran croniter hash = l.job := by
    rw [Looked.ran, hflag]
    rfl
  rw [hran] at hsettled
  rcases hleft with hjob | ⟨stamp, -, hobject⟩
  · rw [hjob] at hsettled
    exact absurd hsettled (not_settled_self hdue)
  have hiso' := hsettled.2
  rw [hobject] at hiso'
  exact hiso'.elim

lemma forall₂_mem {α β : Type} {R : α → β → Prop} {l : List α} {m : List β}
    (h : List.Forall₂ R l m) : ∀ a ∈ l, ∃ b ∈ m, R a b := by
  induction h with
  | nil => exact nofun
  | cons hab _ ih =>
    intro c hc
    rcases List.mem_cons.mp hc with rfl | hc
    · exact ⟨_, mem_cons_self, hab⟩
    obtain ⟨d, hd, hcd⟩ := ih c hc
    exact ⟨d, mem_cons_of_mem _ hd, hcd⟩

lemma seen_settled (hseen : SeenAs croniter now e l) (hnext : e.1.nextRunAt.IsoOrNull)
    (hgrace : e.1.enabled = true → ∀ next, e.1.nextRunAt = .text (.iso (.aware next)) →
      next ≤ now → beyondGrace (periodOf croniter e.1 e.2.clock) now next = false)
    (hclean : Due now e.1 → RunsClean croniter hash e.1 e.2.outcome) :
    Settled now e.1 (l.ran croniter hash) ∧ (Due now e.1 → l.due = true) := by
  rcases look_cases croniter hseen.1 with ⟨hdue, hjob, hflag⟩ | ⟨hdue, next, htime, hcase⟩
  · have hran : l.ran croniter hash = e.1 := by
      rw [Looked.ran, hflag, hjob]
      rfl
    rw [hran]
    exact ⟨settled_self hdue hnext, fun h => absurd h hdue⟩
  have hle : next ≤ now := by
    obtain ⟨_, hother, hle⟩ := hdue.2
    rw [htime] at hother
    obtain rfl := Option.some.inj hother
    exact hle
  have hwithin := hgrace hdue.1 next htime hle
  rcases hcase with ⟨-, hjob, hflag⟩ | ⟨hbeyond, -, -⟩
  · have hran : l.ran croniter hash = runJob croniter hash e.1 e.2.outcome := by
      rw [Looked.ran, hflag, hjob, hseen.2]
      rfl
    have hne : e.1.nextRunAt ≠ .null := by
      rw [htime]
      exact NextRun.noConfusion
    rw [hran]
    refine ⟨⟨fun _ => .inl ?_, runJob_iso croniter hash hnext _⟩, fun _ => hflag⟩
    exact (runJob_recorded croniter hash hne _).mpr (hclean hdue)
  rw [hwithin] at hbeyond
  cases hbeyond

lemma tick_idle {stored : List (CronJob × Weather)} (hidle : ∀ e ∈ stored, ¬ Due now e.1) :
    tick croniter hash now saved stored = stored.map (·.1) := by
  rw [tick]
  split
  case h_1 => rfl
  case h_2 looked hlooked =>
    split
    case isFalse => rfl
    case isTrue hany =>
      obtain ⟨l, hl, hflag⟩ := List.any_eq_true.mp hany
      obtain ⟨e, he, hseen⟩ := forall₂_mem (lookAll_ok croniter hlooked).flip l hl
      rcases look_cases croniter hseen.1 with ⟨-, -, hoff⟩ | ⟨hdue, -⟩
      · rw [hoff] at hflag
        cases hflag
      exact absurd hdue (hidle e he)

/-- **Exactly when the file is in order after a tick.**  Every stored next run
is an ISO text or null; and nothing is due, or the save succeeds and the load is
orderly: no enabled job's time lacks an offset, no due job is overdue beyond
its grace, and every due job runs clean. -/
theorem tick_settles (now : Int) (saved : Bool) (stored : List (CronJob × Weather)) :
    InOrder now (stored.map (·.1)) (tick croniter hash now saved stored)
      ↔ Promised croniter hash now saved stored := by
  constructor
  · intro horder
    rcases tick_cases croniter hash now saved stored with hfile | ⟨hsaved, looked, hlooked, hfile⟩
    · rw [InOrder, hfile, forall₂_same, forall_mem_map] at horder
      exact ⟨fun e he => (horder e he).2,
        .inl fun e he hdue => not_settled_self hdue (horder e he)⟩
    rw [InOrder, hfile, forall₂_map_left_iff, forall₂_map_right_iff] at horder
    have hboth := List.Forall₂.mp
      (fun _ _ hseen hsettled => settled_seen croniter hash hseen hsettled)
      (lookAll_ok croniter hlooked) horder
    have hentry : ∀ e ∈ stored, _ := fun e he => (forall₂_mem hboth e he).elim fun _ h => h.2
    exact ⟨fun e he => (hentry e he).1, .inr ⟨hsaved,
      { offset := fun e he => (hentry e he).2.1
        grace := fun e he => (hentry e he).2.2.1
        clean := fun e he => (hentry e he).2.2.2 }⟩⟩
  rintro ⟨hiso, hcase⟩
  by_cases hidle : ∀ e ∈ stored, ¬ Due now e.1
  · rw [InOrder, tick_idle croniter hash hidle, forall₂_same, forall_mem_map]
    exact fun e he => settled_self (hidle e he) (hiso e he)
  obtain ⟨hsaved, horderly⟩ := hcase.resolve_left hidle
  cases hlooked : lookAll croniter now stored with
  | error =>
    obtain ⟨e, he, _, hfails⟩ := lookAll_error croniter hlooked
    obtain ⟨due, hlook⟩ := look_ok croniter (horderly.offset e he) (horderly.grace e he)
    rw [hlook] at hfails
    cases hfails
  | ok looked =>
    have hseen := lookAll_ok croniter hlooked
    have hsettled : ∀ e ∈ stored, ∀ l, SeenAs croniter now e l →
        Settled now e.1 (l.ran croniter hash) ∧ (Due now e.1 → l.due = true) :=
      fun e he l hl => seen_settled croniter hash hl (hiso e he) (horderly.grace e he)
        (horderly.clean e he)
    have hdue : ∃ l ∈ looked, l.due = true := by
      push Not at hidle
      obtain ⟨e, he, hdue⟩ := hidle
      obtain ⟨l, hl, hel⟩ := forall₂_mem hseen e he
      exact ⟨l, hl, (hsettled e he l hel).2 hdue⟩
    have hplain : ∀ l ∈ looked, (l.ran croniter hash).nextRunAt.IsoOrNull := by
      intro l hl
      obtain ⟨e, he, hel⟩ := forall₂_mem hseen.flip l hl
      exact (hsettled e he l hel).1.2
    rw [InOrder, tick_saves croniter hash hlooked hdue hsaved hplain,
      forall₂_map_left_iff, forall₂_map_right_iff]
    have hboth := (forall₂_and_left _ _).mpr ⟨fun e he => he, hseen⟩
    exact hboth.imp fun e l h => (hsettled e h.1 l h.2).1

end

def hourly : CronJob where
  id := "3f2a91c4"
  name := "hourly report"
  prompt := "report"
  schedule := { kind := .interval, everyMinutes := some 60 }
  nextRunAt := .text (.iso (.aware 0))
  lastRunAt := some (.iso (.aware (-3600000000)))

def reminder : CronJob where
  id := "77b0e5d2"
  name := "reminder"
  prompt := "remind"
  schedule := { kind := .once, atTime := some (.iso (.aware 3590000000)) }
  nextRunAt := .text (.iso (.aware 3590000000))

/-- **An interval job that is an hour late stays as it is, and the run of the
reminder beside it is lost**; the save would have succeeded. -/
theorem overdueInterval_stays : let weather : Weather :=
      { clock := 3600000000
        outcome := .marks { now := 3660000000, clock := 3660000000, status := "success" }
          { now := 3660000000, clock := 3660000000, status := "error" } }
    tick (fun _ _ => .badValue) (fun _ => 0) 3600000000 true [(hourly, weather)] = [hourly]
      ∧ tick (fun _ _ => .badValue) (fun _ => 0) 3600000000 true
          [(hourly, weather), (reminder, weather)] = [hourly, reminder]
      ∧ ¬ InOrder 3600000000 [hourly, reminder]
          (tick (fun _ _ => .badValue) (fun _ => 0) 3600000000 true
            [(hourly, weather), (reminder, weather)]) := by
  intro weather
  have hboth : tick (fun _ _ => .badValue) (fun _ => 0) 3600000000 true
      [(hourly, weather), (reminder, weather)] = [hourly, reminder] := by
    decide
  refine ⟨by decide, hboth, ?_⟩
  rw [hboth, InOrder, forall₂_same]
  intro h
  exact not_settled_self ⟨rfl, 0, rfl, by decide⟩ (h hourly mem_cons_self)

end DeterminFlow.Cron
