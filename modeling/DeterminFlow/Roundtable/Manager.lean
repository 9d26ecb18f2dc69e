/-
  Roundtable.Manager
  **ONE MEETING IN THE HANDS OF ITS MANAGER.**

  Requests are checked when they come in and take effect later: a start
  creates a task that has not run yet, a seat that joins or leaves a running
  meeting waits in a queue for the runner, a stop waits for the task that it
  cancels.  Between any two of these steps another request can come, and the
  process can end; what is left then is the file.
-/
import DeterminFlow.Roundtable.Endings

namespace DeterminFlow.Roundtable

open Library List Option Bool

/-! ## What an iteration of the runner does to the session -/

/-- The ids and the status are as before, and `run` is not over. -/
structure Kept (before after : Runner) : Prop where
  ids : ids after.session.seats = ids before.session.seats
  status : after.session.status = before.session.status
  done : after.place = .done → before.place = .done

namespace Kept

lemma refl (r : Runner) : Kept r r := ⟨rfl, rfl, id⟩

lemma trans {a b c : Runner} (hab : Kept a b) (hbc : Kept b c) : Kept a c :=
  ⟨hbc.ids.trans hab.ids, hbc.status.trans hab.status, fun h => hab.done (hbc.done h)⟩

lemma withStrategy (r : Runner) (strategy : Strategy) : Kept r { r with session :=r.session.withStrategy strategy } := ⟨rfl, rfl, id⟩

lemma doSpeak (r : Runner) (seat : Seat) (said : String) : Kept r (r.doSpeak seat said) :=
  ⟨ids_setStatus .., rfl, id⟩

lemma generateRoundSummary (r : Runner) (round : Nat) (summary : Option String) :
    Kept r (r.generateRoundSummary round summary) := by
  rw [Runner.generateRoundSummary]
  split
  · cases summary <;> exact ⟨rfl, rfl, id⟩
  exact refl r

lemma roundEnded (r : Runner) (round : Nat) (summary : Option String) :
    Kept r (r.roundEnded round summary) := by
  have hidle : Kept r { r with session := { r.session with seats := allIdle r.session.seats } } :=
    ⟨ids_allIdle _, rfl, id⟩
  rw [Runner.roundEnded]
  split
  · exact hidle.trans (generateRoundSummary _ _ _)
  exact hidle

lemma asked (r : Runner) : Kept r r.asked := by
  refine ⟨(Runner.asked_same r).ids, ?_, id⟩
  rw [Runner.asked]
  cases getModeratorSeat r.session.seats <;> rfl

lemma leaving (r : Runner) : Kept r { r with place := .leaving } :=
  ⟨rfl, rfl, fun h => absurd h Place.noConfusion⟩

lemma backToOuter (r : Runner) : Kept r r.backToOuter :=
  ⟨rfl, rfl, fun h => absurd h (backToOuter_place r)⟩

lemma nextCycle (r : Runner) (cycles : Nat) : Kept r (r.nextCycle cycles) := by
  rw [Runner.nextCycle]
  split
  · exact backToOuter r
  exact ⟨rfl, rfl, fun h => absurd h Place.noConfusion⟩

lemma roundRobinTurn (r : Runner) (s : RoundRobin) (said : String) (summary : Option String) :
    Kept r (r.roundRobinTurn s said summary) := by
  rw [Runner.roundRobinTurn]
  split
  · exact (withStrategy r _).trans (leaving _)
  rename_i seat s' _
  have hspoke := (withStrategy r (.roundRobin s')).trans (doSpeak _ seat said)
  simp only
  split
  · exact (hspoke.trans (withStrategy _ _)).trans (roundEnded _ _ _)
  exact hspoke.trans (withStrategy _ _)

lemma speakNext (r : Runner) (s : ModeratorDecides) (cycles : Nat) (said : String) :
    Kept r (r.speakNext s cycles said) := by
  rw [Runner.speakNext]
  split
  · simp only
    split
    · exact (withStrategy r _).trans (nextCycle _ _)
    exact (withStrategy r _).trans (backToOuter _)
  rename_i seat s' _
  have hspoke := (withStrategy r (.moderatorDecides s')).trans (doSpeak _ seat said)
  exact (hspoke.trans (withStrategy _ _)).trans (nextCycle _ _)

lemma moderatorCycle (r : Runner) (s : ModeratorDecides) (cycles : Nat) (answer : Answer)
    (said : String) (summary : Option String) :
    Kept r (r.moderatorCycle s cycles answer said summary) := by
  rw [Runner.moderatorCycle]
  split
  · simp only
    have hdecided (s' : ModeratorDecides) := (asked r).trans (withStrategy _ (.moderatorDecides s'))
    cases (moderatorDecide answer).action with
    | conclude => exact (hdecided _).trans (backToOuter _)
    | summarize => exact ((hdecided _).trans (generateRoundSummary _ _ _)).trans (nextCycle _ _)
    | newRound => exact ((hdecided _).trans (roundEnded _ _ _)).trans (speakNext _ _ _ _)
    | selectSpeaker =>
      simp only
      split
      · exact (hdecided _).trans (speakNext _ _ _ _)
      exact (hdecided _).trans (backToOuter _)
  exact speakNext _ _ _ _

end Kept

/-- What an iteration leaves: the ids, and a status that changes only to
`ended`, at the end of `run`. -/
structure Iterated (before after : Runner) : Prop where
  ids : ids after.session.seats = ids before.session.seats
  status : after.session.status = before.session.status ∨ after.session.status = .ended
  done : after.place = .done → after.session.status = .ended

variable {r' r : Runner}

lemma iterated_of_kept (hin : r.inLoops = true) (h : Kept r r') : Iterated r r' := by
  refine ⟨h.ids, .inl h.status, fun hover => ?_⟩
  have hleft := not_left_of_inLoops hin
  rw [h.done hover] at hleft
  cases hleft

lemma iterated_of_step {lower : String → String} {idle : Nat} {event : Event}
    (hevent : event.isIteration = true) (h : r.step lower idle event = some r') :
    Iterated r r' := by
  cases event with
  | enter =>
    simp only [Runner.step, and_eq_true] at h
    split at h
    · rename_i hin
      split at h
      · obtain rfl := some.inj h
        exact iterated_of_kept hin.1 ⟨rfl, rfl, fun hover => absurd hover Place.noConfusion⟩
      obtain rfl := some.inj h
      exact iterated_of_kept hin.1 (Kept.nextCycle r idle)
    cases h
  | turn said summary =>
    simp only [Runner.step, and_eq_true] at h
    split at h
    · rename_i hin
      split at h
      · obtain rfl := some.inj h
        exact iterated_of_kept hin.1 (Kept.roundRobinTurn ..)
      cases h
    cases h
  | cycle answer said summary =>
    simp only [Runner.step] at h
    split at h
    · rename_i hin
      split at h
      · obtain rfl := some.inj h
        exact iterated_of_kept hin (Kept.moderatorCycle ..)
      cases h
    cases h
  | conclude text =>
    simp only [Runner.step] at h
    split at h
    · obtain rfl := some.inj h
      exact ⟨(Runner.concluded_same r text).ids, .inr rfl, fun _ => rfl⟩
    cases h
  | _ => exact absurd hevent Bool.noConfusion

/-! ## The meeting, its tasks and its file -/

/-- A runner task of the meeting that is alive. -/
structure Task where
  id : Nat
  /-- Where `run` is; `none` before the task has run for the first time. -/
  place : Option Place := none
  /-- The interventions drained and not handled yet. -/
  batch : List Intervention := []
  deriving DecidableEq

/-- One meeting of the `RoundtableManager`; ghost: how many tasks were made. -/
structure World where
  /-- The session object, as long as something holds it. -/
  session : Option Session := none
  registered : Bool := false
  queue : List Intervention := []
  tasks : List Task := []
  /-- `_tasks.get(session_id)`. -/
  entry : Option Nat := none
  made : Nat := 0
  /-- The calls of `stop` that wait for a task. -/
  stopping : List Nat := []
  /-- The calls of `delete` that wait for a task. -/
  deleting : List Nat := []
  /-- What was last saved. -/
  file : Option Session := none
  deriving DecidableEq

/-- `status in ("discussing", "paused")`. -/
def Status.active : Status → Bool
  | .discussing => true
  | .paused => true
  | _ => false

def Strategy.restored : Strategy → Strategy
  | .roundRobin s => .roundRobin s
  | .moderatorDecides s => .moderatorDecides { s with needsModeratorDecision := true }

/-- `RoundtableSession.load` and the correction in `load_sessions`. -/
def Session.loaded (s : Session) : Session :=
  { s with
    strategy := s.strategy.restored
    going := true
    status := if s.status = .discussing then .ended else s.status }

/-- A request or a step of one of its coroutines; `saved` says whether the
save in it succeeds. -/
inductive Move where
  | create (configs : List SeatConfig) (maxRounds : Nat) (strategyName : String)
      (compressor : Compressor) (saved : Bool)
  | start
  | stop (saved : Bool)
  /-- `stop` goes on when the task it waits for is done. -/
  | stopped (task : Nat) (saved : Bool)
  | pause (saved : Bool)
  | resume (saved : Bool)
  | inject (content : String)
  | nominate (targetSeatId targetName : Option String) (content : String)
  | addSeat (config : SeatConfig) (saved : Bool)
  | removeSeat (seatId : String) (saved : Bool)
  | delete
  /-- `delete` goes on when the task it waits for is done. -/
  | deleted (task : Nat)
  /-- A task runs for the first time. -/
  | begins (task : Nat) (saved : Bool)
  /-- A runner drains the queue. -/
  | drains (task : Nat)
  /-- A runner handles the next of the drained interventions. -/
  | handles (task : Nat) (said : String) (saved : Bool)
  /-- An iteration of a runner's loops, or its conclusion. -/
  | iterates (task : Nat) (event : Event) (saved : Bool)
  /-- An exception ends the loops of a runner. -/
  | fails (task : Nat)
  /-- A runner is done. -/
  | finishes (task : Nat)
  /-- A task is cancelled, by `stop`, `delete` or the shutdown. -/
  | cancelled (task : Nat) (saved : Bool)
  /-- The process ends, at any moment, and a new one loads the sessions. -/
  | restart (saved : Bool)
  deriving DecidableEq

def Intervention.isSaved : Intervention → Bool
  | .inject _ => false
  | .nominate _ _ => false
  | .finish => false
  | _ => true

namespace World

def save (w : World) (saved : Bool) : World :=
  if saved && w.session.isSome then { w with file := w.session } else w

def getTask (w : World) (task : Nat) : Option Task := w.tasks.find? (·.id = task)

def isAlive (w : World) (task : Nat) : Bool := w.tasks.any (·.id = task)

def setTask (w : World) (task : Task) : World :=
  { w with tasks := w.tasks.map (fun t => if t.id = task.id then task else t) }

/-- The task is over, and `_tasks.pop` forgets whatever entry there is. -/
def endTask (w : World) (task : Nat) : World :=
  { w with tasks := w.tasks.filter (·.id ≠ task), entry := none }

def setSession (w : World) (session : Session) : World := { w with session := some session }

/-- The session in `sessions`. -/
def get (w : World) : Option Session := if w.registered then w.session else none

/-- The task that a call of `stop` or `delete` cancels and waits for. -/
def liveEntry (w : World) : Option Nat := w.entry.filter (fun task => w.isAlive task)

/-- `delete` after its task: out of `sessions`, and the file is gone. -/
def unregister (w : World) : World := { w with registered := false, entry := none, file := none }

def runner (session : Session) (place : Place) : Runner := { session := session, place := place }

end World

section
variable (lower : String → String) (idle maxSeats : Nat)

/-- One move; a refused request changes nothing, and a step that cannot happen
is `none`. -/
def World.move (w : World) : Move → Option World
  | .create configs maxRounds strategyName compressor saved =>
    if w = {} then
      (Session.create configs maxRounds strategyName compressor).map (fun session =>
        ({ w with session := some session, registered := true } : World).save saved)
    else none
  | .start =>
    match w.get with
    | none => some w
    | some session =>
      if session.status = .discussing ∨ session.status = .ended then some w
      else
        some { w with
          tasks := w.tasks ++ [{ id := w.made }]
          entry := some w.made
          made := w.made + 1 }
  | .stop saved =>
    match w.get with
    | none => some w
    | some session =>
      if session.status.active then
        let w := w.setSession session.resume
        match w.liveEntry with
        | some task => some { w with stopping := w.stopping ++ [task] }
        | none => some ((w.setSession { session.resume with status := .ended }).save saved)
      else some w
  | .stopped task saved =>
    match w.session with
    | none => none
    | some session =>
      if task ∈ w.stopping ∧ w.isAlive task = false then
        some (({ w with stopping := w.stopping.erase task }.setSession
          { session with status := .ended }).save saved)
      else none
  | .pause saved =>
    match w.get with
    | none => some w
    | some session =>
      if session.status = .discussing then some ((w.setSession session.pause).save saved)
      else some w
  | .resume saved =>
    match w.get with
    | none => some w
    | some session =>
      if session.status = .paused then some ((w.setSession session.resume).save saved)
      else some w
  | .inject content =>
    match w.get with
    | none => some w
    | some session =>
      if session.status.active then some { w with queue := w.queue ++ [.inject content] }
      else some w
  | .nominate targetSeatId targetName content =>
    match w.get with
    | none => some w
    | some session =>
      if session.status.active then
        let target :=
          if targetSeatId.any (· ≠ "") then targetSeatId.bind (getSeat session.seats)
          else if targetName.any (· ≠ "") then
            targetName.bind (getSeatByName lower session.seats)
          else none
        match target with
        | none => some w
        | some seat =>
          some { w with queue := w.queue ++ [.nominate (some seat.seatId) content] }
      else some w
  | .addSeat config saved =>
    match w.get with
    | none => some w
    | some session =>
      if maxSeats ≤ session.seats.length then some w
      else if session.status.active then
        some { w with queue := w.queue ++ [.addSeat (some config)] }
      else some ((w.setSession (session.addSeat config)).save saved)
  | .removeSeat seatId saved =>
    match w.get with
    | none => some w
    | some session =>
      if session.seats.length ≤ 2 then some w
      else
        match getSeat session.seats seatId with
        | none => some w
        | some target =>
          if target.status = .speaking then some w
          else if session.status.active then
            some { w with queue := w.queue ++ [.removeSeat (some seatId)] }
          else
            match session.removeSeat seatId with
            | none => some w
            | some session => some ((w.setSession session).save saved)
  | .delete =>
    match w.get with
    | none => some w
    | some session =>
      if session.status = .discussing then some w
      else
        match w.liveEntry with
        | some task => some { w with deleting := w.deleting ++ [task] }
        | none => some w.unregister
  | .deleted task =>
    if task ∈ w.deleting ∧ w.isAlive task = false then
      let w := { w with deleting := w.deleting.erase task, entry := none }
      -- a second `delete` finds no session to take out and fails
      some (if w.registered then w.unregister else w)
    else none
  | .begins task saved =>
    match w.session, w.getTask task with
    | some session, some t =>
      if t.place = none then
        let r := Runner.start session
        some (((w.setTask { t with place := some r.place }).setSession r.session).save saved)
      else none
    | _, _ => none
  | .drains task =>
    match w.session, w.getTask task with
    | some session, some t =>
      match t.place with
      | none => none
      | some place =>
        if (World.runner session place).inLoops ∧ t.batch = [] then
          some { w.setTask { t with batch := w.queue } with queue := [] }
        else none
    | _, _ => none
  | .handles task said saved =>
    match w.session, w.getTask task with
    | some session, some t =>
      match t.place, t.batch with
      | some place, iv :: rest =>
        let r := (World.runner session place).process lower iv said
        some (((w.setTask { t with batch := rest }).setSession r.session).save
          (saved && iv.isSaved))
      | _, _ => none
    | _, _ => none
  | .iterates task event saved =>
    match w.session, w.getTask task with
    | some session, some t =>
      match t.place with
      | none => none
      | some place =>
        if event.isIteration ∧ t.batch = [] then
          ((World.runner session place).step lower idle event).map (fun r =>
            ((w.setTask { t with place := some r.place }).setSession r.session).save saved)
        else none
    | _, _ => none
  | .fails task =>
    match w.session, w.getTask task with
    | some session, some t =>
      if t.place.isSome then
        some ((w.setTask { t with place := some .leaving, batch := [] }).setSession
          { session with status := .ended })
      else none
    | _, _ => none
  | .finishes task =>
    match w.getTask task with
    | some t => if t.place = some .done then some (w.endTask task) else none
    | none => none
  | .cancelled task saved =>
    match w.session, w.getTask task with
    | some session, some t =>
      -- a task that has not begun leaves nothing behind, not even its entry
      if t.place = none then some { w with tasks := w.tasks.filter (·.id ≠ task) }
      else
        some (((w.setSession { session with status := .ended }).save saved).endTask task)
    | _, _ => none
  | .restart saved =>
    match w.file with
    | none => some { made := w.made }
    | some session =>
      let w' : World :=
        { session := some session.loaded, registered := true, made := w.made, file := w.file }
      some (if session.status = .discussing then w'.save saved else w')

end

/-! ## A meeting in order -/

/-- The seats have distinct ids, and there are at least two and not too many. -/
structure Seated (maxSeats : Nat) (session : Session) : Prop where
  ids_nodup : (ids session.seats).Nodup
  two_le : 2 ≤ session.seats.length
  le_max : session.seats.length ≤ maxSeats

/-- **In order**: the seats are, one runner at most is alive, and while the
status says that the meeting runs, one is. -/
structure InOrder (maxSeats : Nat) (w : World) : Prop where
  seated : ∀ session, w.session = some session → Seated maxSeats session
  one_runner : w.tasks.length ≤ 1
  active_alive : ∀ session, w.session = some session → session.status.active = true → w.tasks ≠ []

/-- When a queued intervention is handled, there is room for a seat that joins
and it brings no id in use, and not one of the last two seats leaves. -/
def WithinBounds (maxSeats : Nat) (session : Session) : Intervention → Prop
  | .addSeat (some config) =>
    session.seats.length < maxSeats ∧ FreshId session.seats config
  | .removeSeat (some seatId) =>
    (session.removeSeat seatId).isSome = true → 2 < session.seats.length
  | _ => True

/-- What the requests and the steps of a run must not do: create with repeated
ids or a number of seats out of bounds, be accepted as a start while a runner
is alive, bring an id in use, break the bounds when the queue is handled, or
end the process with a paused meeting in the file. -/
def Careful (maxSeats : Nat) (w : World) : Move → Prop
  | .create configs _ _ _ _ =>
    (ids (createSeats configs)).Nodup ∧ 2 ≤ configs.length ∧ configs.length ≤ maxSeats
  | .start =>
    ∀ session ∈ w.get,
      session.status = .discussing ∨ session.status = .ended ∨ w.tasks = []
  | .addSeat config _ =>
    ∀ session ∈ w.get, session.status.active = true ∨ FreshId session.seats config
  | .handles task _ _ =>
    ∀ session ∈ w.session, ∀ t ∈ w.getTask task, ∀ iv ∈ t.batch.head?,
      WithinBounds maxSeats session iv
  | .restart _ => ∀ session ∈ w.file, session.status ≠ .paused
  | _ => True

instance (maxSeats : Nat) (session : Session) : ∀ iv, Decidable (WithinBounds maxSeats session iv)
  | .addSeat (some config) => inferInstanceAs
      (Decidable (session.seats.length < maxSeats ∧ FreshId session.seats config))
  | .removeSeat (some seatId) => inferInstanceAs
      (Decidable ((session.removeSeat seatId).isSome = true → 2 < session.seats.length))
  | .addSeat none => .isTrue trivial
  | .removeSeat none => .isTrue trivial
  | .inject _ => .isTrue trivial
  | .nominate _ _ => .isTrue trivial
  | .pause => .isTrue trivial
  | .resume => .isTrue trivial
  | .finish => .isTrue trivial

instance (maxSeats : Nat) (w : World) : ∀ move, Decidable (Careful maxSeats w move)
  | .create configs _ _ _ _ => inferInstanceAs (Decidable
      ((ids (createSeats configs)).Nodup ∧ 2 ≤ configs.length ∧ configs.length ≤ maxSeats))
  | .start => inferInstanceAs (Decidable (∀ session ∈ w.get,
      session.status = .discussing ∨ session.status = .ended ∨ w.tasks = []))
  | .addSeat config _ => inferInstanceAs (Decidable (∀ session ∈ w.get,
      session.status.active = true ∨ FreshId session.seats config))
  | .handles task _ _ => inferInstanceAs (Decidable (∀ session ∈ w.session,
      ∀ t ∈ w.getTask task, ∀ iv ∈ t.batch.head?, WithinBounds maxSeats session iv))
  | .restart _ => inferInstanceAs (Decidable (∀ session ∈ w.file, session.status ≠ .paused))
  | .stop _ => .isTrue trivial
  | .stopped _ _ => .isTrue trivial
  | .pause _ => .isTrue trivial
  | .resume _ => .isTrue trivial
  | .inject _ => .isTrue trivial
  | .nominate _ _ _ => .isTrue trivial
  | .removeSeat _ _ => .isTrue trivial
  | .delete => .isTrue trivial
  | .deleted _ => .isTrue trivial
  | .begins _ _ => .isTrue trivial
  | .drains _ => .isTrue trivial
  | .iterates _ _ _ => .isTrue trivial
  | .fails _ => .isTrue trivial
  | .finishes _ => .isTrue trivial
  | .cancelled _ _ => .isTrue trivial

/-- The invariant behind it. -/
structure Ordered (maxSeats : Nat) (w : World) : Prop where
  session : ∀ session, w.session = some session → Seated maxSeats session
  file : ∀ session, w.file = some session → Seated maxSeats session
  one_runner : w.tasks.length ≤ 1
  active_begun : ∀ session, w.session = some session → session.status.active = true →
    ∃ t ∈ w.tasks, t.place.isSome = true
  over_ended : ∀ session, w.session = some session → ∀ t ∈ w.tasks, t.place = some .done →
    session.status = .ended

lemma Ordered.inOrder {maxSeats : Nat} {w : World} (h : Ordered maxSeats w) :
    InOrder maxSeats w := by
  refine ⟨h.session, h.one_runner, fun session hsession hactive hnone => ?_⟩
  obtain ⟨_, ht, -⟩ := h.active_begun session hsession hactive
  rw [hnone] at ht
  cases ht

namespace Seated

variable {maxSeats : Nat}

lemma of_ids {a b : Session} (h : Seated maxSeats a) (hids : ids b.seats = ids a.seats) :
    Seated maxSeats b := by
  have hlength : b.seats.length = a.seats.length := by
    rw [← length_ids b.seats, hids, length_ids]
  exact ⟨hids ▸ h.ids_nodup, hlength ▸ h.two_le, hlength ▸ h.le_max⟩

variable {session : Session}

lemma add (h : Seated maxSeats session) {config : SeatConfig}
    (hlt : session.seats.length < maxSeats) (hfresh : FreshId session.seats config) :
    Seated maxSeats (session.addSeat config) := by
  have hlength : (session.addSeat config).seats.length = session.seats.length + 1 :=
    length_append
  have htwo := h.two_le
  exact ⟨nodup_appended h.ids_nodup (newSeat_id_notMem hfresh _), by omega, by omega⟩

lemma remove {after : Session} (h : Seated maxSeats session) {seatId : String}
    (hremove : session.removeSeat seatId = some after) (htwo : 2 < session.seats.length) :
    Seated maxSeats after := by
  obtain ⟨hmem, hafter⟩ := removeSeat_eq_some hremove
  have hseats : after.seats
      = session.seats.eraseIdx (session.seats.findIdx (·.seatId = seatId)) := by
    rw [hafter]
    exact filter_eq_eraseIdx h.ids_nodup hmem
  have hlength : after.seats.length = session.seats.length - 1 := by
    rw [hseats, length_eraseIdx_of_lt (findIdx_lt hmem)]
  have hmax := h.le_max
  refine ⟨?_, by omega, by omega⟩
  rw [hseats, ids, ← eraseIdx_map]
  exact h.ids_nodup.sublist (eraseIdx_sublist ..)

end Seated

/-! ## Every careful move keeps the order -/

section
variable {lower : String → String} {idle maxSeats : Nat}

@[simp] lemma save_session (w : World) (saved : Bool) : (w.save saved).session = w.session := by
  rw [World.save]
  split <;> rfl

@[simp] lemma save_tasks (w : World) (saved : Bool) : (w.save saved).tasks = w.tasks := by
  rw [World.save]
  split <;> rfl

variable {session : Session} {w w' : World} {saved : Bool} {t t' : Task} {task : Nat}

lemma save_file (h : (w.save saved).file = some session) :
    w.session = some session ∨ w.file = some session := by
  rw [World.save] at h
  split at h
  · exact .inl h
  exact .inr h

lemma Ordered.save (h : Ordered maxSeats w) (saved : Bool) : Ordered maxSeats (w.save saved) := by
  constructor
  · intro session hsession
    exact h.session session (by rwa [save_session] at hsession)
  · intro session hfile
    rcases save_file hfile with hsession | hold
    · exact h.session session hsession
    exact h.file session hold
  · rw [save_tasks]
    exact h.one_runner
  · rw [save_session, save_tasks]
    exact h.active_begun
  rw [save_session, save_tasks]
  exact h.over_ended

lemma get_eq_some (h : w.get = some session) : w.session = some session := by
  rw [World.get] at h
  split at h
  · exact h
  cases h

lemma tasks_eq (h : w.tasks.length ≤ 1) (hget : w.getTask task = some t) :
    w.tasks = [t] ∧ t.id = task := by
  have hmem : t ∈ w.tasks := mem_of_find?_eq_some hget
  have hid : t.id = task :=
    of_decide_eq_true (find?_some (p := fun t : Task => decide (t.id = task)) hget)
  refine ⟨?_, hid⟩
  cases htasks : w.tasks with
  | nil =>
    rw [htasks] at hmem
    cases hmem
  | cons first rest =>
    rw [htasks] at hmem h
    have hrest : rest = [] := length_eq_zero_iff.1 (by rw [length_cons] at h; omega)
    rw [hrest] at hmem ⊢
    rw [mem_singleton.1 hmem]

lemma setTask_tasks (htasks : w.tasks = [t]) (hid : t'.id = t.id) :
    (w.setTask t').tasks = [t'] := by
  show w.tasks.map _ = _
  rw [htasks, map_singleton, hid, if_pos rfl]

lemma Ordered.setSession (h : Ordered maxSeats w) {before : Session}
    (hbefore : w.session = some before) (hseated : Seated maxSeats session)
    (hactive : session.status.active = true → before.status.active = true)
    (hended : before.status = .ended → session.status = .ended) :
    Ordered maxSeats (w.setSession session) := by
  refine ⟨fun s hs => some.inj hs ▸ hseated, h.file, h.one_runner, fun s hs hact => ?_,
    fun s hs t ht hover => ?_⟩
  · obtain rfl := some.inj hs
    exact h.active_begun before hbefore (hactive hact)
  obtain rfl := some.inj hs
  exact hended (h.over_ended before hbefore t ht hover)

lemma Ordered.setBoth (h : Ordered maxSeats w) (htasks : w.tasks = [t]) (hid : t'.id = t.id)
    (hseated : Seated maxSeats session) (hbegun : t'.place.isSome = true)
    (hover : t'.place = some .done → session.status = .ended) :
    Ordered maxSeats ((w.setTask t').setSession session) := by
  have htasks' : ((w.setTask t').setSession session).tasks = [t'] := setTask_tasks htasks hid
  refine ⟨fun s hs => some.inj hs ▸ hseated, h.file, by rw [htasks']; exact Nat.le_refl 1,
    fun s hs _ => ⟨t', by rw [htasks']; exact mem_cons_self, hbegun⟩, fun s hs _ hu hplace => ?_⟩
  rw [htasks'] at hu
  obtain rfl := mem_singleton.1 hu
  exact some.inj hs ▸ hover hplace

lemma Ordered.endTask (h : Ordered maxSeats w) (task : Nat)
    (hended : ∀ session, w.session = some session → session.status.active = false) :
    Ordered maxSeats (w.endTask task) := by
  refine ⟨h.session, h.file, ?_, fun s hs hact => ?_, fun s hs t ht hover => ?_⟩
  · exact le_trans (length_filter_le ..) h.one_runner
  · rw [hended s hs] at hact
    cases hact
  exact h.over_ended s hs t (mem_of_mem_filter ht) hover

lemma Ordered.ended (h : Ordered maxSeats w) (hsession : w.session = some session) :
    Ordered maxSeats (w.setSession { session with status := .ended }) :=
  h.setSession hsession ((h.session session hsession).of_ids rfl)
    (nofun) (fun _ => rfl)

lemma resume_status (session : Session) :
    session.resume.status.active = session.status.active := by
  rw [Session.resume]
  split
  · rename_i hpaused
    rw [hpaused]
    rfl
  rfl

lemma resume_ended (h : session.status = .ended) : session.resume.status = .ended := by
  rw [Session.resume, h]
  exact h

lemma pause_status (session : Session) : session.pause.status.active = session.status.active := by
  rw [Session.pause]
  split
  · rename_i hdiscussing
    rw [hdiscussing]
    rfl
  rfl

lemma pause_ended (h : session.status = .ended) : session.pause.status = .ended := by
  rw [Session.pause, h]
  exact h

lemma ids_resume (session : Session) : ids session.resume.seats = ids session.seats :=
  (SameTable.resume session).ids

lemma ids_pause (session : Session) : ids session.pause.seats = ids session.seats :=
  (SameTable.pause session).ids

lemma Ordered.resume (h : Ordered maxSeats w) (hsession : w.session = some session) :
    Ordered maxSeats (w.setSession session.resume) :=
  h.setSession hsession ((h.session session hsession).of_ids (ids_resume session))
    (fun hact => resume_status session ▸ hact) resume_ended

lemma Ordered.pause (h : Ordered maxSeats w) (hsession : w.session = some session) :
    Ordered maxSeats (w.setSession session.pause) :=
  h.setSession hsession ((h.session session hsession).of_ids (ids_pause session))
    (fun hact => pause_status session ▸ hact) pause_ended

lemma ids_withModerator {seats seats' : List Seat} (h : withModerator seats = some seats') :
    ids seats' = ids seats := by
  simp only [withModerator] at h
  split at h
  · rw [some.inj h]
  split at h
  · cases h
  rw [← some.inj h]
  rfl

lemma seated_created {configs : List SeatConfig} {maxRounds : Nat} {strategyName : String}
    {compressor : Compressor}
    (hcreate : Session.create configs maxRounds strategyName compressor = some session)
    (hids : (ids (createSeats configs)).Nodup) (htwo : 2 ≤ configs.length)
    (hmax : configs.length ≤ maxSeats) : Seated maxSeats session ∧ session.status = .waiting := by
  have hseats : ids session.seats = ids (createSeats configs) ∧ session.status = .waiting := by
    simp only [Session.create] at hcreate
    split at hcreate
    · obtain ⟨seats, hmoderator, rfl⟩ := map_eq_some_iff.1 hcreate
      exact ⟨ids_withModerator hmoderator, rfl⟩
    obtain rfl := some.inj hcreate
    exact ⟨rfl, rfl⟩
  have hlength : session.seats.length = configs.length := by
    rw [← length_ids session.seats, hseats.1, length_ids, length_createSeats]
  exact ⟨⟨hseats.1 ▸ hids, by omega, by omega⟩, hseats.2⟩

lemma Ordered.restarted (h : Ordered maxSeats w) (hfile : w.file = some session)
    (hpaused : session.status ≠ .paused) : Ordered maxSeats
      { session := some session.loaded, registered := true, made := w.made, file := w.file } := by
  have hseated := h.file session hfile
  have hidle : session.loaded.status.active = false := by
    show (if session.status = .discussing then Status.ended else session.status).active = false
    cases hstatus : session.status with
    | paused => exact absurd hstatus hpaused
    | _ => rfl
  refine ⟨fun s hs => some.inj hs ▸ hseated.of_ids rfl, h.file, Nat.zero_le _,
    fun s hs hact => ?_, fun s hs _ ht => absurd ht not_mem_nil⟩
  rw [← some.inj hs, hidle] at hact
  cases hact

lemma Ordered.unregister (h : Ordered maxSeats w) : Ordered maxSeats w.unregister :=
  ⟨h.session, fun _ hs => absurd hs (by simp [World.unregister]), h.one_runner, h.active_begun,
    h.over_ended⟩

lemma Ordered.of_eq (h : Ordered maxSeats w) (hsession : w'.session = w.session)
    (htasks : w'.tasks = w.tasks) (hfile : w'.file = w.file) : Ordered maxSeats w' :=
  ⟨hsession ▸ h.session, hfile ▸ h.file, htasks ▸ h.one_runner,
    by rw [hsession, htasks]; exact h.active_begun, by rw [hsession, htasks]; exact h.over_ended⟩

lemma ordered_begins (h : Ordered maxSeats w)
    (hmove : w.move lower idle maxSeats (.begins task saved) = some w') : Ordered maxSeats w' := by
  simp only [World.move] at hmove
  split at hmove
  · rename_i session t hsession hget
    split at hmove
    · obtain rfl := some.inj hmove
      obtain ⟨htasks, -⟩ := tasks_eq h.one_runner hget
      have hid : ({ t with place := some (Runner.start session).place } : Task).id = t.id := rfl
      have hseated : Seated maxSeats (Runner.start session).session :=
        (h.session session hsession).of_ids rfl
      apply Ordered.save
      apply h.setBoth htasks hid hseated rfl
      intro hover
      exact absurd (some.inj hover) (backToOuter_place _)
    cases hmove
  cases hmove

lemma ordered_handles (h : Ordered maxSeats w) {said : String}
    (hcareful : Careful maxSeats w (.handles task said saved))
    (hmove : w.move lower idle maxSeats (.handles task said saved) = some w') :
    Ordered maxSeats w' := by
  simp only [World.move] at hmove
  split at hmove
  · rename_i session t hsession hget
    split at hmove
    · rename_i place iv rest hplace hbatch
      obtain rfl := some.inj hmove
      obtain ⟨htasks, -⟩ := tasks_eq h.one_runner hget
      have hseated := h.session session hsession
      have hbounds : WithinBounds maxSeats session iv :=
        hcareful session hsession t hget iv (by rw [hbatch]; rfl)
      have hover : t.place = some .done → session.status = .ended := fun hover =>
        h.over_ended session hsession t (by rw [htasks]; exact mem_cons_self) hover
      have hbegun : t.place.isSome = true := by rw [hplace]; rfl
      have hid : ({ t with batch := rest } : Task).id = t.id := rfl
      apply Ordered.save
      by_cases hseating : Runner.Seating iv
      · cases iv with
        | addSeat config =>
          cases config with
          | none => exact h.setBoth htasks hid hseated hbegun hover
          | some =>
            exact h.setBoth htasks hid (hseated.add hbounds.1 hbounds.2) hbegun hover
        | removeSeat seatId =>
          cases seatId with
          | none => exact h.setBoth htasks hid hseated hbegun hover
          | some seatId =>
            cases hremove : session.removeSeat seatId with
            | none =>
              simp only [Runner.process, World.runner, hremove, getD_none]
              exact h.setBoth htasks hid hseated hbegun hover
            | some after =>
              have htwo := hbounds (by rw [hremove]; rfl)
              have hstatus : after.status = session.status := by
                rw [(removeSeat_eq_some hremove).2]
              simp only [Runner.process, World.runner, hremove, getD_some]
              exact h.setBoth htasks hid (hseated.remove hremove htwo) hbegun
                (fun hplace' => hstatus.trans (hover hplace'))
        | _ => exact absurd hseating id
      have hsame := Runner.process_same lower (World.runner session place) said hseating
      refine h.setBoth htasks hid (hseated.of_ids hsame.ids) hbegun (fun hplace' => ?_)
      have hended := hover hplace'
      cases iv with
      | nominate targetSeatId content =>
        simp only [Runner.process]
        cases Runner.nominee lower (World.runner session place).session.seats targetSeatId content
          with
        | none => exact hended
        | some seat =>
          simp only
          split <;> exact hended
      | addSeat config =>
        cases config with
        | none => exact hended
        | some => exact absurd trivial hseating
      | removeSeat seatId =>
        cases seatId with
        | none => exact hended
        | some => exact absurd trivial hseating
      | pause => exact pause_ended hended
      | resume => exact resume_ended hended
      | _ => exact hended
    cases hmove
  cases hmove

lemma ordered_iterates (h : Ordered maxSeats w) {event : Event}
    (hmove : w.move lower idle maxSeats (.iterates task event saved) = some w') :
    Ordered maxSeats w' := by
  simp only [World.move] at hmove
  split at hmove
  · rename_i session t hsession hget
    split at hmove
    · cases hmove
    split at hmove
    · rename_i hevent
      obtain ⟨r, hstep, rfl⟩ := map_eq_some_iff.1 hmove
      obtain ⟨htasks, -⟩ := tasks_eq h.one_runner hget
      have hiterated := iterated_of_step hevent.1 hstep
      have hid : ({ t with place := some r.place } : Task).id = t.id := rfl
      apply Ordered.save
      exact h.setBoth htasks hid ((h.session session hsession).of_ids hiterated.ids) rfl
        (fun hover => hiterated.done (some.inj hover))
    cases hmove
  cases hmove

lemma good_step {move : Move} (h : Ordered maxSeats w) (hcareful : Careful maxSeats w move)
    (hmove : w.move lower idle maxSeats move = some w') : Ordered maxSeats w' := by
  cases move with
  | begins => exact ordered_begins h hmove
  | handles => exact ordered_handles h hcareful hmove
  | iterates => exact ordered_iterates h hmove
  | create configs maxRounds strategyName compressor saved =>
    simp only [World.move] at hmove
    split at hmove
    · rename_i hempty
      obtain ⟨session, hcreate, rfl⟩ := map_eq_some_iff.1 hmove
      obtain ⟨hseated, hwaiting⟩ :=
        seated_created hcreate hcareful.1 hcareful.2.1 hcareful.2.2
      subst hempty
      apply Ordered.save
      refine ⟨fun s hs => some.inj hs ▸ hseated, fun s hs => absurd hs (by simp),
        Nat.zero_le _, fun s hs hact => ?_, fun s hs t ht => absurd ht not_mem_nil⟩
      rw [← some.inj hs, hwaiting] at hact
      exact absurd hact false_ne_true
    cases hmove
  | start =>
    simp only [World.move] at hmove
    split at hmove
    · exact some.inj hmove ▸ h
    rename_i session hget
    split at hmove
    · exact some.inj hmove ▸ h
    rename_i hrefused
    obtain rfl := some.inj hmove
    have hnone : w.tasks = [] := by
      rcases hcareful session hget with hdiscussing | hended | hnone
      · exact absurd (.inl hdiscussing) hrefused
      · exact absurd (.inr hended) hrefused
      exact hnone
    have htasks : w.tasks ++ [{ id := w.made }] = [{ id := w.made }] := by rw [hnone]; rfl
    -- nobody is alive, so the status is not one of a running meeting
    refine ⟨h.session, h.file, ?_, fun s hs hact => ?_, fun s hs t ht hover => ?_⟩
    · show (w.tasks ++ [({ id := w.made } : Task)]).length ≤ 1
      rw [htasks]
      exact Nat.le_refl 1
    · obtain ⟨t, ht, -⟩ := h.active_begun s hs hact
      rw [hnone] at ht
      exact absurd ht not_mem_nil
    have hnew : t ∈ w.tasks ++ [({ id := w.made } : Task)] := ht
    rw [htasks] at hnew
    rw [mem_singleton.1 hnew] at hover
    cases hover
  | stop saved =>
    simp only [World.move] at hmove
    split at hmove
    · exact some.inj hmove ▸ h
    rename_i session hget
    have hsession := get_eq_some hget
    split at hmove
    · split at hmove
      · obtain rfl := some.inj hmove
        exact (h.resume hsession).of_eq rfl rfl rfl
      obtain rfl := some.inj hmove
      exact ((h.resume hsession).ended rfl).save saved
    exact some.inj hmove ▸ h
  | stopped task saved =>
    simp only [World.move] at hmove
    split at hmove
    · cases hmove
    rename_i session hsession
    split at hmove
    · obtain rfl := some.inj hmove
      apply Ordered.save
      exact (h.ended hsession).of_eq rfl rfl rfl
    cases hmove
  | pause saved =>
    simp only [World.move] at hmove
    split at hmove
    · exact some.inj hmove ▸ h
    rename_i session hget
    split at hmove
    · exact some.inj hmove ▸ (h.pause (get_eq_some hget)).save saved
    exact some.inj hmove ▸ h
  | resume saved =>
    simp only [World.move] at hmove
    split at hmove
    · exact some.inj hmove ▸ h
    rename_i session hget
    split at hmove
    · exact some.inj hmove ▸ (h.resume (get_eq_some hget)).save saved
    exact some.inj hmove ▸ h
  | inject =>
    simp only [World.move] at hmove
    split at hmove
    · exact some.inj hmove ▸ h
    split at hmove
    · exact some.inj hmove ▸ h.of_eq rfl rfl rfl
    exact some.inj hmove ▸ h
  | nominate =>
    simp only [World.move] at hmove
    split at hmove
    · exact some.inj hmove ▸ h
    split at hmove
    · split at hmove
      · exact some.inj hmove ▸ h
      exact some.inj hmove ▸ h.of_eq rfl rfl rfl
    exact some.inj hmove ▸ h
  | addSeat config saved =>
    simp only [World.move] at hmove
    split at hmove
    · exact some.inj hmove ▸ h
    rename_i session hget
    have hsession := get_eq_some hget
    split at hmove
    · exact some.inj hmove ▸ h
    rename_i hroom
    split at hmove
    · exact some.inj hmove ▸ h.of_eq rfl rfl rfl
    rename_i hidle
    have hfresh : FreshId session.seats config :=
      (hcareful session hget).resolve_left hidle
    obtain rfl := some.inj hmove
    apply Ordered.save
    exact h.setSession hsession ((h.session session hsession).add (by omega) hfresh) id id
  | removeSeat seatId saved =>
    simp only [World.move] at hmove
    split at hmove
    · exact some.inj hmove ▸ h
    rename_i session hget
    have hsession := get_eq_some hget
    split at hmove
    · exact some.inj hmove ▸ h
    rename_i htwo
    split at hmove
    · exact some.inj hmove ▸ h
    split at hmove
    · exact some.inj hmove ▸ h
    split at hmove
    · exact some.inj hmove ▸ h.of_eq rfl rfl rfl
    split at hmove
    · exact some.inj hmove ▸ h
    rename_i after hremove
    obtain rfl := some.inj hmove
    have hstatus : after.status = session.status := by
      rw [(removeSeat_eq_some hremove).2]
    apply Ordered.save
    exact h.setSession hsession
      ((h.session session hsession).remove hremove (by omega))
      (fun hact => hstatus ▸ hact) (fun hended => hstatus.trans hended)
  | delete =>
    simp only [World.move] at hmove
    split at hmove
    · exact some.inj hmove ▸ h
    split at hmove
    · exact some.inj hmove ▸ h
    split at hmove
    · exact some.inj hmove ▸ h.of_eq rfl rfl rfl
    exact some.inj hmove ▸ h.unregister
  | deleted task =>
    simp only [World.move] at hmove
    split at hmove
    · have hrest : Ordered maxSeats { w with deleting := w.deleting.erase task, entry := none } :=
        h.of_eq rfl rfl rfl
      obtain rfl := some.inj hmove
      split
      · exact hrest.unregister
      exact hrest
    cases hmove
  | drains task =>
    simp only [World.move] at hmove
    split at hmove
    · rename_i session t hsession hget
      split at hmove
      · cases hmove
      rename_i place hplace
      split at hmove
      · obtain rfl := some.inj hmove
        obtain ⟨htasks, -⟩ := tasks_eq h.one_runner hget
        have hid : ({ t with batch := w.queue } : Task).id = t.id := rfl
        have hboth := h.setBoth htasks hid (h.session session hsession) (by
            show t.place.isSome = true
            rw [hplace]
            rfl)
          (h.over_ended session hsession t (by rw [htasks]; exact mem_cons_self))
        exact hboth.of_eq hsession rfl rfl
      cases hmove
    cases hmove
  | fails task =>
    simp only [World.move] at hmove
    split at hmove
    · rename_i session t hsession hget
      split at hmove
      · obtain rfl := some.inj hmove
        obtain ⟨htasks, -⟩ := tasks_eq h.one_runner hget
        have hid : ({ t with place := some .leaving, batch := [] } : Task).id = t.id := rfl
        exact h.setBoth htasks hid ((h.session session hsession).of_ids rfl) rfl (fun _ => rfl)
      cases hmove
    cases hmove
  | finishes task =>
    simp only [World.move] at hmove
    split at hmove
    · rename_i t hget
      split at hmove
      · rename_i hover
        obtain rfl := some.inj hmove
        obtain ⟨htasks, -⟩ := tasks_eq h.one_runner hget
        refine h.endTask task (fun session hsession => ?_)
        rw [h.over_ended session hsession t (by rw [htasks]; exact mem_cons_self) hover]
        rfl
      cases hmove
    cases hmove
  | cancelled task saved =>
    simp only [World.move] at hmove
    split at hmove
    · rename_i session t hsession hget
      obtain ⟨htasks, -⟩ := tasks_eq h.one_runner hget
      split at hmove
      · rename_i hplace
        obtain rfl := some.inj hmove
        refine ⟨h.session, h.file, le_trans (length_filter_le ..) h.one_runner,
          fun s hs hact => ?_, fun s hs u hu => h.over_ended s hs u (mem_of_mem_filter hu)⟩
        -- the only task has not begun, so no meeting is running
        obtain ⟨u, hu, hbegun⟩ := h.active_begun s hs hact
        rw [htasks] at hu
        rw [mem_singleton.1 hu, hplace] at hbegun
        exact absurd hbegun false_ne_true
      obtain rfl := some.inj hmove
      apply ((h.ended hsession).save saved).endTask
      intro s hs
      rw [save_session] at hs
      rw [← some.inj hs]
      rfl
    cases hmove
  | restart saved =>
    simp only [World.move] at hmove
    split at hmove
    · obtain rfl := some.inj hmove
      exact ⟨fun s hs => absurd hs (by simp), fun s hs => absurd hs (by simp), Nat.zero_le _,
        fun s hs => absurd hs (by simp), fun s hs => absurd hs (by simp)⟩
    rename_i session hfile
    obtain rfl := some.inj hmove
    have hloaded := h.restarted hfile (hcareful session hfile)
    split
    · exact hloaded.save saved
    exact hloaded

/-! ## Every interleaving -/

/-- **A meeting stays in order**, whatever requests come and however their
steps interleave, as long as every move is careful. -/
theorem manager_inOrder (lower : String → String) (idle maxSeats : Nat) {moves : List Move}
    (halong : Runs.Along (World.move lower idle maxSeats) (Careful maxSeats) {} moves) :
    Runs.Always (World.move lower idle maxSeats) (InOrder maxSeats) {} moves := by
  have hstart : Ordered maxSeats {} :=
    ⟨nofun, nofun, Nat.zero_le _,
      nofun, nofun⟩
  have hordered : Runs.Always (World.move lower idle maxSeats) (Ordered maxSeats) {} moves :=
    Runs.always_of_along (fun w move _ h hcareful hmove => good_step h hcareful hmove) hstart halong
  exact hordered.mono (fun w h => h.inOrder)

end

/-- Three seats meet, one is removed while they discuss, and the meeting is
paused, resumed and stopped. -/
theorem manager_inOrder_stopped : Runs.Always (World.move id 50 6) (InOrder 6) {}
      [.create threeSeats 2 "round_robin" {} true, .start, .begins 0 true,
        .removeSeat "seat-2" true, .drains 0, .handles 0 "" true, .pause true, .resume true,
        .stop true, .cancelled 0 true, .stopped 0 true, .restart true] :=
  manager_inOrder id 50 6 (by decide)

def discussing : List Move :=
  [.create threeSeats 2 "round_robin" {} true, .start, .begins 0 true]

/-- **Requests that break the order**: a second start before the first task
has run makes two runners; two removals that are both queued while three seats
are there leave one; two seats that are both let in below a most of four make
five; and a meeting that is paused when the process ends is paused with no
runner after it. -/
theorem requests_breakOrder : (∃ w, Runs.run (World.move id 50 6) {}
        [.create threeSeats 2 "round_robin" {} true, .start, .start] = some w
      ∧ ¬ InOrder 6 w)
    ∧ (∃ w, Runs.run (World.move id 50 6) {} (discussing
        ++ [.removeSeat "seat-1" true, .removeSeat "seat-2" true, .drains 0, .handles 0 "" true,
          .handles 0 "" true]) = some w ∧ ¬ InOrder 6 w)
    ∧ (∃ w, Runs.run (World.move id 50 4) {} (discussing
        ++ [.addSeat {} true, .addSeat {} true, .drains 0, .handles 0 "" true,
          .handles 0 "" true]) = some w ∧ ¬ InOrder 4 w)
    ∧ (∃ w, Runs.run (World.move id 50 6) {} (discussing ++ [.pause true, .restart true]) = some w
      ∧ ¬ InOrder 6 w) := by
  refine ⟨⟨_, rfl, fun h => ?_⟩, ⟨_, rfl, fun h => ?_⟩, ⟨_, rfl, fun h => ?_⟩,
    ⟨_, rfl, fun h => ?_⟩⟩
  · exact absurd h.one_runner (by decide)
  · exact absurd (h.seated _ rfl).two_le (by decide)
  · exact absurd (h.seated _ rfl).le_max (by decide)
  exact absurd (h.active_alive _ rfl rfl) (by decide)

end DeterminFlow.Roundtable
