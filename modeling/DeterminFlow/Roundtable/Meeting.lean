/-
  Roundtable.Meeting
  **A ROUNDTABLE MEETING AND ITS RUNNER.**

  The session owns the seats, the transcript and the strategy that picks the
  speakers.  The runner takes one iteration of its loops at a time: before
  each it handles what people put into the queue, and then it lets a seat
  speak, or asks the moderator what to do.

  The moderator's loop counts its own iterations and lies inside a loop that
  only asks whether the strategy has finished.
-/
import DeterminFlow.Roundtable.Seats

namespace DeterminFlow.Roundtable

/-! ## The round robin strategy -/

/-- `RoundRobinStrategy`. -/
structure RoundRobin where
  seatCount : Nat
  maxRounds : Nat
  currentRound : Nat := 1
  speakerIndex : Nat := 0
  finished : Bool := false
  deriving DecidableEq

namespace RoundRobin

/-- `next_speaker`: the seat at the index; past the last seat a new round
begins, or the meeting is finished. -/
def nextSpeaker (s : RoundRobin) (seats : List Seat) : Option Seat × RoundRobin :=
  if s.finished then (none, s)
  else if seats.isEmpty then (none, { s with finished := true })
  else if seats.length ≤ s.speakerIndex then
    if s.maxRounds ≤ s.currentRound then (none, { s with finished := true })
    else (seats[0]?, { s with currentRound := s.currentRound + 1, speakerIndex := 0 })
  else (seats[s.speakerIndex]?, s)

def advance (s : RoundRobin) : RoundRobin := { s with speakerIndex := s.speakerIndex + 1 }

def isRoundEnd (s : RoundRobin) : Bool := s.seatCount ≤ s.speakerIndex

/-- What `remove_seat` does to the index; `count` seats are left. -/
def seatRemoved (s : RoundRobin) (removedIndex count : Nat) : RoundRobin :=
  { s with
    seatCount := count
    speakerIndex :=
      if 0 < s.speakerIndex then
        if removedIndex < s.speakerIndex then s.speakerIndex - 1
        else if removedIndex = s.speakerIndex then min s.speakerIndex (max 0 (count - 1))
        else s.speakerIndex
      else s.speakerIndex }

end RoundRobin

/-! ## The strategy of the moderator's decisions -/

/-- The `speaker_id` of a decision: any JSON value. -/
inductive SpeakerRef where
  /-- `null`, or another value that is false. -/
  | nothing
  | text (seatId : String)
  /-- A value that is true and not a text, so no seat's id. -/
  | otherValue
  deriving DecidableEq

def SpeakerRef.isTrue : SpeakerRef → Bool
  | .nothing => false
  | .text seatId => seatId ≠ ""
  | .otherValue => true

/-- `ModeratorDecidesStrategy`. -/
structure ModeratorDecides where
  seatCount : Nat
  maxRounds : Nat
  currentRound : Nat := 1
  speakersThisRound : List String := []
  finished : Bool := false
  pendingSpeakerId : SpeakerRef := .nothing
  currentSpeakerId : Option String := none
  needsModeratorDecision : Bool := true
  shouldConclude : Bool := false
  deriving DecidableEq

namespace ModeratorDecides

/-- `next_speaker`: the seat of the pending decision, if it is there. -/
def nextSpeaker (s : ModeratorDecides) (seats : List Seat) : Option Seat × ModeratorDecides :=
  if s.finished || s.shouldConclude then (none, s)
  else if seats.isEmpty then (none, { s with finished := true })
  else if s.pendingSpeakerId.isTrue then
    match seats.find? (fun seat => SpeakerRef.text seat.seatId = s.pendingSpeakerId) with
    | some seat =>
      (some seat, { s with currentSpeakerId := some seat.seatId, pendingSpeakerId := .nothing })
    | none => (none, { s with pendingSpeakerId := .nothing, needsModeratorDecision := true })
  else (none, { s with needsModeratorDecision := true })

def setDecision (s : ModeratorDecides) (speakerId : SpeakerRef) (shouldConclude newRound : Bool) :
    ModeratorDecides :=
  let s := { s with needsModeratorDecision := false }
  if shouldConclude then { s with shouldConclude := true, finished := true }
  else if newRound && decide (s.maxRounds ≤ s.currentRound) then { s with finished := true }
  else
    let s :=
      if newRound then { s with currentRound := s.currentRound + 1, speakersThisRound := [] }
      else s
    if speakerId.isTrue then { s with pendingSpeakerId := speakerId } else s

def advance (s : ModeratorDecides) : ModeratorDecides :=
  { s with
    speakersThisRound := s.speakersThisRound ++ s.currentSpeakerId.toList
    currentSpeakerId := none
    needsModeratorDecision := true }

end ModeratorDecides

inductive Strategy where
  | roundRobin (s : RoundRobin)
  | moderatorDecides (s : ModeratorDecides)
  deriving DecidableEq

namespace Strategy

def shouldEnd : Strategy → Bool
  | .roundRobin s => s.finished
  | .moderatorDecides s => s.finished

def currentRound : Strategy → Nat
  | .roundRobin s => s.currentRound
  | .moderatorDecides s => s.currentRound

/-- `add_seat` tells the strategy the new count. -/
def seatAdded (count : Nat) : Strategy → Strategy
  | .roundRobin s => .roundRobin { s with seatCount := count }
  | .moderatorDecides s => .moderatorDecides { s with seatCount := count }

def seatRemoved (removedIndex count : Nat) : Strategy → Strategy
  | .roundRobin s => .roundRobin (s.seatRemoved removedIndex count)
  | .moderatorDecides s => .moderatorDecides { s with seatCount := count }

/-- `create_strategy`: every other name falls back to the round robin. -/
def create (strategyName : String) (seatCount maxRounds : Nat) : Strategy :=
  if strategyName = "moderator_decides" then
    .moderatorDecides { seatCount := seatCount, maxRounds := maxRounds }
  else .roundRobin { seatCount := seatCount, maxRounds := maxRounds }

end Strategy

/-! ## The session -/

inductive EntryType where
  | statement
  | moderatorNote
  | summary
  | conclusion
  deriving DecidableEq

structure TranscriptEntry where
  speakerSeatId : String
  speakerName : String
  content : String
  roundNumber : Nat
  entryType : EntryType := .statement
  deriving DecidableEq

/-- `TranscriptCompressor`, as far as it asks for summaries. -/
structure Compressor where
  enabled : Bool := false
  summaryInterval : Nat := 0
  deriving DecidableEq

def Compressor.shouldSummarize (c : Compressor) (currentRound : Nat) : Bool :=
  c.enabled && decide (0 < c.summaryInterval) && decide (0 < currentRound)
    && currentRound % c.summaryInterval == 0

inductive Status where
  | waiting
  | discussing
  | paused
  | ended
  deriving DecidableEq

/-- `RoundtableSession`; ghost: how many seats were ever made. -/
structure Session where
  seats : List Seat
  made : Nat
  strategy : Strategy
  status : Status := .waiting
  /-- `_pause_event`: the runner goes on. -/
  going : Bool := true
  compressor : Compressor := {}
  transcript : List TranscriptEntry := []
  deriving DecidableEq

namespace Session

/-- `RoundtableManager.create`; `none` stands for its `IndexError`. -/
def create (configs : List SeatConfig) (maxRounds : Nat) (strategyName : String)
    (compressor : Compressor) : Option Session :=
  let session (seats : List Seat) : Session :=
    { seats := seats
      made := configs.length
      strategy := Strategy.create strategyName seats.length maxRounds
      compressor := compressor }
  if strategyName = "moderator_decides" then
    (withModerator (createSeats configs)).map session
  else some (session (createSeats configs))

def addSeat (s : Session) (config : SeatConfig) : Session :=
  { s with
    seats := s.seats ++ [newSeat s.seats config s.made]
    made := s.made + 1
    strategy := s.strategy.seatAdded (s.seats.length + 1) }

/-- `remove_seat`; `none` when there is no such seat, or it speaks. -/
def removeSeat (s : Session) (seatId : String) : Option Session :=
  match getSeat s.seats seatId with
  | none => none
  | some target =>
    if target.status = .speaking then none
    else
      let removedIndex := s.seats.findIdx (·.seatId = seatId)
      let seats := s.seats.filter (·.seatId ≠ seatId)
      some { s with
        seats := seats
        strategy := s.strategy.seatRemoved removedIndex seats.length }

def pause (s : Session) : Session :=
  if s.status = .discussing then { s with status := .paused, going := false } else s

def resume (s : Session) : Session :=
  if s.status = .paused then { s with status := .discussing, going := true } else s

def note (s : Session) (entry : TranscriptEntry) : Session :=
  { s with transcript := s.transcript ++ [entry] }

def withStrategy (s : Session) (strategy : Strategy) : Session := { s with strategy := strategy }

end Session

/-! ## The runner -/

inductive Intervention where
  | inject (content : String)
  | nominate (targetSeatId : Option String) (content : String)
  | addSeat (config : Option SeatConfig)
  | removeSeat (targetSeatId : Option String)
  | pause
  | resume
  | finish
  deriving DecidableEq

/-- Where the runner is. -/
inductive Place where
  /-- In the loop of `run`, its condition holding. -/
  | outer
  /-- In `_run_round_robin_loop`, its condition holding. -/
  | roundRobin
  /-- In `_run_moderator_loop`, with so many iterations left. -/
  | moderator (cycles : Nat)
  /-- Past the loops, before the conclusion. -/
  | leaving
  | done
  deriving DecidableEq

/-- A run of the runner; ghost: the model calls it made, how many of these let
a seat speak, and how many of those a person asked for. -/
structure Runner where
  session : Session
  place : Place
  calls : Nat := 0
  spoken : Nat := 0
  nominated : Nat := 0
  deriving DecidableEq

/-- What the model answered the moderator's question. -/
inductive Answer where
  /-- The call fails, or its answer is no JSON object. -/
  | failed
  /-- A JSON object; an action that is not a text is like an unknown one. -/
  | object (action : Option String) (speakerId : SpeakerRef)
  deriving DecidableEq

inductive Action where
  | selectSpeaker
  | newRound
  | conclude
  | summarize
  deriving DecidableEq

structure Decision where
  action : Action
  speakerId : SpeakerRef := .nothing
  deriving DecidableEq

/-- `_moderator_decide`: everything that is not understood concludes. -/
def moderatorDecide : Answer → Decision
  | .failed => { action := .conclude }
  | .object action speakerId =>
    match action with
    | some "select_speaker" => { action := .selectSpeaker, speakerId := speakerId }
    | some "new_round" => { action := .newRound, speakerId := speakerId }
    | some "summarize" => { action := .summarize, speakerId := speakerId }
    | _ => { action := .conclude, speakerId := speakerId }

inductive Event where
  /-- The next one of the drained interventions, and what a nominated seat says. -/
  | intervene (iv : Intervention) (said : String)
  /-- From the loop of `run` into the loop of the strategy. -/
  | enter
  /-- An iteration of the round robin loop, after its interventions. -/
  | turn (said : String) (summary : Option String)
  /-- An iteration of the moderator's loop, after its interventions. -/
  | cycle (answer : Answer) (said : String) (summary : Option String)
  /-- `_generate_conclusion` and the end of `run`. -/
  | conclude (text : Option String)
  /-- A person pauses or resumes the meeting. -/
  | pause
  | resume
  deriving DecidableEq

namespace Runner

def round (r : Runner) : Nat := r.session.strategy.currentRound

def doSpeak (r : Runner) (seat : Seat) (said : String) : Runner :=
  { r with
    session :=
      { r.session with seats := setStatus r.session.seats seat.made .done }.note
        { speakerSeatId := seat.seatId, speakerName := seat.roleName, content := said,
          roundNumber := r.round }
    calls := r.calls + 1
    spoken := r.spoken + 1 }

def moderatorNote (r : Runner) (text : String) (round : Nat) (entryType : EntryType) : Runner :=
  let moderator := getModeratorSeat r.session.seats
  { r with
    session := r.session.note
      { speakerSeatId := (moderator.map Seat.seatId).getD "system"
        speakerName := (moderator.map Seat.roleName).getD "系统"
        content := text
        roundNumber := round
        entryType := entryType } }

/-- `_generate_round_summary`; `none` for a call that fails. -/
def generateRoundSummary (r : Runner) (round : Nat) (summary : Option String) : Runner :=
  if r.session.transcript.any (·.roundNumber = round) then
    let r := { r with calls := r.calls + 1 }
    match summary with
    | none => r
    | some text => r.moderatorNote text round .summary
  else r

def roundEnded (r : Runner) (round : Nat) (summary : Option String) : Runner :=
  let r := { r with session := { r.session with seats := allIdle r.session.seats } }
  if r.session.compressor.shouldSummarize round then r.generateRoundSummary round summary else r

def userNote (r : Runner) (name content : String) : Runner :=
  { r with
    session := r.session.note
      { speakerSeatId := "user", speakerName := name, content := content,
        roundNumber := r.round, entryType := .moderatorNote } }

def nominee (lower : String → String) (seats : List Seat) (targetSeatId : Option String)
    (content : String) : Option Seat :=
  (targetSeatId.bind (fun seatId => if seatId = "" then none else getSeat seats seatId)).or
    (if content = "" then none else getSeatByName lower seats content)

/-- One round of the loop in `_process_interventions`; what `end` does is in
`step`. -/
def process (lower : String → String) (r : Runner) (iv : Intervention) (said : String) : Runner :=
  match iv with
  | .inject content => r.userNote "用户插话" content
  | .nominate targetSeatId content =>
    match nominee lower r.session.seats targetSeatId content with
    | none => r
    | some seat =>
      let r :=
        if content ≠ "" && targetSeatId.any (· ≠ "") then
          r.userNote "用户" ("@" ++ seat.roleName ++ " " ++ content)
        else r
      let r := r.doSpeak seat said
      { r with nominated := r.nominated + 1 }
  | .addSeat none => r
  | .addSeat (some config) => { r with session := r.session.addSeat config }
  | .removeSeat none => r
  | .removeSeat (some seatId) => { r with session := (r.session.removeSeat seatId).getD r.session }
  | .pause => { r with session := r.session.pause }
  | .resume => { r with session := r.session.resume }
  | .finish => r

/-- The condition of the loop in `run` is looked at. -/
def backToOuter (r : Runner) : Runner :=
  { r with place := if r.session.strategy.shouldEnd then .leaving else .outer }

def nextCycle (r : Runner) (cycles : Nat) : Runner :=
  if cycles = 0 || r.session.strategy.shouldEnd then r.backToOuter
  else { r with place := .moderator cycles }

/-- `return True` of `_process_interventions`. -/
def stopped (r : Runner) : Runner :=
  match r.place with
  | .moderator _ => r.backToOuter
  | _ => { r with place := .leaving }

def roundRobinTurn (r : Runner) (s : RoundRobin) (said : String) (summary : Option String) :
    Runner :=
  match s.nextSpeaker r.session.seats with
  | (none, s') =>
    { r with session := r.session.withStrategy (.roundRobin s'), place := .leaving }
  | (some seat, s') =>
    let r := { r with session := r.session.withStrategy (.roundRobin s') }.doSpeak seat said
    let r := { r with session := r.session.withStrategy (.roundRobin s'.advance) }
    if s'.advance.isRoundEnd then r.roundEnded r.round summary else r

def speakNext (r : Runner) (s : ModeratorDecides) (cycles : Nat) (said : String) : Runner :=
  match s.nextSpeaker r.session.seats with
  | (none, s') =>
    let r := { r with session := r.session.withStrategy (.moderatorDecides s') }
    if s'.needsModeratorDecision then r.nextCycle (cycles - 1) else r.backToOuter
  | (some seat, s') =>
    let r := { r with session := r.session.withStrategy (.moderatorDecides s') }.doSpeak seat said
    { r with session := r.session.withStrategy (.moderatorDecides s'.advance) }.nextCycle
      (cycles - 1)

def asked (r : Runner) : Runner :=
  { r with
    calls := r.calls + 1
    session :=
      match getModeratorSeat r.session.seats with
      | none => r.session
      | some seat => { r.session with seats := setStatus r.session.seats seat.made .idle } }

def moderatorCycle (r : Runner) (s : ModeratorDecides) (cycles : Nat) (answer : Answer)
    (said : String) (summary : Option String) : Runner :=
  if s.needsModeratorDecision then
    let r := r.asked
    let decision := moderatorDecide answer
    let decided (s : ModeratorDecides) : Runner :=
      { r with session := r.session.withStrategy (.moderatorDecides s) }
    match decision.action with
    | .conclude => (decided (s.setDecision .nothing true false)).backToOuter
    | .summarize =>
      ((decided { s with needsModeratorDecision := true }).generateRoundSummary
        s.currentRound summary).nextCycle (cycles - 1)
    | .newRound =>
      let s := s.setDecision decision.speakerId false true
      ((decided s).roundEnded (s.currentRound - 1) summary).speakNext s cycles said
    | .selectSpeaker =>
      if decision.speakerId.isTrue then
        let s := s.setDecision decision.speakerId false false
        (decided s).speakNext s cycles said
      else (decided (s.setDecision .nothing true false)).backToOuter
  else r.speakNext s cycles said

/-- `_generate_conclusion`; `none` for a call that fails. -/
def generateConclusion (r : Runner) (text : Option String) : Runner :=
  let r := { r with calls := r.calls + 1 }
  match text with
  | none => r
  | some text => r.moderatorNote text r.round .conclusion

/-- The end of `run`. -/
def concluded (r : Runner) (text : Option String) : Runner :=
  let r := if r.session.transcript.isEmpty then r else r.generateConclusion text
  { r with
    session := { r.session with status := .ended, seats := allIdle r.session.seats }
    place := .done }

def inLoops (r : Runner) : Bool :=
  r.session.going && (match r.place with
    | .leaving => false
    | .done => false
    | _ => true)

def start (session : Session) : Runner :=
  ({ session := { session with status := .discussing }, place := .outer } : Runner).backToOuter

variable (lower : String → String) (idle : Nat)

/-- One event; `idle` is `ROUNDTABLE_MAX_IDLE_CYCLES`. -/
def step (r : Runner) (event : Event) : Option Runner :=
  match event with
  | .intervene .finish _ => if r.inLoops then some r.stopped else none
  | .intervene iv said => if r.inLoops then some (r.process lower iv said) else none
  | .enter =>
    if r.inLoops && decide (r.place = .outer) then
      match r.session.strategy with
      | .roundRobin _ => some { r with place := .roundRobin }
      | .moderatorDecides _ => some (r.nextCycle idle)
    else none
  | .turn said summary =>
    if r.inLoops && decide (r.place = .roundRobin) then
      match r.session.strategy with
      | .roundRobin s => some (r.roundRobinTurn s said summary)
      | .moderatorDecides _ => none
    else none
  | .cycle answer said summary =>
    if r.inLoops then
      match r.place, r.session.strategy with
      | .moderator cycles, .moderatorDecides s =>
        some (r.moderatorCycle s cycles answer said summary)
      | _, _ => none
    else none
  | .conclude text => if r.place = .leaving then some (r.concluded text) else none
  | .pause => some { r with session := r.session.pause }
  | .resume => some { r with session := r.session.resume }

end Runner
end DeterminFlow.Roundtable
