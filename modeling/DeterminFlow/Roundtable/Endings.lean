/-
  Roundtable.Endings
  **WHEN A MEETING ENDS.**

  The round robin ends on its own: every turn uses up one of the turns that its
  rounds have.  The moderator's loop counts its iterations, and the loop
  around it does not: when the count runs out, or an `end` is drained inside,
  the strategy has not finished and the loop is entered again.
-/
import DeterminFlow.Roundtable.RoundRobin

namespace DeterminFlow.Roundtable

open Library List Option Runner Bool

/-! ## The calls and the end, watched from outside -/

/-- A meeting of which the iterations are counted, and whether a seat spoke
after an `end` was drained. -/
structure Heard where
  runner : Runner
  iterations : Nat := 0
  endDrained : Bool := false
  spokeAfter : Bool := false
  deriving DecidableEq

def Event.isIteration : Event → Bool
  | .enter => true
  | .turn _ _ => true
  | .cycle _ _ _ => true
  | .conclude _ => true
  | _ => false

def Event.isEnd : Event → Bool
  | .intervene .finish _ => true
  | _ => false

section
variable (lower : String → String) (idle : Nat)

def hear (w : Heard) (event : Event) : Option Heard :=
  (w.runner.step lower idle event).map (fun after =>
    { runner := after
      iterations := w.iterations + (if event.isIteration then 1 else 0)
      endDrained := w.endDrained || event.isEnd
      spokeAfter := w.spokeAfter || (w.endDrained && decide (w.runner.spoken < after.spoken)) })

/-- What the model calls of a meeting are bounded by, besides the turns that
people ask for. -/
def callBound (seats maxRounds idle : Nat) : Nat := 2 * (maxRounds * seats) + 3 * idle + 1

def iterationBound (seats maxRounds idle : Nat) : Nat := maxRounds * seats + idle + 3

/-- **The meeting is on its way to an end, and silent after `end`.** -/
structure Ends (maxRounds : Nat) (w : Heard) : Prop where
  calls_le : w.runner.calls
    ≤ w.runner.nominated + callBound w.runner.session.made maxRounds idle
  iterations_le : w.iterations ≤ iterationBound w.runner.session.made maxRounds idle
  silent : w.spokeAfter = false

/-- The answer ends the meeting: it concludes, it names nobody, or it asks for
a round that there is not; or there is no seat left to speak. -/
def endsMeeting (s : ModeratorDecides) (seats : List Seat) (answer : Answer) : Bool :=
  match (moderatorDecide answer).action with
  | .conclude => true
  | .summarize => false
  | .newRound => decide (s.maxRounds ≤ s.currentRound) || seats.isEmpty
  | .selectSpeaker => !(moderatorDecide answer).speakerId.isTrue || seats.isEmpty

/-- The last iteration that the moderator's loop counts ends the meeting, and
no `end` is drained inside that loop. -/
def inTime (w : Heard) (event : Event) : Bool :=
  match event, w.runner.place, w.runner.session.strategy with
  | .intervene .finish _, .moderator _, _ => false
  | .enter, .outer, .moderatorDecides _ => decide (0 < idle)
  | .cycle answer _ _, .moderator 1, .moderatorDecides s =>
    endsMeeting s w.runner.session.seats answer
  | _, _, _ => true

def InTime (w : Heard) (event : Event) : Prop := inTime idle w event = true

instance (w : Heard) (event : Event) : Decidable (InTime idle w event) :=
  inferInstanceAs (Decidable (_ = true))

end

/-! ## An iteration of the moderator's loop -/

/-- The strategy waits for a decision. -/
structure Asking (s : ModeratorDecides) : Prop where
  finished : s.finished = false
  shouldConclude : s.shouldConclude = false
  needs : s.needsModeratorDecision = true

def AskingIn (session : Session) : Prop := ∃ s, session.strategy = .moderatorDecides s ∧ Asking s

/-- Where an iteration with `k` left ends, after so many calls at most. -/
inductive CycleEnd (r : Runner) (k calls : Nat) (r' : Runner) : Prop where
  | left (hplace : r'.place = .leaving) (hnominated : r'.nominated = r.nominated)
      (hcalls : r'.calls ≤ r.calls + calls)
  | next (hplace : r'.place = .moderator (k - 1)) (hk : k ≠ 1) (hasking : AskingIn r'.session)
      (hnominated : r'.nominated = r.nominated) (hcalls : r'.calls ≤ r.calls + calls)
  | outOfCycles (hplace : r'.place = .outer) (hk : k = 1)

variable {r : Runner} {k : Nat} {s : ModeratorDecides}

lemma backToOuter_leaving (h : r.session.strategy.shouldEnd = true) :
    r.backToOuter = { r with place := .leaving } := by
  rw [Runner.backToOuter, h]
  rfl

lemma nextCycle_cycleEnd {r₀ : Runner} {calls : Nat} (hk : 1 ≤ k) (hasking : AskingIn r.session)
    (hnominated : r.nominated = r₀.nominated) (hcalls : r.calls ≤ r₀.calls + calls) :
    CycleEnd r₀ k calls (r.nextCycle (k - 1)) := by
  obtain ⟨s, hstrategy, hask⟩ := hasking
  have hgoing : r.session.strategy.shouldEnd = false := by
    rw [hstrategy]
    exact hask.finished
  rw [Runner.nextCycle, hgoing]
  by_cases hone : k = 1
  · subst hone
    exact .outOfCycles (by simp [Runner.backToOuter, hgoing]) rfl
  have hne : k - 1 ≠ 0 := by omega
  simp only [hne, decide_false, Bool.or_false, Bool.false_eq_true, if_false]
  exact .next rfl hone ⟨s, hstrategy, hask⟩ hnominated hcalls

/-- A decision is pending or was pointless; the strategy is open. -/
structure Decided (s : ModeratorDecides) : Prop where
  finished : s.finished = false
  shouldConclude : s.shouldConclude = false
  needs : s.needsModeratorDecision = false

/-- What `next_speaker` finds after a decision. -/
inductive Pick (s : ModeratorDecides) (seats : List Seat) : Option Seat → ModeratorDecides → Prop
  where
  | nobody (h : seats = []) : Pick s seats none { s with finished := true }
  | unknown (h : seats ≠ []) :
      Pick s seats none { s with pendingSpeakerId := .nothing, needsModeratorDecision := true }
  | noneNamed (h : seats ≠ []) : Pick s seats none { s with needsModeratorDecision := true }
  | seat {seat : Seat} (h : seats ≠ []) :
      Pick s seats (some seat)
        { s with currentSpeakerId := some seat.seatId, pendingSpeakerId := .nothing }

lemma nextSpeaker_pick (h : Decided s) (seats : List Seat) :
    Pick s seats (s.nextSpeaker seats).1 (s.nextSpeaker seats).2 := by
  have hopen : (s.finished || s.shouldConclude) = false := by
    rw [h.finished, h.shouldConclude]
    rfl
  rw [ModeratorDecides.nextSpeaker]
  simp only [hopen, Bool.false_eq_true, if_false]
  split
  · rename_i hempty
    exact .nobody (isEmpty_iff.1 hempty)
  rename_i hempty
  have hne : seats ≠ [] := fun heq => hempty (isEmpty_iff.2 heq)
  split
  · split
    · exact .seat hne
    exact .unknown hne
  exact .noneNamed hne

lemma speakNext_cycleEnd (r₀ : Runner) (calls : Nat) (hk : 1 ≤ k) (h : Decided s)
    (hnominated : r.nominated = r₀.nominated) (hcalls : r.calls + 1 ≤ r₀.calls + calls)
    (said : String) : CycleEnd r₀ k calls (r.speakNext s k said)
      ∧ (r.session.seats = [] → (r.speakNext s k said).place = .leaving) := by
  have hpick := nextSpeaker_pick h r.session.seats
  rw [Runner.speakNext]
  cases hnext : s.nextSpeaker r.session.seats with
  | mk seat? s' =>
    rw [hnext] at hpick
    cases seat? with
    | none =>
      simp only
      cases hpick with
      | nobody =>
        simp only [h.needs, Bool.false_eq_true, if_false]
        rw [backToOuter_leaving rfl]
        exact ⟨.left rfl hnominated (by show r.calls ≤ _; omega), fun _ => rfl⟩
      | unknown hne =>
        simp only [if_true]
        exact ⟨nextCycle_cycleEnd hk ⟨_, rfl, h.finished, h.shouldConclude, rfl⟩ hnominated
          (by show r.calls ≤ _; omega), fun hempty => absurd hempty hne⟩
      | noneNamed hne =>
        simp only [if_true]
        exact ⟨nextCycle_cycleEnd hk ⟨_, rfl, h.finished, h.shouldConclude, rfl⟩ hnominated
          (by show r.calls ≤ _; omega), fun hempty => absurd hempty hne⟩
    | some seat =>
      simp only
      cases hpick with
      | seat hne =>
        exact ⟨nextCycle_cycleEnd hk ⟨_, rfl, h.finished, h.shouldConclude, rfl⟩ hnominated hcalls,
          fun hempty => absurd hempty hne⟩

lemma speakNext_finished (hfinished : s.finished = true)
    (hneeds : s.needsModeratorDecision = false) (k : Nat) (said : String) : r.speakNext s k said
      = { r with session := r.session.withStrategy (.moderatorDecides s), place := .leaving } := by
  have hnext : s.nextSpeaker r.session.seats = (none, s) := by
    rw [ModeratorDecides.nextSpeaker, hfinished]
    rfl
  rw [Runner.speakNext, hnext]
  simp only [hneeds, Bool.false_eq_true, if_false]
  exact backToOuter_leaving hfinished

lemma setDecision_decided (h : Asking s) (speakerId : SpeakerRef) {newRound : Bool}
    (hround : newRound = true → s.currentRound < s.maxRounds) :
    Decided (s.setDecision speakerId false newRound) := by
  have hlast : (newRound && decide (s.maxRounds ≤ s.currentRound)) = false := by
    cases newRound with
    | false => rfl
    | true =>
      have := hround rfl
      simp only [Bool.true_and, decide_eq_false_iff_not]
      omega
  rw [ModeratorDecides.setDecision]
  simp only [hlast, Bool.false_eq_true, if_false]
  cases newRound <;> cases speakerId.isTrue <;> exact ⟨h.finished, h.shouldConclude, rfl⟩

lemma setDecision_lastRound (hround : s.maxRounds ≤ s.currentRound) (speakerId : SpeakerRef) :
    (s.setDecision speakerId false true).finished = true
      ∧ (s.setDecision speakerId false true).needsModeratorDecision = false := by
  have hlast : (true && decide (s.maxRounds ≤ s.currentRound)) = true := decide_eq_true hround
  rw [ModeratorDecides.setDecision]
  simp only [hlast, Bool.false_eq_true, if_false, if_true]
  exact ⟨trivial, trivial⟩

lemma moderatorCycle_cycleEnd (hk : 1 ≤ k) (h : Asking s) (answer : Answer) (said : String)
    (summary : Option String) : CycleEnd r k 3 (r.moderatorCycle s k answer said summary)
      ∧ (endsMeeting s r.session.seats answer = true →
        (r.moderatorCycle s k answer said summary).place = .leaving) := by
  have hasked : r.asked.session.seats.length = r.session.seats.length :=
    (asked_same r).length
  have hempty : ∀ r' : Runner, r'.session.seats.length = r.session.seats.length →
      r.session.seats = [] → r'.session.seats = [] := by
    intro r' hlength hseats
    exact length_eq_zero_iff.1 (hlength.trans (by rw [hseats]; rfl))
  let decided (s' : ModeratorDecides) : Runner :=
    { r.asked with session := r.asked.session.withStrategy (.moderatorDecides s') }
  rw [Runner.moderatorCycle, endsMeeting]
  simp only [h.needs, if_true]
  cases haction : (moderatorDecide answer).action with
  | conclude =>
    simp only
    rw [backToOuter_leaving rfl]
    exact ⟨.left rfl rfl (by show r.calls + 1 ≤ _; omega), fun _ => rfl⟩
  | summarize =>
    simp only
    refine ⟨?_, fun hends => absurd hends false_ne_true⟩
    have hsum := generateRoundSummary_summarized
      (decided { s with needsModeratorDecision := true }) s.currentRound summary
    have hcalls := hsum.calls
    exact nextCycle_cycleEnd hk ⟨_, hsum.same.strategy, h.finished, h.shouldConclude, rfl⟩
      hsum.nominated (le_trans hcalls (by show r.calls + 1 + 1 ≤ _; omega))
  | newRound =>
    simp only
    have hend := roundEnded_summarized
      (decided (s.setDecision (moderatorDecide answer).speakerId false true))
      ((s.setDecision (moderatorDecide answer).speakerId false true).currentRound - 1) summary
    have hcalls := hend.calls
    by_cases hround : s.maxRounds ≤ s.currentRound
    · have hlast := setDecision_lastRound hround (moderatorDecide answer).speakerId
      rw [speakNext_finished hlast.1 hlast.2]
      exact ⟨.left rfl hend.nominated (le_trans hcalls (by show r.calls + 1 + 1 ≤ _; omega)),
        fun _ => rfl⟩
    have hopen : Decided (s.setDecision (moderatorDecide answer).speakerId false true) :=
      setDecision_decided h _ (fun _ => by omega)
    have hcost : ∀ r' : Runner, r'.calls ≤ (decided (s.setDecision
        (moderatorDecide answer).speakerId false true)).calls + 1 → r'.calls + 1 ≤ r.calls + 3 :=
      fun r' hr' => Nat.add_le_add_right (le_trans hr' (Nat.le_refl (r.calls + 2))) 1
    have hspeak := speakNext_cycleEnd r 3 hk hopen hend.nominated (hcost _ hcalls) said
    refine ⟨hspeak.1, fun hends => ?_⟩
    rw [or_eq_true, decide_eq_true_eq] at hends
    rcases hends with hlast | hseats
    · exact absurd hlast hround
    exact hspeak.2 (hempty _ (hend.same.length.trans hasked) (isEmpty_iff.1 hseats))
  | selectSpeaker =>
    simp only
    cases hnamed : (moderatorDecide answer).speakerId.isTrue with
    | false =>
      simp only [Bool.false_eq_true, if_false]
      rw [backToOuter_leaving rfl]
      exact ⟨.left rfl rfl (by show r.calls + 1 ≤ _; omega), fun _ => rfl⟩
    | true =>
      simp only [if_true]
      have hopen : Decided (s.setDecision (moderatorDecide answer).speakerId false false) :=
        setDecision_decided h _ (fun hround => absurd hround false_ne_true)
      have hcost : r.calls + 1 + 1 ≤ r.calls + 3 := by omega
      have hspeak := speakNext_cycleEnd r 3
        (r := decided (s.setDecision (moderatorDecide answer).speakerId false false)) hk hopen rfl
        hcost said
      refine ⟨hspeak.1, fun hends => ?_⟩
      rw [Bool.not_true, Bool.false_or] at hends
      exact hspeak.2 (hempty _ hasked (isEmpty_iff.1 hends))

/-! ## Runs of the moderator's loop -/

section
variable {lower : String → String} {idle : Nat} {w' w : Heard} {r' r : Runner} {said : String}
  {maxRounds : Nat}

lemma hear_eq_some {event : Event} (h : hear lower idle w event = some w') :
    ∃ after, w.runner.step lower idle event = some after
      ∧ w' = { runner := after
               iterations := w.iterations + (if event.isIteration then 1 else 0)
               endDrained := w.endDrained || event.isEnd
               spokeAfter := w.spokeAfter
                || (w.endDrained && decide (w.runner.spoken < after.spoken)) } := by
  rw [hear, map_eq_some_iff] at h
  obtain ⟨after, hstep, hw⟩ := h
  exact ⟨after, hstep, hw.symm⟩

/-- Where a moderated meeting is, and what it has cost. -/
inductive Stage (idle : Nat) (w : Heard) : Prop where
  | outside (hplace : w.runner.place = .outer) (hasking : AskingIn w.runner.session)
      (hcalls : w.runner.calls ≤ w.runner.nominated) (hiterations : w.iterations = 0)
  | inside (k : Nat) (hplace : w.runner.place = .moderator k) (hk : 1 ≤ k)
      (hasking : AskingIn w.runner.session)
      (hcalls : w.runner.calls + 3 * k ≤ w.runner.nominated + 3 * idle)
      (hiterations : w.iterations + k ≤ idle + 1)
  | leaving (hplace : w.runner.place = .leaving)
      (hcalls : w.runner.calls ≤ w.runner.nominated + 3 * idle) (hiterations : w.iterations ≤ idle + 1)
  | done (hplace : w.runner.place = .done)
      (hcalls : w.runner.calls ≤ w.runner.nominated + 3 * idle + 1)
      (hiterations : w.iterations ≤ idle + 2)

lemma process_asking (r : Runner) (iv : Intervention) (said : String) (h : AskingIn r.session) :
    AskingIn (r.process lower iv said).session := by
  obtain ⟨s, hstrategy, hask⟩ := h
  by_cases hseating : Runner.Seating iv
  · cases iv with
    | addSeat config =>
      cases config with
      | none => exact ⟨s, hstrategy, hask⟩
      | some =>
        refine ⟨{ s with seatCount := r.session.seats.length + 1 }, ?_, hask.finished,
          hask.shouldConclude, hask.needs⟩
        show r.session.strategy.seatAdded _ = _
        rw [hstrategy]
        rfl
    | removeSeat seatId =>
      cases seatId with
      | none => exact ⟨s, hstrategy, hask⟩
      | some seatId =>
        cases hremove : r.session.removeSeat seatId with
        | none =>
          simp only [Runner.process, hremove, getD_none]
          exact ⟨s, hstrategy, hask⟩
        | some session =>
          obtain ⟨-, hsession⟩ := removeSeat_eq_some hremove
          simp only [Runner.process, hremove, getD_some]
          refine ⟨{ s with seatCount := session.seats.length }, ?_, hask.finished,
            hask.shouldConclude, hask.needs⟩
          rw [hsession]
          show r.session.strategy.seatRemoved _ _ = _
          rw [hstrategy]
          rfl
    | _ => exact absurd hseating id
  have hsame := process_same lower r said hseating
  exact ⟨s, hsame.strategy.trans hstrategy, hask⟩

lemma stage_process (h : Stage idle w) (hin : w.runner.inLoops = true) (iv : Intervention)
    (said : String) : Stage idle { w with runner :=w.runner.process lower iv said } := by
  obtain ⟨hplace', _, -, _, _⟩ := process_cost lower w.runner iv said
  have hleft := not_left_of_inLoops hin
  cases h with
  | outside hplace hasking hcalls hiterations =>
    refine .outside (hplace'.trans hplace) (process_asking _ _ _ hasking) ?_ hiterations
    show (w.runner.process lower iv said).calls ≤ (w.runner.process lower iv said).nominated
    omega
  | inside k hplace hk hasking hcalls hiterations =>
    refine .inside k (hplace'.trans hplace) hk (process_asking _ _ _ hasking) ?_ hiterations
    show (w.runner.process lower iv said).calls + 3 * k
      ≤ (w.runner.process lower iv said).nominated + 3 * idle
    omega
  | leaving hplace =>
    rw [hplace] at hleft
    cases hleft
  | done hplace =>
    rw [hplace] at hleft
    cases hleft

lemma step_left {event : Event} (hleft : r.place.left = true)
    (h : r.step lower idle event = some r') :
    r'.spoken = r.spoken ∧ r'.nominated = r.nominated ∧ event.isEnd = false
      ∧ ((r'.place = r.place ∧ r'.calls = r.calls ∧ event.isIteration = false)
        ∨ (r.place = .leaving ∧ r'.place = .done ∧ r'.calls ≤ r.calls + 1)) := by
  have hin : r.inLoops = false := by
    by_contra hin
    rw [not_eq_false] at hin
    rw [not_left_of_inLoops hin] at hleft
    cases hleft
  cases event with
  | intervene iv => cases iv <;> simp [Runner.step, hin] at h
  | enter => simp [Runner.step, hin] at h
  | turn => simp [Runner.step, hin] at h
  | cycle => simp [Runner.step, hin] at h
  | conclude text =>
    simp only [Runner.step] at h
    split at h
    · rename_i hplace
      obtain rfl := some.inj h
      have hspoken := concluded_spoken r text
      exact ⟨hspoken.1, hspoken.2, rfl, .inr ⟨hplace, rfl, concluded_calls r text⟩⟩
    cases h
  | _ =>
    obtain rfl := some.inj h
    exact ⟨rfl, rfl, rfl, .inl ⟨rfl, rfl, rfl⟩⟩

lemma Stage.of_eq (h : Stage idle w) (hplace : w'.runner.place = w.runner.place)
    (hstrategy : w'.runner.session.strategy = w.runner.session.strategy)
    (hcalls : w'.runner.calls = w.runner.calls)
    (hnominated : w'.runner.nominated = w.runner.nominated)
    (hiterations : w'.iterations = w.iterations) : Stage idle w' := by
  have hasking : AskingIn w.runner.session → AskingIn w'.runner.session := by
    rintro ⟨s, hs, hask⟩
    exact ⟨s, hstrategy.trans hs, hask⟩
  cases h with
  | outside h1 h2 => exact .outside (hplace.trans h1) (hasking h2) (by omega) (by omega)
  | inside k h1 h2 h3 =>
    exact .inside k (hplace.trans h1) h2 (hasking h3) (by omega) (by omega)
  | leaving h1 => exact .leaving (hplace.trans h1) (by omega) (by omega)
  | done h1 => exact .done (hplace.trans h1) (by omega) (by omega)

lemma stopped_place (h : ∀ k, r.place ≠ .moderator k) : r.stopped.place = .leaving := by
  rw [Runner.stopped]
  split
  · rename_i k hplace
    exact absurd hplace (h k)
  rfl

lemma inLoops_of_finish (h : r.step lower idle (.intervene .finish said) = some r') :
    r.inLoops = true ∧ r' = r.stopped := by
  simp only [Runner.step] at h
  split at h
  · exact ⟨‹_›, (some.inj h).symm⟩
  cases h

lemma inLoops_of_intervene {iv : Intervention} (hiv : iv ≠ .finish)
    (h : r.step lower idle (.intervene iv said) = some r') :
    r.inLoops = true ∧ r' = r.process lower iv said := by
  by_cases hin : r.inLoops = true
  · refine ⟨hin, ?_⟩
    cases iv with
    | finish => exact absurd rfl hiv
    | _ => simpa [Runner.step, hin] using h.symm
  cases iv <;> simp [Runner.step, hin] at h

lemma stage_step {event : Event} (h : Stage idle w) (htime : InTime idle w event)
    (hhear : hear lower idle w event = some w') : Stage idle w' := by
  obtain ⟨after, hstep, rfl⟩ := hear_eq_some hhear
  by_cases hleft : w.runner.place.left = true
  · obtain ⟨-, hnominated, -, hrest⟩ := step_left hleft hstep
    cases h with
    | outside hplace =>
      rw [hplace] at hleft
      cases hleft
    | inside k hplace =>
      rw [hplace] at hleft
      cases hleft
    | leaving hplace hcalls hiterations =>
      rcases hrest with ⟨hsame, hsameCalls, hevent⟩ | ⟨-, hover, _⟩
      · refine .leaving (hsame.trans hplace) ?_ ?_
        · show after.calls ≤ after.nominated + _
          omega
        rw [hevent]
        exact hiterations
      refine .done hover ?_ ?_
      · show after.calls ≤ after.nominated + _ + 1
        omega
      show w.iterations + (if event.isIteration then 1 else 0) ≤ _
      split <;> omega
    | done hplace hcalls hiterations =>
      rcases hrest with ⟨hsame, hsameCalls, hevent⟩ | ⟨hleaving, -⟩
      · refine .done (hsame.trans hplace) ?_ ?_
        · show after.calls ≤ after.nominated + _ + 1
          omega
        rw [hevent]
        exact hiterations
      exact absurd (hplace.symm.trans hleaving) (by decide)
  cases event with
  | intervene iv said =>
    by_cases hiv : iv = .finish
    · subst hiv
      obtain ⟨-, rfl⟩ := inLoops_of_finish hstep
      cases h with
      | outside hplace hasking hcalls =>
        have hstopped : w.runner.stopped = { w.runner with place := .leaving } := by
          rw [Runner.stopped, hplace]
        refine .leaving (by rw [hstopped]) ?_ ?_
        · show w.runner.stopped.calls ≤ w.runner.stopped.nominated + _
          rw [hstopped]
          exact le_trans hcalls (Nat.le_add_right _ _)
        show w.iterations + 0 ≤ _
        omega
      | inside k hplace =>
        simp only [InTime, inTime, hplace, Bool.false_eq_true] at htime
      | leaving hplace => exact absurd (hplace ▸ rfl) hleft
      | done hplace => exact absurd (hplace ▸ rfl) hleft
    obtain ⟨hin, rfl⟩ := inLoops_of_intervene hiv hstep
    exact (stage_process h hin iv said).of_eq rfl rfl rfl rfl rfl
  | enter =>
    cases h with
    | outside hplace hasking =>
      obtain ⟨s, hstrategy, hask⟩ := hasking
      simp only [Runner.step, hstrategy, and_eq_true] at hstep
      split at hstep
      · have hidle : 0 < idle := by
          simp only [InTime, inTime, hplace, hstrategy, decide_eq_true_eq] at htime
          exact htime
        have hgoing : w.runner.session.strategy.shouldEnd = false := by
          rw [hstrategy]
          exact hask.finished
        have hne : idle ≠ 0 := by omega
        obtain rfl : w.runner.nextCycle idle = after := some.inj hstep
        have hnext : w.runner.nextCycle idle = { w.runner with place := .moderator idle } := by
          rw [Runner.nextCycle, hgoing]
          simp only [hne, decide_false, Bool.or_false, Bool.false_eq_true, if_false]
        rw [hnext]
        refine .inside idle rfl hidle ⟨s, hstrategy, hask⟩ ?_ ?_
        · show w.runner.calls + 3 * idle ≤ w.runner.nominated + 3 * idle
          omega
        show w.iterations + 1 + idle ≤ idle + 1
        omega
      cases hstep
    | inside k hplace => simp [Runner.step, hplace] at hstep
    | leaving hplace => exact absurd (hplace ▸ rfl) hleft
    | done hplace => exact absurd (hplace ▸ rfl) hleft
  | cycle answer said summary =>
    cases h with
    | outside hplace => simp [Runner.step, hplace] at hstep
    | inside k hplace hk hasking hcalls hiterations =>
      obtain ⟨s, hstrategy, hask⟩ := hasking
      simp only [Runner.step, hplace, hstrategy] at hstep
      split at hstep
      · obtain rfl := some.inj hstep
        have hcycle := moderatorCycle_cycleEnd hk hask answer said summary (r := w.runner)
        have hiter : w.iterations + 1 ≤ idle + 1 := by omega
        cases hcycle.1 with
        | left hplace' hnominated =>
          refine .leaving hplace' ?_ hiter
          show (w.runner.moderatorCycle s k answer said summary).calls ≤ _
          rw [hnominated]
          omega
        | next hplace' hne hasking' hnominated =>
          refine .inside (k - 1) hplace' (by omega) hasking' ?_ ?_
          · show (w.runner.moderatorCycle s k answer said summary).calls + 3 * (k - 1) ≤ _
            rw [hnominated]
            omega
          show w.iterations + 1 + (k - 1) ≤ idle + 1
          omega
        | outOfCycles hplace' hone =>
          -- the last counted iteration ends the meeting instead
          subst hone
          simp only [InTime, inTime, hplace, hstrategy] at htime
          exact absurd (hplace'.symm.trans (hcycle.2 htime)) (by decide)
      cases hstep
    | leaving hplace => exact absurd (hplace ▸ rfl) hleft
    | done hplace => exact absurd (hplace ▸ rfl) hleft
  | pause =>
    obtain rfl := some.inj hstep
    exact h.of_eq rfl (SameTable.pause _).strategy rfl rfl rfl
  | resume =>
    obtain rfl := some.inj hstep
    exact h.of_eq rfl (SameTable.resume _).strategy rfl rfl rfl
  | _ =>
    cases h with
    | outside hplace => simp [Runner.step, hplace] at hstep
    | inside k hplace => simp [Runner.step, hplace] at hstep
    | leaving hplace => exact absurd (hplace ▸ rfl) hleft
    | done hplace => exact absurd (hplace ▸ rfl) hleft

/-! ## Silence after `end` -/

/-- After an `end` the runner is past its loops, and nobody has spoken. -/
structure Silent (w : Heard) : Prop where
  left : w.endDrained = true → w.runner.place.left = true
  silent : w.spokeAfter = false

lemma silent_step {event : Event} (h : Silent w) (htime : InTime idle w event)
    (hhear : hear lower idle w event = some w') : Silent w' := by
  obtain ⟨after, hstep, rfl⟩ := hear_eq_some hhear
  cases hend : w.endDrained with
  | true =>
    have hleft := h.left hend
    obtain ⟨hspoken, -, -, hrest⟩ := step_left hleft hstep
    refine ⟨fun _ => ?_, ?_⟩
    · rcases hrest with ⟨hsame, -⟩ | ⟨-, hover, -⟩
      · exact hsame ▸ hleft
      show after.place.left = true
      rw [hover]
      rfl
    show (w.spokeAfter || (true && decide (w.runner.spoken < after.spoken))) = false
    rw [h.silent, hspoken]
    simp
  | false =>
    refine ⟨fun hdrained => ?_, ?_⟩
    · -- the `end` is drained now, outside the moderator's loop
      have hevent : event.isEnd = true := by simpa using hdrained
      cases event with
      | intervene iv =>
        cases iv with
        | finish =>
          obtain ⟨-, rfl⟩ := inLoops_of_finish hstep
          have hplace : ∀ k, w.runner.place ≠ .moderator k := by
            intro k hk
            simp only [InTime, inTime, hk, Bool.false_eq_true] at htime
          show w.runner.stopped.place.left = true
          rw [stopped_place hplace]
          rfl
        | _ => cases hevent
      | _ => cases hevent
    show (w.spokeAfter || (false && _)) = false
    rw [h.silent]
    rfl

/-! ## The round robin ends on its own -/

def Place.rank : Place → Nat
  | .outer => 0
  | .moderator _ => 0
  | .roundRobin => 1
  | .leaving => 2
  | .done => 3

lemma rank_step {s : RoundRobin} {event : Event} (hstrategy : r.session.strategy = .roundRobin s)
    (hturn : event.isTurn = false) (h : r.step lower idle event = some r') :
    r.place.rank + (if event.isIteration then 1 else 0) ≤ r'.place.rank := by
  cases event with
  | intervene iv said =>
    by_cases hiv : iv = .finish
    · subst hiv
      obtain ⟨hin, rfl⟩ := inLoops_of_finish h
      have hleft := not_left_of_inLoops hin
      show r.place.rank + 0 ≤ r.stopped.place.rank
      cases hplace : r.place with
      | moderator => exact Nat.zero_le _
      | outer => exact Nat.zero_le _
      | roundRobin =>
        rw [stopped_place (by rw [hplace]; simp)]
        exact Nat.le_succ 1
      | _ =>
        rw [hplace] at hleft
        cases hleft
    obtain ⟨-, rfl⟩ := inLoops_of_intervene hiv h
    rw [(process_cost lower r iv said).1]
    exact le_rfl
  | enter =>
    simp only [Runner.step, hstrategy, and_eq_true, decide_eq_true_eq] at h
    split at h
    · rename_i hin
      obtain rfl := some.inj h
      rw [hin.2]
      exact Nat.le_refl 1
    cases h
  | turn => exact absurd hturn Bool.noConfusion
  | cycle answer said summary =>
    simp only [Runner.step, hstrategy] at h
    split at h
    · split at h
      · rename_i hmod
        cases hmod
      cases h
    cases h
  | conclude text =>
    simp only [Runner.step] at h
    split at h
    · rename_i hplace
      obtain rfl := some.inj h
      rw [hplace]
      exact Nat.le_refl 3
    cases h
  | _ =>
    obtain rfl := some.inj h
    exact le_rfl

/-- What a round robin meeting has cost. -/
structure Robin (maxRounds : Nat) (w : Heard) : Prop where
  budget : ∃ s, Budget w.runner s ∧ s.maxRounds = maxRounds ∧ s.currentRound ≤ maxRounds
  nominated_le : w.runner.nominated ≤ w.runner.spoken
  calls_le : w.runner.calls + w.runner.nominated
    ≤ 2 * w.runner.spoken + (if w.runner.place = .done then 1 else 0)
  iterations_le : w.iterations + w.runner.nominated ≤ w.runner.spoken + w.runner.place.rank

lemma robin_step {event : Event} (h : Robin maxRounds w)
    (hhear : hear lower idle w event = some w') : Robin maxRounds w' := by
  obtain ⟨after, hstep, rfl⟩ := hear_eq_some hhear
  obtain ⟨s, hbudget, hmax, hround⟩ := h.budget
  have hnominated := h.nominated_le
  have hcalls := h.calls_le
  have hiterations := h.iterations_le
  have hrank := fun hturn => rank_step hbudget.strategy hturn hstep
  cases robinStep_of_step hbudget.strategy hstep with
  | quiet hturn hquiet =>
    obtain ⟨_, hspoken', hnominated', hcalls'⟩ := hquiet.spoke
    have hle := hrank hturn
    refine ⟨⟨s, hbudget.congr hquiet, hmax, hround⟩, ?_, ?_, ?_⟩
    · show after.nominated ≤ after.spoken
      omega
    · show after.calls + after.nominated ≤ 2 * after.spoken + (if after.place = .done then 1 else 0)
      have hover := hquiet.done
      by_cases hafter : after.place = .done
      · rw [if_pos (hover hafter)] at hcalls
        rw [if_pos hafter]
        omega
      rw [if_neg hafter]
      split at hcalls
      · -- a runner that is over stays over
        rename_i hwas
        have hleft := step_left (by rw [hwas]; rfl) hstep
        rcases hleft.2.2.2 with ⟨hsame, -⟩ | ⟨hleaving, -⟩
        · exact absurd (hsame.trans hwas) hafter
        exact absurd (hwas.symm.trans hleaving) (by decide)
      omega
    show w.iterations + _ + after.nominated ≤ after.spoken + after.place.rank
    omega
  | added config =>
    exact ⟨⟨_, hbudget.add config, hmax, hround⟩, hnominated, hcalls, hiterations⟩
  | removed seatId said session hremove =>
    exact ⟨⟨_, hbudget.remove hremove, hmax, hround⟩, hnominated, hcalls, hiterations⟩
  | concluded text hplace =>
    have hspoken := concluded_spoken w.runner text
    have hcost := concluded_calls w.runner text
    have hsame := concluded_same w.runner text
    have hle := hrank rfl
    rw [hplace] at hcalls
    simp only [if_neg (show ¬ (Place.leaving = Place.done) by decide)] at hcalls
    refine ⟨⟨s, hbudget.of_same hsame 0 hspoken.1 hspoken.2, hmax, hround⟩, ?_, ?_, ?_⟩
    · show (w.runner.concluded text).nominated ≤ (w.runner.concluded text).spoken
      omega
    · show (w.runner.concluded text).calls + (w.runner.concluded text).nominated
        ≤ 2 * (w.runner.concluded text).spoken + 1
      omega
    show w.iterations + _ + (w.runner.concluded text).nominated
      ≤ (w.runner.concluded text).spoken + (w.runner.concluded text).place.rank
    omega
  | turned said summary hplace =>
    rw [hplace] at hcalls hiterations
    simp only [if_neg (show ¬ (Place.roundRobin = Place.done) by decide)] at hcalls
    cases hnext : s.nextSpeaker w.runner.session.seats with
    | mk seat? s' =>
      have hchoice := choice_of_next hnext
      cases seat? with
      | none =>
        rw [turn_finished said summary hnext]
        cases hchoice with
        | done =>
          refine ⟨⟨{ s with finished := true }, ⟨rfl, hbudget.round_pos, hbudget.seats_le,
            hbudget.spoken_le⟩, hmax, hround⟩, hnominated, hcalls, ?_⟩
          have hbefore : w.iterations + w.runner.nominated ≤ w.runner.spoken + 1 := hiterations
          show w.iterations + 1 + w.runner.nominated ≤ w.runner.spoken + 2
          omega
      | some =>
        have hspoke := turn_spoke said summary hnext
        have hnew := hbudget.turn said summary hnext
        have hround' : s'.advance.maxRounds = maxRounds ∧ s'.advance.currentRound ≤ maxRounds := by
          cases hchoice with
          | inRound => exact ⟨hmax, hround⟩
          | newRound hget hend hlt => exact ⟨hmax, hmax ▸ hlt⟩
        have hspoken' := hspoke.spoken
        have hnominated' := hspoke.nominated
        have hcalls' := hspoke.calls
        refine ⟨⟨_, hnew, hround'⟩, ?_, ?_, ?_⟩
        · show (w.runner.roundRobinTurn s said summary).nominated
            ≤ (w.runner.roundRobinTurn s said summary).spoken
          omega
        · show (w.runner.roundRobinTurn s said summary).calls
              + (w.runner.roundRobinTurn s said summary).nominated
            ≤ 2 * (w.runner.roundRobinTurn s said summary).spoken + _
          omega
        show w.iterations + 1 + (w.runner.roundRobinTurn s said summary).nominated
          ≤ (w.runner.roundRobinTurn s said summary).spoken
            + (w.runner.roundRobinTurn s said summary).place.rank
        rw [hspoke.place, hplace]
        omega

/-! ## Every meeting -/

def listening (session : Session) : Heard := { runner := Runner.start session }

lemma ends_of_stage (h : Stage idle w) (hsilent : Silent w) : Ends idle maxRounds w := by
  refine ⟨?_, ?_, hsilent.silent⟩
  · rw [callBound]
    cases h <;> omega
  rw [iterationBound]
  cases h <;> omega

lemma ends_of_robin (h : Robin maxRounds w) (hsilent : Silent w) : Ends idle maxRounds w := by
  obtain ⟨s, hbudget, -, hround⟩ := h.budget
  have hspoken := hbudget.spoken_le
  have hcalls := h.calls_le
  have hiterations := h.iterations_le
  have hmul : s.currentRound * w.runner.session.made ≤ maxRounds * w.runner.session.made :=
    Nat.mul_le_mul_right _ hround
  have hrank : w.runner.place.rank ≤ 3 := by
    cases w.runner.place with
    | moderator => exact Nat.zero_le _
    | outer => exact Nat.zero_le _
    | _ => decide
  refine ⟨?_, ?_, hsilent.silent⟩
  · rw [callBound]
    split at hcalls <;> omega
  rw [iterationBound]
  omega

lemma listening_start {configs : List SeatConfig} {strategyName : String}
    {compressor : Compressor} {session : Session}
    (h : Session.create configs maxRounds strategyName compressor = some session)
    (hmax : 1 ≤ maxRounds) :
    Stage idle (listening session) ∨ Robin maxRounds (listening session) := by
  by_cases hname : strategyName = "moderator_decides"
  · left
    rw [Session.create, if_pos hname, map_eq_some_iff] at h
    obtain ⟨seats, -, rfl⟩ := h
    have hstrategy : Strategy.create strategyName seats.length maxRounds
        = .moderatorDecides { seatCount := seats.length, maxRounds := maxRounds } := by
      rw [Strategy.create, if_pos hname]
    refine .outside ?_ ⟨_, hstrategy, rfl, rfl, rfl⟩ le_rfl rfl
    show (if (Strategy.create strategyName seats.length maxRounds).shouldEnd then Place.leaving
      else Place.outer) = .outer
    rw [hstrategy]
    rfl
  right
  obtain ⟨hseats, hmade, hstrategy⟩ := created_session hname h
  have hcount : session.seats.length = session.made := by
    rw [hseats, length_createSeats, hmade]
  refine ⟨⟨_, ⟨hstrategy, le_rfl, Nat.le_of_eq hcount, ?_⟩, rfl, hmax⟩, le_rfl,
    Nat.zero_le _, Nat.zero_le _⟩
  show 0 + (session.seats.length - 0) ≤ 0 + 1 * session.made
  omega

/-- **A meeting ends.**  A new meeting of any strategy, of which the moderator's
last counted iteration ends the meeting and whose `end` is not drained inside
the moderator's loop: its model calls and iterations are bounded by the seats,
the rounds and the idle cycles (and the turns that people ask for), and
nobody speaks after `end`. -/
theorem meeting_ends (lower : String → String) {idle : Nat} {configs : List SeatConfig}
    {maxRounds : Nat} {strategyName : String} {compressor : Compressor} {session : Session}
    (hcreate : Session.create configs maxRounds strategyName compressor = some session)
    (hmax : 1 ≤ maxRounds) {events : List Event}
    (halong : Runs.Along (hear lower idle) (InTime idle) (listening session) events) :
    Runs.Always (hear lower idle) (Ends idle maxRounds) (listening session) events := by
  have hsilent : Silent (listening session) := ⟨nofun, rfl⟩
  rcases listening_start hcreate hmax with hstage | hrobin
  · have hinv : Runs.Always (hear lower idle) (fun w => Stage idle w ∧ Silent w)
        (listening session) events := by
      refine Runs.always_of_along (I := fun w => Stage idle w ∧ Silent w) ?_ ⟨hstage, hsilent⟩ halong
      intro w event w' h htime hhear
      exact ⟨stage_step h.1 htime hhear, silent_step h.2 htime hhear⟩
    exact hinv.mono (fun w h => ends_of_stage h.1 h.2)
  have hinv : Runs.Always (hear lower idle) (fun w => Robin maxRounds w ∧ Silent w)
      (listening session) events := by
    refine Runs.always_of_along (I := fun w => Robin maxRounds w ∧ Silent w) ?_ ⟨hrobin, hsilent⟩
      halong
    intro w event w' h htime hhear
    exact ⟨robin_step h.1 hhear, silent_step h.2 htime hhear⟩
  exact hinv.mono (fun w h => ends_of_robin h.1 h.2)

end

/-! ## A moderator of two seats -/

def twoSeats : List SeatConfig := [{ isModerator := true }, {}]

def moderatedMeeting (maxRounds : Nat) : Session :=
  { seats := createSeats twoSeats
    made := 2
    strategy := .moderatorDecides { seatCount := 2, maxRounds := maxRounds } }

/-- The second seat speaks, and the moderator concludes with the last of the
iterations. -/
theorem meeting_ends_concluded : Runs.Always (hear id 2) (Ends 2 3) (listening (moderatedMeeting 3))
      [.enter, .cycle (.object (some "select_speaker") (.text "seat-1")) "" none,
        .cycle .failed "" none, .conclude none] :=
  meeting_ends id (show Session.create twoSeats 3 "moderator_decides" {}
    = some (moderatedMeeting 3) from rfl) (by decide) (by decide)

def summarize : Event := .cycle (.object (some "summarize") .nothing) "" none

/-- Nothing has been said, and the moderator is about to be asked. -/
structure Waits (r : Runner) : Prop where
  place : r.place = .outer ∨ ∃ k, 1 ≤ k ∧ r.place = .moderator k
  asking : AskingIn r.session
  going : r.session.going = true
  silent : r.session.transcript = []

lemma asked_keeps (r : Runner) : r.asked.session.transcript = r.session.transcript
    ∧ r.asked.session.going = r.session.going := by
  rw [Runner.asked]
  cases getModeratorSeat r.session.seats with
  | _ => exact ⟨rfl, rfl⟩

lemma step_summarize (lower : String → String) (idle : Nat) (h : Waits r) (hk : 1 ≤ k)
    (hplace : r.place = .moderator k) :
    ∃ r', r.step lower idle summarize = some r' ∧ Waits r' ∧ r'.calls = r.calls + 1 := by
  obtain ⟨s, hstrategy, hask⟩ := h.asking
  have hin : r.inLoops = true := by
    rw [inLoops, h.going, hplace]
    rfl
  let s' : ModeratorDecides := { s with needsModeratorDecision := true }
  let r₁ : Runner :=
    { r.asked with session := r.asked.session.withStrategy (.moderatorDecides s') }
  have hquiet : r₁.session.transcript = [] := (asked_keeps r).1.trans h.silent
  have hcycle : r.moderatorCycle s k (.object (some "summarize") .nothing) "" none
      = r₁.nextCycle (k - 1) := by
    rw [Runner.moderatorCycle]
    simp only [hask.needs, if_true]
    show (r₁.generateRoundSummary s.currentRound none).nextCycle (k - 1) = _
    rw [Runner.generateRoundSummary, hquiet]
    rfl
  refine ⟨r₁.nextCycle (k - 1), ?_, ?_⟩
  · rw [summarize]
    simp only [Runner.step, hin, if_true, hplace, hstrategy, hcycle]
  have hgoing : r₁.session.strategy.shouldEnd = false := hask.finished
  have hnew : r₁.session.going = true := (asked_keeps r).2.trans h.going
  have hasking : AskingIn r₁.session := ⟨_, rfl, hask.finished, hask.shouldConclude, rfl⟩
  rw [Runner.nextCycle, hgoing]
  by_cases hzero : k - 1 = 0
  · simp only [hzero, decide_true, Bool.true_or, if_true]
    rw [Runner.backToOuter, hgoing]
    exact ⟨⟨.inl rfl, hasking, hnew, hquiet⟩, rfl⟩
  simp only [hzero, decide_false, Bool.or_false, Bool.false_eq_true, if_false]
  exact ⟨⟨.inr ⟨k - 1, by omega, rfl⟩, hasking, hnew, hquiet⟩, rfl⟩

lemma step_enter (lower : String → String) {idle : Nat} (hidle : 0 < idle) (h : Waits r)
    (hplace : r.place = .outer) : r.step lower idle .enter = some { r with place :=.moderator idle } := by
  obtain ⟨_, hstrategy, hask⟩ := h.asking
  have hin : r.inLoops = true := by
    rw [inLoops, h.going, hplace]
    rfl
  have hgoing : r.session.strategy.shouldEnd = false := by
    rw [hstrategy]
    exact hask.finished
  have hne : idle ≠ 0 := by omega
  simp only [Runner.step, hin, hplace, decide_true, Bool.and_true, if_true, hstrategy]
  rw [Runner.nextCycle, hgoing]
  simp only [hne, decide_false, Bool.or_false, Bool.false_eq_true, if_false]

lemma summarize_waits (lower : String → String) {idle : Nat} (hidle : 0 < idle) (h : Waits r) :
    ∃ events r', Runs.run (Runner.step lower idle) r events = some r' ∧ Waits r'
      ∧ r'.calls = r.calls + 1 := by
  rcases h.place with hplace | ⟨k, hk, hplace⟩
  · have henter := step_enter lower hidle h hplace
    have hinside : Waits { r with place := .moderator idle } :=
      ⟨.inr ⟨idle, hidle, rfl⟩, h.asking, h.going, h.silent⟩
    obtain ⟨r', hstep, hwaits, hcalls⟩ := step_summarize lower idle hinside hidle rfl
    refine ⟨[.enter, summarize], r', ?_, hwaits, hcalls⟩
    rw [Runs.run_cons, henter]
    show Runs.run _ _ [summarize] = _
    rw [Runs.run_cons, hstep]
    rfl
  obtain ⟨r', hstep, hwaits, hcalls⟩ := step_summarize lower idle h hk hplace
  refine ⟨[summarize], r', ?_, hwaits, hcalls⟩
  rw [Runs.run_cons, hstep]
  rfl

lemma summaries_goOn (lower : String → String) {idle : Nat} (hidle : 0 < idle) (h : Waits r)
    (n : Nat) : ∃ events r', Runs.run (Runner.step lower idle) r events = some r' ∧ Waits r'
      ∧ r'.calls = r.calls + n := by
  induction n with
  | zero => exact ⟨[], r, rfl, h, rfl⟩
  | succ n ih =>
    obtain ⟨events, _, hrun, hwaits, _⟩ := ih
    obtain ⟨more, r₂, hmore, hwaits', _⟩ := summarize_waits lower hidle hwaits
    refine ⟨events ++ more, r₂, ?_, hwaits', by omega⟩
    rw [Runs.run_append, hrun]
    exact hmore

/-- **The loops go on**: with endless summaries no number bounds the model
calls of a meeting of two seats, and after an `end` that is drained inside the
moderator's loop a seat speaks. -/
theorem moderatorLoop_goesOn : (∀ bound, ∃ events r,
      Runs.run (Runner.step id 50) (Runner.start (moderatedMeeting 3)) events = some r
        ∧ bound < r.calls)
      ∧ ∃ w, Runs.run (hear id 50) (listening (moderatedMeeting 3))
          [.enter, .intervene .finish "", .enter,
            .cycle (.object (some "select_speaker") (.text "seat-1")) "" none] = some w
        ∧ w.spokeAfter = true := by
  constructor
  · intro bound
    have hwaits : Waits (Runner.start (moderatedMeeting 3)) :=
      ⟨.inl rfl, ⟨_, rfl, rfl, rfl, rfl⟩, rfl, rfl⟩
    obtain ⟨events, r, hrun, -, _⟩ := summaries_goOn id (by decide : 0 < 50) hwaits (bound + 1)
    exact ⟨events, r, hrun, by omega⟩
  exact ⟨_, rfl, by decide⟩

end DeterminFlow.Roundtable
