/-
  Roundtable.RunnerFacts
  **WHAT THE PARTS OF THE RUNNER LEAVE ALONE, AND WHAT THEY COST.**

  Speaking, notes and summaries change the transcript and the look of the
  seats; who sits at the table and what the strategy remembers stays.
-/
import DeterminFlow.Roundtable.Meeting

namespace DeterminFlow.Roundtable

/-! ## The table is left alone -/

/-- Who sits at the table and what the strategy remembers is as before. -/
structure SameTable (before after : Session) : Prop where
  ids : ids after.seats = ids before.seats
  objects : objects after.seats = objects before.seats
  made : after.made = before.made
  strategy : after.strategy = before.strategy

namespace SameTable

variable (s : Session)

lemma refl : SameTable s s := ⟨rfl, rfl, rfl, rfl⟩

lemma trans {a b c : Session} (hab : SameTable a b) (hbc : SameTable b c) : SameTable a c :=
  ⟨hbc.ids.trans hab.ids, hbc.objects.trans hab.objects, hbc.made.trans hab.made,
    hbc.strategy.trans hab.strategy⟩

lemma length {a b : Session} (h : SameTable a b) : b.seats.length = a.seats.length := by
  rw [← length_ids b.seats, h.ids, length_ids]

lemma setStatus (s : Session) (made : Nat) (status : SeatStatus) : SameTable s { s with seats :=setStatus s.seats made status } :=
  ⟨ids_setStatus .., objects_setStatus .., rfl, rfl⟩

lemma allIdle (s : Session) : SameTable s { s with seats := allIdle s.seats } :=
  ⟨ids_allIdle _, objects_allIdle _, rfl, rfl⟩

lemma ended : SameTable s { s with status :=.ended, seats := Roundtable.allIdle s.seats } :=
  ⟨ids_allIdle _, objects_allIdle _, rfl, rfl⟩

lemma note (entry : TranscriptEntry) : SameTable s (s.note entry) :=
  ⟨rfl, rfl, rfl, rfl⟩

lemma pause : SameTable s s.pause := by
  rw [Session.pause]
  split
  · exact ⟨rfl, rfl, rfl, rfl⟩
  exact refl s

lemma resume : SameTable s s.resume := by
  rw [Session.resume]
  split
  · exact ⟨rfl, rfl, rfl, rfl⟩
  exact refl s

end SameTable

namespace Runner

/-! ## Speaking -/

variable (r : Runner) (seat : Seat) (said : String)

lemma doSpeak_same : SameTable r.session (r.doSpeak seat said).session :=
  (SameTable.setStatus r.session seat.made .done).trans (SameTable.note _ _)

lemma userNote_same (name content : String) :
    SameTable r.session (r.userNote name content).session := SameTable.note _ _

/-! ## Summaries -/

/-- A summary leaves everything but the transcript alone, and costs one call
at most. -/
structure Summarized (before after : Runner) : Prop where
  same : SameTable before.session after.session
  place : after.place = before.place
  spoken : after.spoken = before.spoken
  nominated : after.nominated = before.nominated
  calls : after.calls ≤ before.calls + 1

lemma generateRoundSummary_summarized (round : Nat) (summary : Option String) :
    Summarized r (r.generateRoundSummary round summary) := by
  rw [generateRoundSummary]
  split
  · cases summary with
    | none => exact ⟨SameTable.refl _, rfl, rfl, rfl, le_rfl⟩
    | some => exact ⟨SameTable.note _ _, rfl, rfl, rfl, le_rfl⟩
  exact ⟨SameTable.refl _, rfl, rfl, rfl, Nat.le_succ _⟩

lemma roundEnded_summarized (round : Nat) (summary : Option String) :
    Summarized r (r.roundEnded round summary) := by
  have hidle : SameTable r.session { r.session with seats := allIdle r.session.seats } :=
    SameTable.allIdle _
  rw [roundEnded]
  split
  · have h := generateRoundSummary_summarized
      { r with session := { r.session with seats := allIdle r.session.seats } } round summary
    exact ⟨hidle.trans h.same, h.place, h.spoken, h.nominated, h.calls⟩
  exact ⟨hidle, rfl, rfl, rfl, Nat.le_succ _⟩

lemma asked_same : SameTable r.session r.asked.session := by
  rw [asked]
  cases getModeratorSeat r.session.seats with
  | none => exact SameTable.refl _
  | some => exact SameTable.setStatus _ _ _

lemma concluded_calls (text : Option String) : (r.concluded text).calls ≤ r.calls + 1 := by
  rw [concluded]
  split
  · exact Nat.le_succ _
  cases text <;> exact le_rfl

lemma concluded_same (text : Option String) : SameTable r.session (r.concluded text).session := by
  rw [concluded]
  split
  · exact SameTable.ended r.session
  cases text with
  | none => exact SameTable.ended r.session
  | some => exact (SameTable.note _ _).trans (SameTable.ended _)

lemma concluded_spoken (text : Option String) :
    (r.concluded text).spoken = r.spoken ∧ (r.concluded text).nominated = r.nominated := by
  rw [concluded]
  split
  · exact ⟨rfl, rfl⟩
  cases text <;> exact ⟨rfl, rfl⟩

/-! ## Interventions -/

variable (lower : String → String)

def Seating : Intervention → Prop
  | .addSeat (some _) => True
  | .removeSeat (some _) => True
  | _ => False

lemma process_same (r : Runner) {iv : Intervention} (said : String) (h : ¬ Seating iv) :
    SameTable r.session (r.process lower iv said).session := by
  cases iv with
  | inject => exact userNote_same ..
  | nominate targetSeatId content =>
    simp only [process]
    cases nominee lower r.session.seats targetSeatId content with
    | none => exact SameTable.refl _
    | some =>
      simp only
      split
      · exact (userNote_same ..).trans (doSpeak_same ..)
      exact doSpeak_same ..
  | addSeat config =>
    cases config with
    | none => exact SameTable.refl _
    | some => exact absurd trivial h
  | removeSeat seatId =>
    cases seatId with
    | none => exact SameTable.refl _
    | some => exact absurd trivial h
  | pause => exact SameTable.pause _
  | resume => exact SameTable.resume _
  | finish => exact SameTable.refl _

lemma process_cost (r : Runner) (iv : Intervention) (said : String) :
    (r.process lower iv said).place = r.place
      ∧ ∃ turns, (r.process lower iv said).spoken = r.spoken + turns
        ∧ (r.process lower iv said).nominated = r.nominated + turns
        ∧ (r.process lower iv said).calls = r.calls + turns := by
  cases iv with
  | nominate targetSeatId content =>
    simp only [process]
    cases nominee lower r.session.seats targetSeatId content with
    | none => exact ⟨rfl, 0, rfl, rfl, rfl⟩
    | some =>
      simp only
      split <;> exact ⟨rfl, 1, rfl, rfl, rfl⟩
  | addSeat config => cases config <;> exact ⟨rfl, 0, rfl, rfl, rfl⟩
  | removeSeat seatId => cases seatId <;> exact ⟨rfl, 0, rfl, rfl, rfl⟩
  | _ => exact ⟨rfl, 0, rfl, rfl, rfl⟩

end Runner
end DeterminFlow.Roundtable
