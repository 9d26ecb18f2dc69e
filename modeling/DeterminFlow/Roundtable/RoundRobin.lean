/-
  Roundtable.RoundRobin
  **EVERY SEAT ONCE IN A ROUND.**

  The round robin is an index into the list of the seats.  The seats before
  the index have spoken in the round that is open, the ones from it on have
  not; a seat that joins comes last, and when one leaves the index follows.
  It follows wrongly in one case: the seat that is next leaves, it is the last
  of the line and not its first.  The index is then clamped to the seat before
  it, which has spoken already and is chosen again.
-/
import DeterminFlow.Roundtable.RunnerFacts
import DeterminFlow.Library.Runs
import Mathlib.Data.List.InsertIdx

namespace DeterminFlow.Roundtable

open Library List Option Runner Bool

/-! ## The rounds, watched from outside -/

/-- A round: the seats chosen in it, and those present from its start. -/
structure Round where
  chosen : List Nat := []
  stayed : List Nat := []
  deriving DecidableEq

/-- A meeting whose rounds are written down. -/
structure Watched where
  runner : Runner
  rounds : List Round := []
  current : Round := {}
  /-- The iterations of the round robin loop. -/
  turns : Nat := 0
  deriving DecidableEq

def Round.carryOn (round : Round) (after : Runner) : Round :=
  { round with stayed := round.stayed.filter (· ∈ objects after.session.seats) }

/-- What a turn adds to the record: the round closes when a new one begins or
the meeting finishes. -/
def Watched.turned (w : Watched) (s : RoundRobin) (after : Runner) : Watched :=
  let seats := w.runner.session.seats
  match s.nextSpeaker seats with
  | (none, _) =>
    { runner := after, rounds := w.rounds ++ [w.current], current := {}, turns := w.turns + 1 }
  | (some seat, s') =>
    if s'.currentRound = s.currentRound then
      { w with
        runner := after
        current := { w.current with chosen := w.current.chosen ++ [seat.made] }
        turns := w.turns + 1 }
    else
      { runner := after
        rounds := w.rounds ++ [w.current]
        current := { chosen := [seat.made], stayed := objects seats }
        turns := w.turns + 1 }

section
variable (lower : String → String) (idle : Nat)

def watch (w : Watched) (event : Event) : Option Watched :=
  (w.runner.step lower idle event).map (fun after =>
    match event, w.runner.session.strategy with
    | .turn _ _, .roundRobin s => w.turned s after
    | _, _ => { w with runner := after, current := w.current.carryOn after })

end

def opened (session : Session) : Watched :=
  { runner := Runner.start session, current := { stayed := objects session.seats } }

/-! ## The line of the seats -/

/-- **The index divides the line**: the seats before it were chosen in the open
round, the others were not. -/
structure InLine (ids : List String) (objects : List Nat) (index made : Nat) (round : Round) :
    Prop where
  length_eq : ids.length = objects.length
  ids_nodup : ids.Nodup
  objects_nodup : objects.Nodup
  objects_lt : ∀ x ∈ objects, x < made
  index_le : index ≤ objects.length
  chosen_nodup : round.chosen.Nodup
  chosen_lt : ∀ x ∈ round.chosen, x < made
  chosen_iff : ∀ j x, objects[j]? = some x → (x ∈ round.chosen ↔ j < index)
  stayed_sub : ∀ x ∈ round.stayed, x ∈ objects

namespace InLine

variable {ids : List String} {objects : List Nat} {index made : Nat} {round : Round}

lemma add (h : InLine ids objects index made round) {id : String} (hid : id ∉ ids) :
    InLine (ids ++ [id]) (objects ++ [made]) index (made + 1) round where
  length_eq := by
    have := h.length_eq
    simp only [length_append, length_singleton]
    omega
  ids_nodup := by
    apply List.Nodup.append h.ids_nodup (nodup_singleton _)
    intro other hother hnew
    exact hid (mem_singleton.1 hnew ▸ hother)
  objects_nodup := by
    apply List.Nodup.append h.objects_nodup (nodup_singleton _)
    intro other hother hnew
    have heq : other = made := mem_singleton.1 hnew
    exact absurd (h.objects_lt other hother) (heq ▸ lt_irrefl _)
  objects_lt := by
    intro x hx
    rcases mem_append.1 hx with hold | hnew
    · exact Nat.lt_succ_of_lt (h.objects_lt x hold)
    have heq : x = made := mem_singleton.1 hnew
    omega
  index_le := by
    have := h.index_le
    rw [length_append]
    omega
  chosen_nodup := h.chosen_nodup
  chosen_lt := fun x hx => Nat.lt_succ_of_lt (h.chosen_lt x hx)
  chosen_iff := by
    intro j x hj
    rcases Nat.lt_or_ge j objects.length with hlt | hge
    · rw [getElem?_append_left hlt] at hj
      exact h.chosen_iff j x hj
    -- the new seat: it was not chosen, and stands at the end
    rw [getElem?_append_right hge, getElem?_singleton] at hj
    split at hj
    · obtain rfl := some.inj hj
      have hle := h.index_le
      constructor
      · intro hx
        exact absurd (h.chosen_lt _ hx) (lt_irrefl _)
      intro hlt
      omega
    cases hj
  stayed_sub := fun x hx => mem_append_left _ (h.stayed_sub x hx)

/-- The index after the seat at `i` has left. -/
def shifted (i index count : Nat) : Nat :=
  if 0 < index then
    if i < index then index - 1
    else if i = index then min index (max 0 (count - 1))
    else index
  else index

lemma remove (h : InLine ids objects index made round) {i : Nat} (hi : i < objects.length)
    (hline : ¬ (0 < index ∧ i = index ∧ index + 1 = objects.length)) :
    InLine (ids.eraseIdx i) (objects.eraseIdx i) (shifted i index (objects.length - 1)) made
      { round with stayed := round.stayed.filter (· ∈ objects.eraseIdx i) } where
  length_eq := by
    have := h.length_eq
    rw [length_eraseIdx_of_lt (by omega), length_eraseIdx_of_lt hi]
    omega
  ids_nodup := h.ids_nodup.sublist (eraseIdx_sublist ..)
  objects_nodup := h.objects_nodup.sublist (eraseIdx_sublist ..)
  objects_lt := fun x hx => h.objects_lt x (mem_of_mem_eraseIdx hx)
  index_le := by
    have := h.index_le
    rw [length_eraseIdx_of_lt hi, shifted]
    split <;> (try split) <;> (try split) <;> omega
  chosen_nodup := h.chosen_nodup
  chosen_lt := h.chosen_lt
  chosen_iff := by
    intro j x hj
    rw [getElem?_eraseIdx] at hj
    -- a seat before the one that left keeps its place, one behind it moves up
    split at hj
    · rw [h.chosen_iff j x hj, shifted]
      split <;> (try split) <;> (try split) <;> omega
    rw [h.chosen_iff (j + 1) x hj, shifted]
    split <;> (try split) <;> (try split) <;> omega
  stayed_sub := by
    intro x hx
    exact of_decide_eq_true (mem_filter.1 hx).2

variable {x : Nat}

lemma choose (h : InLine ids objects index made round) (hx : objects[index]? = some x) :
    InLine ids objects (index + 1) made { round with chosen := round.chosen ++ [x] } where
  length_eq := h.length_eq
  ids_nodup := h.ids_nodup
  objects_nodup := h.objects_nodup
  objects_lt := h.objects_lt
  index_le := (List.getElem?_eq_some_iff.1 hx).1
  chosen_nodup := by
    apply List.Nodup.append h.chosen_nodup (nodup_singleton _)
    intro other hother hnew
    have heq : other = x := mem_singleton.1 hnew
    subst heq
    exact absurd ((h.chosen_iff index other hx).1 hother) (lt_irrefl _)
  chosen_lt := by
    intro y hy
    rcases mem_append.1 hy with hold | hnew
    · exact h.chosen_lt y hold
    have heq : y = x := mem_singleton.1 hnew
    exact heq ▸ h.objects_lt x (mem_of_getElem? hx)
  chosen_iff := by
    intro j y hj
    have hold := h.chosen_iff j y hj
    have hsame : y = x ↔ j = index := by
      constructor
      · rintro rfl
        exact (getElem?_inj (List.getElem?_eq_some_iff.1 hj).1 h.objects_nodup).1
          (hj.trans hx.symm)
      rintro rfl
      exact some.inj (hj.symm.trans hx)
    rw [mem_append, mem_singleton, hold, hsame]
    omega
  stayed_sub := h.stayed_sub

lemma newRound (h : InLine ids objects index made round) (hx : objects[0]? = some x) :
    InLine ids objects 1 made { chosen := [x], stayed := objects } where
  length_eq := h.length_eq
  ids_nodup := h.ids_nodup
  objects_nodup := h.objects_nodup
  objects_lt := h.objects_lt
  index_le := (List.getElem?_eq_some_iff.1 hx).1
  chosen_nodup := nodup_singleton _
  chosen_lt := fun y hy =>
    mem_singleton.1 hy ▸ h.objects_lt x (mem_of_getElem? hx)
  chosen_iff := by
    intro _ y hj
    rw [mem_singleton, Nat.lt_one_iff]
    constructor
    · rintro rfl
      exact (getElem?_inj (List.getElem?_eq_some_iff.1 hj).1 h.objects_nodup).1
        (hj.trans hx.symm)
    rintro rfl
    exact some.inj (hj.symm.trans hx)
  stayed_sub := fun _ hx => hx

lemma all_chosen (h : InLine ids objects index made round) (hend : objects.length ≤ index) :
    ∀ x ∈ round.stayed, x ∈ round.chosen := by
  intro x hx
  obtain ⟨j, hj, hget⟩ := mem_iff_getElem.1 (h.stayed_sub x hx)
  have hsome : objects[j]? = some x := by rw [getElem?_eq_getElem hj, hget]
  exact (h.chosen_iff j x hsome).2 (by omega)

lemma forget (h : InLine ids objects index made round) (p : Nat → Bool) :
    InLine ids objects index made { round with stayed := round.stayed.filter p } :=
  { h with stayed_sub := fun x hx => h.stayed_sub x (mem_of_mem_filter hx) }

end InLine

/-! ## What a step can do to a round robin meeting -/

def Place.left : Place → Bool
  | .leaving => true
  | .done => true
  | _ => false

/-- The runner went on and let only nominated seats speak. -/
structure Quiet (r r' : Runner) : Prop where
  same : SameTable r.session r'.session
  spoke : ∃ n, r'.spoken = r.spoken + n ∧ r'.nominated = r.nominated + n
    ∧ r'.calls = r.calls + n
  left : r.place.left → r'.place.left
  done : r'.place = .done → r.place = .done

def Event.isTurn : Event → Bool
  | .turn _ _ => true
  | _ => false

/-- The steps of a runner whose strategy is the round robin `s`. -/
inductive RobinStep (r : Runner) (s : RoundRobin) : Event → Runner → Prop where
  | quiet {event : Event} {r' : Runner} (hturn : event.isTurn = false) (h : Quiet r r') :
      RobinStep r s event r'
  | added (config : SeatConfig) (said : String) :
      RobinStep r s (.intervene (.addSeat (some config)) said)
        { r with session := r.session.addSeat config }
  | removed (seatId said : String) (session : Session)
      (h : r.session.removeSeat seatId = some session) :
      RobinStep r s (.intervene (.removeSeat (some seatId)) said) { r with session := session }
  | turned (said : String) (summary : Option String) (h : r.place = .roundRobin) :
      RobinStep r s (.turn said summary) (r.roundRobinTurn s said summary)
  | concluded (text : Option String) (h : r.place = .leaving) :
      RobinStep r s (.conclude text) (r.concluded text)

section
variable {lower : String → String} {idle : Nat} {r : Runner}

lemma not_left_of_inLoops (h : r.inLoops = true) : r.place.left = false := by
  rw [inLoops, and_eq_true] at h
  cases hplace : r.place <;> rw [hplace] at h <;> first | rfl | exact absurd h.2 (by decide)

lemma quiet_of_process {iv : Intervention} (said : String) (h : ¬ Runner.Seating iv) :
    Quiet r (r.process lower iv said) := by
  have hcost := process_cost lower r iv said
  obtain ⟨n, hspoken, hnominated, hcalls⟩ := hcost.2
  exact ⟨process_same lower r said h, ⟨n, hspoken, hnominated, hcalls⟩,
    fun hleft => hcost.1 ▸ hleft, fun hover => hcost.1 ▸ hover⟩

lemma quiet_of_place {place : Place} (hleft : r.place.left = false) (hover : place ≠ .done) :
    Quiet r { r with place := place } :=
  ⟨SameTable.refl _, ⟨0, rfl, rfl, rfl⟩, fun h => absurd (hleft ▸ h) (by decide),
    fun h => absurd h hover⟩

lemma backToOuter_place (r : Runner) : r.backToOuter.place ≠ .done := by
  rw [Runner.backToOuter]
  show (if r.session.strategy.shouldEnd then Place.leaving else Place.outer) ≠ .done
  split <;> decide

lemma quiet_of_stopped (hleft : r.place.left = false) : Quiet r r.stopped := by
  rw [Runner.stopped]
  split
  · exact quiet_of_place hleft (backToOuter_place r)
  exact quiet_of_place hleft (by decide)

lemma robinStep_of_step {r' : Runner} {s : RoundRobin} {event : Event}
    (hstrategy : r.session.strategy = .roundRobin s) (hstep : r.step lower idle event = some r') :
    RobinStep r s event r' := by
  cases event with
  | intervene iv said =>
    by_cases hin : r.inLoops = true
    · have hleft := not_left_of_inLoops hin
      cases iv with
      | finish =>
        simp only [Runner.step, hin, if_true, some.injEq] at hstep
        exact hstep ▸ .quiet rfl (quiet_of_stopped hleft)
      | addSeat config =>
        simp only [Runner.step, hin, if_true, some.injEq] at hstep
        subst hstep
        cases config with
        | none => exact .quiet rfl (quiet_of_process said id)
        | some config => exact .added config said
      | removeSeat seatId =>
        simp only [Runner.step, hin, if_true, some.injEq] at hstep
        subst hstep
        cases seatId with
        | none => exact .quiet rfl (quiet_of_process said id)
        | some seatId =>
          cases hremove : r.session.removeSeat seatId with
          | none =>
            have hsame : r.process lower (.removeSeat (some seatId)) said = r := by
              simp only [Runner.process, hremove, getD_none]
            rw [hsame]
            exact .quiet rfl ⟨SameTable.refl _, ⟨0, rfl, rfl, rfl⟩, id, id⟩
          | some session =>
            have hnew : r.process lower (.removeSeat (some seatId)) said
                = { r with session := session } := by
              simp only [Runner.process, hremove, getD_some]
            rw [hnew]
            exact .removed seatId said session hremove
      | _ =>
        simp only [Runner.step, hin, if_true, some.injEq] at hstep
        exact hstep ▸ .quiet rfl (quiet_of_process said id)
    cases iv <;> simp [Runner.step, hin] at hstep
  | enter =>
    simp only [Runner.step, hstrategy, and_eq_true] at hstep
    split at hstep
    · rename_i hin
      exact some.inj hstep ▸ .quiet rfl (quiet_of_place (not_left_of_inLoops hin.1) (by decide))
    cases hstep
  | turn said summary =>
    simp only [Runner.step, hstrategy, and_eq_true, decide_eq_true_eq] at hstep
    split at hstep
    · rename_i hin
      exact some.inj hstep ▸ .turned said summary hin.2
    cases hstep
  | cycle answer said summary =>
    simp only [Runner.step, hstrategy] at hstep
    split at hstep
    · split at hstep
      · rename_i hmod
        cases hmod
      cases hstep
    cases hstep
  | conclude text =>
    simp only [Runner.step] at hstep
    split at hstep
    · rename_i hplace
      exact some.inj hstep ▸ .concluded text hplace
    cases hstep
  | pause =>
    exact some.inj hstep ▸ .quiet rfl ⟨SameTable.pause _, ⟨0, rfl, rfl, rfl⟩, id, id⟩
  | resume =>
    exact some.inj hstep ▸ .quiet rfl ⟨SameTable.resume _, ⟨0, rfl, rfl, rfl⟩, id, id⟩

end

/-! ## Seats leave and are chosen -/

variable {seats : List Seat} {seatId : String} {seat : Seat} {session a b : Session}
  {s' s : RoundRobin} {r r' : Runner}

lemma filter_eq_eraseIdx (hnodup : (ids seats).Nodup) (hmem : seatId ∈ ids seats) :
    seats.filter (·.seatId ≠ seatId) = seats.eraseIdx (seats.findIdx (·.seatId = seatId)) := by
  induction seats with
  | nil => cases hmem
  | cons seat rest ih =>
    have hsplit := nodup_cons.1 hnodup
    by_cases hid : seat.seatId = seatId
    · -- the seat itself; no other one has its id
      have hrest : rest.filter (·.seatId ≠ seatId) = rest := by
        apply filter_eq_self.2
        intro other hother
        have hne : other.seatId ≠ seatId := fun heq =>
          hsplit.1 (mem_map.2 ⟨other, hother, heq.trans hid.symm⟩)
        exact decide_eq_true hne
      rw [findIdx_cons, filter_cons_of_neg (by simp [hid]), hrest]
      simp [hid]
    have hrest : seatId ∈ ids rest := by
      rcases mem_cons.1 hmem with heq | hrest
      · exact absurd heq.symm hid
      exact hrest
    rw [findIdx_cons, filter_cons_of_pos (by simp [hid]), ih hsplit.2 hrest]
    simp [hid]

lemma mem_ids_of_getSeat (h : getSeat seats seatId = some seat) : seatId ∈ ids seats := by
  have hid : seat.seatId = seatId :=
    of_decide_eq_true (find?_some (p := fun seat : Seat => decide (seat.seatId = seatId)) h)
  exact hid ▸ mem_map_of_mem (mem_of_find?_eq_some h)

lemma removeSeat_eq_some {s : Session} (h : s.removeSeat seatId = some session) :
    seatId ∈ ids s.seats
      ∧ session = { s with
          seats := s.seats.filter (·.seatId ≠ seatId)
          strategy := s.strategy.seatRemoved (s.seats.findIdx (·.seatId = seatId))
            (s.seats.filter (·.seatId ≠ seatId)).length } := by
  rw [Session.removeSeat] at h
  cases hget : getSeat s.seats seatId with
  | none =>
    rw [hget] at h
    cases h
  | some =>
    rw [hget] at h
    simp only at h
    split at h
    · cases h
    exact ⟨mem_ids_of_getSeat hget, (some.inj h).symm⟩

lemma strategy_removed {s : Session} {rr : RoundRobin} (hstrategy : s.strategy = .roundRobin rr)
    (h : s.removeSeat seatId = some session) : session.strategy = .roundRobin
      (rr.seatRemoved (s.seats.findIdx (·.seatId = seatId)) session.seats.length) := by
  obtain ⟨-, hsession⟩ := removeSeat_eq_some h
  rw [hsession]
  show s.strategy.seatRemoved _ _ = _
  rw [hstrategy]
  rfl

lemma findIdx_lt (h : seatId ∈ ids seats) : seats.findIdx (·.seatId = seatId) < seats.length := by
  obtain ⟨seat, hseat, hid⟩ := mem_map.1 h
  exact findIdx_lt_length_of_exists ⟨seat, hseat, decide_eq_true hid⟩

/-- What `next_speaker` finds. -/
inductive Choice (s : RoundRobin) (seats : List Seat) : Option Seat → RoundRobin → Prop where
  | done (h : s.finished = true ∨ seats = [] ∨
      seats.length ≤ s.speakerIndex ∧ s.maxRounds ≤ s.currentRound) :
      Choice s seats none { s with finished := true }
  | inRound {seat : Seat} (h : seats[s.speakerIndex]? = some seat) : Choice s seats (some seat) s
  | newRound {seat : Seat} (h : seats[0]? = some seat) (hend : seats.length ≤ s.speakerIndex)
      (hround : s.currentRound < s.maxRounds) :
      Choice s seats (some seat)
        { s with currentRound := s.currentRound + 1, speakerIndex := 0 }

lemma nextSpeaker_choice (s : RoundRobin) (seats : List Seat) :
    Choice s seats (s.nextSpeaker seats).1 (s.nextSpeaker seats).2 := by
  rw [RoundRobin.nextSpeaker]
  split
  · rename_i hfinished
    have hsame : { s with finished := true } = s := by
      rw [← hfinished]
    have h : Choice s seats none { s with finished := true } := .done (.inl hfinished)
    rw [hsame] at h
    exact h
  split
  · rename_i hempty
    exact .done (.inr (.inl (isEmpty_iff.1 hempty)))
  rename_i hempty
  split
  · rename_i hend
    split
    · exact .done (.inr (.inr ⟨hend, ‹_›⟩))
    rename_i hround
    have hpos : 0 < seats.length := length_pos_iff.2 (fun h => hempty (isEmpty_iff.2 h))
    rw [getElem?_eq_getElem hpos]
    exact .newRound (getElem?_eq_getElem hpos) hend (by omega)
  rename_i hend
  have hlt : s.speakerIndex < seats.length := by omega
  rw [getElem?_eq_getElem hlt]
  exact .inRound (getElem?_eq_getElem hlt)

lemma choice_of_next {seat? : Option Seat} (h : s.nextSpeaker seats = (seat?, s')) :
    Choice s seats seat? s' := by
  have hchoice := nextSpeaker_choice s seats
  rw [h] at hchoice
  exact hchoice

/-- A turn of a seat: the table as it was, and the index one further. -/
structure Spoke (r : Runner) (s' : RoundRobin) (r' : Runner) : Prop where
  same : SameTable (r.session.withStrategy (.roundRobin s'.advance)) r'.session
  place : r'.place = r.place
  spoken : r'.spoken = r.spoken + 1
  nominated : r'.nominated = r.nominated
  calls : r'.calls ≤ r.calls + 2

variable (said : String) (summary : Option String)

lemma turn_spoke (h : s.nextSpeaker r.session.seats = (some seat, s')) :
    Spoke r s' (r.roundRobinTurn s said summary) := by
  let r₁ : Runner := { r with session := r.session.withStrategy (.roundRobin s') }
  let r₂ : Runner := { r₁.doSpeak seat said with
    session := (r₁.doSpeak seat said).session.withStrategy (.roundRobin s'.advance) }
  have hsame : SameTable (r.session.withStrategy (.roundRobin s'.advance)) r₂.session :=
    ⟨(doSpeak_same r₁ seat said).ids, (doSpeak_same r₁ seat said).objects,
      (doSpeak_same r₁ seat said).made, rfl⟩
  have hturn : r.roundRobinTurn s said summary
      = if s'.advance.isRoundEnd then r₂.roundEnded r₂.round summary else r₂ := by
    rw [Runner.roundRobinTurn, h]
  rw [hturn]
  split
  · have hend := roundEnded_summarized r₂ r₂.round summary
    exact ⟨hsame.trans hend.same, hend.place, hend.spoken, hend.nominated, hend.calls⟩
  exact ⟨hsame, rfl, rfl, rfl, Nat.le_succ _⟩

lemma turn_finished (h : s.nextSpeaker r.session.seats = (none, s')) :
    r.roundRobinTurn s said summary
      = { r with session := r.session.withStrategy (.roundRobin s'), place := .leaving } := by
  rw [Runner.roundRobinTurn, h]

/-! ## Every turn counts -/

/-- **The turns that are left shrink**: each turn uses one of the turns that the
rounds have for the seats ever made, whoever joins or leaves. -/
structure Budget (r : Runner) (s : RoundRobin) : Prop where
  strategy : r.session.strategy = .roundRobin s
  round_pos : 1 ≤ s.currentRound
  seats_le : r.session.seats.length ≤ r.session.made
  spoken_le : r.spoken + (r.session.seats.length - s.speakerIndex)
    ≤ r.nominated + s.currentRound * r.session.made

lemma Budget.of_same (h : Budget r s) (hsame : SameTable r.session r'.session) (n : Nat)
    (hspoken : r'.spoken = r.spoken + n) (hnominated : r'.nominated = r.nominated + n) :
    Budget r' s := by
  have hle := h.spoken_le
  refine ⟨hsame.strategy.trans h.strategy, h.round_pos, ?_, ?_⟩
  · rw [hsame.length, hsame.made]
    exact h.seats_le
  rw [hspoken, hnominated, hsame.length, hsame.made]
  omega

lemma Budget.congr (h : Budget r s) (hq : Quiet r r') : Budget r' s := by
  obtain ⟨n, hspoken, hnominated, -⟩ := hq.spoke
  exact h.of_same hq.same n hspoken hnominated

lemma Budget.add (h : Budget r s) (config : SeatConfig) : Budget { r with session :=r.session.addSeat config }
      { s with seatCount := r.session.seats.length + 1 } := by
  have hround := h.round_pos
  have hseats := h.seats_le
  have hle := h.spoken_le
  refine ⟨?_, h.round_pos, ?_, ?_⟩
  · show r.session.strategy.seatAdded _ = _
    rw [h.strategy]
    rfl
  · show (r.session.seats ++ [_]).length ≤ r.session.made + 1
    rw [length_append, length_singleton]
    omega
  show r.spoken + ((r.session.seats ++ [_]).length - s.speakerIndex)
    ≤ r.nominated + s.currentRound * (r.session.made + 1)
  rw [length_append, length_singleton, Nat.mul_add, Nat.mul_one]
  omega

lemma seatRemoved_ahead (s : RoundRobin) {i count left : Nat} (hi : i < count)
    (hleft : left < count) :
    left - (s.seatRemoved i left).speakerIndex ≤ count - s.speakerIndex := by
  show left - (if 0 < s.speakerIndex then
      if i < s.speakerIndex then s.speakerIndex - 1
      else if i = s.speakerIndex then min s.speakerIndex (max 0 (left - 1))
      else s.speakerIndex
    else s.speakerIndex) ≤ _
  split <;> (try split) <;> (try split) <;> omega

lemma Budget.remove (h : Budget r s) (hremove : r.session.removeSeat seatId = some session) :
    Budget { r with session := session }
      (s.seatRemoved (r.session.seats.findIdx (·.seatId = seatId)) session.seats.length) := by
  obtain ⟨hmem, hsession⟩ := removeSeat_eq_some hremove
  have hmade : session.made = r.session.made := by rw [hsession]
  have hi := findIdx_lt hmem
  have hshorter : session.seats.length < r.session.seats.length := by
    obtain ⟨seat, hseat, hid⟩ := mem_map.1 hmem
    rw [hsession]
    exact length_filter_lt_length_iff_exists.2 ⟨seat, hseat, by simp [hid]⟩
  have hahead := seatRemoved_ahead s hi hshorter
  have hle := h.spoken_le
  have hseats := h.seats_le
  refine ⟨?_, h.round_pos, ?_, ?_⟩
  · exact strategy_removed h.strategy hremove
  · show session.seats.length ≤ session.made
    omega
  show r.spoken + (session.seats.length - _) ≤ r.nominated + s.currentRound * session.made
  rw [hmade]
  omega

lemma Budget.turn {r : Runner} {s s' : RoundRobin} {seat : Seat} (h : Budget r s)
    (said : String) (summary : Option String)
    (hnext : s.nextSpeaker r.session.seats = (some seat, s')) :
    Budget (r.roundRobinTurn s said summary) s'.advance := by
  have hspoke := turn_spoke said summary hnext
  have hle := h.spoken_le
  have hseats := h.seats_le
  have hlength : (r.roundRobinTurn s said summary).session.seats.length = r.session.seats.length :=
    hspoke.same.length
  have hmade : (r.roundRobinTurn s said summary).session.made = r.session.made := hspoke.same.made
  have hchoice := choice_of_next hnext
  refine ⟨hspoke.same.strategy, ?_, by omega, ?_⟩
  · cases hchoice with
    | inRound => exact h.round_pos
    | newRound => exact Nat.le_add_left _ _
  rw [hspoke.spoken, hspoke.nominated, hlength, hmade]
  cases hchoice with
  | inRound hget =>
    have hlt := (List.getElem?_eq_some_iff.1 hget).1
    show r.spoken + 1 + (_ - (s.speakerIndex + 1)) ≤ r.nominated + s.currentRound * _
    omega
  | newRound hget =>
    have hpos := (List.getElem?_eq_some_iff.1 hget).1
    show r.spoken + 1 + (_ - (0 + 1)) ≤ r.nominated + (s.currentRound + 1) * _
    rw [Nat.add_mul, Nat.one_mul]
    omega

/-! ## The invariant of a meeting -/

def Lined (session : Session) (s : RoundRobin) (round : Round) : Prop :=
  InLine (ids session.seats) (objects session.seats) s.speakerIndex session.made round

/-- The seat that leaves is the next one, the last of the line and not its
first. -/
def LastInLine (session : Session) (seatId : String) : Prop :=
  match session.strategy with
  | .roundRobin s =>
    0 < s.speakerIndex ∧ session.seats.findIdx (·.seatId = seatId) = s.speakerIndex
      ∧ s.speakerIndex + 1 = session.seats.length
  | .moderatorDecides _ => False

def Orderly (w : Watched) (event : Event) : Prop :=
  match event with
  | .intervene (.removeSeat (some seatId)) _ => ¬ LastInLine w.runner.session seatId
  | .intervene (.addSeat (some config)) _ => FreshId w.runner.session.seats config
  | _ => True

instance (session : Session) (seatId : String) : Decidable (LastInLine session seatId) :=
  match h : session.strategy with
  | .roundRobin s =>
    decidable_of_iff (0 < s.speakerIndex
        ∧ session.seats.findIdx (·.seatId = seatId) = s.speakerIndex
        ∧ s.speakerIndex + 1 = session.seats.length)
      (by rw [LastInLine, h])
  | .moderatorDecides _ => .isFalse (by rw [LastInLine, h]; exact not_false)

instance (w : Watched) : ∀ event, Decidable (Orderly w event)
  | .intervene (.removeSeat (some seatId)) _ =>
    inferInstanceAs (Decidable (¬ LastInLine w.runner.session seatId))
  | .intervene (.addSeat (some config)) _ =>
    inferInstanceAs (Decidable (FreshId w.runner.session.seats config))
  | .intervene (.removeSeat none) _ => .isTrue trivial
  | .intervene (.addSeat none) _ => .isTrue trivial
  | .intervene (.inject _) _ => .isTrue trivial
  | .intervene (.nominate _ _) _ => .isTrue trivial
  | .intervene .pause _ => .isTrue trivial
  | .intervene .resume _ => .isTrue trivial
  | .intervene .finish _ => .isTrue trivial
  | .enter => .isTrue trivial
  | .turn _ _ => .isTrue trivial
  | .cycle _ _ _ => .isTrue trivial
  | .conclude _ => .isTrue trivial
  | .pause => .isTrue trivial
  | .resume => .isTrue trivial

def RoundsFair (rounds : List Round) : Prop :=
  ∀ round ∈ rounds, round.chosen.Nodup ∧ ∀ x ∈ round.stayed, x ∈ round.chosen

/-- The record of a meeting that goes on, or has run out of rounds. -/
inductive Rounds (maxRounds : Nat) (w : Watched) (s : RoundRobin) : Prop where
  | going (hfinished : s.finished = false) (hrounds : w.rounds.length + 1 = s.currentRound)
      (hmax : s.currentRound ≤ maxRounds) (hline : Lined w.runner.session s w.current)
  | done (hfinished : s.finished = true) (hleft : w.runner.place.left = true)
      (hrounds : w.rounds.length ≤ maxRounds) (hcurrent : w.current = {})

structure Inv (maxRounds : Nat) (w : Watched) : Prop where
  fair : RoundsFair w.rounds
  rounds : ∃ s, w.runner.session.strategy = .roundRobin s ∧ s.maxRounds = maxRounds
    ∧ Rounds maxRounds w s

lemma Lined.of_eq {round : Round} (h : Lined a s round) (hids : ids b.seats = ids a.seats)
    (hobjects : objects b.seats = objects a.seats) (hmade : b.made = a.made) : Lined b s round := by
  rw [Lined, hids, hobjects, hmade]
  exact h

lemma Lined.congr {round : Round} (h : Lined a s round) (hsame : SameTable a b) :
    Lined b s round :=
  h.of_eq hsame.ids hsame.objects hsame.made

lemma Lined.add {round : Round} (h : Lined session s round) {config : SeatConfig}
    (hfresh : FreshId session.seats config) : Lined (session.addSeat config) { s with seatCount :=session.seats.length + 1 } round := by
  have hnew := InLine.add h (newSeat_id_notMem hfresh session.made)
  rw [Lined]
  show InLine (ids (session.seats ++ [_])) (objects (session.seats ++ [_])) _ _ _
  rw [ids, objects, map_append, map_append]
  exact hnew

lemma Lined.remove {after : Session} {round : Round} (h : Lined session s round)
    (hstrategy : session.strategy = .roundRobin s)
    (hremove : session.removeSeat seatId = some after) (hline : ¬ LastInLine session seatId) :
    Lined after (s.seatRemoved (session.seats.findIdx (·.seatId = seatId)) after.seats.length)
      { round with stayed := round.stayed.filter (· ∈ objects after.seats) } := by
  obtain ⟨hmem, hafter⟩ := removeSeat_eq_some hremove
  have hi := findIdx_lt hmem
  have hseats : after.seats
      = session.seats.eraseIdx (session.seats.findIdx (·.seatId = seatId)) := by
    rw [hafter]
    exact filter_eq_eraseIdx h.ids_nodup hmem
  have hlength : after.seats.length = session.seats.length - 1 := by
    rw [hseats, length_eraseIdx_of_lt hi]
  have hmade : after.made = session.made := by rw [hafter]
  have hcount : (objects session.seats).length = session.seats.length := length_map ..
  have hlast : ¬ (0 < s.speakerIndex ∧ session.seats.findIdx (·.seatId = seatId) = s.speakerIndex
      ∧ s.speakerIndex + 1 = (objects session.seats).length) := by
    rw [hcount]
    rw [LastInLine, hstrategy] at hline
    exact hline
  have hnew := InLine.remove h (by rw [hcount]; exact hi) hlast
  rw [Lined, hmade, hlength, hseats, ids, objects, ← eraseIdx_map, ← eraseIdx_map]
  rw [hcount] at hnew
  exact hnew

/-! ## Every step keeps the rounds fair -/

section
variable {lower : String → String} {idle maxRounds : Nat}

lemma RoundsFair.concat {rounds : List Round} (h : RoundsFair rounds) {round : Round}
    (hnodup : round.chosen.Nodup) (hall : ∀ x ∈ round.stayed, x ∈ round.chosen) :
    RoundsFair (rounds ++ [round]) := by
  intro other hother
  rcases mem_append.1 hother with hold | hnew
  · exact h other hold
  rw [mem_singleton.1 hnew]
  exact ⟨hnodup, hall⟩

variable {w' w : Watched} {s : RoundRobin}

lemma watch_eq_some {event : Event} (hstrategy : w.runner.session.strategy = .roundRobin s)
    (h : watch lower idle w event = some w') : ∃ after, w.runner.step lower idle event = some after
      ∧ w' = if event.isTurn then w.turned s after
        else { w with runner := after, current := w.current.carryOn after } := by
  rw [watch, map_eq_some_iff] at h
  obtain ⟨after, hstep, hw⟩ := h
  refine ⟨after, hstep, hw.symm.trans ?_⟩
  rw [hstrategy]
  cases event <;> rfl

lemma Inv.congr (h : Inv maxRounds w) {after : Runner}
    (hsame : SameTable w.runner.session after.session)
    (hleft : w.runner.place.left = true → after.place.left = true) :
    Inv maxRounds { w with runner := after, current := w.current.carryOn after } := by
  obtain ⟨s, hstrategy, hmax, hrounds⟩ := h.rounds
  refine ⟨h.fair, s, hsame.strategy.trans hstrategy, hmax, ?_⟩
  cases hrounds with
  | going hfinished hcount hle hline =>
    exact .going hfinished hcount hle ((hline.congr hsame).forget _)
  | done hfinished hplace hcount hcurrent =>
    exact .done hfinished (hleft hplace) hcount (by rw [hcurrent]; rfl)

lemma Inv.turned (h : Inv maxRounds w) (hstrategy : w.runner.session.strategy = .roundRobin s)
    (hplace : w.runner.place = .roundRobin) (said : String) (summary : Option String) :
    Inv maxRounds (w.turned s (w.runner.roundRobinTurn s said summary)) := by
  obtain ⟨s₀, hs₀, hmax, hrounds⟩ := h.rounds
  obtain rfl : s₀ = s := Strategy.roundRobin.inj (hs₀.symm.trans hstrategy)
  cases hrounds with
  | done hfinished hleft =>
    rw [hplace] at hleft
    cases hleft
  | going hfinished hcount hle hline =>
    have hlen : (objects w.runner.session.seats).length = w.runner.session.seats.length :=
      length_map ..
    cases hnext : s₀.nextSpeaker w.runner.session.seats with
    | mk seat? s' =>
      have hchoice := choice_of_next hnext
      cases seat? with
      | none =>
        -- the meeting finishes, and its last round closes
        have hafter := turn_finished said summary hnext
        have hclosed : ∀ x ∈ w.current.stayed, x ∈ w.current.chosen := by
          cases hchoice with
          | done hend =>
            apply hline.all_chosen
            rw [hlen]
            rcases hend with hdone | hempty | hpast
            · exact absurd (hfinished.symm.trans hdone) (by decide)
            · rw [hempty]
              exact Nat.zero_le _
            exact hpast.1
        rw [Watched.turned, hnext]
        refine ⟨h.fair.concat hline.chosen_nodup hclosed, s', by rw [hafter]; rfl, ?_, ?_⟩
        · cases hchoice
          exact hmax
        refine .done ?_ (by rw [hafter]; rfl) ?_ rfl
        · cases hchoice
          rfl
        rw [length_append]
        exact hcount ▸ hle
      | some seat =>
        have hspoke := turn_spoke said summary hnext
        rw [Watched.turned, hnext]
        cases hchoice with
        | inRound hget =>
          have hobject : (objects w.runner.session.seats)[s₀.speakerIndex]? = some seat.made := by
            rw [objects, getElem?_map, hget]
            rfl
          simp only [if_true]
          refine ⟨h.fair, s₀.advance, hspoke.same.strategy, hmax, .going hfinished hcount hle ?_⟩
          have hnew : Lined w.runner.session s₀.advance
              { w.current with chosen := w.current.chosen ++ [seat.made] } := hline.choose hobject
          exact hnew.of_eq hspoke.same.ids hspoke.same.objects hspoke.same.made
        | newRound hget hend hround =>
          have hobject : (objects w.runner.session.seats)[0]? = some seat.made := by
            rw [objects, getElem?_map, hget]
            rfl
          have hclosed := hline.all_chosen (by rw [hlen]; exact hend)
          have hne : ¬ (s₀.currentRound + 1 = s₀.currentRound) := by omega
          simp only [hne, if_false]
          refine ⟨h.fair.concat hline.chosen_nodup hclosed, _, hspoke.same.strategy, hmax,
            .going hfinished ?_ ?_ ?_⟩
          · rw [length_append]
            exact congrArg (· + 1) hcount
          · exact hmax ▸ hround
          have hnew : Lined w.runner.session
              { s₀ with currentRound := s₀.currentRound + 1, speakerIndex := 1 }
              { chosen := [seat.made], stayed := objects w.runner.session.seats } :=
            hline.newRound hobject
          exact hnew.of_eq hspoke.same.ids hspoke.same.objects hspoke.same.made

lemma inv_step {event : Event} (h : Inv maxRounds w) (horderly : Orderly w event)
    (hwatch : watch lower idle w event = some w') : Inv maxRounds w' := by
  obtain ⟨s, hstrategy, hmax, hrounds⟩ := h.rounds
  obtain ⟨_, hstep, rfl⟩ := watch_eq_some hstrategy hwatch
  cases robinStep_of_step hstrategy hstep with
  | quiet hturn hquiet =>
    rw [hturn]
    exact h.congr hquiet.same hquiet.left
  | turned said summary hplace => exact h.turned hstrategy hplace said summary
  | concluded => exact h.congr (concluded_same _ _) (fun _ => rfl)
  | added =>
    refine ⟨h.fair, { s with seatCount := w.runner.session.seats.length + 1 }, ?_, hmax, ?_⟩
    · show w.runner.session.strategy.seatAdded _ = _
      rw [hstrategy]
      rfl
    cases hrounds with
    | going hfinished hcount hle hline =>
      exact .going hfinished hcount hle ((hline.add horderly).forget _)
    | done hfinished hleft hcount hcurrent =>
      refine .done hfinished hleft hcount ?_
      show w.current.carryOn _ = {}
      rw [hcurrent]
      rfl
  | removed seatId said session hremove =>
    refine ⟨h.fair, _, strategy_removed hstrategy hremove, hmax, ?_⟩
    cases hrounds with
    | going hfinished hcount hle hline =>
      exact .going hfinished hcount hle (hline.remove hstrategy hremove horderly)
    | done hfinished hleft hcount hcurrent =>
      refine .done hfinished hleft hcount ?_
      show w.current.carryOn _ = {}
      rw [hcurrent]
      rfl

end

/-! ## Whole meetings -/

/-- The turns that the record counts were spent from the budget. -/
structure Spent (maxRounds : Nat) (w : Watched) : Prop where
  budget : ∃ s, Budget w.runner s ∧ s.maxRounds = maxRounds ∧ s.currentRound ≤ maxRounds
  turns_le : w.turns + w.runner.nominated
    ≤ w.runner.spoken + (if w.runner.place.left then 1 else 0)

/-- **No seat twice in a round, every seat that stays for a round once, and no
more rounds and turns than there are.** -/
structure Fair (maxRounds : Nat) (w : Watched) : Prop where
  no_seat_twice : ∀ round ∈ w.rounds ++ [w.current], round.chosen.Nodup
  stayed_once : ∀ round ∈ w.rounds, ∀ x ∈ round.stayed, round.chosen.count x = 1
  rounds_le : w.rounds.length + (if w.runner.session.strategy.shouldEnd then 0 else 1) ≤ maxRounds
  turns_le : w.turns ≤ maxRounds * w.runner.session.made + 1

section
variable {lower : String → String} {idle maxRounds : Nat}

lemma turns_quiet {r r' : Runner} (h : Quiet r r') {turns : Nat}
    (hle : turns + r.nominated ≤ r.spoken + (if r.place.left then 1 else 0)) :
    turns + r'.nominated ≤ r'.spoken + (if r'.place.left then 1 else 0) := by
  obtain ⟨_, hspoken, hnominated, -⟩ := h.spoke
  have hleft := h.left
  rw [hspoken, hnominated]
  cases hplace : r.place.left with
  | false =>
    rw [hplace] at hle
    split <;> simp only [false_eq_true, if_false] at hle <;> omega
  | true =>
    rw [hplace] at hle
    rw [hleft hplace]
    simp only [if_true] at hle ⊢
    omega

variable {w : Watched} {configs : List SeatConfig} {compressor : Compressor} {session : Session}
  {strategyName : String}

lemma spent_step {w' : Watched} {event : Event} (h : Spent maxRounds w)
    (hwatch : watch lower idle w event = some w') : Spent maxRounds w' := by
  obtain ⟨s, hbudget, hmax, hround⟩ := h.budget
  obtain ⟨_, hstep, rfl⟩ := watch_eq_some hbudget.strategy hwatch
  cases robinStep_of_step hbudget.strategy hstep with
  | quiet hturn hquiet =>
    rw [hturn]
    exact ⟨⟨s, hbudget.congr hquiet, hmax, hround⟩, turns_quiet hquiet h.turns_le⟩
  | added config => exact ⟨⟨_, hbudget.add config, hmax, hround⟩, h.turns_le⟩
  | removed seatId said session hremove =>
    exact ⟨⟨_, hbudget.remove hremove, hmax, hround⟩, h.turns_le⟩
  | concluded text hplace =>
    have hspoken := concluded_spoken w.runner text
    have hsame := concluded_same w.runner text
    have hturns := h.turns_le
    rw [hplace] at hturns
    refine ⟨⟨s, hbudget.of_same hsame 0 hspoken.1 hspoken.2, hmax, hround⟩, ?_⟩
    · show w.turns + (w.runner.concluded text).nominated ≤ (w.runner.concluded text).spoken + 1
      rw [hspoken.1, hspoken.2]
      exact hturns
  | turned said summary hplace =>
    have hturns := h.turns_le
    rw [hplace] at hturns
    simp only [Place.left, false_eq_true, if_false] at hturns
    cases hnext : s.nextSpeaker w.runner.session.seats with
    | mk seat? s' =>
      have hchoice := choice_of_next hnext
      cases seat? with
      | none =>
        have hafter := turn_finished said summary hnext
        simp only [Event.isTurn, if_true, Watched.turned, hnext, hafter]
        cases hchoice with
        | done =>
          refine ⟨⟨{ s with finished := true }, ⟨rfl, hbudget.round_pos, hbudget.seats_le,
            hbudget.spoken_le⟩, hmax, hround⟩, ?_⟩
          show w.turns + 1 + w.runner.nominated ≤ w.runner.spoken + 1
          omega
      | some =>
        have hspoke := turn_spoke said summary hnext
        have hnew := hbudget.turn said summary hnext
        -- in the open round or a new one, the turn is counted with its speech
        have hcount : w.turns + 1 + (w.runner.roundRobinTurn s said summary).nominated
            ≤ (w.runner.roundRobinTurn s said summary).spoken
              + (if (w.runner.roundRobinTurn s said summary).place.left then 1 else 0) := by
          rw [hspoke.spoken, hspoke.nominated, hspoke.place, hplace]
          simp only [Place.left, false_eq_true, if_false]
          omega
        simp only [Event.isTurn, if_true, Watched.turned, hnext]
        cases hchoice with
        | inRound =>
          simp only [if_true]
          exact ⟨⟨_, hnew, hmax, hround⟩, hcount⟩
        | newRound hget hend hlt =>
          have hne : ¬ (s.currentRound + 1 = s.currentRound) := by omega
          simp only [hne, if_false]
          exact ⟨⟨_, hnew, hmax, hmax ▸ hlt⟩, hcount⟩

lemma fair_of_inv (h : Inv maxRounds w) (hspent : Spent maxRounds w) : Fair maxRounds w := by
  obtain ⟨_, hstrategy, -, hrounds⟩ := h.rounds
  constructor
  · intro round hmem
    rcases mem_append.1 hmem with hold | hcurrent
    · exact (h.fair round hold).1
    rw [mem_singleton.1 hcurrent]
    cases hrounds with
    | going _ _ _ hline => exact hline.chosen_nodup
    | done _ _ _ hempty =>
      rw [hempty]
      exact nodup_nil
  · intro round hmem x hx
    exact count_eq_one_of_mem (h.fair round hmem).1 ((h.fair round hmem).2 x hx)
  · rw [hstrategy]
    cases hrounds with
    | going hfinished =>
      simp only [Strategy.shouldEnd, hfinished, false_eq_true, if_false]
      omega
    | done hfinished =>
      simp only [Strategy.shouldEnd, hfinished, if_true]
      omega
  obtain ⟨s', hbudget, -, hround⟩ := hspent.budget
  have hspoken := hbudget.spoken_le
  have hturns := hspent.turns_le
  have hmul : s'.currentRound * w.runner.session.made ≤ maxRounds * w.runner.session.made :=
    Nat.mul_le_mul_right _ hround
  split at hturns <;> omega

lemma created_session (hname : strategyName ≠ "moderator_decides")
    (h : Session.create configs maxRounds strategyName compressor = some session) :
    session.seats = createSeats configs ∧ session.made = configs.length
      ∧ session.strategy
        = .roundRobin { seatCount := (createSeats configs).length, maxRounds := maxRounds } := by
  rw [Session.create, if_neg hname] at h
  obtain rfl := some.inj h
  refine ⟨rfl, rfl, ?_⟩
  show Strategy.create strategyName _ _ = _
  rw [Strategy.create, if_neg hname]

lemma inv_opened (hname : strategyName ≠ "moderator_decides")
    (h : Session.create configs maxRounds strategyName compressor = some session)
    (hmax : 1 ≤ maxRounds) (hids : (ids (createSeats configs)).Nodup) :
    Inv maxRounds (opened session) ∧ Spent maxRounds (opened session) := by
  obtain ⟨hseats, hmade, hstrategy⟩ := created_session hname h
  have hcount : (createSeats configs).length = session.made :=
    (length_createSeats configs).trans hmade.symm
  constructor
  · refine ⟨fun _ hround => absurd hround not_mem_nil, _, hstrategy, rfl,
      .going rfl rfl hmax ?_⟩
    show InLine (ids session.seats) (objects session.seats) 0 session.made _
    rw [hseats]
    constructor
    · rw [ids, objects, length_map, length_map]
    · exact hids
    · rw [objects_createSeats]
      exact nodup_range
    · intro x hx
      rw [objects_createSeats] at hx
      exact hmade ▸ mem_range.1 hx
    · exact Nat.zero_le _
    · exact nodup_nil
    · exact fun x hx => absurd hx not_mem_nil
    · exact fun j x _ => ⟨fun hx => absurd hx not_mem_nil, fun hlt => absurd hlt (Nat.not_lt_zero j)⟩
    intro x hx
    exact hseats ▸ hx
  refine ⟨⟨_, ⟨hstrategy, le_rfl, ?_, ?_⟩, rfl, hmax⟩, Nat.zero_le _⟩
  · show session.seats.length ≤ session.made
    rw [hseats, hcount]
  show 0 + (session.seats.length - 0) ≤ 0 + 1 * session.made
  rw [hseats, hcount]
  omega

/-- **Every seat once in every round.**  In a meeting of at least one round,
with distinct ids, in which nobody leaves as the last one in line, no seat is
chosen twice in a round, every seat that stays for a whole round is chosen
once in it, and the rounds and turns are bounded. -/
theorem everySeatOnce (lower : String → String) (idle : Nat) {configs : List SeatConfig}
    {maxRounds : Nat} {strategyName : String} {compressor : Compressor} {session : Session}
    (hname : strategyName ≠ "moderator_decides")
    (hcreate : Session.create configs maxRounds strategyName compressor = some session)
    (hmax : 1 ≤ maxRounds) (hids : (ids (createSeats configs)).Nodup) {events : List Event}
    (halong : Runs.Along (watch lower idle) Orderly (opened session) events) :
    Runs.Always (watch lower idle) (Fair maxRounds) (opened session) events := by
  have hstart := inv_opened hname hcreate hmax hids
  have hinv : Runs.Always (watch lower idle)
      (fun w => Inv maxRounds w ∧ Spent maxRounds w) (opened session) events := by
    refine Runs.always_of_along (I := fun w => Inv maxRounds w ∧ Spent maxRounds w) ?_ hstart halong
    intro w _ _ h horderly hwatch
    exact ⟨inv_step h.1 horderly hwatch, spent_step h.2 hwatch⟩
  exact hinv.mono (fun w h => fair_of_inv h.1 h.2)

end

/-! ## A meeting of three -/

def threeSeats : List SeatConfig := [{}, {}, {}]

def meetingOfThree (maxRounds : Nat) : Session :=
  { seats := createSeats threeSeats
    made := 3
    strategy := .roundRobin { seatCount := 3, maxRounds := maxRounds } }

/-- Two seats speak, the second of them leaves, and the third one speaks. -/
theorem everySeatOnce_second_leaves : Runs.Always (watch id 50) (Fair 2) (opened (meetingOfThree 2))
      [.enter, .turn "" none, .turn "" none, .intervene (.removeSeat (some "seat-1")) "",
        .turn "" none] :=
  everySeatOnce id 50 (show "round_robin" ≠ "moderator_decides" by decide)
    (show Session.create threeSeats 2 "round_robin" {} = some (meetingOfThree 2) from rfl)
    (by decide) (createSeats_ids_nodup (by decide)) (by decide)

/-- **The clamped index chooses a seat twice**: after two of three turns the
last seat leaves, and the second one speaks again. -/
theorem clampedIndex_choosesTwice : ∃ w, Runs.run (watch id 50) (opened (meetingOfThree 2))
        [.enter, .turn "" none, .turn "" none, .intervene (.removeSeat (some "seat-2")) "",
          .turn "" none] = some w
      ∧ w.current.chosen = [0, 1, 1] ∧ ¬ Fair 2 w := by
  refine ⟨_, rfl, rfl, fun h => ?_⟩
  exact absurd (h.no_seat_twice _ (mem_append_right _ mem_cons_self)) (by decide)

end DeterminFlow.Roundtable
