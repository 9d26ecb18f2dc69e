/-
  Roundtable.InterruptedSpeech
  **A SPEECH THAT IS CUT OFF.**

  A speech is a draft of the session while it is streamed and an entry of the
  transcript after it, and a draft that a cancelled meeting leaves behind
  becomes an entry.  Nothing is awaited between the new entry and the end of
  the draft, so no point of a cancellation has both or neither.
-/
import DeterminFlow.Library.Runs
import DeterminFlow.Roundtable.Meeting

namespace DeterminFlow.Roundtable

open Library List Option

structure ActiveTurn where
  seatId : String
  speakerName : String
  content : String := ""
  round : Nat
  deriving DecidableEq

/-- The locals of `_do_speak`; ghost: what the viewers were shown. -/
structure Speech where
  seat : Seat
  fullContent : String := ""
  shown : String := ""
  deriving DecidableEq

/-- Ghost: a speech that is over, and what was left of it. -/
structure Spoken where
  seatId : String
  shown : String
  said : String
  deriving DecidableEq

/-- A running meeting between two suspensions. -/
structure Floor where
  currentRound : Nat := 0
  activeTurn : Option ActiveTurn := none
  transcript : List TranscriptEntry := []
  speaking : Option Speech := none
  past : List Spoken := []
  deriving DecidableEq

/-- Where the meeting can be cancelled, one event after the other. -/
inductive Turn where
  | advance
  /-- An entry that is no speech. -/
  | note (seatId name content : String) (kind : EntryType)
  /-- `begin_active_turn`, and `rt_turn_start`. -/
  | begins (seat : Seat)
  /-- A chunk of the stream, and `rt_token`. -/
  | chunk (content : String)
  /-- The stream ends, or it raises; the entry, and the end of the draft. -/
  | ends (raised : Bool)
  /-- The context or the model of the seat cannot be built. -/
  | breaks
  deriving DecidableEq

def failureNotice (seat : Seat) : String := "[" ++ seat.roleName ++ " 发言异常，请稍后重试]"

/-- `append_active_turn`. -/
def ActiveTurn.append (t : ActiveTurn) (content : String) : ActiveTurn :=
  { t with content := t.content ++ content }

def Floor.step (w : Floor) : Turn → Option Floor
  | .advance => if w.speaking = none then some { w with currentRound := w.currentRound + 1 } else none
  | .note seatId name content kind =>
    if w.speaking = none ∧ kind ≠ .statement then
      some { w with transcript := w.transcript ++ [⟨seatId, name, content, w.currentRound, kind⟩] }
    else none
  | .begins seat =>
    if w.speaking = none then
      some { w with
        activeTurn := some { seatId := seat.seatId, speakerName := seat.roleName, round := w.currentRound }
        speaking := some { seat := seat } }
    else none
  | .chunk content => w.speaking.map fun s =>
    if content = "" then w
    else { w with
      activeTurn := w.activeTurn.map (·.append content)
      speaking := some ⟨s.seat, s.fullContent ++ content, s.shown ++ content⟩ }
  | .ends raised => w.speaking.map fun s =>
    let content := if raised then failureNotice s.seat else s.fullContent
    { w with
      transcript := w.transcript
        ++ [⟨s.seat.seatId, s.seat.roleName, content, w.currentRound, .statement⟩]
      activeTurn := none
      speaking := none
      past := w.past ++ [⟨s.seat.seatId, s.shown, content⟩] }
  | .breaks => w.speaking.bind fun s =>
    if s.shown = "" then
      some { w with speaking := none, past := w.past ++ [⟨s.seat.seatId, "", ""⟩] }
    else none

def Floor.finalizeInterruptedTurn (w : Floor) : Floor :=
  match w.activeTurn with
  | none => w
  | some turn =>
    if turn.content = "" then { w with activeTurn := none }
    else { w with
      activeTurn := none
      transcript := w.transcript ++ [⟨turn.seatId,
        if turn.speakerName = "" then turn.seatId else turn.speakerName, turn.content,
        if turn.round = 0 then w.currentRound else turn.round, .statement⟩] }

/-! ## The transcript and the viewers -/

abbrev Texts := List (String × String)

def statements (transcript : List TranscriptEntry) : Texts :=
  (transcript.filter (·.entryType = .statement)).map fun e => (e.speakerSeatId, e.content)

def Floor.current (w : Floor) : Texts := w.speaking.toList.map fun s => (s.seat.seatId, s.shown)

/-- The speeches as the viewers saw them. -/
def Floor.shownTexts (w : Floor) : Texts := w.past.map (fun p => (p.seatId, p.shown)) ++ w.current

/-- The same, with the notice for each stream that raised. -/
def Floor.saidTexts (w : Floor) : Texts := w.past.map (fun p => (p.seatId, p.said)) ++ w.current

/-- Each speech at most once and in order, and once if it has a text. -/
structure Keeps (entries speeches : Texts) : Prop where
  inOrder : entries <+ speeches
  once : entries.filter (·.2 ≠ "") = speeches.filter (·.2 ≠ "")

lemma Keeps.add {entries speeches : Texts} (h : Keeps entries speeches) (x : String × String) :
    Keeps (entries ++ [x]) (speeches ++ [x]) where
  inOrder := h.inOrder.append (Sublist.refl _)
  once := by rw [filter_append, filter_append, h.once]

lemma Keeps.skip {entries speeches : Texts} (h : Keeps entries speeches) (id : String) :
    Keeps entries (speeches ++ [(id, "")]) where
  inOrder := h.inOrder.trans (sublist_append_left _ _)
  once := by simpa using h.once

/-- **The draft is the speech so far**, and every speech before it is kept. -/
structure Drafted (w : Floor) : Prop where
  kept : Keeps (statements w.transcript) (w.past.map fun p => (p.seatId, p.said))
  draft : ∀ s, w.speaking = some s → s.fullContent = s.shown ∧
    ∃ turn, w.activeTurn = some turn ∧ turn.seatId = s.seat.seatId ∧ turn.content = s.shown
  silent : w.speaking = none → ∀ turn, w.activeTurn = some turn → turn.content = ""

lemma statements_append (before : List TranscriptEntry) (e : TranscriptEntry) :
    statements (before ++ [e]) = statements before
      ++ if e.entryType = .statement then [(e.speakerSeatId, e.content)] else [] := by
  by_cases he : e.entryType = .statement <;> simp [statements, filter_append, he]

lemma Drafted.step {w w' : Floor} {turn : Turn} (h : Drafted w) (hstep : w.step turn = some w') :
    Drafted w' := by
  cases turn with
  | advance =>
    obtain ⟨_, heq⟩ := ite_some_none_eq_some.1 hstep
    exact heq ▸ ⟨h.kept, h.draft, h.silent⟩
  | note seatId name content kind =>
    obtain ⟨hnote, heq⟩ := ite_some_none_eq_some.1 hstep
    refine heq ▸ ⟨?_, h.draft, h.silent⟩
    rw [statements_append, if_neg hnote.2, append_nil]
    exact h.kept
  | begins seat =>
    obtain ⟨-, heq⟩ := ite_some_none_eq_some.1 hstep
    refine heq ▸ ⟨h.kept, fun s hs => ?_, nofun⟩
    obtain rfl := some.inj hs
    exact ⟨rfl, _, rfl, rfl, rfl⟩
  | chunk content =>
    obtain ⟨s, hs, rfl⟩ := map_eq_some_iff.1 hstep
    split
    · exact h
    obtain ⟨hfull, draft, hactive, hseat, htext⟩ := h.draft s hs
    refine ⟨h.kept, fun _ hs' => ?_, nofun⟩
    obtain rfl := some.inj hs'
    exact ⟨congrArg (· ++ content) hfull, draft.append content, by simp [hactive], hseat,
      congrArg (· ++ content) htext⟩
  | ends raised =>
    obtain ⟨s, -, rfl⟩ := map_eq_some_iff.1 hstep
    refine ⟨?_, nofun, nofun⟩
    rw [statements_append, map_append]
    exact h.kept.add _
  | breaks =>
    obtain ⟨s, hs, hrest⟩ := bind_eq_some_iff.1 hstep
    obtain ⟨hshown, heq⟩ := ite_some_none_eq_some.1 hrest
    obtain ⟨-, draft, hactive, -, htext⟩ := h.draft s hs
    refine heq ▸ ⟨?_, nofun, fun _ turn hturn => ?_⟩
    · rw [map_append]
      exact h.kept.skip _
    obtain rfl := some.inj (hactive.symm.trans hturn)
    exact htext.trans hshown

lemma Drafted.finalized {w : Floor} (h : Drafted w) :
    Keeps (statements w.finalizeInterruptedTurn.transcript) w.saidTexts := by
  unfold Floor.finalizeInterruptedTurn Floor.saidTexts Floor.current
  cases hspeaking : w.speaking with
  | none =>
    have hkept := h.kept
    rw [toList_none, map_nil, append_nil]
    cases hactive : w.activeTurn with
    | none => exact hkept
    | some turn =>
      dsimp only
      rw [if_pos (h.silent hspeaking turn hactive)]
      exact hkept
  | some s =>
    obtain ⟨-, turn, hactive, hseat, htext⟩ := h.draft s hspeaking
    rw [hactive, toList_some, map_singleton, ← hseat, ← htext]
    dsimp only
    split
    · rename_i hempty
      rw [hempty]
      exact h.kept.skip _
    rw [statements_append]
    exact h.kept.add _

/-- **A cancelled meeting has every speech once**, in order, as it was shown
or with the notice of a stream that raised. -/
theorem interrupted_keeps (turns : List Turn) {w : Floor}
    (hrun : Runs.run Floor.step {} turns = some w) :
    Keeps (statements w.finalizeInterruptedTurn.transcript) w.saidTexts := by
  have hstart : Drafted {} := ⟨⟨Sublist.refl _, rfl⟩, nofun, nofun⟩
  exact (Runs.invariant (fun _ _ _ h hstep => h.step hstep) hstart hrun).finalized

def firstSeat : Seat := { seatId := "seat-0", roleName := "A", made := 0 }

theorem interrupted_keeps_draft : Keeps [("seat-0", "Hello")] [("seat-0", "Hello")] :=
  interrupted_keeps [.begins firstSeat, .chunk "Hello"] rfl

/-- The text that was shown before the stream raised is not in the
transcript. -/
theorem interrupted_loses_failed : ¬ ∀ turns w, Runs.run Floor.step {} turns = some w →
    Keeps (statements w.finalizeInterruptedTurn.transcript) w.shownTexts := by
  intro h
  have hkeeps := h [.begins firstSeat, .chunk "Hello", .ends true] _ rfl
  exact absurd hkeeps.once (by decide +kernel)

end DeterminFlow.Roundtable
