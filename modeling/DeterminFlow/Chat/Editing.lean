/-
  Chat.Editing
  **EDITING A MESSAGE.**

  An edit cuts both histories: the record before the edited entry, and the
  context before the user message with the same number.  The numbers agree
  only as long as neither history has lost a user message that the other
  has kept.

  The cut is made, and saved, before the model is called.  When the call
  raises, no checkpoint from before the cut is restored.
-/
import DeterminFlow.Chat.TurnOrder

namespace DeterminFlow.Chat

open Context List Option

/-! ## The place of the cut -/

lemma nthIndex_eq_some {α : Type} {p : α → Bool} {n i : Nat} {l : List α} :
    nthIndex p n l = some i ↔
      (∃ a, l[i]? = some a ∧ p a = true) ∧ (l.take i).countP p + 1 = n := by
  induction l generalizing n i with
  | nil => simp [nthIndex]
  | cons a rest ih =>
    unfold nthIndex
    cases i with
    | zero =>
      by_cases ha : p a = true
      · by_cases hn : n = 1
        · simp [ha, hn]
        simp [ha, hn, Ne.symm hn]
      simp [ha]
    | succ i =>
      have hget : (a :: rest)[i + 1]? = rest[i]? := rfl
      rw [hget, take_succ_cons, countP_cons]
      by_cases ha : p a = true
      · by_cases hn : n = 1
        · simp only [ha, hn, if_true]
          simp
        simp only [ha, hn, if_true, if_false, map_eq_some_iff, Nat.add_right_cancel_iff,
          exists_eq_right, ih]
        refine and_congr_right (fun _ => ?_)
        omega
      simp only [ha, if_false, map_eq_some_iff, Nat.add_right_cancel_iff, exists_eq_right,
        ih, Bool.false_eq_true, Nat.add_zero]

variable {floor : Floor} {s : Session}

lemma editPoint_eq_ok {messageId target cut : Nat}
    (h : s.editPoint messageId = .ok (target, cut)) :
    (∃ e, s.record[target]? = some e ∧ e.id = messageId ∧ e.isUser = true) ∧
      (∃ m, s.lcMessages[cut]? = some m ∧ m.role = .human) ∧
      (s.lcMessages.take cut).countP (fun m => m.role = .human)
        = (s.record.take target).countP Entry.isUser := by
  unfold Session.editPoint at h
  split at h
  · cases h
  split at h
  · cases h
  split at h
  · cases h
  split at h
  · cases h
  rename_i found hfound
  dsimp only at h
  split at h
  · cases h
  rename_i place hplace
  have heq := Except.ok.inj h
  obtain rfl : found = target := congrArg Prod.fst heq
  obtain rfl : place = cut := congrArg Prod.snd heq
  -- both searches have hit: the entry is the user's, and the numbers agree
  obtain ⟨hlt, hmatch, -⟩ := findIdx?_eq_some_iff_getElem.1 hfound
  rw [Bool.and_eq_true, decide_eq_true_eq] at hmatch
  have hget : s.record[found]? = some s.record[found] := getElem?_eq_getElem hlt
  obtain ⟨⟨m, hm, hrole⟩, hcount⟩ := nthIndex_eq_some.1 hplace
  rw [take_add_one, hget, toList_some, countP_append,
    countP_singleton, if_pos hmatch.2] at hcount
  exact ⟨⟨_, hget, hmatch⟩, ⟨m, hm, of_decide_eq_true hrole⟩, by omega⟩

/-! ## The context is cut at the edited turn -/

/-- **The cut of an edit is right**: it is made at the user message of the
edited turn, and leaves no message of that turn or of a later one. -/
def Session.CutsOwnTurn (s : Session) (target cut : Nat) : Prop :=
  ∃ e, s.record[target]? = some e ∧
    (∃ m, s.lcMessages[cut]? = some m ∧ m.role = .human ∧ turnOf m = some e.turn) ∧
    ∀ m ∈ (s.truncate target cut).lcMessages, ∀ number, turnOf m = some number → number < e.turn

/-- **The histories are aligned at an entry**: the context still holds the
user message of its turn, and before it as many user messages as the record
holds before the entry. -/
def Session.Aligned (s : Session) (target : Nat) : Prop :=
  ∃ e i m, s.record[target]? = some e ∧ s.lcMessages[i]? = some m ∧ m.role = .human ∧
    turnOf m = some e.turn ∧
    (s.lcMessages.take i).countP (fun m => m.role = .human)
      = (s.record.take target).countP Entry.isUser

lemma truncate_lcMessages (s : Session) (target cut : Nat) :
    (s.truncate target cut).lcMessages = s.lcMessages.take cut := by
  unfold Session.truncate Session.syncContextSnapshot
  rw [if_neg (by decide)]
  split <;> rfl

lemma Sound.before_human {turns cut number : Nat} {messages : List Message} {m m' : Message}
    (h : Sound turns messages) (hm : messages[cut]? = some m) (hrole : m.role = .human)
    (hturn : turnOf m = some number) (hm' : m' ∈ messages.take cut) {k : Nat}
    (hk : turnOf m' = some k) : k < number := by
  have hlt : cut < messages.length := (List.getElem?_eq_some_iff.1 hm).1
  have hget : messages[cut] = m := (List.getElem?_eq_some_iff.1 hm).2
  have hsplit : messages = messages.take cut ++ m :: messages.drop (cut + 1) := by
    rw [← hget, ← drop_eq_getElem_cons hlt, take_append_drop]
  have hmark : turnMark m = some (true, number) := by
    unfold turnMark
    rw [hturn, hrole]
    rfl
  have hmark' : (decide (m'.role = .human), k) ∈ turnMarks (messages.take cut) := by
    refine mem_filterMap.2 ⟨m', hm', ?_⟩
    unfold turnMark
    rw [hk]
    rfl
  have horder := h.order
  rw [hsplit, turnMarks_append, pairwise_append] at horder
  have hmem : (true, number) ∈ turnMarks (m :: messages.drop (cut + 1)) :=
    mem_filterMap.2 ⟨m, mem_cons_self, hmark⟩
  exact horder.2.2 _ hmark' _ hmem rfl

/-- **When an edit cuts the context at the edited turn**, in every reachable
session: exactly when the two histories are aligned there. -/
theorem edit_cut_iff (systemPrompt : String) (main interactive compressor : Bool)
    (steps : List SessionStep) (messageId target cut : Nat)
    (hpoint : (runSession (newSession systemPrompt main interactive compressor) steps).editPoint
      messageId = .ok (target, cut)) :
    (runSession (newSession systemPrompt main interactive compressor) steps).CutsOwnTurn target cut ↔
      (runSession (newSession systemPrompt main interactive compressor) steps).Aligned target := by
  obtain ⟨_, horder⟩ := inOrder_run systemPrompt main interactive compressor steps
  -- from here on only the order of the turns is used
  generalize runSession (newSession systemPrompt main interactive compressor) steps = s at *
  obtain ⟨-, ⟨m, hm, hrole⟩, hcount⟩ := editPoint_eq_ok hpoint
  constructor
  · rintro ⟨e, he, ⟨m, hm, hrole, hturn⟩, -⟩
    exact ⟨e, cut, m, he, hm, hrole, hturn, hcount⟩
  rintro ⟨e, i, m', he, hm', hrole', hturn', hcount'⟩
  -- both places are that of the same number, counted from the beginning
  have hi : nthIndex (fun m : Message => m.role = .human)
      ((s.record.take target).countP Entry.isUser + 1) s.lcMessages = some i :=
    nthIndex_eq_some.2 ⟨⟨m', hm', decide_eq_true hrole'⟩, by rw [hcount']⟩
  have hcut : nthIndex (fun m : Message => m.role = .human)
      ((s.record.take target).countP Entry.isUser + 1) s.lcMessages = some cut :=
    nthIndex_eq_some.2 ⟨⟨m, hm, decide_eq_true hrole⟩, by rw [hcount]⟩
  obtain rfl : i = cut := some.inj (hi.symm.trans hcut)
  refine ⟨e, he, ⟨m', hm', hrole', hturn'⟩, fun _ hearlier _ hnumber => ?_⟩
  rw [truncate_lcMessages] at hearlier
  exact horder.lc.before_human hm' hrole' hturn' hearlier hnumber

def answered (question answer : String) : Turn where
  content := question
  course := .streamed
    [.modelEnd (.text answer) [], .rootEnd [.assistant (.text answer) []]] .done

def abortedTurn (question answer : String) : Turn where
  content := question
  course := .streamed [.modelEnd (.text answer) []] .aborted

/-- In a session of completed turns, the second message is cut where it is. -/
theorem edit_cut_two : (runSession (newSession "prompt" true true false)
      [.send (answered "a" "1"), .send (answered "b" "2")]).CutsOwnTurn 2 3 := by
  have hpoint : (runSession (newSession "prompt" true true false)
      [.send (answered "a" "1"), .send (answered "b" "2")]).editPoint 3 = .ok (2, 3) := by
    decide +kernel
  refine (edit_cut_iff "prompt" true true false _ 3 2 3 hpoint).2
    ⟨{ id := 3, type := .user, content := "b", turn := 2 }, 3,
      { role := .human, content := .text "b", origin := .turn 2 }, ?_⟩
  decide +kernel

def abortedFirst : Session :=
  runSession (newSession "prompt" true true false)
    [.send (abortedTurn "a" "1"), .send (answered "b" "2"), .send (answered "c" "3")]

/-- **The edited message stays in the context**: after an aborted turn, an
edit of the second message cuts at the third. -/
theorem abortedFirst_keeps_edited :
    abortedFirst.editPoint 3 = .ok (2, 3) ∧ ¬ abortedFirst.CutsOwnTurn 2 3 ∧
      ({ role := .human, content := .text "b", origin := .turn 2 } : Message) ∈
        (abortedFirst.truncate 2 3).lcMessages := by
  refine ⟨by decide +kernel, ?_, by decide +kernel⟩
  rintro ⟨_, he, -, hbefore⟩
  have hentry : abortedFirst.record[2]? =
      some { id := 3, type := .user, content := "b", turn := 2 } := by decide +kernel
  obtain rfl := some.inj (hentry.symm.trans he)
  have hlt := hbefore { role := .human, content := .text "b", origin := .turn 2 }
    (by decide +kernel) 2 rfl
  exact absurd hlt (by decide)

/-! ## A failed edit -/

/-- **The histories are as they were.** -/
def SameHistories (s s' : Session) : Prop :=
  s'.record = s.record ∧ s'.lcMessages = s.lcMessages ∧ s'.context = s.context

lemma Session.InOrder.record_ne {target : Nat} {s' : Session} (h : s.InOrder floor) {e : Entry}
    (he : s.record[target]? = some e) (h' : s'.InOrder { target :=target, counter := s.msgCounter, turns := s.turns }) :
    s'.record ≠ s.record := by
  intro heq
  have hmem : e ∈ s'.record.drop target := by
    rw [heq]
    refine mem_of_getElem? (i := 0) ?_
    rw [getElem?_drop]
    exact he
  have hfresh : s.msgCounter < e.id := h'.fresh e hmem
  have hold : e.id ≤ s.msgCounter := h.ids e (mem_of_getElem? he)
  omega

/-- **When an edit that ends with an exception has lost nothing**, in every
reachable session: when it is cancelled; with any other exception exactly
when it raises before the cut, not having found the place. -/
theorem edit_raised_iff (systemPrompt : String) (main interactive compressor : Bool)
    (steps : List SessionStep) (messageId : Nat) (t : Turn) :
    (((runSession (newSession systemPrompt main interactive compressor) steps).editMessageAndResend
        messageId t).1 = .cancelled →
      SameHistories (runSession (newSession systemPrompt main interactive compressor) steps)
        ((runSession (newSession systemPrompt main interactive compressor) steps).editMessageAndResend
          messageId t).2) ∧
    (((runSession (newSession systemPrompt main interactive compressor) steps).editMessageAndResend
        messageId t).1 = .raised →
      (SameHistories (runSession (newSession systemPrompt main interactive compressor) steps)
        ((runSession (newSession systemPrompt main interactive compressor) steps).editMessageAndResend
          messageId t).2 ↔
        ∃ error, (runSession (newSession systemPrompt main interactive compressor) steps).editPoint
          messageId = .error error)) := by
  obtain ⟨_, horder⟩ := inOrder_run systemPrompt main interactive compressor steps
  generalize runSession (newSession systemPrompt main interactive compressor) steps = s at *
  unfold Session.editMessageAndResend
  cases hpoint : s.editPoint messageId with
  | error error =>
    exact ⟨fun h => (nomatch h), fun _ => ⟨fun _ => ⟨error, rfl⟩, fun _ => ⟨rfl, rfl, rfl⟩⟩⟩
  | ok place =>
    obtain ⟨target, cut⟩ := place
    obtain ⟨⟨_, he, -, -⟩, -, -⟩ := editPoint_eq_ok hpoint
    have hbody := (horder.truncate target cut).invokeGraph t
    dsimp only
    generalize (s.truncate target cut).invokeGraph t = result at *
    obtain ⟨outcome, _⟩ := result
    refine ⟨fun hcancelled => ?_, fun hraised => ⟨fun hsame => ?_, fun herror => ?_⟩⟩
    · cases outcome with
      | cancelled => exact ⟨rfl, rfl, rfl⟩
      | _ => cases hcancelled
    · cases outcome with
      | raised => exact absurd hsame.1 (horder.record_ne he hbody)
      | _ => cases hraised
    -- the place was found, so no error was raised before the cut
    obtain ⟨_, herror⟩ := herror
    cases herror

def failedTurn (question : String) : Turn where
  content := question
  course := .streamed [] .failed

def twoAnswered : Session :=
  runSession (newSession "prompt" true true false)
    [.send (answered "a" "1"), .send (answered "b" "2")]

/-- **A failed edit loses what it edits**: an interactive main session goes
back to its checkpoint, but that is from after the cut. -/
theorem failed_edit_loses : (twoAnswered.editMessageAndResend 1 (failedTurn "c")).1 = .raised ∧
      (twoAnswered.editMessageAndResend 1 (failedTurn "c")).2.record = [] ∧
      ¬ SameHistories twoAnswered (twoAnswered.editMessageAndResend 1 (failedTurn "c")).2 := by
  have hrecord : (twoAnswered.editMessageAndResend 1 (failedTurn "c")).2.record = [] := by
    decide +kernel
  refine ⟨by decide +kernel, hrecord, fun hsame => ?_⟩
  have hempty : twoAnswered.record = [] := hsame.1.symm.trans hrecord
  exact absurd hempty (by decide +kernel)

end DeterminFlow.Chat
