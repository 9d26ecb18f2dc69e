/-
  Chat.RoundDiscard
  **DISCARDING THE OLDEST ROUND.**

  When the provider finds a request too long, `discard_oldest_round` cuts it to
  its system messages, the latest checkpoint and what follows, and takes away
  one round there: a user message, and the assistant and tool messages behind
  it.  A round is found by roles alone.  The turn that is still going on looks
  like a round as soon as the model has called a tool in it.
-/
import DeterminFlow.Chat.HardTrim

namespace DeterminFlow.Chat

open Library Context List Option

/-! ## Rounds and the question -/

def rounds : List Message → Nat
  | [] => 0
  | m :: rest => (if m.role = .human ∧ answeredLater rest = true then 1 else 0) + rounds rest

def lastTurn : List Message → List Message
  | [] => []
  | m :: rest =>
    if rest.any (·.role = .human) then lastTurn rest
    else if m.role = .human then m :: rest else []

def conversation (messages : List Message) : List Message := messages.filter (·.role ≠ .system)

def question (messages : List Message) : List Message := lastTurn (conversation messages)

/-- A user message and what follows it, with an answer and up to the next one. -/
structure Round (round : List Message) : Prop where
  parts : ∃ m answer, round = m :: answer ∧ m.role = .human
    ∧ (∀ a ∈ answer, a.role ≠ .human) ∧ ∃ a ∈ answer, a.role = .ai

variable {messages rest back earlier front body : List Message} {m : Message} {l : List Message}

lemma any_human : l.any (·.role = .human) = true ↔ ∃ m ∈ l, m.role = .human := by
  simp

lemma answeredLater_append_human (l : List Message) (hm : m.role = .human) :
    answeredLater (l ++ m :: rest) = answeredLater l := by
  induction l with
  | nil =>
    show answeredLater (m :: rest) = false
    unfold answeredLater
    rw [if_neg (by rw [hm]; decide), if_pos hm]
  | cons a l ih =>
    rw [cons_append]
    unfold answeredLater
    rw [ih]

lemma rounds_append_human (l : List Message) (hm : m.role = .human) :
    rounds (l ++ m :: rest) = rounds l + rounds (m :: rest) := by
  induction l with
  | nil => exact (Nat.zero_add _).symm
  | cons a l ih =>
    have hl : rounds (a :: l)
        = (if a.role = .human ∧ answeredLater l = true then 1 else 0) + rounds l := rfl
    rw [cons_append, rounds, ih, answeredLater_append_human l hm, hl, Nat.add_assoc]

def BeginsHuman (messages : List Message) : Prop := ∀ m ∈ messages.head?, m.role = .human

lemma rounds_append (l : List Message) (hback : BeginsHuman back) :
    rounds (l ++ back) = rounds l + rounds back := by
  cases back with
  | nil => rw [append_nil]; rfl
  | cons m => exact rounds_append_human l (hback m rfl)

lemma rounds_eq_zero (h : ∀ m ∈ l, m.role ≠ .human) (back : List Message) :
    rounds (l ++ back) = rounds back := by
  induction l with
  | nil => rfl
  | cons a l ih =>
    rw [cons_append, rounds, if_neg (fun hand => h a mem_cons_self hand.1), Nat.zero_add]
    exact ih (fun x hx => h x (mem_cons_of_mem a hx))

lemma rounds_round {round : List Message} (h : Round round) (back : List Message) :
    rounds (round ++ back) = 1 + rounds back := by
  obtain ⟨_, answer, rfl, hm, hanswer, a, ha, hai⟩ := h.parts
  have hanswered : ∀ answer : List Message, (∀ a ∈ answer, a.role ≠ .human) → a ∈ answer →
      answeredLater (answer ++ back) = true := by
    intro answer hnone hmem
    induction answer with
    | nil => cases hmem
    | cons x answer ih =>
      rw [cons_append]
      unfold answeredLater
      by_cases hx : x.role = .ai
      · rw [if_pos hx]
      rw [if_neg hx, if_neg (hnone x mem_cons_self)]
      refine ih (fun y hy => hnone y (mem_cons_of_mem x hy)) ?_
      rcases mem_cons.1 hmem with heq | hmem
      · rw [← heq] at hx
        exact absurd hai hx
      exact hmem
  rw [cons_append, rounds, if_pos ⟨hm, hanswered answer hanswer ha⟩, rounds_eq_zero hanswer]

lemma rounds_conversation (messages : List Message) : rounds (conversation messages) = rounds messages := by
  have hanswered : ∀ l : List Message, answeredLater (conversation l) = answeredLater l := by
    intro l
    induction l with
    | nil => rfl
    | cons m l ih =>
      unfold conversation at ih ⊢
      rw [filter_cons]
      by_cases hsystem : m.role = .system
      · rw [if_neg (by simpa using hsystem), ih]
        conv_rhs => unfold answeredLater
        rw [if_neg (by rw [hsystem]; decide), if_neg (by rw [hsystem]; decide)]
      rw [if_pos (by simpa using hsystem)]
      unfold answeredLater
      rw [ih]
  induction messages with
  | nil => rfl
  | cons m rest ih =>
    by_cases hsystem : m.role = .system
    · have hskip : conversation (m :: rest) = conversation rest :=
        filter_cons_of_neg (by simpa using hsystem)
      rw [hskip, ih, rounds, if_neg (fun hand => by rw [hsystem] at hand; exact nomatch hand.1), Nat.zero_add]
    have hkeep : conversation (m :: rest) = m :: conversation rest :=
      filter_cons_of_pos (by simpa using hsystem)
    rw [hkeep, rounds, rounds, ih, hanswered]

lemma rounds_suffix {l' : List Message} (h : l <:+ l') : rounds l ≤ rounds l' := by
  obtain ⟨pre, rfl⟩ := h
  induction pre with
  | nil => exact le_rfl
  | cons =>
    rw [cons_append, rounds]
    omega

/-! ## The last turn -/

lemma lastTurn_append_of_human (l : List Message) (h : ∃ m ∈ back, m.role = .human) :
    lastTurn (l ++ back) = lastTurn back := by
  induction l with
  | nil => rfl
  | cons a l ih =>
    obtain ⟨m, hm, hrole⟩ := h
    rw [cons_append, lastTurn, if_pos (any_human.2 ⟨m, mem_append_right l hm, hrole⟩), ih]

lemma lastTurn_eq_nil (h : ∀ m ∈ l, m.role ≠ .human) : lastTurn l = [] := by
  induction l with
  | nil => rfl
  | cons a l =>
    have hl : ¬ l.any (·.role = .human) = true := fun hany => by
      obtain ⟨m, hm, hrole⟩ := any_human.1 hany
      exact h m (mem_cons_of_mem a hm) hrole
    rw [lastTurn, if_neg hl, if_neg (h a mem_cons_self)]

lemma lastTurn_of_human {answer : List Message} (hm : m.role = .human)
    (h : ∀ a ∈ answer, a.role ≠ .human) : lastTurn (m :: answer) = m :: answer := by
  have hanswer : ¬ answer.any (·.role = .human) = true := fun hany => by
    obtain ⟨a, ha, hrole⟩ := any_human.1 hany
    exact h a ha hrole
  rw [lastTurn, if_neg hanswer, if_pos hm]

lemma lastTurn_append (h : ∀ m ∈ l, m.role ≠ .human) (back : List Message) :
    lastTurn (l ++ back) = lastTurn back := by
  by_cases hback : ∃ m ∈ back, m.role = .human
  · exact lastTurn_append_of_human l hback
  have hnone : ∀ m ∈ back, m.role ≠ .human := fun m hm hrole => hback ⟨m, hm, hrole⟩
  rw [lastTurn_eq_nil hnone, lastTurn_eq_nil]
  intro m hm
  rcases mem_append.1 hm with hm | hm
  · exact h m hm
  exact hnone m hm

lemma mem_lastTurn {tail : List Message} (h : ∃ m ∈ l, m.role = .human)
    (htail : ∀ a ∈ tail, a.role ≠ .human) : ∀ a ∈ tail, a ∈ lastTurn (l ++ tail) := by
  intro a ha
  induction l with
  | nil =>
    obtain ⟨m, hm, -⟩ := h
    cases hm
  | cons x l ih =>
    rw [cons_append, lastTurn]
    by_cases hl : ∃ m ∈ l, m.role = .human
    · obtain ⟨m, hm, hrole⟩ := hl
      rw [if_pos (any_human.2 ⟨m, mem_append_left tail hm, hrole⟩)]
      exact ih ⟨m, hm, hrole⟩
    have hnone : ¬ (l ++ tail).any (·.role = .human) = true := fun hany => by
      obtain ⟨m, hm, hrole⟩ := any_human.1 hany
      rcases mem_append.1 hm with hm | hm
      · exact hl ⟨m, hm, hrole⟩
      exact htail m hm hrole
    obtain ⟨m, hm, hrole⟩ := h
    have hx : x.role = .human := by
      rcases mem_cons.1 hm with rfl | hm
      · exact hrole
      exact absurd ⟨m, hm, hrole⟩ hl
    rw [if_neg hnone, if_pos hx]
    exact mem_cons_of_mem x (mem_append_right l ha)

lemma lastTurn_cases (l : List Message) : lastTurn l = [] ∨
    ∃ m answer, lastTurn l = m :: answer ∧ m.role = .human ∧ ∀ a ∈ answer, a.role ≠ .human := by
  induction l with
  | nil => exact .inl rfl
  | cons m rest ih =>
    rw [lastTurn]
    by_cases hrest : rest.any (·.role = .human) = true
    · rw [if_pos hrest]
      exact ih
    rw [if_neg hrest]
    by_cases hm : m.role = .human
    · rw [if_pos hm]
      exact .inr ⟨m, rest, rfl, hm, fun a ha hrole => hrest (any_human.2 ⟨a, ha, hrole⟩)⟩
    rw [if_neg hm]
    exact .inl rfl

lemma lastTurn_suffix (l : List Message) : lastTurn l <:+ l := by
  induction l with
  | nil => exact suffix_rfl
  | cons m rest ih =>
    rw [lastTurn]
    split
    · exact ih.trans (suffix_cons m rest)
    split
    · exact suffix_rfl
    exact nil_suffix

/-! ## What a discard leaves alone -/

/-- What stands before the messages that may go: the system messages, and the
checkpoint behind them. -/
inductive Front : List Message → Prop where
  | prompt {systems : List Message} : (∀ m ∈ systems, m.role = .system) → Front systems
  | checkpoint {systems : List Message} {m : Message} : (∀ m ∈ systems, m.role = .system) →
      isCheckpoint m = true → Front (systems ++ [m])

/-- A list that has been cut to its checkpoint. -/
structure Parted (front body messages : List Message) : Prop where
  parts : messages = front ++ body
  front : Front front
  body : ∀ m ∈ body, m.role ≠ .system ∧ isCheckpoint m = false

lemma latest_none (h : ∀ m ∈ messages, isCheckpoint m = false) :
    findLatestCheckpointIndex messages = none := by
  refine scanDown_eq_none.2 (fun _ _ hj => ?_)
  rw [getElem?_eq_getElem hj, any_some]
  exact h _ (getElem_mem hj)

lemma latest_some {before after : List Message} (hm : isCheckpoint m = true)
    (hafter : ∀ m ∈ after, isCheckpoint m = false) :
    findLatestCheckpointIndex (before ++ m :: after) = some before.length := by
  refine scanDown_eq_some.2 ⟨⟨Nat.zero_le _, by simp, by simpa using hm⟩, fun j _ hlt => ?_⟩
  rw [getElem?_append_right (by omega), getElem?_eq_getElem (by simp at hlt ⊢; omega),
    any_some]
  have hmem : (m :: after).get ⟨j - before.length, by simp at hlt ⊢; omega⟩ ∈ after := by
    obtain ⟨k, hk⟩ : ∃ k, j - before.length = k + 1 := ⟨j - before.length - 1, by omega⟩
    simp only [hk]
    exact getElem_mem _
  exact hafter _ hmem

lemma not_checkpoint_of_role (h : m.role ≠ .ai) : isCheckpoint m = false := by
  cases hcheck : isCheckpoint m with
  | false => rfl
  | true => exact absurd (isCheckpoint_role hcheck) h

lemma system_of_front (h : Front front) (hm : m ∈ front) :
    m.role = .system ∨ isCheckpoint m = true := by
  cases h with
  | prompt hsystems => exact .inl (hsystems m hm)
  | checkpoint hsystems hcheck =>
    rcases mem_append.1 hm with hm | hm
    · exact .inl (hsystems m hm)
    rw [mem_singleton.1 hm]
    exact .inr hcheck

lemma front_not_human (h : Front front) (hm : m ∈ front) : m.role ≠ .human := by
  rcases system_of_front h hm with hrole | hcheck
  · rw [hrole]
    decide
  rw [isCheckpoint_role hcheck]
  decide

lemma systems_filter {systems : List Message} (h : ∀ m ∈ systems, m.role = .system) :
    systems.filter (·.role = .system) = systems ∧ conversation systems = [] :=
  ⟨filter_eq_self.2 (fun m hm => decide_eq_true (h m hm)),
    filter_eq_nil_iff.2 (fun m hm => by simp [h m hm])⟩

lemma Parted.conversation_body (h : Parted front body messages) : conversation body = body :=
  filter_eq_self.2 (fun m hm => decide_eq_true (h.body m hm).1)

lemma Parted.systems_body (h : Parted front body messages) : body.filter (·.role = .system) = [] :=
  filter_eq_nil_iff.2 (fun m hm => by simpa using (h.body m hm).1)

lemma Parted.fromCheckpoint (h : Parted front body messages) : fromCheckpoint messages = messages := by
  obtain ⟨rfl, hfront, hbody⟩ := h
  unfold Context.fromCheckpoint
  cases hfront with
  | prompt hsystems =>
    rw [latest_none]
    intro m hm
    rcases mem_append.1 hm with hm | hm
    · exact not_checkpoint_of_role (by rw [hsystems m hm]; decide)
    exact (hbody m hm).2
  | @checkpoint systems c hsystems hcheck =>
    rw [append_assoc, singleton_append, latest_some hcheck (fun m hm => (hbody m hm).2)]
    have hc : ¬ c.role = .system := by
      rw [isCheckpoint_role hcheck]
      decide
    have hsystem : (c :: body).filter (·.role = .system) = [] := by
      refine filter_eq_nil_iff.2 (fun m hm => ?_)
      rcases mem_cons.1 hm with rfl | hm
      · simpa using hc
      simpa using (hbody m hm).1
    have hdrop : (systems ++ c :: body).drop (systems.length + 1) = body := by
      rw [← drop_drop, drop_left]
      rfl
    simp only [filter_append, (systems_filter hsystems).1, hsystem, append_nil, hdrop]
    rw [getElem?_append_right le_rfl, Nat.sub_self, getElem?_cons_zero,
      toList_some, filter_eq_self.2 (fun m hm => decide_eq_true (hbody m hm).1),
      append_assoc]
    rfl

lemma Parted.protectedPrefixEnd (h : Parted front body messages) :
    protectedPrefixEnd messages = front.length := by
  obtain ⟨rfl, hfront, hbody⟩ := h
  unfold Context.protectedPrefixEnd
  cases hfront with
  | prompt hsystems =>
    rw [latest_none]
    · show ((front ++ body).takeWhile _).length = _
      rw [takeWhile_append_of_pos (fun m hm => decide_eq_true (hsystems m hm))]
      cases body with
      | nil => simp
      | cons m => rw [takeWhile_cons_of_neg (by simpa using (hbody m mem_cons_self).1), append_nil]
    intro m hm
    rcases mem_append.1 hm with hm | hm
    · exact not_checkpoint_of_role (by rw [hsystems m hm]; decide)
    exact (hbody m hm).2
  | @checkpoint systems c hsystems hcheck =>
    rw [append_assoc, singleton_append, latest_some hcheck (fun m hm => (hbody m hm).2),
      length_append, length_singleton]

/-! ## One discard -/

lemma roundLength_spec (h : answeredLater l = true) :
    ∃ answer back, l = answer ++ back ∧ roundLength l = answer.length
      ∧ (∀ a ∈ answer, a.role ≠ .human) ∧ (∃ a ∈ answer, a.role = .ai)
      ∧ ∀ m ∈ back.head?, m.role ≠ .tool ∧ m.role ≠ .ai := by
  induction l with
  | nil => cases h
  | cons m rest ih =>
    unfold answeredLater at h
    unfold roundLength
    by_cases hai : m.role = .ai
    · rw [if_pos hai]
      refine ⟨m :: rest.takeWhile (fun m => m.role = .tool ∨ m.role = .ai),
        rest.dropWhile (fun m => m.role = .tool ∨ m.role = .ai), ?_, ?_, ?_,
        ⟨m, mem_cons_self, hai⟩, ?_⟩
      · rw [cons_append, takeWhile_append_dropWhile]
      · rw [length_cons, Nat.add_comm]
      · intro a ha
        rcases mem_cons.1 ha with rfl | ha
        · rw [hai]
          decide
        have hrole := mem_takeWhile_imp ha
        rcases of_decide_eq_true hrole with hrole | hrole
        all_goals
          rw [hrole]
          decide
      intro a ha
      have hhead := head?_dropWhile_not (fun m : Message => decide (m.role = .tool ∨ m.role = .ai)) rest
      rw [mem_def.1 ha] at hhead
      simpa using hhead
    rw [if_neg hai] at h ⊢
    by_cases hhuman : m.role = .human
    · rw [if_pos hhuman] at h
      cases h
    rw [if_neg hhuman] at h
    obtain ⟨answer, back, rfl, hlength, hanswer, ⟨a, ha, harole⟩, hback⟩ := ih h
    refine ⟨m :: answer, back, rfl, ?_, ?_, ⟨a, mem_cons_of_mem m ha, harole⟩, hback⟩
    · rw [hlength, length_cons, Nat.add_comm]
    intro x hx
    rcases mem_cons.1 hx with rfl | hx
    · exact hhuman
    exact hanswer x hx

lemma findOldestRoundStart_some {start i : Nat} (h : findOldestRoundStart messages start = some i) :
    start ≤ i ∧ ∃ m rest, messages = messages.take i ++ m :: rest ∧ messages.drop (i + 1) = rest
      ∧ i < messages.length ∧ m.role = .human ∧ answeredLater rest = true := by
  have hmem := mem_of_find?_eq_some h
  have hfound := find?_some h
  rw [mem_filter, mem_range] at hmem
  rw [Bool.and_eq_true] at hfound
  have hrole := hfound.1
  unfold hasRole at hrole
  rw [getElem?_eq_getElem hmem.1] at hrole
  refine ⟨of_decide_eq_true hmem.2, messages[i], messages.drop (i + 1), ?_, rfl, hmem.1,
    by simpa using hrole, hfound.2⟩
  rw [← drop_eq_getElem_cons hmem.1, take_append_drop]

lemma findOldestRoundStart_none {start : Nat} (h : findOldestRoundStart messages start = none) :
    rounds (messages.drop start) = 0 := by
  have hnone : ∀ i, start ≤ i → ∀ m, messages[i]? = some m → ¬ (m.role = .human
      ∧ answeredLater (messages.drop (i + 1)) = true) := by
    intro i hi m hm hand
    have hlt := (List.getElem?_eq_some_iff.1 hm).1
    refine find?_eq_none.1 h i (mem_filter.2 ⟨mem_range.2 hlt, decide_eq_true hi⟩) ?_
    unfold hasRole
    rw [hm, hand.2]
    simpa using hand.1
  have hsuffix : ∀ k, start ≤ messages.length - k → rounds (messages.drop (messages.length - k)) = 0 := by
    intro k
    induction k with
    | zero =>
      intro _
      rw [Nat.sub_zero, drop_length]
      rfl
    | succ k ih =>
      intro hstart
      by_cases hk : k < messages.length
      · have hlt : messages.length - (k + 1) < messages.length := by omega
        rw [drop_eq_getElem_cons hlt, rounds,
          if_neg (hnone _ hstart _ (getElem?_eq_getElem hlt)), Nat.zero_add,
          show messages.length - (k + 1) + 1 = messages.length - k by omega]
        exact ih (by omega)
      rw [show messages.length - (k + 1) = messages.length - k by omega]
      exact ih (by omega)
  by_cases hle : start ≤ messages.length
  · have := hsuffix (messages.length - start) (by omega)
    rwa [show messages.length - (messages.length - start) = start by omega] at this
  rw [drop_of_length_le (by omega)]
  rfl

lemma Parted.discard (h : Parted front body messages) :
    (discardOldestRound messages = messages ∧ rounds body = 0)
      ∨ ∃ earlier round back, body = earlier ++ (round ++ back) ∧ Round round ∧ BeginsHuman back
        ∧ discardOldestRound messages = front ++ (earlier ++ back) := by
  unfold discardOldestRound
  simp only [h.fromCheckpoint, h.protectedPrefixEnd]
  cases hfound : findOldestRoundStart messages front.length with
  | none =>
    have hzero := findOldestRoundStart_none hfound
    rw [h.parts, drop_left] at hzero
    exact .inl ⟨rfl, hzero⟩
  | some i =>
    obtain ⟨hle, m, _, hparts, hdrop, _, hm, hanswered⟩ := findOldestRoundStart_some hfound
    obtain ⟨answer, back, rfl, hlength, hanswer, hai, hback⟩ := roundLength_spec hanswered
    have htake : messages.take i = front ++ body.take (i - front.length) := by
      rw [h.parts, take_append]
      rw [take_of_length_le hle]
    have hbody : body = body.take (i - front.length) ++ (m :: answer ++ back) := by
      have hwhole : front ++ body = front ++ (body.take (i - front.length) ++ (m :: answer ++ back)) := by
        rw [← h.parts, ← append_assoc, ← htake]
        exact hparts
      exact append_cancel_left hwhole
    refine .inr ⟨body.take (i - front.length), m :: answer, back, hbody, ⟨m, answer, rfl, hm, hanswer, hai⟩,
      fun b hb => ?_, ?_⟩
    · have hmem : b ∈ body := by
        rw [hbody]
        exact mem_append_right _ (mem_append_right _ (mem_of_mem_head? hb))
      have hrole := (h.body b hmem).1
      have hnot := hback b hb
      cases hb' : b.role with
      | system => exact absurd hb' hrole
      | human => rfl
      | ai => exact absurd hb' hnot.2
      | tool => exact absurd hb' hnot.1
    show messages.take i ++ messages.drop (i + 1 + roundLength (messages.drop (i + 1))) = _
    rw [hdrop, hlength, ← drop_drop, hdrop, drop_left, htake, append_assoc]

/-! ## Discard after discard -/

lemma Parted.after (h : Parted front body messages) {round : List Message}
    (hbody : body = earlier ++ (round ++ back)) :
    Parted front (earlier ++ back) (front ++ (earlier ++ back)) where
  parts := rfl
  front := h.front
  body m hm := h.body m (by
    rw [hbody]
    rcases mem_append.1 hm with hm | hm
    · exact mem_append_left _ hm
    exact mem_append_right _ (mem_append_right _ hm))

lemma rounds_after {round : List Message} (hround : Round round) (hback : BeginsHuman back) :
    rounds (earlier ++ (round ++ back)) = rounds (earlier ++ back) + 1 := by
  have hbegins : BeginsHuman (round ++ back) := by
    obtain ⟨_, _, rfl, hm, -, -⟩ := hround.parts
    intro _ hb
    rw [← some.inj hb]
    exact hm
  have hone := rounds_round hround back
  rw [rounds_append _ hbegins, hone, rounds_append earlier hback]
  omega

lemma Parted.fixpoint (n : Nat) (h : Parted front body messages) (hn : rounds body ≤ n) :
    discardOldestRound (discardOldestRound^[n] messages) = discardOldestRound^[n] messages := by
  induction n generalizing body messages with
  | zero =>
    rcases h.discard with ⟨hsame, -⟩ | ⟨earlier, round, back, hbody, hround, hback, -⟩
    · exact hsame
    rw [hbody, rounds_after hround hback] at hn
    omega
  | succ n ih =>
    rcases h.discard with ⟨hsame, -⟩ | ⟨earlier, round, back, hbody, hround, hback, hnext⟩
    · rw [Function.iterate_fixed hsame, hsame]
    rw [Function.iterate_succ_apply, hnext]
    refine ih (h.after hbody) ?_
    rw [hbody, rounds_after hround hback] at hn
    omega

lemma Parted.question_eq (h : Parted front body messages) : question messages = lastTurn body := by
  unfold question
  have hfront : ∀ m ∈ conversation front, m.role ≠ .human := fun m hm =>
    front_not_human h.front (mem_of_mem_filter hm)
  have hsplit : conversation messages = conversation front ++ body := by
    rw [h.parts]
    exact (filter_append front body).trans (congrArg _ h.conversation_body)
  rw [hsplit, lastTurn_append hfront]

lemma Parted.question (h : Parted front body messages)
    (hopen : ∀ m ∈ question messages, m.role ≠ .ai) :
    Chat.question (discardOldestRound messages) = Chat.question messages := by
  rcases h.discard with ⟨hsame, -⟩ | ⟨_, _, back, hbody, hround, hback, hnext⟩
  · rw [hsame]
  rw [hnext, (h.after hbody).question_eq]
  rw [h.question_eq] at hopen ⊢
  cases back with
  | cons b rest =>
    have hhuman : ∃ m ∈ b :: rest, m.role = .human := ⟨b, mem_cons_self, hback b rfl⟩
    rw [hbody, lastTurn_append_of_human _ hhuman, ← append_assoc, lastTurn_append_of_human _ hhuman]
  | nil =>
    -- the round is the last turn, and has an answer
    obtain ⟨m, answer, rfl, hm, hanswer, a, ha, hai⟩ := hround.parts
    have hlast : lastTurn body = m :: answer := by
      rw [hbody, append_nil, lastTurn_append_of_human _ ⟨m, mem_cons_self, hm⟩,
        lastTurn_of_human hm hanswer]
    rw [hlast] at hopen
    exact absurd hai (hopen a (mem_cons_of_mem m ha))

lemma Parted.question_of_fixed (h : Parted front body messages)
    (hfixed : discardOldestRound messages = messages) : ∀ m ∈ Chat.question messages, m.role ≠ .ai := by
  have hzero : rounds body = 0 := by
    rcases h.discard with ⟨-, hzero⟩ | ⟨_, _, _, hbody, hround, _, hnext⟩
    · exact hzero
    have hsame := hnext.symm.trans (hfixed.trans h.parts)
    have hlength := congrArg List.length (append_cancel_left hsame)
    obtain ⟨m, answer, rfl, -, -, -⟩ := hround.parts
    rw [hbody] at hlength
    simp at hlength
    omega
  rw [h.question_eq]
  intro a ha hai
  have hsuffix := lastTurn_suffix body
  rcases lastTurn_cases body with hnil | ⟨m, answer, hlast, hm, hanswer⟩
  · rw [hnil] at ha
    cases ha
  rw [hlast] at ha hsuffix
  rcases mem_cons.1 ha with rfl | ha
  · rw [hm] at hai
    cases hai
  have hone := rounds_round ⟨m, answer, rfl, hm, hanswer, a, ha, hai⟩ []
  have hle := rounds_suffix hsuffix
  rw [append_nil] at hone
  omega

end DeterminFlow.Chat
