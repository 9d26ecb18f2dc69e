/-
  Chat.Inbox
  **THE ORDER IN WHICH A SESSION PROCESSES ITS INBOX.**

  The inbox is an `asyncio.PriorityQueue`, a binary heap over messages of
  which only the priority is compared.  The smallest priority comes first.
  Messages of one priority come in the order of their arrival only as long as
  the shape of the heap agrees with it: the heap prefers the right one of two
  equal children, and a message that a more urgent one pushes down can land
  beside a later one of its own priority.
-/
import DeterminFlow.Library.BinaryHeap
import DeterminFlow.Library.Runs

namespace DeterminFlow.Inbox

open Library List Option BinaryHeap

/-! ## The inbox -/

structure SessionMessage where
  /-- The smaller, the more urgent: 0 a person, 1 an agent, 2 the system. -/
  priority : Int
  content : String
  source : String := "human"
  sourceName : String := ""
  maxRounds : Option Nat := none
  deriving DecidableEq

/-- A message in the inbox; ghost: how many were enqueued before it. -/
structure Queued where
  message : SessionMessage
  number : Nat
  deriving DecidableEq

/-- `SessionMessage.__lt__`: only the priority takes part. -/
def before (a b : Queued) : Bool := a.message.priority < b.message.priority

/-- The inbox of a session; ghost: what is enqueued and not yet taken, and
every message that was taken with what was waiting then. -/
structure Queue where
  heap : List Queued := []
  calls : Nat := 0
  waiting : List Queued := []
  processed : List (Queued × List Queued) := []
  deriving DecidableEq

inductive Event where
  /-- `enqueue`; an unbounded queue does not make its caller wait. -/
  | enqueue (message : SessionMessage)
  /-- `_consume_loop` takes a message, which it processes before it takes the
  next one. -/
  | take
  deriving DecidableEq

/-- One event; `none` when the inbox is empty and the consumer waits. -/
def step (s : Queue) : Event → Option Queue
  | .enqueue message =>
    let queued := { message := message, number := s.calls }
    some { s with
      heap := BinaryHeap.push before s.heap queued
      calls := s.calls + 1
      waiting := s.waiting ++ [queued] }
  | .take =>
    match BinaryHeap.pop before s.heap with
    | none => none
    | some (taken, rest) =>
      some { s with
        heap := rest
        waiting := s.waiting.erase taken
        processed := s.processed ++ [(taken, s.waiting)] }

/-! ## The property and the condition -/

/-- `a` is more urgent than `b`, or as urgent and not later. -/
def Precedes (a b : Queued) : Prop :=
  a.message.priority < b.message.priority ∨
    a.message.priority = b.message.priority ∧ a.number ≤ b.number

/-- **Every message was the first of those waiting when it was taken.** -/
def Queue.InOrder (s : Queue) : Prop :=
  ∀ entry ∈ s.processed, entry.1 ∈ entry.2 ∧ ∀ other ∈ entry.2, Precedes entry.1 other

def Aged (heap : List Queued) : Prop :=
  ∀ i x p, 0 < i → heap[i]? = some x → heap[BinaryHeap.parent i]? = some p →
    x.message.priority = p.message.priority → p.number ≤ x.number

/-- **The condition**: a message is taken only from such a heap. -/
def TakesAged (s : Queue) (e : Event) : Prop := e = .take → Aged s.heap

/-! ## What every step keeps -/

/-- The heap holds what is waiting, by priority. -/
structure Queue.Sound (s : Queue) : Prop where
  items : s.heap.Perm s.waiting
  ordered : BinaryHeap.Ordered before s.heap

lemma weakOrder_before : BinaryHeap.WeakOrder before where
  asymm := by
    intro a b h
    simp only [before, decide_eq_true_eq, decide_eq_false_iff_not] at h ⊢
    omega
  trans := by
    intro a b _ hab hbc
    simp only [before, decide_eq_false_iff_not] at hab hbc ⊢
    omega

variable {s s' : Queue} {taken : Queued} {e : Event} {heap : List Queued} {i : Nat}

lemma Queue.Sound.enqueue (h : s.Sound) (queued : Queued) (calls : Nat) : Queue.Sound { s with
      heap := BinaryHeap.push before s.heap queued
      calls := calls
      waiting := s.waiting ++ [queued] } where
  items := (push_perm s.heap queued).trans (h.items.append_right [queued])
  ordered := ordered_push weakOrder_before h.ordered queued

lemma Queue.Sound.take (h : s.Sound) {rest : List Queued}
    (hpop : BinaryHeap.pop before s.heap = some (taken, rest))
    (processed : List (Queued × List Queued)) : Queue.Sound { s with
      heap := rest
      waiting := s.waiting.erase taken
      processed := processed } where
  items := by
    have hperm := (h.items.symm.trans (pop_perm weakOrder_before hpop)).erase taken
    rw [erase_cons_head] at hperm
    exact hperm.symm
  ordered := ordered_pop weakOrder_before h.ordered hpop

lemma step_take (h : step s .take = some s') :
    ∃ taken rest, BinaryHeap.pop before s.heap = some (taken, rest) ∧ { s with
      heap := rest
      waiting := s.waiting.erase taken
      processed := s.processed ++ [(taken, s.waiting)] } = s' := by
  unfold Inbox.step at h
  dsimp only at h
  split at h
  · cases h
  rename_i taken rest hpop
  exact ⟨taken, rest, hpop, some.inj h⟩

lemma Queue.Sound.step (h : s.Sound) (hstep : step s e = some s') : s'.Sound := by
  cases e with
  | enqueue =>
    obtain rfl := some.inj hstep
    exact h.enqueue _ _
  | take =>
    obtain ⟨_, _, hpop, rfl⟩ := step_take hstep
    exact h.take hpop _

lemma root_precedes (hordered : BinaryHeap.Ordered before heap) (haged : Aged heap)
    {root : Queued} (hroot : heap[0]? = some root) {x : Queued} (hx : heap[i]? = some x) :
    Precedes root x := by
  induction i using Nat.strongRecOn generalizing x with
  | ind i ih =>
    rcases Nat.eq_zero_or_pos i with rfl | hi
    · obtain rfl := some.inj (hroot.symm.trans hx)
      exact .inr ⟨rfl, Nat.le_refl _⟩
    have hup := parent_lt hi
    have hlt := (List.getElem?_eq_some_iff.1 hx).1
    obtain ⟨p, hp⟩ : ∃ p, heap[BinaryHeap.parent i]? = some p :=
      ⟨_, getElem?_eq_getElem (by omega)⟩
    have hle := hordered i x p hi hx hp
    simp only [before, decide_eq_false_iff_not] at hle
    -- the root precedes the parent, and the parent this one
    rcases ih _ hup hp with hurgent | ⟨hsame, hearlier⟩
    · exact .inl (by omega)
    rcases eq_or_ne x.message.priority p.message.priority with heq | hne
    · have hage := haged i x p hi hx hp heq
      exact .inr ⟨by omega, by omega⟩
    exact .inl (by omega)

lemma popped_root {rest : List Queued} (hpop : BinaryHeap.pop before heap = some (taken, rest)) :
    heap[0]? = some taken := by
  rcases pop_eq_some hpop with ⟨rfl, -⟩ | ⟨middle, last, rfl, -⟩ <;> rfl

lemma Queue.InOrder.step (h : s.InOrder) (hsound : s.Sound) (haged : TakesAged s e)
    (hstep : step s e = some s') : s'.InOrder := by
  cases e with
  | enqueue =>
    obtain rfl := some.inj hstep
    exact h
  | take =>
    obtain ⟨_, _, hpop, rfl⟩ := step_take hstep
    intro entry hentry
    rcases mem_append.1 hentry with hold | hnew
    · exact h entry hold
    obtain rfl := mem_singleton.1 hnew
    have hroot := popped_root hpop
    refine ⟨hsound.items.mem_iff.1 (mem_iff_getElem?.2 ⟨0, hroot⟩), ?_⟩
    intro _ hother
    obtain ⟨_, hi⟩ := mem_iff_getElem?.1 (hsound.items.mem_iff.2 hother)
    exact root_precedes hsound.ordered (haged rfl) hroot hi

/-! ## A message below a later one -/

def filler (priority : Int) : SessionMessage := { priority := priority, content := "" }

/-- **A message that waits below a later one of its priority can be made to
come after it**: messages of no urgency keep the end of the heap busy until
the later one is taken. -/
theorem exists_disorder {bound : Int} (n : Nat) {j : Nat} {p c : Queued} (hsound : s.Sound)
    (hbound : ∀ q ∈ s.heap, q.message.priority ≤ bound)
    (hcount : s.heap.countP (fun q => q.message.priority < bound) ≤ n)
    (habove : BinaryHeap.Above j i) (hp : s.heap[j]? = some p) (hc : s.heap[i]? = some c)
    (hsame : p.message.priority = c.message.priority) (hreal : p.message.priority < bound)
    (hlater : c.number < p.number) : ∃ more, ¬ Runs.Always step Queue.InOrder s more := by
  induction n generalizing s j i with
  | zero =>
    have hpos : 0 < s.heap.countP (fun q => q.message.priority < bound) :=
      countP_pos_iff.2 ⟨p, mem_iff_getElem?.2 ⟨j, hp⟩, by simpa using hreal⟩
    omega
  | succ n ih =>
    rcases Nat.eq_zero_or_pos j with rfl | hj
    · -- the later one is at the root
      obtain ⟨rest, hpop⟩ : ∃ rest, BinaryHeap.pop before s.heap = some (p, rest) :=
        exists_pop hp
      refine ⟨[.take], fun halways => ?_⟩
      have hrun : Runs.run step s [.take] = some { s with
          heap := rest
          waiting := s.waiting.erase p
          processed := s.processed ++ [(p, s.waiting)] } := by
        rw [Runs.run_cons]
        unfold Inbox.step
        dsimp only
        rw [hpop]
        rfl
      have horder := halways _ _ (prefix_refl _) hrun (p, s.waiting) (by simp)
      have hwaiting : c ∈ s.waiting :=
        hsound.items.mem_iff.1 (mem_iff_getElem?.2 ⟨i, hc⟩)
      rcases horder.2 c hwaiting with hurgent | ⟨-, hearlier⟩
      · dsimp only at hurgent
        omega
      dsimp only at hearlier
      omega
    -- one round: a filler goes to the end, and another message is taken
    have hself : before ⟨filler bound, s.calls⟩ ⟨filler bound, s.calls⟩ = false := by
      simp [before]
    have hlargest : ∀ x ∈ s.heap, before ⟨filler bound, s.calls⟩ x = false := by
      intro x hx
      exact decide_eq_false (Int.not_lt.2 (hbound x hx))
    obtain ⟨root, rest, hpop, hroot, _, _, habove', hp', hc'⟩ :=
      pop_above weakOrder_before hlargest hself habove hj hp hc
    have hrootReal : root.message.priority < bound := by
      have hle := root_le weakOrder_before hsound.ordered hroot hp
      simp only [before, decide_eq_false_iff_not] at hle
      omega
    have hperm := pop_perm weakOrder_before hpop
    obtain ⟨s', hrun, hheap⟩ : ∃ s', Runs.run step s [.enqueue (filler bound), .take] = some s' ∧
        s'.heap = rest := by
      refine ⟨{ s with
        heap := rest
        calls := s.calls + 1
        waiting := (s.waiting ++ [({ message := filler bound, number := s.calls } : Queued)]).erase
          root
        processed := s.processed ++
          [(root, s.waiting ++ [{ message := filler bound, number := s.calls }])] }, ?_, rfl⟩
      simp only [Runs.run, Inbox.step, bind_some, push_last hlargest hself, hpop]
    have hcount' : s'.heap.countP (fun q => q.message.priority < bound) ≤ n := by
      have hsum := hperm.countP_eq (fun q => decide (q.message.priority < bound))
      rw [countP_append, countP_cons] at hsum
      simp [filler, hrootReal] at hsum
      rw [hheap]
      omega
    have hbound' : ∀ q ∈ s'.heap, q.message.priority ≤ bound := by
      intro q hq
      rw [hheap] at hq
      rcases mem_append.1 (hperm.mem_iff.2 (mem_cons_of_mem root hq)) with hold | hnew
      · exact hbound q hold
      obtain rfl := mem_singleton.1 hnew
      exact Int.le_refl bound
    obtain ⟨more, hmore⟩ := ih (Runs.invariant (fun _ _ _ h hs => h.step hs) hsound hrun)
      hbound' hcount' habove' (hheap ▸ hp') (hheap ▸ hc')
    exact ⟨[.enqueue (filler bound), .take] ++ more, fun halways => hmore (halways.rest hrun)⟩

/-! ## Every run -/

theorem sound_empty : Queue.Sound {} where
  items := List.Perm.refl _
  ordered := by
    intro _ _ _ _ hx
    cases hx

def Queue.ByUrgency (s : Queue) : Prop :=
  ∀ entry ∈ s.processed, ∀ other ∈ entry.2,
    entry.1.message.priority ≤ other.message.priority

lemma Queue.ByUrgency.step (h : s.ByUrgency) (hsound : s.Sound) (hstep : step s e = some s') :
    s'.ByUrgency := by
  cases e with
  | enqueue =>
    obtain rfl := some.inj hstep
    exact h
  | take =>
    obtain ⟨_, _, hpop, rfl⟩ := step_take hstep
    intro entry hentry other hother
    rcases mem_append.1 hentry with hold | hnew
    · exact h entry hold other hother
    obtain rfl := mem_singleton.1 hnew
    obtain ⟨_, hi⟩ := mem_iff_getElem?.1 (hsound.items.mem_iff.2 hother)
    have hle := root_le weakOrder_before hsound.ordered (popped_root hpop) hi
    simpa [before] using hle

/-- **No message is taken before a more urgent one that waits.** -/
theorem mostUrgent_first (events : List Event) : Runs.Always step Queue.ByUrgency {} events := by
  intro _ s' _ hrun
  have hempty : Queue.ByUrgency {} := nofun
  have hboth : s'.Sound ∧ s'.ByUrgency :=
    Runs.invariant (I := fun s => s.Sound ∧ s.ByUrgency)
      (fun _ _ _ h hstep => ⟨h.1.step hstep, h.2.step h.1 hstep⟩) ⟨sound_empty, hempty⟩ hrun
  exact hboth.2

def Event.message? : Event → Option SessionMessage
  | .enqueue message => some message
  | .take => none

/-- What is in the inbox or was taken from it. -/
def Queue.held (s : Queue) : List SessionMessage :=
  (s.processed.map (·.1) ++ s.heap).map (·.message)

lemma held_step (hstep : step s e = some s') : s'.held.Perm (s.held ++ e.message?.toList) := by
  unfold Queue.held
  cases e with
  | enqueue message =>
    obtain rfl := some.inj hstep
    rw [map_append, map_append, append_assoc]
    refine .append_left _ (((push_perm s.heap _).map _).trans ?_)
    rw [map_append]
    exact .refl _
  | take =>
    obtain ⟨_, _, hpop, rfl⟩ := step_take hstep
    have hperm := (pop_perm weakOrder_before hpop).map (fun q : Queued => q.message)
    simp only [map_append, map_cons, map_nil, append_assoc]
    show _ ~ _ ++ (_ ++ [])
    rw [append_nil]
    exact .append_left _ hperm.symm

/-- **No message is lost and none is processed twice.** -/
theorem none_lost {events : List Event} (hrun : Runs.run step s events = some s') :
    s'.held.Perm (s.held ++ events.filterMap Event.message?) := by
  induction events generalizing s with
  | nil =>
    obtain rfl := some.inj hrun
    exact .of_eq (append_nil _).symm
  | cons e rest ih =>
    obtain ⟨m, hm, hrest⟩ := (Runs.run_cons_eq_some step).1 hrun
    have hsplit : (e :: rest).filterMap Event.message?
        = e.message?.toList ++ rest.filterMap Event.message? := by
      cases e with
      | _ => rfl
    rw [hsplit, ← append_assoc]
    exact (ih hrest).trans ((held_step hm).append_right _)

/-- **The inbox is processed in order as long as messages are taken from aged
heaps**; and a run that takes one from another heap has reached a state from
which some continuation processes two messages of one priority the wrong way
round. -/
theorem fifo_exactly_when_aged (events : List Event) :
    (Runs.Along step TakesAged {} events → Runs.Always step Queue.InOrder {} events) ∧
      (¬ Runs.Along step TakesAged {} events →
        ∃ front more, front <+: events ∧ ¬ Runs.Always step Queue.InOrder {} (front ++ more)) := by
  constructor
  · intro halong
    have hboth : Runs.Always step (fun s => s.Sound ∧ s.InOrder) {} events := by
      refine Runs.always_of_along (fun s e _ h haged hstep => ?_) ?_ halong
      · exact ⟨h.1.step hstep, h.2.step h.1 haged hstep⟩
      refine ⟨sound_empty, fun _ hentry => ?_⟩
      cases hentry
    exact hboth.mono (fun _ h => h.2)
  intro hfails
  obtain ⟨front, e, _, s, rfl, hrun, -, hnot⟩ := Runs.exists_failing hfails
  have hsound : s.Sound := Runs.invariant (fun _ _ _ h hs => h.step hs) sound_empty hrun
  -- some message waits below a later one
  unfold TakesAged Aged at hnot
  push Not at hnot
  obtain ⟨-, _, _, p, hi, hc, hp, hsame, _⟩ := hnot
  obtain ⟨bound, hbound⟩ : ∃ bound : Int, ∀ q ∈ s.heap, q.message.priority < bound := by
    generalize s.heap = heap
    induction heap with
    | nil => exact ⟨0, nofun⟩
    | cons q rest ih =>
      obtain ⟨bound, hbound⟩ := ih
      refine ⟨max bound (q.message.priority + 1), fun x hx => ?_⟩
      rcases mem_cons.1 hx with rfl | hx
      · omega
      have := hbound x hx
      omega
  obtain ⟨more, hmore⟩ := exists_disorder _ hsound (fun q hq => Int.le_of_lt (hbound q hq)) (Nat.le_refl _)
    (.next hi rfl) hp hc hsame.symm (hbound p (mem_iff_getElem?.2 ⟨_, hp⟩)) (by omega)
  exact ⟨front, more, prefix_append _ _, fun halways => hmore (halways.rest hrun)⟩

def urgentRun : List Event :=
  [.enqueue { priority := 1, content := "a", source := "agent:1" },
    .enqueue { priority := 1, content := "b", source := "agent:2" },
    .enqueue { priority := 0, content := "c" }, .take, .take]

theorem none_lost_urgent : ∃ s, Runs.run step {} urgentRun = some s ∧
    s.held.Perm (urgentRun.filterMap Event.message?) := by
  obtain ⟨s, hs⟩ := isSome_iff_exists.1 (show (Runs.run step {} urgentRun).isSome by decide)
  exact ⟨s, hs, none_lost hs⟩

/-- **The second of them is processed before the first.** -/
theorem urgentMessage_reorders : ¬ Runs.Always step Queue.InOrder {} urgentRun := by
  intro halways
  have horder := halways _ _ (prefix_refl _) rfl
  revert horder
  unfold Queue.InOrder Precedes
  decide

end DeterminFlow.Inbox
