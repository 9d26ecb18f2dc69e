/-
  Web.Revisions
  **WHICH GENERATIONS A CONNECTED BROWSER SEES.**

  The bus numbers the events of a session; the browser ignores what is not
  above the number it holds, whatever its kind.  `clear_session` starts the
  numbers again.  The machine below has one session and one browser: events
  are emitted, the session is cleared, other clients connect, and the browser
  connects or asks for a new snapshot, in any order.
-/
import DeterminFlow.Library.Runs
import DeterminFlow.Web.Conversation

namespace DeterminFlow.Web

open Library Runs List Option ConversationState

section
variable {P : Payloads}

/-! ## The session and one browser -/

/-- The stream of the session and a browser that stays connected; ghost: what
the browser has not seen. -/
structure Viewing (P : Payloads) where
  bus : SessionStream := {}
  /-- `none` before the browser connects. -/
  client : Option (ConversationState P) := none
  /-- A generation began after the last event that the browser applied. -/
  unseen : Bool := false
  /-- An event of such a generation was ignored by a browser that will not
  ask for a snapshot. -/
  missed : Bool := false

inductive Happening (P : Payloads) where
  /-- `emit_chat`. -/
  | emit (event : ChatEvent P)
  | clearSession
  /-- Another client connects or asks for a snapshot. -/
  | connect (session : Option (SessionView P))
  /-- The browser does. -/
  | resync (session : Option (SessionView P))

/-- `stream_start`, an increment of a stream, or `chain_end`. -/
def ChatEvent.showsGeneration : ChatEvent P → Bool
  | .streamStart _ _ => true
  | .token _ => true
  | .reasoningToken _ => true
  | .toolCallDelta _ _ _ _ => true
  | .toolStart _ _ _ _ => true
  | .toolEnd _ _ _ _ => true
  | .chainEnd _ _ => true
  | _ => false

/-- `stream_start`. -/
def ChatEvent.startsGeneration : ChatEvent P → Bool
  | .streamStart _ _ => true
  | _ => false

def receiveMessage (sessionId : String) (w : WireEvent P) (s : ConversationState P) :
    ConversationState.Outcome P :=
  match normalizeConversationEvent sessionId w with
  | some e => s.reduceServerEvent e
  | none => .ignored

namespace Viewing

def deliver (sessionId : String) (w : WireEvent P) (v : Viewing P) : Viewing P :=
  match v.client with
  | none => v
  | some s =>
    let unseen := v.unseen || w.event.startsGeneration
    match receiveMessage sessionId w s with
    | .applied s' => { v with client := some s', unseen := false }
    | .gap s' => { v with client := some s', unseen := unseen }
    | .ignored =>
      { v with
        unseen := unseen
        missed := v.missed || (w.event.showsGeneration && unseen && !s.needsResync) }

def step (sessionId : String) (v : Viewing P) : Happening P → Option (Viewing P)
  | .emit event =>
    let (bus, w) := v.bus.applyChatEvent event
    some ({ v with bus := bus }.deliver sessionId w)
  | .clearSession => some { v with bus := v.bus.clearSession }
  | .connect session =>
    some { v with bus := (v.bus.resolveSessionSnapshot sessionId session).1 }
  | .resync session =>
    let (bus, snapshot) := v.bus.resolveSessionSnapshot sessionId session
    let client := v.client.getD (createConversationState P sessionId)
    some ({ v with bus := bus, client := some client }.deliver sessionId
      { event := .snapshot snapshot })

/-! ## What a step can do -/

def StartsAbove (v : Viewing P) : Happening P → Prop
  | .emit (.streamStart _ _) =>
    ∀ s, v.client = some s → s.needsResync = false → ∀ held, s.revision = some held →
      held ≤ v.bus.getSessionRevision ∨ maxSafeInteger ≤ v.bus.getSessionRevision
  | _ => True

/-- The browser belongs to the session and asks for a snapshot whenever it
has not seen the last generation. -/
structure Watching (sessionId : String) (v : Viewing P) : Prop where
  ofSession : ∀ s, v.client = some s → s.sessionId = some sessionId
  asksForUnseen : ∀ s, v.client = some s → v.unseen = true → s.needsResync = true
  connected : v.client = none → v.unseen = false

end Viewing

/-! The reducer keeps the session of the browser. -/

namespace ConversationState

@[simp] lemma reduceToolDelta_sessionId (g : Option String) (r : Option Nat) (index : Nat)
    (callId name : Option String) (delta : String) (s : ConversationState P) :
    (s.reduceToolDelta g r index callId name delta).sessionId = s.sessionId := by
  unfold reduceToolDelta
  dsimp only
  split
  · split <;> rfl
  rfl

@[simp] lemma errored_sessionId (message : String) (sessionStatus : Option String)
    (messages : Option (List P.Message)) (failedTurn : Option P.FailedTurn)
    (s : ConversationState P) :
    (s.errored message sessionStatus messages failedTurn).sessionId = s.sessionId := by
  unfold errored
  split <;> rfl

variable (e : ConversationServerEvent P)

@[simp] lemma applyKind_sessionId (s : ConversationState P) :
    (s.applyKind e).sessionId = s.sessionId := by
  unfold applyKind
  split
  case h_8 =>
    split
    · exact errored_sessionId _ _ _ _ _
    rfl
  all_goals first | rfl | exact reduceToolDelta_sessionId ..

def Outcome.Sound (s : ConversationState P) : Outcome P → Prop
  | .ignored => True
  | .gap s' => s'.sessionId = s.sessionId ∧ s'.needsResync = true
  | .applied s' => s'.sessionId = s.sessionId

lemma reduceDelta_sound (s : ConversationState P) : (s.reduceDelta e).Sound s := by
  unfold reduceDelta
  split
  · trivial
  split
  · trivial
  split
  · exact ⟨rfl, rfl⟩
  exact applyKind_sessionId _ _

lemma reduceServerEvent_sound (s : ConversationState P) : (s.reduceServerEvent e).Sound s := by
  unfold reduceServerEvent
  split
  · trivial
  split
  · split
    · trivial
    exact rfl
  split
  · trivial
  split
  · trivial
  split
  · split
    · trivial
    exact rfl
  exact reduceDelta_sound e s

/-- **A `stream_start` is ignored exactly when its revision is stale.** -/
theorem reduceServerEvent_streamStart {e : ConversationServerEvent P} {s : ConversationState P}
    (hsession : s.sessionId = some e.sessionId) (hkind : e.kind = .streamStart) :
    s.reduceServerEvent e =
      if s.staleRevision e.revision then .ignored
      else .applied (applyKind e (s.withAcceptedRevision e.revision)) := by
  have hgen : s.eventHasWrongGeneration e = false := by
    simp [eventHasWrongGeneration, hkind]
  simp [reduceServerEvent, reduceDelta, hsession, hkind, hgen, passesError, passesGap]

end ConversationState

lemma receiveMessage_sound (sessionId : String) (w : WireEvent P) (s : ConversationState P) :
    (receiveMessage sessionId w s).Sound s := by
  unfold receiveMessage
  split
  · exact reduceServerEvent_sound _ s
  trivial

lemma receiveMessage_streamStart {sessionId : String} {s : ConversationState P}
    (hsession : s.sessionId = some sessionId) {w : WireEvent P} {generationId : String}
    {baseline : Option Nat} (hw : w.event = .streamStart generationId baseline) :
    if s.staleRevision (asRevision w.revision) then receiveMessage sessionId w s = .ignored
    else ∃ s', receiveMessage sessionId w s = .applied s' := by
  have hkind : normalizeKind w.event = some .streamStart := by rw [hw]; rfl
  have hrevision : wireRevision w = w.revision := by simp [wireRevision, hw]
  have hreceive := reduceServerEvent_streamStart (s := s)
    (e := ⟨sessionId, wireGeneration w, asRevision (wireRevision w), .streamStart⟩) hsession rfl
  have hmessage : receiveMessage sessionId w s =
      s.reduceServerEvent ⟨sessionId, wireGeneration w, asRevision (wireRevision w),
        .streamStart⟩ := by
    simp [receiveMessage, normalizeConversationEvent, hkind]
  rw [hmessage, hreceive, hrevision]
  split
  · rfl
  exact ⟨_, rfl⟩

/-! ## Runs -/

namespace Viewing

variable {sessionId : String} {v v' : Viewing P} {w : WireEvent P} {s : ConversationState P}
  {h : Happening P}

/-- What a delivery keeps: the browser is watching, and nothing more is
missed unless the start of a generation is stale for a browser that asks for
nothing. -/
lemma deliver_watching (hwatching : v.Watching sessionId)
    (hstart : ∀ s, v.client = some s → w.event.startsGeneration = true →
      s.needsResync = false → s.staleRevision (asRevision w.revision) = false) :
    (v.deliver sessionId w).Watching sessionId ∧ (v.deliver sessionId w).missed = v.missed := by
  unfold deliver
  split
  · exact ⟨hwatching, rfl⟩
  rename_i s hclient
  have hsession := hwatching.ofSession s hclient
  have hsound := receiveMessage_sound sessionId w s
  dsimp only
  cases hreceive : receiveMessage sessionId w s with
  | applied =>
    rw [hreceive] at hsound
    refine ⟨⟨fun t ht => ?_, fun t ht hunseen => (nomatch hunseen), fun _ => rfl⟩, rfl⟩
    obtain rfl := some.inj ht
    exact hsound.trans hsession
  | gap =>
    rw [hreceive] at hsound
    refine ⟨⟨fun t ht => ?_, fun t ht _ => ?_, nofun⟩, rfl⟩
    · obtain rfl := some.inj ht
      exact hsound.1.trans hsession
    obtain rfl := some.inj ht
    exact hsound.2
  | ignored =>
    -- an ignored start was stale, so the browser already asks for a snapshot
    have hasks : (v.unseen || w.event.startsGeneration) = true → s.needsResync = true := by
      intro hunseen
      rcases Bool.or_eq_true_iff.1 hunseen with hold | hstarts
      · exact hwatching.asksForUnseen s hclient hold
      by_contra hasks
      have hfresh := hstart s hclient hstarts (Bool.not_eq_true _ ▸ hasks)
      cases hevent : w.event with
      | streamStart =>
        have happlied := receiveMessage_streamStart hsession hevent
        rw [if_neg (by rw [hfresh]; exact Bool.false_ne_true)] at happlied
        obtain ⟨_, hs'⟩ := happlied
        rw [hreceive] at hs'
        cases hs'
      | _ => rw [hevent] at hstarts; cases hstarts
    refine ⟨⟨fun t ht => ?_, fun t ht hunseen => ?_, fun hnone => ?_⟩, ?_⟩
    · obtain rfl := some.inj (hclient.symm.trans ht)
      exact hsession
    · obtain rfl := some.inj (hclient.symm.trans ht)
      exact hasks hunseen
    · exact absurd (hclient.symm.trans hnone) (some_ne_none s)
    cases hunseen : (v.unseen || w.event.startsGeneration) with
    | false => simp
    | true => simp [hasks hunseen]

lemma deliver_ignored_start (hclient : v.client = some s)
    (hignored : receiveMessage sessionId w s = .ignored) (hquiet : s.needsResync = false)
    (hstarts : w.event.startsGeneration = true) : (v.deliver sessionId w).missed = true := by
  have hshows : w.event.showsGeneration = true := by
    cases hevent : w.event <;> rw [hevent] at hstarts <;> first | rfl | cases hstarts
  unfold deliver
  rw [hclient]
  dsimp only
  rw [hignored]
  simp [hshows, hstarts, hquiet]

lemma staleRevision_next {b : SessionStream} :
    s.staleRevision (asRevision (some b.nextRevision)) = false ↔
      ∀ held, s.revision = some held →
        held ≤ b.getSessionRevision ∨ maxSafeInteger ≤ b.getSessionRevision := by
  unfold staleRevision asRevision SessionStream.nextRevision
  cases hrevision : s.revision with
  | none => simp
  | some =>
    by_cases hsafe : b.getSessionRevision + 1 ≤ maxSafeInteger
    · simp only [Option.filter, hsafe, decide_true, ↓reduceIte, decide_eq_false_iff_not,
        some.injEq, forall_eq']
      omega
    simp only [Option.filter, hsafe, decide_false, Bool.false_eq_true, ↓reduceIte,
      some.injEq, forall_eq', true_iff]
    omega

variable (b : SessionStream)

lemma applyChatEvent_event (event : ChatEvent P) : (b.applyChatEvent event).2.event = event := by
  unfold SessionStream.applyChatEvent
  split
  · rfl
  split <;> rfl

lemma applyChatEvent_streamStart (generationId : String) (baseline : Option Nat) :
    (b.applyChatEvent (P := P) (.streamStart generationId baseline)).2.revision =
      some b.nextRevision := rfl

lemma step_watching (hwatching : v.Watching sessionId ∧ v.missed = false)
    (habove : v.StartsAbove h) (hstep : v.step sessionId h = some v') :
    v'.Watching sessionId ∧ v'.missed = false := by
  obtain ⟨hwatch, hmissed⟩ := hwatching
  cases h with
  | emit event =>
    obtain rfl := some.inj hstep
    have hdeliver := deliver_watching (w := (v.bus.applyChatEvent event).2)
      (v := { v with bus := (v.bus.applyChatEvent event).1 })
      ⟨hwatch.ofSession, hwatch.asksForUnseen, hwatch.connected⟩ (by
        intro s hs hstarts hquiet
        rw [applyChatEvent_event] at hstarts
        cases event with
        | streamStart =>
          rw [applyChatEvent_streamStart]
          exact staleRevision_next.2 (habove s hs hquiet)
        | _ => cases hstarts)
    exact ⟨hdeliver.1, hdeliver.2.trans hmissed⟩
  | resync session =>
    obtain rfl := some.inj hstep
    have hwatching : Watching sessionId
        { v with
          bus := (v.bus.resolveSessionSnapshot sessionId session).1
          client := some (v.client.getD (createConversationState P sessionId)) } := by
      refine ⟨fun s hs => ?_, fun s hs hunseen => ?_, nofun⟩
      · obtain rfl := some.inj hs
        cases hclient : v.client with
        | none => rfl
        | some s => exact hwatch.ofSession s hclient
      obtain rfl := some.inj hs
      cases hclient : v.client with
      | none => exact absurd ((hwatch.connected hclient).symm.trans hunseen) Bool.false_ne_true
      | some s => exact hwatch.asksForUnseen s hclient hunseen
    have hdeliver := deliver_watching
      (w := { event := .snapshot (v.bus.resolveSessionSnapshot sessionId session).2 }) hwatching
      (fun _ _ hstarts => Bool.noConfusion hstarts)
    exact ⟨hdeliver.1, hdeliver.2.trans hmissed⟩
  | _ =>
    obtain rfl := some.inj hstep
    exact ⟨⟨hwatch.ofSession, hwatch.asksForUnseen, hwatch.connected⟩, hmissed⟩

lemma step_misses (hwatching : v.Watching sessionId) (hbelow : ¬ v.StartsAbove h)
    (hstep : v.step sessionId h = some v') : v'.missed = true := by
  cases h with
  | emit event =>
    cases event with
    | streamStart generationId baseline =>
      simp only [StartsAbove, not_forall] at hbelow
      obtain ⟨s, hclient, hquiet, hbelow⟩ := hbelow
      have hstale : s.staleRevision (asRevision (some v.bus.nextRevision)) = true := by
        by_contra hfresh
        rw [Bool.not_eq_true, staleRevision_next] at hfresh
        obtain ⟨held, hheld, hno⟩ := hbelow
        exact hno (hfresh held hheld)
      have hignored := receiveMessage_streamStart (hwatching.ofSession s hclient)
        (w := (v.bus.applyChatEvent (.streamStart generationId baseline)).2) rfl
      rw [applyChatEvent_streamStart, if_pos hstale] at hignored
      obtain rfl := some.inj hstep
      exact deliver_ignored_start hclient hignored hquiet rfl
    | _ => exact absurd trivial hbelow
  | _ => exact absurd trivial hbelow

lemma watching_start : ({} : Viewing P).Watching sessionId where
  ofSession := fun _ hs => nomatch hs
  asksForUnseen := fun _ hs => nomatch hs
  connected := fun _ => rfl

/-- **Every event of a new generation reaches the browser, exactly when every
generation starts above what the browser holds.** -/
theorem generations_shown (sessionId : String) (events : List (Happening P)) :
    Always (step sessionId) (fun v => v.missed = false) {} events ↔
      Along (step sessionId) StartsAbove {} events := by
  have hstart : ({} : Viewing P).Watching sessionId ∧ ({} : Viewing P).missed = false :=
    ⟨watching_start, rfl⟩
  constructor
  · intro halways
    by_contra hfails
    obtain ⟨front, h, back, v, rfl, hrun, halong, hbelow⟩ := exists_failing hfails
    have hwatching := invariant_along (I := fun v => v.Watching sessionId ∧ v.missed = false)
      (fun v h v' => step_watching) hstart halong hrun
    have hstep : ∃ v', v.step sessionId h = some v' := by cases h <;> exact ⟨_, rfl⟩
    obtain ⟨v', hstep⟩ := hstep
    have hseen := halways (front ++ [h]) v' ⟨back, by simp⟩ (by
      rw [run_append, hrun]
      exact (run_cons_eq_some _).2 ⟨v', hstep, rfl⟩)
    exact Bool.noConfusion ((step_misses hwatching.1 hbelow hstep).symm.trans hseen)
  intro halong
  exact (always_of_along (fun v h v' => step_watching) hstart halong).mono (fun v h => h.2)

end Viewing

end

/-! ## A generation after the session was released -/

abbrev textPayloads : Payloads where
  Message := String
  NormalizedMessage := String
  TokenUsage := Unit
  FailedTurn := Unit
  Arguments := Unit
  visible := fun _ => true
  normalizeMessages := id
  dumps := fun _ => "{}"
  stringify := fun _ => "{}"

/-- A viewer watches a task session to its end; the session is released and
then continued. -/
def releasedAndContinued : List (Happening textPayloads) :=
  [.resync (some { record := ["task"], status := "running" }),
    .emit (.streamStart "g1" (some 1)), .emit (.token (some "done")),
    .emit (.chainEnd ["task", "done"] none), .clearSession, .emit (.streamStart "g2" (some 2))]

/-- **The second generation is not shown, and no snapshot is asked for.** -/
theorem releasedAndContinued_missed : ¬ ∀ (events : List (Happening textPayloads)),
      Always (Viewing.step "s") (fun v => v.missed = false) {} events := by
  intro hall
  have hmissed : ∃ v, run (Viewing.step "s") {} releasedAndContinued = some v ∧ v.missed = true :=
    ⟨_, rfl, rfl⟩
  obtain ⟨v, hrun, hmissed⟩ := hmissed
  exact Bool.noConfusion
    (hmissed.symm.trans (hall releasedAndContinued _ v prefix_rfl hrun))

end DeterminFlow.Web
