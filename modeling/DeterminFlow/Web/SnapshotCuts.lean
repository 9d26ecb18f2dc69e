/-
  Web.SnapshotCuts
  **JOINING A GENERATION IN THE MIDDLE.**

  One browser has been there from `stream_start`; others join later, with the
  snapshot of the moment, and all get the events that follow.  Each keeps its
  own draft.
-/
import DeterminFlow.Web.DraftSteps
import DeterminFlow.Web.Revisions

namespace DeterminFlow.Web

open Library Runs List Option ConversationState

/-! ## One generation and its viewers -/

section
variable {P : Payloads}

/-- The stream of the session, the browser that was there from the start, and
those that joined. -/
structure Broadcast (P : Payloads) where
  bus : SessionStream
  live : ConversationState P
  joined : List (ConversationState P) := []

inductive BroadcastEvent (P : Payloads) where
  /-- `emit_chat`, of an event between the start and the end of the generation. -/
  | emit (event : ChatEvent P)
  /-- A browser of the session gets its snapshot. -/
  | join (session : SessionView P) (client : ConversationState P)

def receive (sessionId : String) (w : WireEvent P) (s : ConversationState P) :
    ConversationState P :=
  match receiveMessage sessionId w s with
  | .ignored => s
  | .gap s' => s'
  | .applied s' => s'

namespace Broadcast

def step (sessionId : String) (v : Broadcast P) : BroadcastEvent P → Option (Broadcast P)
  | .emit event =>
    if event.inGeneration then
      let (bus, w) := v.bus.applyChatEvent event
      some
        { bus := bus
          live := receive sessionId w v.live
          joined := v.joined.map (receive sessionId w) }
    else none
  | .join session client =>
    if client.sessionId = some sessionId then
      some
        { v with
          joined := receive sessionId { event := .snapshot (v.bus.buildSessionSnapshot session) }
            client :: v.joined }
    else none

def opening (generationId : String) (baseline : Option Nat) (bus : SessionStream) :
    SessionStream × WireEvent P :=
  bus.applyChatEvent (.streamStart generationId baseline)

def start (sessionId generationId : String) (baseline : Option Nat) (bus : SessionStream)
    (client : ConversationState P) : Broadcast P :=
  let (bus, w) := opening generationId baseline bus
  { bus := bus, live := receive sessionId w client }

end Broadcast

/-! ## What the viewers see -/

def SameJson (P : Payloads) (a b : String) : Prop :=
  ∃ own, TextOf P own a ∧ TextOf P own b

/-- The two segments look the same: kind, text, tool index, tool name,
argument text up to its formatting, result and status. -/
def SameSegment (P : Payloads) : Segment ToolCallState → Segment ToolCallState → Prop
  | .text a, .text b => a = b
  | .reasoning a, .reasoning b => a = b
  | .tool t, .tool u => t.index = u.index ∧ t.name = u.name ∧ SameJson P t.args u.args ∧
      t.result = u.result ∧ t.status = u.status
  | _, _ => False

def Broadcast.AllSeeTheSame (v : Broadcast P) : Prop :=
  ∀ client ∈ v.joined,
    List.Forall₂ (SameSegment P) v.live.streamingSegments client.streamingSegments

/-- **The condition on a step**: the rules agree on the event; the session that
is joined is in no error. -/
def Broadcast.Meets (v : Broadcast P) : BroadcastEvent P → Prop
  | .emit event => ∀ d, v.bus.active = some d → Agrees d event
  | .join session _ => session.status ≠ "error"

/-! ## A browser that follows -/

/-- The browser takes the next event of the bus, and mirrors its draft. -/
structure Following (sessionId : String) (b : SessionStream) (d : Stream)
    (s : ConversationState P) : Prop where
  session : s.sessionId = some sessionId
  generation : s.generationId = some d.generationId
  mirror : Mirror P (some d.generationId) d s
  calm : s.needsResync = false
  noError : s.phase ≠ .error
  revision : b.getSessionRevision ≤ maxSafeInteger → s.revision = some b.getSessionRevision

def EventKind.isIncrement : EventKind P → Bool
  | .snapshot _ _ _ _ _ _ _ => false
  | .chainEnd _ _ => false
  | _ => true

lemma normalizeKind_isIncrement {event : ChatEvent P} {kind : EventKind P}
    (hin : event.inGeneration = true) (h : normalizeKind event = some kind) :
    kind.isIncrement = true ∧ (∀ m t st ms f, kind ≠ .error m t st ms f) ∧ kind ≠ .streamStart := by
  cases event with
  | token =>
    obtain ⟨text, -, rfl⟩ := map_eq_some_iff.1 h
    exact ⟨rfl, nofun, nofun⟩
  | reasoningToken =>
    obtain ⟨text, -, rfl⟩ := map_eq_some_iff.1 h
    exact ⟨rfl, nofun, nofun⟩
  | toolCallDelta =>
    unfold normalizeKind at h
    dsimp only at h
    split at h
    · cases h
      exact ⟨rfl, nofun, nofun⟩
    cases h
  | streamEnd =>
    cases h
    exact ⟨rfl, nofun, nofun⟩
  | llmUsage =>
    cases h
    exact ⟨rfl, nofun, nofun⟩
  | streamStart => cases hin
  | chainEnd => cases hin
  | error => cases hin
  | snapshot => cases hin
  | _ =>
    unfold normalizeKind at h
    dsimp only at h
    split at h
    · cases h
    cases h
    exact ⟨rfl, nofun, nofun⟩

variable {s client : ConversationState P} {e : ConversationServerEvent P} {revision : Nat}
  {sessionId : String} {d : Stream} {b : SessionStream}

lemma reduceServerEvent_increment (hkind : e.kind.isIncrement = true)
    (hsession : s.sessionId = some e.sessionId) (hphase : s.phase ≠ .error)
    (hgeneration : s.eventHasWrongGeneration e = false) (hcalm : s.needsResync = false)
    (hstale : s.staleRevision e.revision = false) (hskips : s.skipsRevision e.revision = false) :
    s.reduceServerEvent e =
      .applied (applyKind e (s.withAcceptedRevision e.revision)) := by
  have hdelta : s.reduceDelta e =
      .applied (applyKind e (s.withAcceptedRevision e.revision)) := by
    unfold reduceDelta
    rw [if_neg (by simp [hcalm]), if_neg (by simp [hstale]), if_neg (by simp [hskips])]
  unfold reduceServerEvent
  rw [if_neg (by simp [hsession])]
  obtain ⟨sessionId, _, revision, kind⟩ := e
  cases kind
  case snapshot => cases hkind
  case chainEnd => cases hkind
  all_goals
    dsimp only
    rw [if_neg (by simp [hphase]), if_neg (by simp [hgeneration])]
    exact hdelta

lemma asRevision_some (h : revision ≤ maxSafeInteger) :
    asRevision (some revision) = some revision := by
  unfold asRevision
  rw [filter_some, if_pos (by simpa using h)]

lemma withAcceptedRevision_revision (s : ConversationState P) (h : revision ≤ maxSafeInteger) :
    (s.withAcceptedRevision (asRevision (some revision))).revision = some revision := by
  rw [asRevision_some h]
  rfl

lemma Following.next_revision (hs : Following sessionId b d s) :
    s.staleRevision (asRevision (some b.nextRevision)) = false ∧
      s.skipsRevision (asRevision (some b.nextRevision)) = false := by
  by_cases hle : b.getSessionRevision + 1 ≤ maxSafeInteger
  · have hheld := hs.revision (by omega)
    have hnext : asRevision (some b.nextRevision) = some (b.getSessionRevision + 1) :=
      asRevision_some hle
    unfold staleRevision skipsRevision
    rw [hnext, hheld]
    simp
  -- a revision that is not safe is no revision
  have hnext : asRevision (some b.nextRevision) = none := by
    show (some (b.getSessionRevision + 1)).filter _ = none
    rw [filter_some, if_neg (by simpa using hle)]
  rw [hnext]
  exact ⟨rfl, rfl⟩

/-! ## One event -/

lemma reduceToolDelta_frame (g : Option String) (revision : Option Nat) (index : Nat)
    (callId name : Option String) (delta : String) (s : ConversationState P) :
    ∃ segments keys, s.reduceToolDelta g revision index callId name delta =
      { s with streamingSegments := segments, toolCallKeysByIndex := keys } := by
  unfold reduceToolDelta
  dsimp only
  split
  · split <;> exact ⟨_, _, rfl⟩
  exact ⟨_, _, rfl⟩

lemma applyKind_frame (hkind : e.kind.isIncrement = true)
    (herror : ∀ m t st ms f, e.kind ≠ .error m t st ms f) (hstart : e.kind ≠ .streamStart)
    (s : ConversationState P) : (applyKind e s).sessionId = s.sessionId ∧
      (applyKind e s).generationId = s.generationId ∧
      (applyKind e s).needsResync = s.needsResync ∧
      (applyKind e s).revision = s.revision ∧
      (s.phase ≠ .error → (applyKind e s).phase ≠ .error) := by
  obtain ⟨sessionId, generationId, revision, kind⟩ := e
  cases kind with
  | snapshot => cases hkind
  | chainEnd => cases hkind
  | error => exact absurd rfl (herror _ _ _ _ _)
  | streamStart => exact absurd rfl hstart
  | toolDelta index callId name delta =>
    obtain ⟨_, _, heq⟩ := reduceToolDelta_frame generationId revision index callId name
      delta { s with phase := .streaming, isStreaming := true }
    unfold applyKind
    dsimp only
    rw [heq]
    exact ⟨rfl, rfl, rfl, rfl, fun _ => nofun⟩
  | toolEnd => exact ⟨rfl, rfl, rfl, rfl, id⟩
  | streamEnd => exact ⟨rfl, rfl, rfl, rfl, id⟩
  | usage => exact ⟨rfl, rfl, rfl, rfl, id⟩
  | _ => exact ⟨rfl, rfl, rfl, rfl, fun _ => nofun⟩

lemma update_generationId (d : Stream) (event : ChatEvent P) :
    (d.update event).generationId = d.generationId := by
  cases event with
  | token content =>
    show (d.onContent false content).generationId = _
    unfold Stream.onContent
    split <;> rfl
  | reasoningToken content =>
    show (d.onContent true content).generationId = _
    unfold Stream.onContent
    split <;> rfl
  | toolCallDelta index id name argsDelta =>
    show (d.onDelta index id name argsDelta).generationId = _
    rw [Stream.onDelta_eq]
    split <;> rfl
  | toolStart index runId name =>
    show (d.onStart index runId name _).generationId = _
    unfold Stream.onStart
    dsimp only
    split <;> rfl
  | toolEnd runId name result outcome =>
    show (d.onEnd runId result outcome).generationId = _
    unfold Stream.onEnd
    split
    · rfl
    split <;> rfl
  | _ => rfl

lemma applyChatEvent_inGeneration (b : SessionStream) {event : ChatEvent P}
    (hin : event.inGeneration = true) : b.applyChatEvent event =
      ({ revision := some b.nextRevision
         active := b.active.map (fun d => ({ d with revision := b.nextRevision }).update event) },
        { event := event
          revision := some b.nextRevision
          generationId := b.active.map (·.generationId) }) := by
  cases event <;> first | rfl | cases hin

lemma normalize_inGeneration {event : ChatEvent P} {kind : EventKind P}
    (hin : event.inGeneration = true) (hkind : normalizeKind event = some kind) (revision : Nat)
    (generationId : Option String) : normalizeConversationEvent sessionId
        { event := event, revision := some revision, generationId := generationId } =
      some
        { sessionId := sessionId
          generationId := generationId
          revision := asRevision (some revision)
          kind := kind } := by
  unfold normalizeConversationEvent
  rw [hkind]
  cases event <;> first | rfl | cases hin

lemma Following.receive_emit (hs : Following sessionId b d s) {event : ChatEvent P}
    {kind : EventKind P} (hin : event.inGeneration = true)
    (hkind : normalizeKind event = some kind) : receive sessionId
        { event := event, revision := some b.nextRevision, generationId := some d.generationId } s =
      applyKind
        { sessionId := sessionId, generationId := some d.generationId,
          revision := asRevision (some b.nextRevision), kind := kind }
        (s.withAcceptedRevision (asRevision (some b.nextRevision))) := by
  have hgeneration : s.eventHasWrongGeneration
      { sessionId := sessionId, generationId := some d.generationId,
        revision := asRevision (some b.nextRevision), kind := kind } = false := by
    have hsame : differ s.generationId (some d.generationId) = false := by
      rw [hs.generation]
      unfold differ
      cases truthy (some d.generationId) <;> simp
    unfold eventHasWrongGeneration
    rw [hsame, Bool.false_and]
  unfold receive receiveMessage
  rw [normalize_inGeneration hin hkind]
  dsimp only
  rw [reduceServerEvent_increment (normalizeKind_isIncrement hin hkind).1 hs.session hs.noError
    hgeneration hs.calm hs.next_revision.1 hs.next_revision.2]

lemma following_emit (hactive : b.active = some d) (horderly : d.Orderly) {event : ChatEvent P}
    (hin : event.inGeneration = true) (hagrees : Agrees d event) :
    ∃ d', (b.applyChatEvent event).1.active = some d' ∧ d'.Orderly ∧ ∀ s : ConversationState P,
      Following sessionId b d s →
        Following sessionId (b.applyChatEvent event).1 d'
          (receive sessionId (b.applyChatEvent event).2 s) := by
  rw [applyChatEvent_inGeneration b hin, hactive]
  -- the draft with the new revision is the same draft to every rule
  have horderly' : ({ d with revision := b.nextRevision } : Stream).Orderly :=
    ⟨horderly.slots, horderly.latest, horderly.keys, horderly.ids, horderly.building⟩
  have hagrees' : Agrees { d with revision := b.nextRevision } event := by
    cases event <;> exact hagrees
  refine ⟨_, rfl, update_orderly horderly' hagrees', fun s hs => ?_⟩
  obtain ⟨kind, hkind, hmirror⟩ :=
    update_mirror (g := some d.generationId) horderly' hin hagrees'
  obtain ⟨hincrement, herror, hstart⟩ := normalizeKind_isIncrement hin hkind
  let e : ConversationServerEvent P :=
    { sessionId := sessionId, generationId := some d.generationId,
      revision := asRevision (some b.nextRevision), kind := kind }
  obtain ⟨hsession, hkept, hcalm, hrevision, hphase⟩ :=
    applyKind_frame (e := e) hincrement herror hstart (s.withAcceptedRevision e.revision)
  show Following sessionId _ _ (receive sessionId
    { event := event, revision := some b.nextRevision, generationId := some d.generationId } s)
  rw [hs.receive_emit hin hkind]
  have hgenerationId : (({ d with revision := b.nextRevision } : Stream).update event).generationId =
      d.generationId := update_generationId _ event
  refine ⟨hsession.trans hs.session, ?_, ?_, hcalm.trans hs.calm, hphase hs.noError, fun hle => ?_⟩
  · rw [hgenerationId]
    exact hkept.trans hs.generation
  · rw [hgenerationId]
    have hbefore : Mirror P (some d.generationId) { d with revision := b.nextRevision }
        (s.withAcceptedRevision e.revision) := by
      have hsame : Mirror P (some d.generationId) { d with revision := b.nextRevision } s :=
        ⟨hs.mirror.segments, hs.mirror.keys⟩
      exact hsame.congr rfl rfl
    exact hmirror sessionId _ _ hbefore
  exact hrevision.trans (withAcceptedRevision_revision s hle)

/-! ## Starting and joining -/

lemma empty_orderly (hsegments : d.segments = []) (hindices : d.toolIndices = []) :
    d.Orderly := by
  have hnone : ∀ (q : Nat) (t : ToolDraft), d.segments[q]? ≠ some (.tool t) := by
    intro q t
    rw [hsegments]
    simp
  refine ⟨fun _ _ hplace => ?_, fun q t ht => absurd ht (hnone q t),
    fun q t ht => absurd ht (hnone q t), fun q t ht => absurd ht (hnone q t),
    fun q t ht => absurd ht (hnone q t)⟩
  rw [hindices] at hplace
  cases hplace

lemma following_start {generationId : String} {baseline : Option Nat}
    (happlies : ∃ s, receiveMessage sessionId (Broadcast.opening generationId baseline b).2 client =
      .applied s) : ∃ d, (Broadcast.opening (P :=P) generationId baseline b).1.active = some d ∧
      d.generationId = generationId ∧ d.Orderly ∧
      Following sessionId (Broadcast.opening (P := P) generationId baseline b).1 d
        (receive sessionId (Broadcast.opening generationId baseline b).2 client) := by
  obtain ⟨s, hs⟩ := happlies
  have hsession : client.sessionId = some sessionId := by
    by_contra hother
    have hignored : receiveMessage sessionId (Broadcast.opening generationId baseline b).2 client =
        .ignored := if_pos hother
    rw [hignored] at hs
    cases hs
  let e : ConversationServerEvent P :=
    { sessionId := sessionId, generationId := some generationId,
      revision := asRevision (some b.nextRevision), kind := .streamStart }
  have hreduce : receiveMessage sessionId (Broadcast.opening generationId baseline b).2 client =
      if client.staleRevision e.revision then .ignored
      else .applied (applyKind e (client.withAcceptedRevision e.revision)) :=
    reduceServerEvent_streamStart (e := e) hsession rfl
  have happlied : receive sessionId (Broadcast.opening generationId baseline b).2 client =
      applyKind e (client.withAcceptedRevision e.revision) := by
    unfold receive
    rw [hreduce] at hs ⊢
    split at hs
    · cases hs
    rename_i hfresh
    rw [if_neg hfresh]
  refine ⟨_, rfl, rfl, empty_orderly rfl rfl, ?_⟩
  rw [happlied]
  refine ⟨hsession, rfl, ?_, rfl, nofun, fun hle => ?_⟩
  · exact Mirror.of_keys .nil (fun _ _ _ => rfl) (fun i p t u _ hslot _ => by cases hslot)
  exact withAcceptedRevision_revision client hle

lemma following_join (hactive : b.active = some d) (horderly : d.Orderly)
    (hnamed : d.generationId ≠ "") {session : SessionView P} (hstatus : session.status ≠ "error")
    (hsession : client.sessionId = some sessionId) : Following sessionId b d
      (receive sessionId { event := .snapshot (b.buildSessionSnapshot session) } client) := by
  let stream : ActiveStream :=
    { generationId := d.generationId
      revision := d.revision
      baselineRecordLength := d.baselineRecordLength
      segments := d.segments }
  let shownStream : ClientStream :=
    { generationId := d.generationId
      revision := asRevision (some d.revision)
      segments := normalizeSegments d.segments }
  let snapshot := b.buildSessionSnapshot session
  have hget : b.getActiveStream = some stream := by
    unfold SessionStream.getActiveStream
    rw [hactive]
    rfl
  have hstream : snapshot.activeStream = some stream := hget
  have hshown : snapshot.activeStream.bind normalizeActiveStream = some shownStream := by
    rw [hstream, bind_some]
    exact if_neg hnamed
  have hstatus' : snapshot.status ≠ "error" := by
    show (if session.status = "" then "running" else session.status) ≠ "error"
    split
    · decide
    exact hstatus
  have hreceive : receive sessionId { event := .snapshot snapshot } client =
      client.fromSnapshot (asRevision (some b.getSessionRevision)) snapshot.messages
        (some snapshot.status) (some shownStream) snapshot.tokenUsage
        ((truthy snapshot.error).orElse
          (fun _ => if snapshot.status = "error" then snapshot.lastError else none))
        snapshot.failedTurn := by
    unfold receive receiveMessage normalizeConversationEvent normalizeKind
    dsimp only [map_some]
    rw [hshown]
    unfold reduceServerEvent
    dsimp only
    rw [if_neg (by simp [hsession]), if_neg (by simp)]
    rfl
  show Following sessionId b d (receive sessionId { event := .snapshot snapshot } client)
  rw [hreceive]
  have hmirror : Mirror P (some d.generationId) d (seen P d) := seen_mirror horderly
  refine ⟨hsession, rfl, hmirror.congr rfl rfl, ?_, ?_, fun hle => ?_⟩
  · unfold fromSnapshot
    simp
  · unfold fromSnapshot
    dsimp only
    rw [if_neg (by simpa using hstatus')]
    simp
  unfold fromSnapshot
  dsimp only
  rw [asRevision_some hle]
  rfl

/-! ## Runs -/

lemma Mirror.sameSegments {g : Option String} {s' : ConversationState P} (h : Mirror P g d s)
    (h' : Mirror P g d s') :
    List.Forall₂ (SameSegment P) s.streamingSegments s'.streamingSegments := by
  have hpairs : ∀ {l : List (Segment ToolDraft)} {m m' : List (Segment ToolCallState)},
      List.Forall₂ (SegmentMirror P g) l m → List.Forall₂ (SegmentMirror P g) l m' →
        List.Forall₂ (SameSegment P) m m' := by
    intro l m m' hm hm'
    induction hm generalizing m' with
    | nil =>
      cases hm'
      exact .nil
    | cons hhead _ ih =>
      cases hm' with
      | cons hhead' htail' =>
        refine .cons ?_ (ih htail')
        cases hhead with
        | tool ht =>
          cases hhead' with
          | tool ht' =>
            exact ⟨ht.index.trans ht'.index.symm, ht.name.trans ht'.name.symm,
              ⟨_, ht.args, ht'.args⟩, ht.result.trans ht'.result.symm,
              ht.status.trans ht'.status.symm⟩
        | _ =>
          cases hhead'
          rfl
  exact hpairs h.segments h'.segments

/-- **The invariant**: everybody follows the generation. -/
structure Broadcast.InStep (sessionId : String) (v : Broadcast P) : Prop where
  draft : ∃ d, v.bus.active = some d ∧ d.generationId ≠ "" ∧ d.Orderly ∧
    Following sessionId v.bus d v.live ∧ ∀ client ∈ v.joined, Following sessionId v.bus d client

lemma step_inStep {v v' : Broadcast P} {e : BroadcastEvent P} (h : v.InStep sessionId)
    (hmeets : v.Meets e) (hstep : v.step sessionId e = some v') : v'.InStep sessionId := by
  obtain ⟨d, hactive, hnamed, horderly, hlive, hjoined⟩ := h.draft
  cases e with
  | emit event =>
    unfold Broadcast.step at hstep
    dsimp only at hstep
    split at hstep
    · rename_i hin
      cases hstep
      obtain ⟨d', hactive', horderly', hfollow⟩ :=
        following_emit (P := P) hactive horderly hin (hmeets d hactive)
      have hlive' := hfollow v.live hlive
      refine ⟨d', hactive', ?_, horderly', hlive', fun client hclient => ?_⟩
      · rw [applyChatEvent_inGeneration v.bus hin, hactive] at hactive'
        obtain rfl := some.inj hactive'
        rw [update_generationId]
        exact hnamed
      obtain ⟨client', hmem, rfl⟩ := mem_map.1 hclient
      exact hfollow client' (hjoined client' hmem)
    cases hstep
  | join session client =>
    unfold Broadcast.step at hstep
    dsimp only at hstep
    split at hstep
    · rename_i hsession
      cases hstep
      refine ⟨d, hactive, hnamed, horderly, hlive, fun other hother => ?_⟩
      rcases mem_cons.1 hother with rfl | hother
      · exact following_join hactive horderly hnamed hmeets hsession
      exact hjoined other hother
    cases hstep

/-- **All browsers show the same segments, whenever they joined.** -/
theorem cuts_agree {sessionId generationId : String} (hnamed : generationId ≠ "")
    (baseline : Option Nat) (bus : SessionStream) {client : ConversationState P}
    (happlies : ∃ s, receiveMessage sessionId (Broadcast.opening generationId baseline bus).2 client =
      .applied s) {events : List (BroadcastEvent P)}
    (halong : Along (Broadcast.step sessionId) Broadcast.Meets
      (Broadcast.start sessionId generationId baseline bus client) events) :
    Always (Broadcast.step sessionId) Broadcast.AllSeeTheSame
      (Broadcast.start sessionId generationId baseline bus client) events := by
  obtain ⟨d, hactive, hgeneration, horderly, hlive⟩ := following_start happlies
  have hstart : (Broadcast.start sessionId generationId baseline bus client).InStep sessionId :=
    ⟨d, hactive, hgeneration ▸ hnamed, horderly, hlive, fun _ hmem => absurd hmem not_mem_nil⟩
  have hinStep := always_of_along (fun _ _ _ h hmeets hstep => step_inStep h hmeets hstep) hstart
    halong
  refine hinStep.mono (fun _ hv c hc => ?_)
  obtain ⟨d, -, -, -, hlive, hjoined⟩ := hv.draft
  exact hlive.mirror.sameSegments (hjoined c hc).mirror

end

def streamingView : SessionView textPayloads where
  record := []
  status := "streaming"

def joinedCall : List (BroadcastEvent textPayloads) :=
  [.emit (.toolCallDelta 0 (some "c1") (some "search") (some "{}")),
    .join streamingView (createConversationState textPayloads "s"),
    .emit (.toolStart 0 "c1" "search" ()), .emit (.toolEnd "c1" "search" "found" .completed)]

theorem joinedCall_agree : Always (Broadcast.step "s") Broadcast.AllSeeTheSame
      (Broadcast.start "s" "g" none {} (createConversationState textPayloads "s")) joinedCall := by
  refine cuts_agree (by decide) none {} ⟨_, rfl⟩ ⟨?_, ?_⟩
  · intro d hd
    cases hd
    refine ⟨rfl, ?_, 0, rfl, rfl⟩
    intro _ htext
    cases htext
    decide
  intro v hv
  cases hv
  refine ⟨?_, ?_⟩
  · show ("streaming" : String) ≠ "error"
    decide
  intro v hv
  cases hv
  refine ⟨?_, ?_⟩
  · intro d hd
    cases hd
    refine ⟨by decide, rfl, ?_⟩
    intro hname
    exact absurd hname (by decide)
  intro v hv
  cases hv
  refine ⟨?_, fun _ _ => trivial⟩
  intro d hd
  cases hd
  refine ⟨by decide, ?_⟩
  intro q _ ht _
  match q, ht with
  | 0, _ => exact .inl rfl

def nameInTwoParts : List (BroadcastEvent textPayloads) :=
  [.emit (.toolCallDelta 0 (some "c1") (some "get_") (some "")),
    .emit (.toolCallDelta 0 none (some "time") (some "{}")),
    .join streamingView (createConversationState textPayloads "s")]

/-- **Who was there sees two calls, who joins sees one.** -/
theorem nameInTwoParts_differs :
    ¬ ∀ (P : Payloads) (sessionId generationId : String) (baseline : Option Nat)
        (bus : SessionStream) (client : ConversationState P) (events : List (BroadcastEvent P)),
      generationId ≠ "" →
      (∃ s, receiveMessage sessionId (Broadcast.opening generationId baseline bus).2 client =
        .applied s) →
      (∀ session other, .join session other ∈ events → session.status ≠ "error") →
      Always (Broadcast.step sessionId) Broadcast.AllSeeTheSame
        (Broadcast.start sessionId generationId baseline bus client) events := by
  intro hall
  have hcalm : ∀ session other, BroadcastEvent.join session other ∈ nameInTwoParts →
      session.status ≠ "error" := by
    intro session other hmem
    have hjoin : session = streamingView ∧ other = createConversationState textPayloads "s" := by
      simpa [nameInTwoParts] using hmem
    rw [hjoin.1]
    show ("streaming" : String) ≠ "error"
    decide
  have hends : ∃ v joiner, run (Broadcast.step "s")
      (Broadcast.start "s" "g" none {} (createConversationState textPayloads "s")) nameInTwoParts =
        some v ∧ v.joined = [joiner] ∧ v.live.streamingSegments.length = 2 ∧
          joiner.streamingSegments.length = 1 :=
    ⟨_, _, rfl, rfl, rfl, rfl⟩
  obtain ⟨v, joiner, hrun, hjoined, _, _⟩ := hends
  have hsame := hall textPayloads "s" "g" none {} (createConversationState textPayloads "s")
    nameInTwoParts (by decide) ⟨_, rfl⟩ hcalm _ v prefix_rfl hrun joiner
    (hjoined ▸ mem_singleton_self joiner)
  have hlength := List.Forall₂.length_eq hsame
  omega

end DeterminFlow.Web
