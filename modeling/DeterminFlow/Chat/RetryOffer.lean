/-
  Chat.RetryOffer
  **WHICH FAILED TURN IS RETRIED.**

  A failed turn of an interactive main session leaves an offer to retry it,
  which is forced to disk.  The next turn takes the offer back in memory and
  leaves the file to the next flush, so a crash in between brings the offer
  back after a later message; a retry writes its own withdrawal first.  A
  manual compression keeps the offer and changes the context it is about.
-/
import DeterminFlow.Chat.Session
import DeterminFlow.Library.Runs

namespace DeterminFlow.Chat.RetryOffer

open Library PyText Context List Option

/-! ## The session, its file and its last failed turn -/

/-- Ghost: the last failed turn and what was done since. -/
structure Offer where
  /-- The context the turn began with. -/
  startContext : List Message
  toolStarted : Bool
  /-- A later message was accepted. -/
  later : Bool := false
  /-- A retry of it came to its end. -/
  retried : Bool := false
  deriving DecidableEq

structure World where
  live : Session
  disk : Session
  offer : Option Offer := none

/-- A turn that is asked for. -/
inductive Request where
  | send (turn : Turn)
  | edit (messageId : Nat) (turn : Turn)
  | retry (turn : Turn)

inductive Event where
  | turn (request : Request)
  /-- The process dies in the turn; the file may have been flushed after some
  events of it. -/
  | crashedTurn (request : Request) (flushed : Option (List StreamEvent))
  | compress (compression : Compression)
  | notice (kind : Display)
  | terminate
  | flush
  /-- The process dies between turns. -/
  | crash

def offered (s : Session) : Bool := s.failedTurn.any (·.retryable)

/-- What `retry_failed_turn` requires of the session. -/
def acceptsRetry (s : Session) : Bool :=
  s.supportsRecovery && s.graphReady && !s.terminated
    && s.failedTurn.any (fun failed => failed.retryable && !(stripChars failed.content).isEmpty)

/-- The session in which `_invoke_graph` begins, its turn, and the file then;
nothing for a request that is refused. -/
def World.begins (w : World) : Request → Option (Session × Turn × Session)
  | .send t => if w.live.graphReady = false ∨ w.live.terminated = true then none
      else some (w.live, t, w.disk)
  | .edit messageId t =>
    match w.live.editPoint messageId with
    | .error _ => none
    | .ok (target, cut) => some (w.live.truncate target cut, t, w.disk)
  | .retry t =>
    if acceptsRetry w.live then
      let failed := w.live.failedTurn.getD { content := "", retryable := false }
      let begun := { w.live with failedTurn := some { failed with retryable := false } }
      some (begun, { t with content := failed.content, fromUser := true }, begun)
    else none

def Request.isRetry : Request → Bool
  | .retry _ => true
  | _ => false

def startsTool (t : Turn) : Bool :=
  match t.course with
  | .streamed events _ => events.contains .toolStart
  | _ => false

def World.noted (w : World) (request : Request) : Option Offer :=
  if request.isRetry then w.offer else w.offer.map (fun o => { o with later := true })

/-- A turn that comes to its end; a failure, and the withdrawal of an offer,
are forced to disk. -/
def World.finishes (w : World) (request : Request) (s : Session) (t : Turn) (disk : Session) : World :=
  match s.scoped (s.invokeGraph t) with
  | (.raised, s') =>
    { live := s'
      disk := if s.supportsRecovery then s' else disk
      offer := some { startContext := s.lcMessages, toolStarted := startsTool t } }
  | (.returned, s') =>
    { live := s'
      disk := if s.supportsRecovery && s.failedTurn.isSome then s' else disk
      offer := (w.noted request).map (fun o => { o with retried := o.retried || request.isRetry }) }
  | (.cancelled, s') => { live := s', disk := disk, offer := w.noted request }

def midTurn (s : Session) (t : Turn) (events : List StreamEvent) : Session :=
  (({ s with failedTurn := none, activeTurnToolStarted := false }.prepare t).stream events).session

def step (w : World) : Event → Option World
  | .turn request => (w.begins request).map (fun b => w.finishes request b.1 b.2.1 b.2.2)
  | .crashedTurn request flushed => (w.begins request).map (fun b =>
    let disk := (flushed.map (midTurn b.1 b.2.1)).getD b.2.2
    { live := disk.reload, disk := disk, offer := w.noted request })
  | .compress c => some { w with live := w.live.compress c }
  | .notice kind => some { w with live := w.live.addDisplayMessage kind }
  | .terminate => some { w with live := { w.live with terminated := true } }
  | .flush => some { w with disk := w.live }
  | .crash => some { w with live := w.disk.reload }

/-- An accepted retry is of a turn that started no tool, before any later
message, not retried yet, and in its context. -/
def Lawful (w : World) : Prop :=
  acceptsRetry w.live = true → ∃ o, w.offer = some o ∧ o.toolStarted = false ∧ o.later = false
    ∧ o.retried = false ∧ w.live.lcMessages = o.startContext

/-- A crash finds no offer in the file that was taken back, or the one that
stands, whose context the reload rebuilds; a compression meets no offer, or
leaves the context as it is. -/
def Meets (w : World) : Event → Prop
  | .crashedTurn request flushed =>
    request.isRetry = true ∨ flushed.isSome = true ∨ offered w.disk = false
  | .crash => offered w.disk = false
      ∨ (w.disk.failedTurn = w.live.failedTurn ∧ w.disk.reload.lcMessages = w.disk.lcMessages)
  | .compress c => offered w.live = false ∨ (w.live.compress c).lcMessages = w.live.lcMessages
  | _ => True

/-! ## What a turn leaves of the offer -/

def frame (s : Session) : Bool × Bool × Option FailedTurn × Bool :=
  (s.main, s.interactive, s.failedTurn, s.activeTurnToolStarted)

variable (s : Session) (t : Turn) (st : Stream)

lemma frame_appendToRecord (m : Message) : frame (s.appendToRecord m) = frame s := by
  unfold Session.appendToRecord
  split <;> rfl

lemma frame_syncContextSnapshot (force : Bool) :
    frame (s.syncContextSnapshot force) = frame s := by
  unfold Session.syncContextSnapshot
  split
  · rfl
  split <;> rfl

lemma frame_rollbackOnError (rollbackRecord sanitizePairs syncSnapshot : Bool) :
    frame (s.rollbackOnError rollbackRecord sanitizePairs syncSnapshot) = frame s := by
  unfold Session.rollbackOnError
  simp only
  split
  · exact frame_syncContextSnapshot _ _
  rfl

lemma frame_checkAndCompressMessages (c : Compression) (forceFull : Bool) :
    frame (s.checkAndCompressMessages c forceFull) = frame s := by
  unfold Session.checkAndCompressMessages
  simp only
  split
  · exact frame_syncContextSnapshot { s with lcMessages := _ } true
  rfl

lemma frame_prepare : frame (s.prepare t) = frame s := by
  unfold Session.prepare Session.trimContext
  split
  all_goals exact frame_checkAndCompressMessages _ _ _

lemma frame_feed (e : StreamEvent) :
    frame (st.feed e).session = (st.session.main, st.session.interactive, st.session.failedTurn,
      st.session.activeTurnToolStarted || e == .toolStart) := by
  cases e with
  | toolStart => simp [Stream.feed, frame]
  | rootEnd => simp [Stream.feed, frame]
  | _ =>
    exact (frame_syncContextSnapshot _ _).trans ((frame_appendToRecord _ _).trans (by simp [frame]))

lemma frame_foldl (events : List StreamEvent) (st : Stream) :
    frame (events.foldl Stream.feed st).session = (st.session.main, st.session.interactive,
      st.session.failedTurn, st.session.activeTurnToolStarted || events.contains .toolStart) := by
  induction events generalizing st with
  | nil => simp [frame]
  | cons e events ih =>
    have hfeed := frame_feed st e
    simp only [frame, Prod.mk.injEq] at hfeed
    rw [foldl_cons, ih, hfeed.1, hfeed.2.1, hfeed.2.2.1, hfeed.2.2.2, contains_cons,
      Bool.or_assoc, Bool.beq_comm]

lemma frame_stream (events : List StreamEvent) :
    frame (s.stream events).session = (s.main, s.interactive, s.failedTurn,
      s.activeTurnToolStarted || events.contains .toolStart) :=
  frame_foldl events { session := { s with status := .streaming } }

lemma frame_finish : frame st.finish = frame st.session := by
  have hsync : ∀ (messages : List Message) (s : Session),
      frame (messages.foldl Session.appendToRecord s) = frame s := by
    intro messages
    induction messages with
    | nil => exact fun _ => rfl
    | cons m messages ih => exact fun s => (ih _).trans (frame_appendToRecord s m)
  have hmessages : ∀ (s : Session) (final : List Message) (skipCount : Nat),
      frame (s.syncMessages final skipCount) = frame s :=
    fun s final skipCount => (frame_syncContextSnapshot _ _).trans (hsync _ _)
  unfold Stream.finish
  cases st.finalMessages with
  | none => rfl
  | some => exact hmessages _ _ _

lemma frame_close (ending : Ending) : frame (st.close ending).2 = frame st.session := by
  have hfail : ∀ sync, frame (st.session.fail sync) = frame st.session := by
    intro sync
    unfold Session.fail
    split
    · rfl
    exact frame_rollbackOnError _ _ _ _
  cases ending with
  | done => exact frame_finish st
  | lateFailure => exact frame_finish st
  | aborted => exact (frame_finish _).trans (frame_rollbackOnError _ _ _ _)
  | badRequest => exact hfail _
  | failed => exact hfail _
  | cancelled => rfl
  | _ => exact frame_rollbackOnError _ _ _ _

lemma frame_invokeGraphOnce : frame (s.invokeGraphOnce t).2
      = (s.main, s.interactive, s.failedTurn, s.activeTurnToolStarted || startsTool t) := by
  have hstop : ∀ s' : Session, frame s'.finishPreStreamAbort = frame s' :=
    fun s' => frame_rollbackOnError _ _ _ _
  have hframe : frame s = (s.main, s.interactive, s.failedTurn, s.activeTurnToolStarted || false) := by
    rw [Bool.or_false]
    rfl
  unfold Session.invokeGraphOnce startsTool
  cases t.course with
  | unprepared => exact hframe
  | stopped phase =>
    cases phase with
    | preparation => exact (hstop _).trans hframe
    | compression => exact (hstop _).trans ((frame_checkAndCompressMessages _ _ _).trans hframe)
    | beforeStream => exact (hstop _).trans ((frame_prepare s t).trans hframe)
  | cancelledEarly => exact (frame_prepare s t).trans hframe
  | streamed events ending =>
    have hprepare := frame_prepare s t
    simp only [frame, Prod.mk.injEq] at hprepare
    refine (frame_close _ ending).trans ((frame_stream _ events).trans ?_)
    rw [hprepare.1, hprepare.2.1, hprepare.2.2.1, hprepare.2.2.2]

lemma frame_midTurn (events : List StreamEvent) :
    (midTurn s t events).supportsRecovery = s.supportsRecovery
      ∧ (midTurn s t events).failedTurn = none := by
  have hprepare := frame_prepare { s with failedTurn := none, activeTurnToolStarted := false } t
  simp only [frame, Prod.mk.injEq] at hprepare
  have hframe := frame_stream
    (({ s with failedTurn := none, activeTurnToolStarted := false } : Session).prepare t) events
  rw [hprepare.1, hprepare.2.1, hprepare.2.2.1] at hframe
  simp only [frame, Prod.mk.injEq] at hframe
  refine ⟨?_, hframe.2.2.1⟩
  unfold midTurn Session.supportsRecovery
  rw [hframe.1, hframe.2.1]

lemma invokeGraph_cases {s : Session} (hs : s.supportsRecovery = true) (t : Turn) :
    ∃ s' : Session, s'.supportsRecovery = true ∧ s'.failedTurn = none
      ∧ s'.activeTurnToolStarted = startsTool t
      ∧ (s.invokeGraph t = (.raised, (s'.restore s).keepFailedTurn t)
        ∨ s.invokeGraph t = (.returned, { s' with failedTurn := none, activeTurnToolStarted := false })
        ∨ s.invokeGraph t = (.cancelled, { s' with activeTurnToolStarted := false })) := by
  have hframe := frame_invokeGraphOnce { s with failedTurn := none, activeTurnToolStarted := false } t
  simp only [Session.invokeGraph, hs, if_true]
  cases hrun : ({ s with failedTurn := none, activeTurnToolStarted := false } : Session).invokeGraphOnce t with
  | mk outcome s' =>
    rw [hrun] at hframe
    simp only [frame, Bool.false_or, Prod.mk.injEq] at hframe
    have hs' : s'.supportsRecovery = true := by
      unfold Session.supportsRecovery
      rw [hframe.1, hframe.2.1]
      exact hs
    refine ⟨s', hs', hframe.2.2.1, hframe.2.2.2, ?_⟩
    cases outcome with
    | raised => exact .inl rfl
    | returned => exact .inr (.inl rfl)
    | cancelled => exact .inr (.inr rfl)

/-! ## What stays true of an offer -/

/-- The offer in memory is lawful, and one that the file shares has its context. -/
structure Kept (w : World) : Prop where
  live : w.live.supportsRecovery = true
  disk : w.disk.supportsRecovery = true
  lawful : offered w.live = true → ∃ o, w.offer = some o ∧ o.toolStarted = false
    ∧ o.later = false ∧ o.retried = false ∧ w.live.lcMessages = o.startContext
  same : offered w.disk = true → w.disk.failedTurn = w.live.failedTurn →
    w.disk.lcMessages = w.live.lcMessages

lemma Kept.of_notOffered {w : World} (hlive : w.live.supportsRecovery = true)
    (hdisk : w.disk.supportsRecovery = true) (hnone : offered w.live = false) : Kept w where
  live := hlive
  disk := hdisk
  lawful hoffered := absurd hoffered (by simp [hnone])
  same hoffered heq := by
    have hnot : offered w.disk = false := by rw [← hnone, offered, offered, heq]
    exact absurd hoffered (by simp [hnot])

lemma kept_finishes {w : World} {request : Request} {s disk : Session} {t : Turn}
    (hs : s.supportsRecovery = true) (hdisk : disk.supportsRecovery = true) :
    Kept (w.finishes request s t disk) := by
  obtain ⟨s', hs', hnone, htool, h | h | h⟩ := invokeGraph_cases hs t
  · have hw : w.finishes request s t disk
        = { live := (s'.restore s).keepFailedTurn t, disk := (s'.restore s).keepFailedTurn t
            offer := some { startContext := s.lcMessages, toolStarted := startsTool t } } := by
      simp only [World.finishes, h, Session.scoped, hs, if_true]
    rw [hw]
    refine { live := hs', disk := hs', lawful := ?_, same := fun _ _ => rfl }
    intro hoffered
    have hquiet : (t.fromUser && !s'.activeTurnToolStarted) = true := hoffered
    rw [htool, Bool.and_eq_true, Bool.not_eq_true'] at hquiet
    exact ⟨_, rfl, hquiet.2, rfl, rfl, rfl⟩
  · have hkeeps : (w.finishes request s t disk).live.supportsRecovery = true
        ∧ (w.finishes request s t disk).disk.supportsRecovery = true
        ∧ (w.finishes request s t disk).live.failedTurn = none := by
      simp only [World.finishes, h, Session.scoped]
      refine ⟨hs', ?_, trivial⟩
      split
      · exact hs'
      exact hdisk
    exact Kept.of_notOffered hkeeps.1 hkeeps.2.1 (by rw [offered, hkeeps.2.2]; rfl)
  have hw : w.finishes request s t disk
      = { live := ({ s' with activeTurnToolStarted := false } : Session).restore s, disk := disk
          offer := w.noted request } := by
    simp only [World.finishes, h, Session.scoped]
  rw [hw]
  exact Kept.of_notOffered hs' hdisk (by simp [offered, Session.restore, hnone])

lemma begins_keeps {w : World} (h : Kept w) {request : Request} {b : Session × Turn × Session}
    (hb : w.begins request = some b) : b.1.supportsRecovery = true ∧ b.2.2.supportsRecovery = true
      ∧ (offered b.2.2 = true → request.isRetry = false ∧ b.2.2 = w.disk) := by
  cases request with
  | send =>
    simp only [World.begins] at hb
    split at hb
    · cases hb
    obtain rfl := some.inj hb
    exact ⟨h.live, h.disk, fun _ => ⟨rfl, rfl⟩⟩
  | edit =>
    simp only [World.begins] at hb
    split at hb
    · cases hb
    obtain rfl := some.inj hb
    have htruncate : ∀ target cut, (w.live.truncate target cut).supportsRecovery = true := by
      intro target cut
      have hframe := frame_syncContextSnapshot { w.live with
        record := w.live.record.take target, lcMessages := w.live.lcMessages.take cut } false
      simp only [frame, Prod.mk.injEq] at hframe
      show ((w.live.truncate target cut).main && (w.live.truncate target cut).interactive) = true
      rw [Session.truncate, hframe.1, hframe.2.1]
      exact h.live
    exact ⟨htruncate _ _, h.disk, fun _ => ⟨rfl, rfl⟩⟩
  | retry =>
    simp only [World.begins] at hb
    split at hb
    · obtain rfl := some.inj hb
      exact ⟨h.live, h.live, fun hoffered => absurd hoffered (by simp [offered])⟩
    cases hb

lemma kept_step {w w' : World} {e : Event} (h : Kept w) (hmeets : Meets w e)
    (hstep : step w e = some w') : Kept w' := by
  cases e with
  | turn =>
    obtain ⟨b, hb, rfl⟩ := map_eq_some_iff.1 hstep
    have hkeeps := begins_keeps h hb
    exact kept_finishes hkeeps.1 hkeeps.2.1
  | crashedTurn request flushed =>
    obtain ⟨b, hb, rfl⟩ := map_eq_some_iff.1 hstep
    have hkeeps := begins_keeps h hb
    cases flushed with
    | some events =>
      -- the flush has written the session in which nothing is offered any more
      obtain ⟨hsame, hnone⟩ := frame_midTurn b.1 b.2.1 events
      have hmid := hsame.trans hkeeps.1
      exact Kept.of_notOffered hmid hmid (by simp [offered, Session.reload, hnone])
    | none =>
      have hnone : offered b.2.2 = false := by
        by_contra hoffered
        rw [Bool.not_eq_false] at hoffered
        have hsame := hkeeps.2.2 hoffered
        rcases hmeets with hretry | hflushed | hdisk
        · exact absurd hretry (by simp [hsame.1])
        · cases hflushed
        exact absurd hoffered (by simp [hsame.2, hdisk])
      exact Kept.of_notOffered hkeeps.2.1 hkeeps.2.1 hnone
  | compress c =>
    obtain rfl := some.inj hstep
    have hframe : frame (w.live.compress c) = frame w.live := by
      unfold Session.compress
      split
      · rfl
      exact frame_checkAndCompressMessages _ _ _
    simp only [frame, Prod.mk.injEq] at hframe
    have hlive : (w.live.compress c).supportsRecovery = true := by
      unfold Session.supportsRecovery
      rw [hframe.1, hframe.2.1]
      exact h.live
    have hoffer : offered (w.live.compress c) = offered w.live := by rw [offered, offered, hframe.2.2.1]
    rcases hmeets with hnone | hcontext
    · exact Kept.of_notOffered hlive h.disk (hoffer.trans hnone)
    refine { live := hlive, disk := h.disk, lawful := fun hoffered => ?_, same := fun hoffered heq => ?_ }
    · show ∃ o, w.offer = some o ∧ _ ∧ _ ∧ _ ∧ (w.live.compress c).lcMessages = _
      rw [hcontext]
      exact h.lawful (hoffer.symm.trans hoffered)
    exact (h.same hoffered (heq.trans hframe.2.2.1)).trans hcontext.symm
  | flush =>
    obtain rfl := some.inj hstep
    exact { live := h.live, disk := h.live, lawful := h.lawful, same := fun _ _ => rfl }
  | crash =>
    obtain rfl := some.inj hstep
    rcases hmeets with hnone | ⟨hsame, hcontext⟩
    · exact Kept.of_notOffered h.disk h.disk hnone
    refine { live := h.disk, disk := h.disk, lawful := fun hoffered => ?_, same := fun _ _ => hcontext.symm }
    have hdisk : offered w.disk = true := hoffered
    show ∃ o, w.offer = some o ∧ _ ∧ _ ∧ _ ∧ w.disk.reload.lcMessages = _
    rw [hcontext, h.same hdisk hsame]
    exact h.lawful (by rw [← hdisk, offered, offered, hsame])
  | _ =>
    obtain rfl := some.inj hstep
    exact { live := h.live, disk := h.disk, lawful := h.lawful, same := h.same }

/-! ## The retries of a run -/

def started (systemPrompt : String) (compressor : Bool) : World where
  live := newSession systemPrompt true true compressor
  disk := newSession systemPrompt true true compressor

/-- **Where no crash brings back an offer that was taken back, a reload
rebuilds the context of the one it finds, and no compression changes it, every
retry that is accepted is lawful.** -/
theorem retry_lawful {systemPrompt : String} {compressor : Bool} {events : List Event}
    (halong : Runs.Along step Meets (started systemPrompt compressor) events) :
    Runs.Always step Lawful (started systemPrompt compressor) events := by
  have hstart : Kept (started systemPrompt compressor) := Kept.of_notOffered rfl rfl rfl
  refine (Runs.always_of_along (fun _ _ _ => kept_step) hstart halong).mono ?_
  intro _ hkept haccepted
  refine hkept.lawful ?_
  simp only [acceptsRetry, Bool.and_eq_true, Option.any_eq_true] at haccepted
  obtain ⟨-, failed, hfailed, hretryable, -⟩ := haccepted
  exact (Option.any_eq_true _ _).2 ⟨failed, hfailed, hretryable⟩

def failingTurn (content : String) : Turn where
  content := content
  course := .streamed [] .failed

theorem retry_lawful_retried :
    (∃ w, Runs.run step (started "" false) [.turn (.send (failingTurn "a"))] = some w
        ∧ acceptsRetry w.live = true)
      ∧ Runs.Always step Lawful (started "" false)
        [.turn (.send (failingTurn "a")), .turn (.retry (failingTurn "")),
          .crashedTurn (.send (failingTurn "b")) (some [.toolStart])] :=
  ⟨⟨_, rfl, by decide +kernel⟩,
    retry_lawful ⟨trivial, fun _ _ => ⟨trivial, fun _ _ => ⟨.inr (.inl rfl), fun _ _ => trivial⟩⟩⟩⟩

/-- The next turn starts a tool, and the process dies before the next flush: the
first turn is offered again after it. -/
theorem offer_comes_back : ∃ w, Runs.run step (started "" false) [.turn (.send (failingTurn "a")),
          .crashedTurn (.send { failingTurn "b" with course := .streamed [.toolStart] .done }) none] = some w
      ∧ acceptsRetry w.live = true ∧ w.offer.map (·.later) = some true ∧ ¬ Lawful w := by
  refine ⟨_, rfl, by decide +kernel, rfl, fun hlawful => ?_⟩
  obtain ⟨_, ho, -, hlater, -⟩ := hlawful (by decide +kernel)
  obtain rfl := some.inj ho
  cases hlater

end DeterminFlow.Chat.RetryOffer
