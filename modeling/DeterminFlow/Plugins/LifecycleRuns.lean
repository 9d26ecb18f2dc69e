/-
  Plugins.LifecycleRuns
  **RUNNING ON RUNNING DEPENDENCIES.**

  A cascade goes through the dependents once.  An extension that becomes running
  after the cascade has passed it is stopped by nobody; where this does not happen,
  whatever runs has its dependencies running.
-/
import DeterminFlow.Plugins.Lifecycle

namespace DeterminFlow.Plugins.Extensions

open Library List Option Lifecycle

/-! ## The invariant -/

def Status.active : Status → Bool
  | .loaded | .blocked | .starting | .running => true
  | _ => false

def Handler.Dooms (x : String) : Handler → Prop
  | .blocking owner _ dependent _ => x = owner ∨ x = dependent
  | .degrading owner _ => x = owner
  | _ => False

def Handler.Passed (r : Registry) (x : String) : Handler → Prop
  | .blocking owner _ _ rest => x ∈ affected r owner ∧ x ∉ rest
  | .degrading owner _ => x ∈ affected r owner
  | _ => False

/-- `stop` has gone past the extension. -/
def StopTask.Passed (order : List String) (x : String) : StopTask → Prop
  | .awaiting id rest => x ∈ order ∧ x ∉ rest ∧ x ≠ id
  | .idle => False

/-- `stop` is stopping the extension. -/
def StopTask.Holds (x : String) : StopTask → Prop
  | .awaiting id _ => x = id
  | .idle => False

def Doomed (s : Lifecycle) (x : String) : Prop := ∃ h ∈ s.handlers, h.Dooms x

/-- The order of the registry: what may be started comes after its dependencies. -/
structure Planned (r : Registry) : Prop where
  nodup : r.order.Nodup
  placed : ∀ x, Startable r x →
    x ∈ r.order ∧ ∀ d ∈ r.dependencies x, Startable r d → Before r.order d x

/-- **The invariant**: what runs has its dependencies running, or is doomed. -/
structure Inv (r : Registry) (s : Lifecycle) : Prop where
  order : s.registry.order = r.order
  manifests : s.registry.manifests = r.manifests
  live : ∀ x status, s.status x = some status → status.active = true → Startable r x
  started : ∀ x ∈ s.started, Startable r x
  stopping : ∀ id rest, s.stop = .awaiting id rest →
    Startable r id ∧ ∃ pre, r.order.reverse = pre ++ id :: rest
  blocking : ∀ owner error d rest, Handler.blocking owner error d rest ∈ s.handlers →
    Startable r d ∧ d ∈ affected r owner ∧ ∃ pre, r.order.reverse = pre ++ d :: rest
  safe : ∀ x, s.status x = some .running → ∀ d ∈ r.dependencies x,
    s.status d = some .running ∨ Doomed s x
  passed : ∀ h ∈ s.handlers, ∀ x, h.Passed r x → s.status x = some .running → Doomed s x
  stopped : ∀ x, s.stop.Passed r.order x → s.status x = some .running → Doomed s x
  listed : ∀ x, s.status x = some .running → x ∈ s.started ∨ Doomed s x ∨ s.stop.Holds x

def StartOk (r : Registry) (s : Lifecycle) : Prop :=
  ∀ id, s.isStarting id = true → Startable r id ∧ s.status id ≠ some .running

section
variable {r : Registry} {s s' : Lifecycle}

lemma Inv.dependencies (h : Inv r s) (x : String) :
    s.registry.dependencies x = r.dependencies x := by
  unfold Registry.dependencies
  rw [h.manifests]

lemma Inv.affected (h : Inv r s) (owner : String) :
    Extensions.affected s.registry owner = Extensions.affected r owner := by
  unfold Extensions.affected
  rw [h.order]
  congr 1
  funext acc candidate
  unfold addDependent
  rw [h.dependencies]

lemma status_set (s : Lifecycle) (x : String) (status : Status) (error : String) (y : String) :
    (s.setState x status error).status y = if y = x then some status else s.status y :=
  status_setState s.registry x status error y

variable {x : String}

lemma running_of_set {status : Status} {error : String} (hne : status ≠ .running) {y : String}
    (hy : (s.setState x status error).status y = some .running) :
    y ≠ x ∧ s.status y = some .running := by
  rw [status_set] at hy
  split at hy
  · exact absurd (some.inj hy) hne
  · next hyx => exact ⟨hyx, hy⟩

lemma Inv.running (h : Inv r s) (hx : s.status x = some .running) : Startable r x :=
  h.live x .running hx rfl

lemma Inv.setState (h : Inv r s) {status : Status} (error : String) (hne : status ≠ .running)
    (hlive : status.active = true → Startable r x)
    (hdown : s.status x = some .running → ∀ y, s.status y = some .running → y ≠ x →
      x ∈ r.dependencies y → Doomed s y) : Inv r (s.setState x status error) := by
  constructor
  · exact h.order
  · exact h.manifests
  · intro y st hy hactive
    rw [status_set] at hy
    split at hy
    · next hyx =>
      obtain rfl := some.inj hy
      exact hyx ▸ hlive hactive
    exact h.live y st hy hactive
  · exact h.started
  · exact h.stopping
  · exact h.blocking
  · intro y hy d hd
    obtain ⟨hyx, hrunning⟩ := running_of_set hne hy
    rcases h.safe y hrunning d hd with hdrunning | hdoomed
    · by_cases hdx : d = x
      · exact .inr (hdown (hdx ▸ hdrunning) y hrunning hyx (hdx ▸ hd))
      left
      rw [status_set, if_neg hdx]
      exact hdrunning
    exact .inr hdoomed
  · exact fun g hg y hpassed hy => h.passed g hg y hpassed (running_of_set hne hy).2
  · exact fun y hpassed hy => h.stopped y hpassed (running_of_set hne hy).2
  exact fun y hy => h.listed y (running_of_set hne hy).2

lemma Inv.setIdle (h : Inv r s) {status : Status} (error : String) (hne : status ≠ .running)
    (hlive : status.active = true → Startable r x) (hx : s.status x ≠ some .running) :
    Inv r (s.setState x status error) :=
  h.setState error hne hlive (fun hrunning => absurd hrunning hx)

lemma Inv.blockStarting (h : Inv r s) (owner : String) (degrading : List String) :
    Inv r { s with degrading := degrading, registry := blockStarting s.registry owner } := by
  obtain ⟨horder, hmanifests, hstatus⟩ := blockStarting_spec s.registry owner
  have hrunning : ∀ y, (Extensions.blockStarting s.registry owner).status y = some .running →
      s.status y = some .running := by
    intro y hy
    rcases hstatus y with hsame | ⟨-, hblocked⟩
    · exact hsame.symm.trans hy
    rw [hblocked] at hy
    cases hy
  constructor
  · exact horder.trans h.order
  · exact hmanifests.trans h.manifests
  · intro y st hy hactive
    rcases hstatus y with hsame | ⟨hstarting, -⟩
    · exact h.live y st (hsame.symm.trans hy) hactive
    exact h.live y .starting hstarting rfl
  · exact h.started
  · exact h.stopping
  · exact h.blocking
  · intro y hy d hd
    rcases h.safe y (hrunning y hy) d hd with hdrunning | hdoomed
    · left
      rcases hstatus d with hsame | ⟨hstarting, -⟩
      · exact hsame.trans hdrunning
      rw [show s.registry.status d = some .running from hdrunning] at hstarting
      cases hstarting
    exact .inr hdoomed
  · exact fun g hg y hpassed hy => h.passed g hg y hpassed (hrunning y hy)
  · exact fun y hpassed hy => h.stopped y hpassed (hrunning y hy)
  exact fun y hy => h.listed y (hrunning y hy)

lemma Inv.congr (h : Inv r s) (hregistry : s'.registry = s.registry)
    (hstarted : s'.started = s.started) (hstop : s'.stop = s.stop)
    (hhandlers : s'.handlers = s.handlers) : Inv r s' := by
  obtain ⟨registry, _, started, stopping, _, _, _, _, stop, handlers,
    _⟩ := s
  obtain ⟨_, _, _, _, _, _, _, _, _,
    _, _⟩ := s'
  simp only at hregistry hstarted hstop hhandlers
  subst hregistry hstarted hstop hhandlers
  exact ⟨h.order, h.manifests, h.live, h.started, h.stopping, h.blocking, h.safe, h.passed, h.stopped,
    h.listed⟩

lemma Inv.addStarted (h : Inv r s) {id : String} (hid : Startable r id) :
    Inv r { s with started := id :: s.started } := by
  refine ⟨h.order, h.manifests, h.live, fun x hx => ?_, h.stopping, h.blocking, h.safe, h.passed,
    h.stopped, fun x hx => ?_⟩
  · rcases mem_cons.1 hx with rfl | hx
    · exact hid
    exact h.started x hx
  exact (h.listed x hx).imp (fun hmem => mem_cons_of_mem _ hmem) (fun hrest => hrest)

lemma Inv.discard (h : Inv r s) {id : String} (hid : s.status id ≠ some .running) :
    Inv r (s.discard id) := by
  refine ⟨h.order, h.manifests, h.live, fun x hx => h.started x (mem_filter.1 hx).1, h.stopping,
    h.blocking, h.safe, h.passed, h.stopped, fun x hx => ?_⟩
  refine (h.listed x hx).imp (fun hmem => mem_filter.2 ⟨hmem, decide_eq_true ?_⟩)
    (fun hrest => hrest)
  rintro rfl
  exact hid hx

lemma Inv.promote (h : Inv r s) (hlive : Startable r x)
    (hdependencies : ∀ d ∈ r.dependencies x, s.status d = some .running)
    (hpassed : ∀ g ∈ s.handlers, g.Passed r x → g.Dooms x) (hstop : ¬ s.stop.Passed r.order x)
    (hlisted : x ∈ s.started ∨ s.stop.Holds x) : Inv r (s.setState x .running) := by
  have hkept : ∀ d, s.status d = some .running →
      (s.setState x .running).status d = some .running := by
    intro d hd
    rw [status_set]
    split
    · rfl
    exact hd
  have hold : ∀ y, (s.setState x .running).status y = some .running →
      y = x ∨ s.status y = some .running := by
    intro y hy
    rw [status_set] at hy
    split at hy
    · next hyx => exact .inl hyx
    exact .inr hy
  constructor
  · exact h.order
  · exact h.manifests
  · intro y st hy hactive
    rw [status_set] at hy
    split at hy
    · next hyx => exact hyx ▸ hlive
    exact h.live y st hy hactive
  · exact h.started
  · exact h.stopping
  · exact h.blocking
  · intro y hy d hd
    rcases hold y hy with rfl | hrunning
    · exact .inl (hkept d (hdependencies d hd))
    exact (h.safe y hrunning d hd).imp (hkept d) (fun hdoomed => hdoomed)
  · intro g hg y hgone hy
    rcases hold y hy with rfl | hrunning
    · exact ⟨g, hg, hpassed g hg hgone⟩
    exact h.passed g hg y hgone hrunning
  · intro y hgone hy
    rcases hold y hy with rfl | hrunning
    · exact absurd hgone hstop
    exact h.stopped y hgone hrunning
  intro y hy
  rcases hold y hy with rfl | hrunning
  · exact hlisted.imp (fun hmem => hmem) (fun hholds => .inr hholds)
  exact h.listed y hrunning

lemma Inv.push (h : Inv r s) (owner error : String) (attempt : Nat) :
    Inv r { s with handlers := s.handlers ++ [.waiting owner error attempt] } := by
  have hdoomed : ∀ x, Doomed s x →
      Doomed { s with handlers := s.handlers ++ [.waiting owner error attempt] } x := by
    rintro x ⟨g, hg, hdooms⟩
    exact ⟨g, mem_append_left _ hg, hdooms⟩
  refine ⟨h.order, h.manifests, h.live, h.started, h.stopping, ?_, ?_, ?_, ?_, ?_⟩
  · intro o e d rest hmem
    rcases mem_append.1 hmem with hmem | hmem
    · exact h.blocking o e d rest hmem
    exact Handler.noConfusion (mem_singleton.1 hmem)
  · exact fun x hx d hd => (h.safe x hx d hd).imp (fun hrunning => hrunning) (hdoomed x)
  · intro g hg x hpassed hx
    rcases mem_append.1 hg with hg | hg
    · exact hdoomed x (h.passed g hg x hpassed hx)
    rw [mem_singleton.1 hg] at hpassed
    exact absurd hpassed id
  · exact fun x hpassed hx => hdoomed x (h.stopped x hpassed hx)
  exact fun x hx => (h.listed x hx).imp (fun hmem => hmem) (Or.imp_left (hdoomed x))

lemma Inv.replace (h : Inv r s) {i : Nat} {old new : Handler} (hi : s.handlers[i]? = some old)
    {started : List String} (hsub : ∀ x ∈ started, x ∈ s.started)
    (hstarted : ∀ x ∈ s.started, s.status x = some .running → x ∈ started ∨ new.Dooms x)
    (hdooms : ∀ x, s.status x = some .running → old.Dooms x → new.Dooms x)
    (hpassed : ∀ x, new.Passed r x → s.status x = some .running → Doomed s x ∨ new.Dooms x)
    (hblocking : ∀ owner error d rest, new = .blocking owner error d rest →
      Startable r d ∧ d ∈ Extensions.affected r owner ∧ ∃ pre, r.order.reverse = pre ++ d :: rest) :
    Inv r ({ s with started := started }.setHandler i new) := by
  have hlength : i < s.handlers.length := (List.getElem?_eq_some_iff.1 hi).1
  have hnew : new ∈ s.handlers.set i new := List.mem_set hlength new
  have hdoomed : ∀ x, s.status x = some .running → Doomed s x →
      Doomed ({ s with started := started }.setHandler i new) x := by
    rintro x hx ⟨g, hg, hg'⟩
    obtain ⟨j, hj⟩ := getElem?_of_mem hg
    by_cases hij : i = j
    · subst hij
      obtain rfl := some.inj (hi.symm.trans hj)
      exact ⟨new, hnew, hdooms x hx hg'⟩
    exact ⟨g, mem_of_getElem? ((getElem?_set_ne hij).trans hj), hg'⟩
  refine ⟨h.order, h.manifests, h.live, fun x hx => h.started x (hsub x hx), h.stopping, ?_, ?_, ?_,
    ?_, ?_⟩
  · intro owner error d rest hmem
    rcases mem_or_eq_of_mem_set hmem with hmem | heq
    · exact h.blocking owner error d rest hmem
    exact hblocking owner error d rest heq.symm
  · exact fun x hx d hd => (h.safe x hx d hd).imp (fun hrunning => hrunning) (hdoomed x hx)
  · intro g hg x hgone hx
    rcases mem_or_eq_of_mem_set hg with hg | rfl
    · exact hdoomed x hx (h.passed g hg x hgone hx)
    rcases hpassed x hgone hx with hd | hd
    · exact hdoomed x hx hd
    exact ⟨g, hnew, hd⟩
  · exact fun x hgone hx => hdoomed x hx (h.stopped x hgone hx)
  intro x hx
  rcases h.listed x hx with hmem | hd | hholds
  · exact (hstarted x hmem hx).imp (fun hin => hin) (fun hd => .inl ⟨new, hnew, hd⟩)
  · exact .inr (.inl (hdoomed x hx hd))
  exact .inr (.inr hholds)

lemma StartOk.mono (h : StartOk r s) (hstart : s'.start = s.start)
    (hrunning : ∀ x, s'.status x = some .running → s.status x = some .running) : StartOk r s' := by
  intro id hid
  have hsame : s'.isStarting id = s.isStarting id := by
    unfold isStarting
    rw [hstart]
  obtain ⟨hlive, hidle⟩ := h id (hsame ▸ hid)
  exact ⟨hlive, fun hx => hidle (hrunning id hx)⟩

end

/-! ## The tasks keep the invariant -/

section
variable {r : Registry} {s : Lifecycle}

lemma nextStart_inv (h : Inv r s) (ids : List String) :
    Inv r (s.nextStart ids) ∧ StartOk r (s.nextStart ids) := by
  induction ids generalizing s with
  | nil => exact ⟨h.congr rfl rfl rfl rfl, nofun⟩
  | cons id rest ih =>
    unfold nextStart
    by_cases hloaded : s.status id = some .loaded
    · rw [if_neg (not_not.2 hloaded)]
      have hlive : Startable r id := h.live id .loaded hloaded rfl
      have hidle : s.status id ≠ some .running := by
        rw [hloaded]
        exact nofun
      split
      · next error _ =>
        exact ih (h.setIdle error (by decide) (fun _ => hlive) hidle)
      have hstarting : Inv r (s.setState id .starting) :=
        h.setIdle "" (by decide) (fun _ => hlive) hidle
      refine ⟨hstarting.congr rfl rfl rfl rfl, fun other hother => ?_⟩
      obtain rfl : id = other := of_decide_eq_true hother
      refine ⟨hlive, ?_⟩
      show (s.setState id .starting).status id ≠ some .running
      rw [status_set, if_pos rfl]
      exact nofun
    rw [if_pos hloaded]
    exact ih h

lemma notMem_rest (hplan : Planned r) {d y : String} {pre rest : List String}
    (hsplit : r.order.reverse = pre ++ d :: rest) (hbefore : Before r.order d y) : y ∉ rest :=
  fun hmem => hbefore.asymm hplan.nodup (Before.reverse hsplit hmem)

variable {error : String} {i : Nat} {old : Handler}

lemma cascade_inv (h : Inv r s) (hi : s.handlers[i]? = some old) {owner : String}
    {ids : List String} (hids : ∃ pre, r.order.reverse = pre ++ ids)
    (hdooms : ∀ x, s.status x = some .running → old.Dooms x → x = owner)
    (hpassed : ∀ x, x ∈ affected r owner → x ∉ ids → s.status x = some .running →
      x = owner ∨ Doomed s x) :
    Inv r ((s.cascade owner error ids).1.setHandler i (s.cascade owner error ids).2) := by
  obtain ⟨front, hfront⟩ := hids
  have hskipped : ∀ x, Skipped s owner x → x ∈ affected r owner → s.status x = some .running →
      x = owner := by
    rintro x (howner | hnot | hidle) hmem hx
    · exact howner
    · rw [h.affected] at hnot
      exact absurd hmem hnot
    exact absurd hx hidle
  rcases @cascade_spec s owner error ids with ⟨d, pre, rest, rfl, hpre, hd, hrun⟩ | ⟨hall, hrun⟩
  · obtain ⟨_, hdaffected, hdrunning⟩ :
        d ≠ owner ∧ d ∈ affected r owner ∧ s.status d = some .running := by
      refine ⟨fun heq => hd (.inl heq), ?_, ?_⟩
      · by_contra hnot
        exact hd (.inr (.inl (h.affected owner ▸ hnot)))
      by_contra hidle
      exact hd (.inr (.inr hidle))
    rw [hrun]
    apply h.replace hi
    · exact fun x hx => (mem_filter.1 hx).1
    · intro x hx _
      by_cases hxd : x = d
      · exact .inr (.inr hxd)
      exact .inl (mem_filter.2 ⟨hx, decide_eq_true hxd⟩)
    · exact fun x hx hold => .inl (hdooms x hx hold)
    · rintro x ⟨hmem, hrest⟩ hx
      by_cases hin : x ∈ pre ++ d :: rest
      · rcases mem_append.1 hin with hin | hin
        · exact .inr (.inl (hskipped x (hpre x hin) hmem hx))
        rcases mem_cons.1 hin with rfl | hin
        · exact .inr (.inr rfl)
        exact absurd hin hrest
      rcases hpassed x hmem hin hx with howner | hdoomed
      · exact .inr (.inl howner)
      exact .inl hdoomed
    intro _ _ _ _ heq
    injection heq with howner _ hdd hrest
    subst howner hdd hrest
    exact ⟨h.running hdrunning, hdaffected, front ++ pre, by rw [hfront, append_assoc]⟩
  rw [hrun]
  apply h.replace hi
  · exact fun x hx => (mem_filter.1 hx).1
  · intro x hx _
    by_cases hxo : x = owner
    · exact .inr hxo
    exact .inl (mem_filter.2 ⟨hx, decide_eq_true hxo⟩)
  · exact hdooms
  · intro x hmem hx
    by_cases hin : x ∈ ids
    · exact .inr (hskipped x (hall x hin) hmem hx)
    rcases hpassed x hmem hin hx with howner | hdoomed
    · exact .inr howner
    exact .inl hdoomed
  exact nofun

lemma done_inv (h : Inv r s) (hi : s.handlers[i]? = some old)
    (hdooms : ∀ x, s.status x = some .running → ¬ old.Dooms x) : Inv r (s.setHandler i .done) := by
  have hreplaced : Inv r ({ s with started := s.started }.setHandler i .done) :=
    h.replace hi (fun _ hx => hx) (fun _ hx _ => .inl hx)
      (fun x hx hold => absurd hold (hdooms x hx)) (fun _ hgone => absurd hgone id)
      (nofun)
  exact hreplaced.congr rfl rfl rfl rfl

lemma wake_inv (h : Inv r s) {owner : String} {attempt : Nat}
    (hi : s.handlers[i]? = some (.waiting owner error attempt)) : Inv r (s.wake i owner error) := by
  unfold Lifecycle.wake
  split
  · exact done_inv h hi (fun _ _ => id)
  have hblocked := h.blockStarting owner (owner :: s.degrading)
  have hreverse : s.registry.order.reverse = r.order.reverse := by rw [h.order]
  refine cascade_inv hblocked hi ⟨[], hreverse.symm⟩ (fun _ _ hold => absurd hold id) ?_
  intro _ hmem hout _
  rcases mem_order_of_affected hmem with howner | hin
  · exact .inl howner
  exact absurd (hreverse ▸ mem_reverse.2 hin) hout

lemma nextStop_inv (h : Inv r s) (hidle : s.stop = .idle) {ids : List String}
    (hids : ∃ pre, r.order.reverse = pre ++ ids)
    (hpassed : ∀ x ∈ r.order, x ∉ ids → s.status x = some .running → Doomed s x) :
    Inv r (s.nextStop ids) := by
  induction ids generalizing s with
  | nil => exact h.congr rfl rfl hidle.symm rfl
  | cons id rest ih =>
    have hrest : ∃ pre, r.order.reverse = pre ++ rest := by
      obtain ⟨pre, hpre⟩ := hids
      exact ⟨pre ++ [id], by rw [hpre, append_assoc]; rfl⟩
    unfold nextStop
    by_cases hstarted : id ∈ s.started
    · rw [if_pos hstarted]
      refine ⟨h.order, h.manifests, h.live, fun x hx => h.started x (mem_filter.1 hx).1, ?_,
        h.blocking, h.safe, h.passed, ?_, ?_⟩
      · intro _ _ heq
        injection heq with hother hlater
        subst hother hlater
        exact ⟨h.started id hstarted, hids⟩
      · rintro x ⟨hmem, hout, hne⟩ hx
        exact hpassed x hmem (fun hin => (mem_cons.1 hin).elim hne hout) hx
      intro x hx
      by_cases hxid : x = id
      · exact .inr (.inr hxid)
      rcases h.listed x hx with hmem | hdoomed | hholds
      · exact .inl (mem_filter.2 ⟨hmem, decide_eq_true hxid⟩)
      · exact .inr (.inl hdoomed)
      rw [hidle] at hholds
      exact absurd hholds (fun hfalse => hfalse)
    rw [if_neg hstarted]
    have hdoomed : s.status id = some .running → Doomed s id := by
      intro hx
      rcases h.listed id hx with hmem | hdoomed | hholds
      · exact absurd hmem hstarted
      · exact hdoomed
      rw [hidle] at hholds
      exact absurd hholds (fun hfalse => hfalse)
    by_cases hblocked : id ∈ s.extensions ∧ s.status id = some .blocked
    · rw [if_pos hblocked]
      have hlive : Startable r id := h.live id .blocked hblocked.2 rfl
      have hset : Inv r (s.setState id .loaded) := by
        refine h.setIdle "" (by decide) (fun _ => hlive) ?_
        rw [hblocked.2]
        exact nofun
      refine ih hset hidle hrest (fun x hmem hout hx => ?_)
      obtain ⟨hxid, hrunning⟩ := running_of_set (by decide) hx
      exact hpassed x hmem (fun hin => (mem_cons.1 hin).elim hxid hout) hrunning
    rw [if_neg hblocked]
    refine ih h hidle hrest (fun x hmem hout hx => ?_)
    by_cases hxid : x = id
    · exact hxid ▸ hdoomed (hxid ▸ hx)
    exact hpassed x hmem (fun hin => (mem_cons.1 hin).elim hxid hout) hx

end

/-! ## One step -/

section
variable {r : Registry} {s s' : Lifecycle} {strict : Bool}

/-- **The condition on a step**: an extension becomes running only where no cascade
and no stop has gone past it. -/
def Timely (s : Lifecycle) (e : Event) : Prop :=
  ∀ id rest, s.start = .awaiting id .tools rest → e = .resumeStart (.ok ()) →
    s.status id ≠ some .blocked → s.registry.dependencyError id .running = none →
    (∀ h ∈ s.handlers, h.Passed s.registry id → h.Dooms id)
      ∧ ¬ s.stop.Passed s.registry.order id ∧ (id ∈ s.started ∨ s.stop.Holds id)

lemma nextStop_start (ids : List String) (s : Lifecycle) : (s.nextStop ids).start = s.start
      ∧ ∀ x, (s.nextStop ids).status x = some .running → s.status x = some .running := by
  induction ids generalizing s with
  | nil => exact ⟨rfl, fun _ hx => hx⟩
  | cons id rest ih =>
    unfold nextStop
    split
    · exact ⟨rfl, fun _ hx => hx⟩
    split
    · obtain ⟨hstart, hrunning⟩ := ih (s.setState id .loaded)
      exact ⟨hstart, fun x hx => (running_of_set (by decide) (hrunning x hx)).2⟩
    exact ih s

lemma cascade_start (ids : List String) (s : Lifecycle) (owner error : String) :
    (s.cascade owner error ids).1.start = s.start
      ∧ (s.cascade owner error ids).1.registry = s.registry := by
  rcases @cascade_spec s owner error ids with ⟨_, _, _, -, -, -, hrun⟩ | ⟨-, hrun⟩
  all_goals
    rw [hrun]
    exact ⟨rfl, rfl⟩

lemma wake_start (s : Lifecycle) (i : Nat) (owner error : String) :
    (s.wake i owner error).start = s.start
      ∧ ∀ x, (s.wake i owner error).status x = some .running → s.status x = some .running := by
  unfold Lifecycle.wake
  split
  · exact ⟨rfl, fun _ hx => hx⟩
  obtain ⟨hstart, hregistry⟩ := cascade_start s.registry.order.reverse
    { s with degrading := owner :: s.degrading, registry := blockStarting s.registry owner }
    owner error
  refine ⟨hstart, fun x hx => ?_⟩
  unfold Lifecycle.status setHandler at hx
  simp only [hregistry] at hx
  rcases (blockStarting_spec s.registry owner).2.2 x with hsame | ⟨-, hblocked⟩
  · exact hsame.symm.trans hx
  rw [hblocked] at hx
  cases hx

lemma giveUp_inv (h : Inv r s) {id : String} (hlive : Startable r id)
    (hidle : s.status id ≠ some .running) (exc : Option String) (rest : List String) :
    Inv r (s.giveUp id exc rest) ∧ StartOk r (s.giveUp id exc rest) := by
  refine ⟨(h.discard hidle).congr rfl rfl rfl rfl, fun other hother => ?_⟩
  obtain rfl : id = other := of_decide_eq_true hother
  exact ⟨hlive, hidle⟩

lemma advance_inv (h : Inv r s) {id : String} {phase : Phase} {rest : List String}
    (hlive : Startable r id) (hidle : s.status id ≠ some .running)
    (hdependencies : ∀ d ∈ r.dependencies id, s.status d = some .running)
    (htimely : phase = .tools → (∀ g ∈ s.handlers, g.Passed r id → g.Dooms id)
      ∧ ¬ s.stop.Passed r.order id ∧ (id ∈ s.started ∨ s.stop.Holds id)) :
    Inv r (s.advance id rest phase) ∧ StartOk r (s.advance id rest phase) := by
  have hstart : ∀ after : Lifecycle, after.registry = s.registry →
      (∃ next, after.start = .awaiting id next rest) → StartOk r after := by
    rintro after hregistry ⟨next, hnext⟩ other hother
    unfold isStarting at hother
    rw [hnext] at hother
    obtain rfl : id = other := of_decide_eq_true hother
    refine ⟨hlive, ?_⟩
    unfold Lifecycle.status
    rw [hregistry]
    exact hidle
  cases phase with
  | processes => exact ⟨(h.addStarted hlive).congr rfl rfl rfl rfl, hstart _ rfl ⟨_, rfl⟩⟩
  | tools =>
    obtain ⟨hpassed, hstop, hlisted⟩ := htimely rfl
    exact nextStart_inv (h.promote hlive hdependencies hpassed hstop hlisted) rest
  | _ => exact ⟨h.congr rfl rfl rfl rfl, hstart _ rfl ⟨_, rfl⟩⟩

lemma ensureAllowed_cases (s : Lifecycle) (id : String) :
    (s.ensureAllowed id = (s, true) ∧ s.status id ≠ some .blocked
        ∧ s.registry.dependencyError id .running = none)
      ∨ s.ensureAllowed id = (s, false)
      ∨ ∃ error, s.ensureAllowed id = (s.setState id .blocked error, false) := by
  unfold ensureAllowed
  split
  · exact .inr (.inl rfl)
  next hblocked =>
  cases hdependency : s.registry.dependencyError id .running with
  | none => exact .inl ⟨rfl, hblocked, rfl⟩
  | some error => exact .inr (.inr ⟨error, rfl⟩)

lemma Inv.step (hplan : Planned r) (h : Inv r s) (hok : StartOk r s) {e : Event}
    (htimely : Timely s e) (hstep : s.step strict e = some s') : Inv r s' ∧ StartOk r s' := by
  cases e with
  | start =>
    unfold Lifecycle.step at hstep
    simp only at hstep
    split at hstep
    · obtain rfl := some.inj hstep
      have hbegun : Inv r { s with runtime := true, stopping := false } := h.congr rfl rfl rfl rfl
      exact nextStart_inv hbegun _
    cases hstep
  | resumeStart outcome =>
    unfold Lifecycle.step at hstep
    simp only at hstep
    split at hstep
    · next id phase rest hstart =>
      have hstarting : s.isStarting id = true := by
        unfold isStarting
        rw [hstart]
        exact decide_eq_true rfl
      obtain ⟨hlive, hidle⟩ := hok id hstarting
      split at hstep
      · next exc =>
        obtain rfl := some.inj hstep
        exact giveUp_inv h hlive hidle (some exc) rest
      next done =>
      obtain rfl := some.inj hstep
      rcases ensureAllowed_cases s id with ⟨hallowed, hblocked, hnone⟩ | hallowed | ⟨error, hallowed⟩
      · rw [hallowed, if_pos rfl]
        refine advance_inv h hlive hidle ?_ ?_
        · intro d hd
          rw [← h.dependencies] at hd
          exact Registry.dependencyError_eq_none.1 hnone d hd
        rintro rfl
        obtain ⟨hpassed, hstop, hlisted⟩ := htimely id rest hstart rfl hblocked hnone
        refine ⟨fun g hg hgone => hpassed g hg ?_, h.order ▸ hstop, hlisted⟩
        cases g with
        | blocking =>
          refine ⟨?_, hgone.2⟩
          rw [h.affected]
          exact hgone.1
        | degrading owner =>
          show id ∈ Extensions.affected s.registry owner
          rw [h.affected]
          exact hgone
        | _ => exact hgone
      · rw [hallowed]
        exact giveUp_inv h hlive hidle none rest
      rw [hallowed]
      refine giveUp_inv (h.setIdle error (by decide) (fun _ => hlive) hidle) hlive ?_
        none rest
      rw [status_set, if_pos rfl]
      intro heq
      cases heq
    cases hstep
  | cleaned cleanupError =>
    unfold Lifecycle.step at hstep
    simp only at hstep
    split at hstep
    · next id exc rest hstart =>
      have hstarting : s.isStarting id = true := by
        unfold isStarting
        rw [hstart]
        exact decide_eq_true rfl
      obtain ⟨-, hidle⟩ := hok id hstarting
      have hset : Inv r (s.setState id .degraded (exc ++ cleanupError)) :=
        h.setIdle _ (by decide) (fun hactive => absurd hactive (by decide)) hidle
      obtain rfl := some.inj hstep
      split
      · exact ⟨hset.congr rfl rfl rfl rfl, by
          intro _ hother
          cases hother⟩
      exact nextStart_inv hset rest
    · next id rest hstart =>
      have hstarting : s.isStarting id = true := by
        unfold isStarting
        rw [hstart]
        exact decide_eq_true rfl
      obtain ⟨hlive, hidle⟩ := hok id hstarting
      obtain rfl := some.inj hstep
      split
      · exact nextStart_inv h rest
      exact nextStart_inv (h.setIdle _ (by decide) (fun _ => hlive) hidle) rest
    cases hstep
  | exit owner error =>
    unfold Lifecycle.step at hstep
    simp only at hstep
    obtain rfl := some.inj hstep
    have hpush := h.push owner error s.attempt
    have hstart : StartOk r { s with handlers := s.handlers ++ [.waiting owner error s.attempt] } :=
      hok.mono rfl (fun _ hx => hx)
    split
    · exact ⟨hpush, hstart⟩
    have hi : (s.handlers ++ [Handler.waiting owner error s.attempt])[s.handlers.length]?
        = some (.waiting owner error s.attempt) := by
      rw [getElem?_append_right (Nat.le_refl _), Nat.sub_self]
      rfl
    exact ⟨wake_inv hpush hi, hstart.mono (wake_start _ _ _ _).1 (wake_start _ _ _ _).2⟩
  | resumeHandler i cleanupError =>
    unfold Lifecycle.step at hstep
    simp only at hstep
    split at hstep
    · next owner error attempt hi =>
      split at hstep
      · cases hstep
      obtain rfl := some.inj hstep
      exact ⟨wake_inv h hi, hok.mono (wake_start _ _ _ _).1 (wake_start _ _ _ _).2⟩
    · next owner error d rest hi =>
      obtain rfl := some.inj hstep
      obtain ⟨hdlive, hdaffected, pre, hsplit⟩ :=
        h.blocking owner error d rest (mem_of_getElem? hi)
      have hset : Inv r (s.setState d .blocked ("依赖扩展 " ++ owner ++ " 运行时失败" ++ cleanupError)) := by
        refine h.setState _ (by decide) (fun _ => hdlive) ?_
        intro _ y hy _ hdepends
        have hbefore := (hplan.placed y (h.running hy)).2 d hdepends hdlive
        refine h.passed _ (mem_of_getElem? hi) y ⟨?_, notMem_rest hplan hsplit hbefore⟩ hy
        exact mem_affected hplan.nodup hdaffected hdepends hbefore
      obtain ⟨hstart, hregistry⟩ := cascade_start rest (s.setState d .blocked
        ("依赖扩展 " ++ owner ++ " 运行时失败" ++ cleanupError)) owner error
      refine ⟨cascade_inv hset hi ⟨pre ++ [d], by rw [hsplit, append_assoc]; rfl⟩ ?_ ?_,
        hok.mono hstart (fun x hx => ?_)⟩
      · rintro x hx (howner | hxd)
        · exact howner
        exact absurd hxd (running_of_set (by decide) hx).1
      · intro x hmem hout hx
        exact .inr (hset.passed _ (mem_of_getElem? hi) x ⟨hmem, hout⟩ hx)
      unfold Lifecycle.status setHandler at hx
      simp only [hregistry] at hx
      exact (running_of_set (by decide) hx).2
    · next owner error hi =>
      obtain rfl := some.inj hstep
      have hset : Inv r (s.setState owner .degraded
          ("Plugin 托管进程异常退出: " ++ error ++ cleanupError)) := by
        refine h.setState _ (by decide) (fun hactive => absurd hactive (by decide)) ?_
        intro hrunning y hy _ hdepends
        have hbefore := (hplan.placed y (h.running hy)).2 owner hdepends (h.running hrunning)
        exact h.passed _ (mem_of_getElem? hi) y
          (mem_affected hplan.nodup owner_mem_affected hdepends hbefore) hy
      have hdone := done_inv hset hi (fun x hx hdoom =>
        (running_of_set (by decide) hx).1 hdoom)
      exact ⟨hdone.congr rfl rfl rfl rfl,
        hok.mono rfl (fun x hx => (running_of_set (by decide) hx).2)⟩
    cases hstep
  | stop =>
    unfold Lifecycle.step at hstep
    simp only at hstep
    split at hstep
    · next hidle =>
      obtain rfl := some.inj hstep
      have hbegun : Inv r { s with stopping := true } := h.congr rfl rfl rfl rfl
      have hreverse : s.registry.order.reverse = r.order.reverse := by rw [h.order]
      refine ⟨nextStop_inv hbegun hidle ⟨[], hreverse.symm⟩ ?_, hok.mono
        (nextStop_start _ { s with stopping := true }).1
        (nextStop_start _ { s with stopping := true }).2⟩
      intro x hmem hout
      exact absurd (hreverse ▸ mem_reverse.2 hmem) hout
    cases hstep
  | resumeStop outcome =>
    unfold Lifecycle.step at hstep
    simp only at hstep
    split at hstep
    · next id rest hstop =>
      obtain ⟨hlive, pre, hsplit⟩ := h.stopping id rest hstop
      have hdown : s.status id = some .running → ∀ y, s.status y = some .running → y ≠ id →
          id ∈ r.dependencies y → Doomed s y := by
        intro hrunning y hy hne hdepends
        obtain ⟨hyorder, hplaced⟩ := hplan.placed y (h.running hy)
        have hout := notMem_rest hplan hsplit (hplaced id hdepends hlive)
        exact h.stopped y (hstop ▸ ⟨hyorder, hout, hne⟩) hy
      have hgoes : ∀ (status : Status) (error : String), status ≠ .running →
          Inv r (({ s.setState id status error with stop := .idle } : Lifecycle).nextStop rest)
            ∧ StartOk r (({ s.setState id status error with stop := .idle } : Lifecycle).nextStop rest) := by
        intro status error hne
        have hset := h.setState error hne (fun _ => hlive) hdown
        have hidle : Inv r { s.setState id status error with stop := .idle } := by
          refine ⟨hset.order, hset.manifests, hset.live, hset.started, (by intro _ _ heq; cases heq),
            hset.blocking, hset.safe, hset.passed, fun _ hgone => absurd hgone (fun hfalse => hfalse),
            fun x hx => ?_⟩
          rcases hset.listed x hx with hmem | hdoomed | hholds
          · exact .inl hmem
          · exact .inr (.inl hdoomed)
          have hholds' : s.stop.Holds x := hholds
          rw [hstop] at hholds'
          exact absurd hholds' (running_of_set hne hx).1
        refine ⟨nextStop_inv hidle rfl ⟨pre ++ [id], by rw [hsplit, append_assoc]; rfl⟩ ?_,
          hok.mono (nextStop_start _ _).1 (fun x hx => ?_)⟩
        · intro x hmem hout hx
          obtain ⟨hne', hrunning⟩ := running_of_set hne hx
          exact h.stopped x (hstop ▸ ⟨hmem, hout, hne'⟩) hrunning
        have hset' : (s.setState id status error).status x = some .running :=
          (nextStop_start rest { s.setState id status error with stop := .idle }).2 x hx
        exact (running_of_set hne hset').2
      split at hstep
      · obtain rfl := some.inj hstep
        exact hgoes .loaded "" (by decide)
      obtain rfl := some.inj hstep
      exact hgoes .degraded _ (by decide)
    cases hstep

end

/-! ## The calls of `extension.start` -/

section
variable {s s' : Lifecycle} {strict : Bool}

lemma nextStart_calls (ids : List String) (s : Lifecycle) :
    (s.nextStart ids).startCalls = s.startCalls := by
  induction ids generalizing s with
  | nil => rfl
  | cons id rest ih =>
    unfold nextStart
    split
    · exact ih s
    split
    · exact ih _
    rfl

lemma nextStop_calls (ids : List String) (s : Lifecycle) :
    (s.nextStop ids).startCalls = s.startCalls := by
  induction ids generalizing s with
  | nil => rfl
  | cons id rest ih =>
    unfold nextStop
    split
    · rfl
    split
    · exact ih _
    exact ih s

lemma cascade_calls (ids : List String) (s : Lifecycle) (owner error : String) :
    (s.cascade owner error ids).1.startCalls = s.startCalls := by
  rcases @cascade_spec s owner error ids with ⟨_, _, _, -, -, -, hrun⟩ | ⟨-, hrun⟩
  all_goals
    rw [hrun]
    rfl

lemma wake_calls (s : Lifecycle) (i : Nat) (owner error : String) :
    (s.wake i owner error).startCalls = s.startCalls := by
  unfold Lifecycle.wake
  split
  · rfl
  show (Lifecycle.cascade owner error _ _).1.startCalls = s.startCalls
  rw [cascade_calls]

/-- `extension.start` is called for an extension whose dependencies run. -/
def CallLawful (s s' : Lifecycle) : Prop :=
  s'.startCalls = s.startCalls
    ∨ ∃ id, s'.startCalls = s.startCalls ++ [id]
      ∧ ∀ d ∈ s'.registry.dependencies id, s'.status d = some .running

/-- **`extension.start` is called on running dependencies only**, in every step of
every task. -/
theorem start_called_on_running {e : Event} (hstep : s.step strict e = some s') :
    CallLawful s s' := by
  cases e with
  | resumeStart outcome =>
    unfold Lifecycle.step at hstep
    simp only at hstep
    split at hstep
    · next id phase rest hstart =>
      split at hstep
      · obtain rfl := some.inj hstep
        exact .inl rfl
      next done =>
      obtain rfl := some.inj hstep
      rcases ensureAllowed_cases s id with ⟨hallowed, -, hnone⟩ | hallowed | ⟨error, hallowed⟩
      · rw [hallowed, if_pos rfl]
        cases phase with
        | processes => exact .inr ⟨id, rfl, Registry.dependencyError_eq_none.1 hnone⟩
        | tools => exact .inl (nextStart_calls rest _)
        | lifecycle | extension | health => exact .inl rfl
      all_goals
        rw [hallowed]
        exact .inl rfl
    cases hstep
  | start =>
    unfold Lifecycle.step at hstep
    simp only at hstep
    split at hstep
    · obtain rfl := some.inj hstep
      exact .inl (nextStart_calls _ _)
    cases hstep
  | cleaned =>
    unfold Lifecycle.step at hstep
    simp only at hstep
    split at hstep
    · obtain rfl := some.inj hstep
      split
      · exact .inl rfl
      exact .inl (nextStart_calls _ _)
    · obtain rfl := some.inj hstep
      split
      all_goals exact .inl (nextStart_calls _ _)
    cases hstep
  | exit =>
    obtain rfl := some.inj hstep
    split
    · exact .inl rfl
    exact .inl (wake_calls _ _ _ _)
  | resumeHandler =>
    unfold Lifecycle.step at hstep
    simp only at hstep
    split at hstep
    · split at hstep
      · cases hstep
      obtain rfl := some.inj hstep
      exact .inl (wake_calls _ _ _ _)
    · obtain rfl := some.inj hstep
      exact .inl (cascade_calls _ _ _ _)
    · obtain rfl := some.inj hstep
      exact .inl rfl
    cases hstep
  | stop =>
    unfold Lifecycle.step at hstep
    simp only at hstep
    split at hstep
    · obtain rfl := some.inj hstep
      exact .inl (nextStop_calls _ _)
    cases hstep
  | resumeStop outcome =>
    unfold Lifecycle.step at hstep
    simp only at hstep
    split at hstep
    · obtain rfl := some.inj hstep
      cases outcome with
      | _ => exact .inl (nextStop_calls _ _)
    cases hstep

end

/-! ## Runs -/

section
variable {strict : Bool} {load : String → Except String (Option ExtensionManifest)}
  {register : String → Except String Unit} {start : Registry}

def Lifecycle.init (r : Registry) (extensions : List String) : Lifecycle :=
  { registry := r, extensions := extensions }

/-- **A run** in which nothing becomes running behind a cascade or a stop. -/
inductive Reached (strict : Bool) (first : Lifecycle) : Lifecycle → Prop where
  | start : Reached strict first first
  | step {s s' : Lifecycle} {e : Event} : Reached strict first s → Timely s e →
      s.step strict e = some s' → Reached strict first s'

def Handler.active : Handler → Bool
  | .blocking _ _ _ _ | .degrading _ _ => true
  | _ => false

def Supported (s : Lifecycle) : Prop :=
  ∀ x, s.status x = some .running → ∀ d ∈ s.registry.dependencies x, s.status d = some .running

variable {s : Lifecycle} {r : Registry}

lemma Doomed.active {x : String} (h : Doomed s x) : ∃ g ∈ s.handlers, g.active = true := by
  obtain ⟨g, hg, hdooms⟩ := h
  refine ⟨g, hg, ?_⟩
  cases g with
  | blocking | degrading => rfl
  | waiting | done => exact absurd hdooms id

lemma init_inv {r' : Registry} (h : Good load start [] r) {failures : List (String × String)}
    (hload : loadAndRegister strict register (configure failures r) = .ok r')
    (extensions : List String) :
    Planned r' ∧ Inv r' (.init r' extensions) ∧ StartOk r' (.init r' extensions) := by
  obtain ⟨horder, hplaced, hidle⟩ := loaded_placed h hload
  refine ⟨⟨horder ▸ h.nodup, hplaced⟩, ?_, nofun⟩
  have hrunning : ∀ x, (Lifecycle.init r' extensions).status x ≠ some .running :=
    fun x hx => (hidle x).2 hx
  constructor
  · rfl
  · rfl
  · intro x status hx hactive
    cases status with
    | loaded => exact .inl hx
    | blocked => exact .inr hx
    | starting => exact absurd hx (hidle x).1
    | running => exact absurd hx (hidle x).2
    | disabled | discovered | degraded | missing => cases hactive
  · exact nofun
  · exact nofun
  · exact nofun
  · exact fun x hx => absurd hx (hrunning x)
  · exact nofun
  · exact fun x hpassed => absurd hpassed id
  exact fun x hx => absurd hx (hrunning x)

lemma Reached.inv (hplan : Planned r) {first : Lifecycle} (hfirst : Inv r first)
    (hok : StartOk r first) (h : Reached strict first s) : Inv r s ∧ StartOk r s := by
  induction h with
  | start => exact ⟨hfirst, hok⟩
  | step _ htimely hstep ih => exact ih.1.step hplan ih.2 htimely hstep

lemma Inv.supported (h : Inv r s) (hquiet : ∀ g ∈ s.handlers, g.active = false) :
    Supported s := by
  intro x hx d hd
  rw [h.dependencies] at hd
  refine (h.safe x hx d hd).resolve_right (fun hdoomed => ?_)
  obtain ⟨g, hg, hactive⟩ := hdoomed.active
  rw [hquiet g hg] at hactive
  cases hactive

/-- **The host** resolves every dependency graph, in an order without repetitions
that puts what loads, and is no part of a cycle, after its dependencies; it calls
`extension.start` on running dependencies; and in every run in which nothing becomes
running behind a cascade or a stop, what is running is supported whenever no exit is
being handled. -/
theorem host_lawful (strict : Bool) (load : String → Except String (Option ExtensionManifest))
    (register : String → Except String Unit) (requested : List String)
    (failures : List (String × String)) (extensions : List String)
    (hfresh : start.visited = [] ∧ start.order = [])
    (hidle : ∀ x status, start.status x = some status → status.idle = true) :
    resolve strict load requested start ≠ .error .fuel
      ∧ (∀ s s' e, Lifecycle.step strict s e = some s' → CallLawful s s')
      ∧ ∀ r, resolve strict load requested start = .ok r →
        r.order.Nodup
        ∧ (∀ x ∈ r.order, Regular load start x → ¬ Relation.TransGen (DependsOn load start) x x →
          ∀ d, DependsOn load start x d → Before r.order d x ∨ start.manifests.get? d = none)
        ∧ ∀ r', loadAndRegister strict register (configure failures r) = .ok r' →
          ∀ s, Reached strict (.init r' extensions) s →
            (∀ g ∈ s.handlers, g.active = false) → Supported s := by
  obtain ⟨hends, hgood⟩ := resolve_good hfresh hidle
  refine ⟨hends, fun _ _ _ hstep => start_called_on_running hstep, fun r hresolve => ?_⟩
  have hr := hgood r hresolve
  refine ⟨hr.order.1, hr.order.2, fun r' hload s hreached hquiet => ?_⟩
  obtain ⟨hplan, hinv, hok⟩ := init_inv hr hload extensions
  exact (hreached.inv hplan hinv hok).1.supported hquiet

/-! Three extensions, of which one depends on another. -/

/-- `a`, `c`, and `b` that depends on `a`. -/
def trio : Registry where
  manifests := [("a", {}), ("c", {}), ("b", { dependencies := ["a"] })]
  states := [("a", ⟨.disabled, ""⟩), ("c", ⟨.disabled, ""⟩), ("b", ⟨.disabled, ""⟩)]

def Lifecycle.run (strict : Bool) (s : Lifecycle) (events : List Event) : Option Lifecycle :=
  events.foldlM (Lifecycle.step strict) s

def fullStart : List Event := List.replicate 5 (.resumeStart (.ok ()))

/-- The process of `a` exits while `c` starts; `a` is still being cleaned up when `b`
has started. -/
def lateStart : List Event :=
  [.start] ++ fullStart ++ [.exit "a" "crashed"] ++ fullStart ++ fullStart
    ++ [.resumeHandler 0 ""]

lemma trio_idle (x : String) (status : Status) (h : trio.status x = some status) :
    status.idle = true := by
  have hall : ∀ entry ∈ trio.states, entry.2.status.idle = true := by decide
  obtain ⟨state, hstate, rfl⟩ := map_eq_some_iff.1 h
  exact hall (x, state) (Dict.mem_of_get? hstate)

def Lifecycle.calm (s : Lifecycle) : Bool :=
  s.handlers.isEmpty && decide (s.stop = .idle) &&
    match s.start with
    | .awaiting id .tools _ => decide (id ∈ s.started)
    | _ => true

lemma Reached.calm {first s s' : Lifecycle} (h : Reached strict first s) {events : List Event}
    (hrun : events.foldlM (fun s e => if s.calm then Lifecycle.step strict s e else none) s
      = some s') : Reached strict first s' := by
  induction events generalizing s with
  | nil =>
    obtain rfl := some.inj hrun
    exact h
  | cons e rest ih =>
    rw [foldlM_cons] at hrun
    obtain ⟨_, hnext, hrest⟩ := bind_eq_some_iff.1 hrun
    by_cases hcalm : s.calm = true
    · rw [if_pos hcalm] at hnext
      refine ih (h.step (fun _ _ hstart _ _ _ => ?_) hnext) hrest
      unfold Lifecycle.calm at hcalm
      rw [hstart] at hcalm
      simp only [Bool.and_eq_true, List.isEmpty_iff, decide_eq_true_eq] at hcalm
      obtain ⟨⟨hhandlers, hstop⟩, hlisted⟩ := hcalm
      rw [hhandlers, hstop]
      exact ⟨nofun, fun hfalse => hfalse, .inl hlisted⟩
    rw [if_neg hcalm] at hnext
    cases hnext

theorem host_lawful_trio : ∃ r r' s, resolve false (fun _ => .ok none) ["a", "c", "b"] trio = .ok r
      ∧ loadAndRegister false (fun _ => .ok ()) (configure [] r) = .ok r'
      ∧ Lifecycle.run false (.init r' ["a", "c", "b"])
          ([.start] ++ fullStart ++ fullStart ++ fullStart) = some s
      ∧ s.status "b" = some .running ∧ s.startCalls = ["a", "c", "b"] ∧ Supported s := by
  refine ⟨_, _, _, rfl, rfl, rfl, by decide, by decide, ?_⟩
  refine ((host_lawful false (fun _ => .ok none) (fun _ => .ok ()) ["a", "c", "b"] []
    ["a", "c", "b"] ⟨rfl, rfl⟩ trio_idle).2.2 _ rfl).2.2 _ rfl _ ?_ (by decide)
  exact @Reached.calm false _ _ _ .start ([.start] ++ fullStart ++ fullStart ++ fullStart) rfl

/-- **An extension that becomes running behind a cascade**: the handler of `a` finds
no running dependent, `b` is started on `a`, and stays running when `a` is degraded. -/
theorem late_start_survives :
    ∃ r r' s, resolve false (fun _ => .ok none) ["a", "c", "b"] trio = .ok r
      ∧ loadAndRegister false (fun _ => .ok ()) (configure [] r) = .ok r'
      ∧ Lifecycle.run false (.init r' ["a", "c", "b"]) lateStart = some s
      ∧ (∀ g ∈ s.handlers, g.active = false) ∧ "a" ∈ s.registry.dependencies "b"
      ∧ s.status "b" = some .running ∧ s.status "a" = some .degraded := by
  refine ⟨_, _, _, rfl, rfl, rfl, ?_⟩
  decide

end
end DeterminFlow.Plugins.Extensions
